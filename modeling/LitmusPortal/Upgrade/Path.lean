import LitmusPortal.Upgrade.Manager

/-!
# The upgrade path

Every version but the empty one has a rank above that of the version after it, so that a walk comes to
an end, and comes past a version at most once.
-/

namespace LitmusPortal.Upgrade

/-! ### The entries -/

/-- A version the map does not have is one before the empty version. -/
theorem executor_cases (version : String) :
    (version, executor version) ∈ getUpgradePath ∨
      (getUpgradePath.lookup version = none ∧ executor version = ⟨"", none⟩) := by
  cases hlookup : getUpgradePath.lookup version with
  | none => exact .inr ⟨rfl, by rw [executor, hlookup]; rfl⟩
  | some found =>
      left
      obtain ⟨before, after, hpath, -⟩ := List.lookup_eq_some_iff.mp hlookup
      rw [executor, hlookup, hpath]
      exact List.mem_append_right _ List.mem_cons_self

theorem executor_of_forall {P : String → UpgradeExecutor → Prop} (hpath : ∀ entry ∈ getUpgradePath, P entry.1 entry.2)
    (hzero : ∀ version, P version ⟨"", none⟩) (version : String) : P version (executor version) := by
  rcases executor_cases version with hmem | ⟨-, hzeroValue⟩
  · exact hpath _ hmem
  · rw [hzeroValue]
    exact hzero version

theorem nextVersion_ne_first (version : String) : nextVersion version ≠ "2.3.0" :=
  @executor_of_forall (fun _ executor => executor.nextVersion ≠ "2.3.0") (by decide) (fun _ => by decide) version

theorem eq_first_of_manager {version : String} (h : (executor version).versionManager = some .v2_4_0) :
    version = "2.3.0" :=
  @executor_of_forall (fun version executor => executor.versionManager = some .v2_4_0 → version = "2.3.0")
    (by decide) (fun _ => nofun) version h

/-! ### The rank -/

/-- How many entries the map has from the version on. -/
def entriesFrom (version : String) : List (String × UpgradeExecutor) → ℕ
  | [] => 0
  | entry :: entries => if entry.1 = version then entries.length + 1 else entriesFrom version entries

def rank (version : String) : ℕ := if version = "" then 0 else entriesFrom version getUpgradePath + 1

theorem entriesFrom_le (version : String) (entries : List (String × UpgradeExecutor)) :
    entriesFrom version entries ≤ entries.length := by
  induction entries with
  | nil => exact le_refl 0
  | cons entry entries ih =>
      rw [entriesFrom]
      split_ifs
      · exact le_refl _
      · exact ih.trans (Nat.le_succ _)

theorem rank_le (version : String) : rank version ≤ getUpgradePath.length + 1 := by
  unfold rank
  split_ifs
  · exact Nat.zero_le _
  · exact Nat.succ_le_succ (entriesFrom_le version getUpgradePath)

theorem rank_nextVersion_lt {version : String} (h : version ≠ "") : rank (nextVersion version) < rank version := by
  have hentries : ∀ entry ∈ getUpgradePath, rank entry.2.nextVersion < rank entry.1 := by decide
  rcases executor_cases version with hmem | ⟨-, hzero⟩
  · exact hentries _ hmem
  · rw [nextVersion, hzero, rank, rank, if_pos rfl, if_neg h]
    exact Nat.succ_pos _

/-! ### From one version to another -/

/-- The versions from one on up to the target, which is not among them. -/
inductive Leads (target : String) : String → List String → Prop where
  | here : Leads target target []
  | next {version : String} {versions : List String} (hne : version ≠ target) (hempty : version ≠ "")
      (h : Leads target (nextVersion version) versions) : Leads target version (version :: versions)

namespace Leads

variable {target version : String} {versions versions' : List String}

theorem unique (h : Leads target version versions) (h' : Leads target version versions') : versions = versions' := by
  induction h generalizing versions' with
  | here =>
      cases h' with
      | here => rfl
      | next hne => exact absurd rfl hne
  | next hne hempty h ih =>
      cases h' with
      | here => exact absurd rfl hne
      | next hne' hempty' h' => rw [ih h']

theorem length_add_rank_le (h : Leads target version versions) : versions.length + rank target ≤ rank version := by
  induction h with
  | here => simp
  | @next version versions hne hempty h ih =>
      have hlt := rank_nextVersion_lt hempty
      rw [List.length_cons]
      omega

theorem length_le (h : Leads target version versions) : versions.length ≤ getUpgradePath.length + 1 := by
  have hle := h.length_add_rank_le
  have hrank := rank_le version
  omega

/-- The rank falls along the way, so no version comes twice. -/
theorem nodup (h : Leads target version versions) : versions.Nodup := by
  have hbelow : ∀ {version versions}, Leads target version versions → ∀ v ∈ versions, rank v ≤ rank version := by
    intro version versions h
    induction h with
    | here => exact fun v hv => absurd hv List.not_mem_nil
    | @next version versions hne hempty h ih =>
        intro v hv
        rcases List.mem_cons.mp hv with rfl | hv
        · exact le_refl _
        · exact (ih v hv).trans (rank_nextVersion_lt hempty).le
  induction h with
  | here => exact List.nodup_nil
  | @next version versions hne hempty h ih =>
      refine List.nodup_cons.mpr ⟨fun hmem => ?_, ih⟩
      exact absurd (rank_nextVersion_lt hempty) (not_lt.mpr (hbelow h version hmem))

end Leads

/-! ### What the verification finds -/

section Verification

variable {target version : String} {fuel : ℕ}

theorem nextVersion_empty : nextVersion "" = "" := by decide

theorem leads_next_iff (h : nextVersion version ≠ target) :
    (∃ versions, Leads target (nextVersion version) versions) ↔
      nextVersion version ≠ "" ∧ ∃ versions, Leads target (nextVersion (nextVersion version)) versions := by
  constructor
  · rintro ⟨versions, hleads⟩
    generalize nextVersion version = next at h hleads ⊢
    cases hleads with
    | here => exact absurd rfl h
    | next hne hempty hleads => exact ⟨hempty, _, hleads⟩
  · rintro ⟨hempty, versions, hleads⟩
    exact ⟨_, .next h hempty hleads⟩

/-- The loop ends, and tells whether the target comes after the version. -/
theorem comesTo_eq (hfuel : rank version < fuel) :
    ∃ found, UpgradeManager.comesTo target fuel version = some found ∧
      (found = true ↔ version ≠ "" ∧ ∃ versions, Leads target (nextVersion version) versions) := by
  induction fuel generalizing version with
  | zero => omega
  | succ fuel ih =>
      rw [UpgradeManager.comesTo]
      split_ifs with hempty hnext
      · exact ⟨false, rfl, iff_of_false Bool.false_ne_true fun h => h.1 hempty⟩
      · exact ⟨true, rfl, iff_of_true rfl ⟨hempty, [], hnext ▸ .here⟩⟩
      · have hlt := rank_nextVersion_lt hempty
        obtain ⟨found, hfound, hiff⟩ := @ih (nextVersion version) (by omega)
        refine ⟨found, hfound, ?_⟩
        rw [hiff, ← leads_next_iff hnext]
        exact (and_iff_right hempty).symm

theorem leads_of_leads_next (hempty : version ≠ "") {versions : List String}
    (h : Leads target (nextVersion version) versions) : Leads target version (version :: versions) := by
  refine .next (fun heq => ?_) hempty h
  have hrank := h.length_add_rank_le
  have hlt := rank_nextVersion_lt hempty
  rw [heq] at hrank hlt
  omega

end Verification

/-- The managers on the way from one version to another, each for the version it upgrades. -/
def managersOf (versions : List String) : List VersionManager :=
  versions.filterMap fun version => (executor version).versionManager

theorem managersOf_of_unknown {target version : String} {versions : List String} (h : Leads target version versions)
    (hunknown : getUpgradePath.lookup version = none) : managersOf versions = [] := by
  have hzero : executor version = ⟨"", none⟩ := by
    rw [executor, hunknown]
    rfl
  cases h with
  | here => rfl
  | @next _ versions hne hempty h =>
      rw [nextVersion, hzero] at h
      cases h with
      | here =>
          rw [managersOf, List.filterMap_cons, hzero]
          rfl
      | next _ hempty' => exact absurd rfl hempty'

section VerifyPath

variable {m : UpgradeManager} {fuel : ℕ}

theorem verifyPath_isSome (hfuel : getUpgradePath.length + 2 ≤ fuel) : (m.verifyPath fuel).isSome := by
  have hrank := rank_le m.previousVersion
  obtain ⟨found, hfound, -⟩ := @comesTo_eq m.targetVersion m.previousVersion fuel (by omega)
  rw [UpgradeManager.verifyPath, hfound]
  split_ifs <;> rfl

theorem leads_of_verifyPath (hfuel : getUpgradePath.length + 2 ≤ fuel) (h : m.verifyPath fuel = some none) :
    ∃ versions, Leads m.targetVersion m.previousVersion versions := by
  have hrank := rank_le m.previousVersion
  obtain ⟨found, hfound, hiff⟩ := @comesTo_eq m.targetVersion m.previousVersion fuel (by omega)
  rw [UpgradeManager.verifyPath, hfound] at h
  cases found with
  | false =>
      exfalso
      revert h
      split_ifs <;> exact nofun
  | true =>
      obtain ⟨hempty, versions, hleads⟩ := hiff.mp rfl
      exact ⟨_, leads_of_leads_next hempty hleads⟩

theorem managersOf_of_verifyPath (hfuel : getUpgradePath.length + 2 ≤ fuel) {err : String}
    (h : m.verifyPath fuel = some (some err)) {versions : List String}
    (hleads : Leads m.targetVersion m.previousVersion versions) : managersOf versions = [] := by
  by_cases hunknown : getUpgradePath.lookup m.previousVersion = none
  · exact managersOf_of_unknown hleads hunknown
  · have hrank := rank_le m.previousVersion
    obtain ⟨found, hfound, hiff⟩ := @comesTo_eq m.targetVersion m.previousVersion fuel (by omega)
    have hknown : (getUpgradePath.lookup m.previousVersion).isSome = true := Option.isSome_iff_ne_none.mpr hunknown
    rw [UpgradeManager.verifyPath, hfound, hknown] at h
    generalize hversions : versions = versions' at hleads ⊢
    generalize hversion : m.previousVersion = version at hleads
    cases hleads with
    | here => rfl
    | next hne hempty hnext =>
        rw [hversion] at hiff
        rw [hiff.mpr ⟨hempty, _, hnext⟩] at h
        cases h

end VerifyPath

end LitmusPortal.Upgrade
