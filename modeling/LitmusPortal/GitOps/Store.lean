import LitmusPortal.Cluster.Verify
import LitmusPortal.GitOps.Config

/-!
# Reading and writing git configurations

The functions of the gitops package of the database layer. `fails` is an error of the driver.
-/

namespace LitmusPortal

open DocumentStore

def ofProject (projectID : String) (config : GitConfigDB) : Bool := config.projectID = projectID

/-- No document is no error. -/
def getGitConfig (fails : Bool) (configs : GitConfigs) (projectID : String) :
    Except GoError (Option GitConfigDB) :=
  if fails then .error databaseError else .ok (configs.findOne (ofProject projectID))

def addGitConfig (fails : Bool) (configs : GitConfigs) (config : GitConfigDB) :
    Except GoError Unit × GitConfigs :=
  if fails then (.error databaseError, configs)
  else
    match configs.insertOne config with
    | .error _ => (.error databaseError, configs)
    | .ok configs' => (.ok (), configs')

def updateGitConfig (fails : Bool) (configs : GitConfigs) (projectID : String)
    (update : GitConfigDB → GitConfigDB) : Except GoError Unit × GitConfigs :=
  if fails then (.error databaseError, configs)
  else
    match configs.updateOne (ofProject projectID) update with
    | .error _ => (.error databaseError, configs)
    | .ok (configs', matched) =>
        if matched = 0 then (.error (.failed "No matching git config found"), configs')
        else (.ok (), configs')

/-- The replacement is an upsert: without a match the document is inserted, and the call still
fails. -/
def replaceGitConfig (fails : Bool) (configs : GitConfigs) (projectID : String)
    (config : GitConfigDB) : Except GoError Unit × GitConfigs :=
  if fails then (.error databaseError, configs)
  else
    match configs.updateOne (ofProject projectID) fun _ => config with
    | .error _ => (.error databaseError, configs)
    | .ok (configs', matched) =>
        if matched = 0 then
          match configs'.insertOne config with
          | .error _ => (.error databaseError, configs')
          | .ok configs'' => (.error (.failed "No matching git config found"), configs'')
        else (.ok (), configs')

def deleteGitConfig (fails : Bool) (configs : GitConfigs) (projectID : String) :
    Except GoError Unit × GitConfigs :=
  if fails then (.error databaseError, configs)
  else (.ok (), configs.deleteOne (ofProject projectID))

/-! ### The stored configuration of a project -/

def storedConfig (configs : GitConfigs) (projectID : String) : Option GitConfigDB :=
  configs.findOne (ofProject projectID)

theorem clash_config_iff {left right : GitConfigDB} :
    Clash gitConfigIndexes left right ↔ left.projectID = right.projectID := by
  simp [Clash, gitConfigIndexes]

theorem addGitConfig_cases (fails : Bool) (configs : GitConfigs) (config : GitConfigDB) :
    ((∃ err, (addGitConfig fails configs config).1 = .error err) ∧
      (addGitConfig fails configs config).2 = configs ∧
      (fails = true ∨ storedConfig configs config.projectID ≠ none)) ∨
    ((addGitConfig fails configs config).1 = .ok () ∧
      storedConfig (addGitConfig fails configs config).2 config.projectID = some config ∧
      fails = false ∧ storedConfig configs config.projectID = none) := by
  have hnone : storedConfig configs config.projectID = none ↔
      ∀ other ∈ configs.docs, ¬ Clash gitConfigIndexes other config := by
    simp [storedConfig, Collection.findOne, ofProject, clash_config_iff]
  unfold addGitConfig
  cases fails with
  | true => exact Or.inl ⟨⟨_, rfl⟩, rfl, Or.inl rfl⟩
  | false =>
      simp only [Bool.false_eq_true, if_false]
      rcases Collection.insertOne_cases configs config with
        ⟨hrefused, other, hother, hclash⟩ | ⟨configs', hinsert, hdocs, hfree⟩
      · rw [hrefused]
        exact Or.inl ⟨⟨_, rfl⟩, rfl, Or.inr fun h => hnone.mp h other hother hclash⟩
      · rw [hinsert]
        refine Or.inr ⟨rfl, ?_, trivial, hnone.mpr hfree⟩
        have hbefore := hnone.mpr hfree
        rw [storedConfig, Collection.findOne] at hbefore
        simp [storedConfig, Collection.findOne, hdocs, List.find?_append, hbefore, ofProject]

theorem replaceGitConfig_cases (fails : Bool) (configs : GitConfigs) {projectID : String}
    {config : GitConfigDB} (hproject : config.projectID = projectID)
    (hstored : storedConfig configs projectID ≠ none) :
    ((∃ err, (replaceGitConfig fails configs projectID config).1 = .error err) ∧
      (replaceGitConfig fails configs projectID config).2 = configs ∧ fails = true) ∨
    ((replaceGitConfig fails configs projectID config).1 = .ok () ∧
      storedConfig (replaceGitConfig fails configs projectID config).2 projectID = some config ∧
      fails = false) := by
  unfold replaceGitConfig
  cases fails with
  | true => exact Or.inl ⟨⟨_, rfl⟩, rfl, rfl⟩
  | false =>
      have hkeeps : ∀ index ∈ gitConfigIndexes, ∀ doc, ofProject projectID doc = true →
          index config = index doc := by
        intro index hindex doc hquery
        obtain rfl := List.mem_singleton.mp hindex
        simpa [hproject, ofProject, eq_comm] using hquery
      obtain ⟨configs', hupdate, hdocs⟩ := Collection.updateOne_of_keeps hkeeps
      obtain ⟨old, hold⟩ := Option.ne_none_iff_exists'.mp hstored
      have hnew : storedConfig configs' projectID =
          (storedConfig configs projectID).map fun _ => config := by
        rw [storedConfig, Collection.findOne, hdocs]
        exact find?_updateFirst fun _ _ => by simp [ofProject, hproject]
      have hany : configs.docs.any (ofProject projectID) =
          (storedConfig configs projectID).isSome := List.isSome_find?.symm
      simp [hupdate, hany, hnew, hold]

theorem deleteGitConfig_cases (fails : Bool) (configs : GitConfigs) (projectID : String) :
    (fails = true ∧ (∃ err, (deleteGitConfig fails configs projectID).1 = .error err) ∧
      (deleteGitConfig fails configs projectID).2 = configs) ∨
    (fails = false ∧ (deleteGitConfig fails configs projectID).1 = .ok () ∧
      storedConfig (deleteGitConfig fails configs projectID).2 projectID = none) := by
  cases fails with
  | true => exact Or.inl ⟨rfl, ⟨_, rfl⟩, rfl⟩
  | false =>
      refine Or.inr ⟨rfl, rfl, find?_eraseP ?_⟩
      exact pairwise_not_query_of_key projectID configs.pairwise_projectID
        fun config hquery => by simpa [ofProject] using hquery

end LitmusPortal
