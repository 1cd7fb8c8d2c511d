import Mathlib.Order.WellFounded

/-!
# Locks taken in the order of a rank

Who holds a lock and who waits for one, at one moment. Where everybody waits only for locks that rank
above those they hold, the holder of a lock of the highest rank taken does not wait in vain.
-/

namespace LockOrder

structure Snapshot (Thread Lock : Type*) where
  holds : Thread → Lock → Prop
  waits : Thread → Lock → Prop

variable {Thread Lock Rank : Type*}

namespace Snapshot

/-- The thread waits for a lock that is taken. -/
def Blocked (now : Snapshot Thread Lock) (thread : Thread) : Prop :=
  ∃ lock, now.waits thread lock ∧ ∃ owner, now.holds owner lock

def Holds (now : Snapshot Thread Lock) (thread : Thread) : Prop :=
  ∃ lock, now.holds thread lock

/-- Each thread waits only for locks that rank above all it holds. -/
def Ordered [LT Rank] (rank : Lock → Rank) (now : Snapshot Thread Lock) : Prop :=
  ∀ thread held wanted, now.holds thread held → now.waits thread wanted → rank held < rank wanted

variable {now : Snapshot Thread Lock}

theorem Ordered.exists_holder_not_blocked [Preorder Rank] [WellFoundedGT Rank] {rank : Lock → Rank}
    (hordered : now.Ordered rank) (hheld : ∃ thread, now.Holds thread) :
    ∃ thread, now.Holds thread ∧ ¬ now.Blocked thread := by
  obtain ⟨thread, lock, hholds⟩ := hheld
  let taken : Set Rank := Set.image rank {lock | ∃ thread, now.holds thread lock}
  have htaken : taken.Nonempty := ⟨rank lock, lock, ⟨thread, hholds⟩, rfl⟩
  obtain ⟨_, ⟨highest, ⟨owner, howner⟩, rfl⟩, hmax⟩ :=
    (@wellFounded_gt Rank _ _).has_min taken htaken
  refine ⟨owner, ⟨highest, howner⟩, ?_⟩
  rintro ⟨wanted, hwaits, other, hother⟩
  have hlt : rank highest < rank wanted := hordered owner highest wanted howner hwaits
  exact hmax (rank wanted) ⟨wanted, ⟨other, hother⟩, rfl⟩ hlt

/-- Nobody is left waiting for ever: while a lock is taken its holders are not all blocked, and
while none is taken nobody is. -/
theorem Ordered.exists_not_blocked [Preorder Rank] [WellFoundedGT Rank] {rank : Lock → Rank}
    (hordered : now.Ordered rank) {thread : Thread} {active : Thread → Prop} (hactive : active thread)
    (hholders : ∀ thread, now.Holds thread → active thread) :
    ∃ thread, active thread ∧ ¬ now.Blocked thread := by
  by_cases hheld : ∃ thread, now.Holds thread
  · obtain ⟨owner, howner, hnot⟩ := hordered.exists_holder_not_blocked hheld
    exact ⟨owner, hholders owner howner, hnot⟩
  · refine ⟨thread, hactive, ?_⟩
    rintro ⟨lock, -, owner, howner⟩
    exact hheld ⟨owner, lock, howner⟩

end Snapshot

end LockOrder
