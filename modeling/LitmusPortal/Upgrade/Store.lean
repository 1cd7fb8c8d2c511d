import LitmusPortal.Lib.Documents
import LitmusPortal.Lib.Script
import LitmusPortal.Schema

/-!
# The database under an upgrade

The collections, the index and the version that an upgrade of the control plane works on, and what
each call of the database driver does to them. A call may fail after any part of its work. The
documents are kept apart by their `_id` and are otherwise left open.
-/

namespace LitmusPortal.Upgrade

open DocumentStore

variable {Doc Id : Type} [DecidableEq Id] {key : Doc → Id}

inductive ConfigValue where
  | null
  | text (version : String)
  | other
  deriving DecidableEq, Repr

/-- The index `workflow_name_1`: over every workflow, or over those that are not removed. -/
inductive WorkflowNameIndex where
  | unique
  | uniqueOfLive
  deriving DecidableEq, Repr

/-- A renaming tells whether a collection exists, so those it concerns may be missing. -/
structure Database (key : Doc → Id) where
  litmusProject : Documents key
  litmusUser : Documents key
  authProject : Documents key
  authUsers : Option (Documents key)
  authUsercredentials : Option (Documents key)
  workflowName : Option WorkflowNameIndex
  version : Option ConfigValue

def docsOf (coll : Option (Documents key)) : List Doc := (coll.map Documents.docs).getD []

inductive CollectionName where
  | litmusProject
  | litmusUser
  | authUsers
  deriving DecidableEq, Repr

def Database.drop (db : Database key) : CollectionName → Database key
  | .litmusProject => { db with litmusProject := .empty }
  | .litmusUser => { db with litmusUser := .empty }
  | .authUsers => { db with authUsers := none }

/-- The calls of the driver. -/
inductive Op (Doc : Type) where
  | findVersion
  | findProjects
  | allProjects
  | insertProjects (docs : List Doc)
  | drop (coll : CollectionName)
  | renameUsercredentials
  | dropWorkflowName
  | createWorkflowName
  | updateVersion (version : String)
  deriving DecidableEq

abbrev Op.Reply : Op Doc → Type
  | .findVersion => Except String ConfigValue
  | .allProjects => Except String (List Doc)
  | _ => Option String

/-- An error that comes once the call has carried out so many of its changes. -/
structure Fault where
  carriedOut : ℕ
  message : String
  deriving DecidableEq, Repr

def answer {α : Type} (fault : Option Fault) (found : Option α) (missing : String) : Except String α :=
  match fault, found with
  | some fault, _ => .error fault.message
  | none, none => .error missing
  | none, some a => .ok a

def change (fault : Option Fault) (f : Database key → Database key) (db : Database key) :
    Option String × Database key :=
  match fault with
  | none => (none, f db)
  | some ⟨0, message⟩ => (some message, db)
  | some ⟨_ + 1, message⟩ => (some message, f db)

def refuse (fault : Option Fault) (message : String) (db : Database key) : Option String × Database key :=
  (some ((fault.map Fault.message).getD message), db)

/-- An ordered `InsertMany` goes on up to the first document whose `_id` is taken. -/
def insertMany : Option Fault → List Doc → Documents key → Option String × Documents key
  | fault, [], coll => (fault.map Fault.message, coll)
  | some ⟨0, message⟩, _ :: _, coll => (some message, coll)
  | some ⟨n + 1, message⟩, doc :: docs, coll =>
      if key doc ∈ coll.docs.map key then (some message, coll)
      else insertMany (some ⟨n, message⟩) docs (coll.add doc)
  | none, doc :: docs, coll =>
      if key doc ∈ coll.docs.map key then (some "E11000 duplicate key error collection: auth.project", coll)
      else insertMany none docs (coll.add doc)

def exec : (op : Op Doc) → Option Fault → Database key → op.Reply × Database key
  | .findVersion, fault, db => (answer fault db.version "mongo: no documents in result", db)
  | .findProjects, fault, db => (fault.map Fault.message, db)
  | .allProjects, fault, db => (answer fault (some db.litmusProject.docs) "", db)
  | .insertProjects [], _, db => (some "must provide at least one element in input slice", db)
  | .insertProjects docs, fault, db =>
      let (err, authProject) := insertMany fault docs db.authProject
      (err, { db with authProject := authProject })
  | .drop coll, fault, db => change fault (·.drop coll) db
  | .renameUsercredentials, fault, db =>
      match db.authUsercredentials, db.authUsers with
      | none, _ => refuse fault "Source collection auth.usercredentials does not exist" db
      | some _, some _ => refuse fault "target namespace exists" db
      | some coll, none =>
          change fault (fun db => { db with authUsers := some coll, authUsercredentials := none }) db
  | .dropWorkflowName, fault, db =>
      match db.workflowName with
      | none => refuse fault "index not found with name [workflow_name_1]" db
      | some _ => change fault (fun db => { db with workflowName := none }) db
  | .createWorkflowName, fault, db =>
      match db.workflowName with
      | some .unique => refuse fault "Index with name: workflow_name_1 already exists with different options" db
      | _ => change fault (fun db => { db with workflowName := some .uniqueOfLive }) db
  | .updateVersion version, fault, db =>
      change fault (fun db => { db with version := db.version.map fun _ => .text version }) db

section Calls

variable {fault : Option Fault}

omit [DecidableEq Id] in
theorem change_cases (fault : Option Fault) (f : Database key → Database key) (db : Database key) :
    (change fault f db).2 = db ∧ (change fault f db).1 ≠ none ∨ (change fault f db).2 = f db := by
  rcases fault with _ | ⟨_ | n, message⟩
  · exact .inr rfl
  · exact .inl ⟨rfl, nofun⟩
  · exact .inr rfl

theorem mem_insertMany_of_mem {docs : List Doc} {coll : Documents key} {doc : Doc} (h : doc ∈ coll.docs) :
    doc ∈ (insertMany fault docs coll).2.docs := by
  fun_induction insertMany fault docs coll with
  | case1 fault coll => exact h
  | case2 message doc' docs coll => exact h
  | case3 n message doc' docs coll htaken => exact h
  | case4 n message doc' docs coll hfree ih =>
      apply ih
      rw [Documents.docs_add_of_notMem coll hfree]
      exact List.mem_append_left _ h
  | case5 doc' docs coll htaken => exact h
  | case6 doc' docs coll hfree ih =>
      apply ih
      rw [Documents.docs_add_of_notMem coll hfree]
      exact List.mem_append_left _ h

theorem mem_insertMany_of_nil {docs : List Doc} {coll : Documents key} {doc : Doc}
    (h : (insertMany none docs coll).1 = none) (hdoc : doc ∈ docs) :
    doc ∈ (insertMany none docs coll).2.docs := by
  induction docs generalizing coll with
  | nil => cases hdoc
  | cons doc' docs ih =>
      rw [insertMany] at h ⊢
      split_ifs at h ⊢ with htaken
      rcases List.mem_cons.mp hdoc with rfl | hdoc
      · apply mem_insertMany_of_mem
        rw [Documents.docs_add_of_notMem coll htaken]
        exact List.mem_append_right _ (List.mem_singleton_self _)
      · exact ih h hdoc

end Calls

end LitmusPortal.Upgrade
