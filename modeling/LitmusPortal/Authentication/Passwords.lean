import LitmusPortal.Authentication.Requests

/-!
# The password of an account

A ledger has, for each account, the password that was last set, in the clear. It is kept by the requests, at the
moments their writes are made. What the service stores are hashes, and no more than the hashes is looked at when
somebody logs in; still every answer to a login is the one the ledger gives, at a moment while the login was under
way.
-/

namespace LitmusPortal.Accounts

open DocumentStore Script

variable {config : Config} {store : Store} {user : User} {made : History}

/-! ## The ledger -/

/-- An account without a password is one that no password opens. -/
structure Account where
  id : String
  userName : String
  role : Role
  password : Option String
  active : Bool
  deriving DecidableEq, Repr

def Account.claims (account : Account) : Claims := ⟨account.id, account.role, account.userName⟩

def opened (sameKey : String → String → Bool) (password : Option String) (attempt : String) : Bool :=
  match password with
  | none => false
  | some password => sameKey password attempt

def Account.opens (sameKey : String → String → Bool) (account : Account) (attempt : String) : Bool :=
  opened sameKey account.password attempt

abbrev Ledger := List Account

def Ledger.login (sameKey : String → String → Bool) (ledger : Ledger) (userName password : String) : Answer :=
  match ledger.find? fun account => account.userName = userName with
  | none => .error .userNotFound
  | some account =>
      if account.active = false then .error .userDeactivated
      else if account.opens sameKey password then .token account.claims
      else .error .invalidCredentials

/-- A password whose hash could not be made is lost. -/
def kept (hash password : String) : Option String := if hash = "" then none else some password

def Ledger.register (ledger : Ledger) (account : Account) : Ledger :=
  if ledger.any fun other => other.id = account.id ∨ other.userName = account.userName then ledger
  else ledger ++ [account]

def Ledger.setPassword (ledger : Ledger) (id : String) (password : Option String) : Ledger :=
  ledger.map fun account => if account.id = id then { account with password := password } else account

def Ledger.setActive (ledger : Ledger) (userName : String) (active : Bool) : Ledger :=
  ledger.map fun account =>
    if userName ≠ "" ∧ account.userName = userName then { account with active := active } else account

/-- A write that is not answered has been made all the same. -/
def Ledger.record (ledger : Ledger) (call : Call) : Ledger :=
  if call.fault.fault = .fails then ledger
  else
    match call.op with
    | .insertOne user =>
        ledger.register ⟨user.id, user.userName, user.role, kept user.password call.request.password,
          user.deactivatedAt.isNone⟩
    | .setPassword id hash => ledger.setPassword id (kept hash call.request.password)
    | .setDetails details =>
        if call.request.password = "" then ledger
        else ledger.setPassword details.id (some call.request.password)
    | .setDeactivatedAt userName deactivatedAt => ledger.setActive userName deactivatedAt.isNone
    | _ => ledger

def ledger (made : History) : Ledger := made.foldl Ledger.record []

theorem ledger_concat (made : History) (call : Call) : ledger (made ++ [call]) = (ledger made).record call := by
  rw [ledger, List.foldl_append]
  rfl

/-! ## The hashes agree with the ledger -/

/-- What is known of the hash function: which passwords it does not tell apart, that it does so whatever the salt is,
and that the empty text is no hash. -/
structure Bcrypt.Lawful (bcrypt : Bcrypt) (sameKey : String → String → Bool) : Prop where
  compare_generated : ∀ salt password hash attempt, bcrypt.generateFromPassword salt password = some hash →
    bcrypt.compareHashAndPassword hash attempt = sameKey password attempt
  compare_empty : ∀ attempt, bcrypt.compareHashAndPassword "" attempt = false
  generate_ne : ∀ salt password, bcrypt.generateFromPassword salt password ≠ some ""

structure Agrees (config : Config) (sameKey : String → String → Bool) (user : User) (account : Account) : Prop where
  claims : user.claims = account.claims
  active : user.deactivatedAt.isNone = account.active
  opens : ∀ attempt, config.bcrypt.compareHashAndPassword user.password attempt = account.opens sameKey attempt

theorem Agrees.id {sameKey : String → String → Bool} {account : Account} (h : Agrees config sameKey user account) :
    user.id = account.id := congrArg Claims.uid h.claims

theorem Agrees.userName {sameKey : String → String → Bool} {account : Account}
    (h : Agrees config sameKey user account) : user.userName = account.userName := congrArg Claims.username h.claims

variable {sameKey : String → String → Bool}

def Refines (config : Config) (sameKey : String → String → Bool) (store : Store) (ledger : Ledger) : Prop :=
  List.Forall₂ (Agrees config sameKey) store.users.docs ledger

theorem opens_kept (hlawful : config.bcrypt.Lawful sameKey) {hash password : String}
    (h : hash = "" ∨ Hashes config password hash) (attempt : String) :
    config.bcrypt.compareHashAndPassword hash attempt = opened sameKey (kept hash password) attempt := by
  by_cases hempty : hash = ""
  · rw [kept, if_pos hempty, hempty]
    exact hlawful.compare_empty attempt
  · obtain ⟨salt, hgenerated⟩ := h.resolve_left hempty
    rw [kept, if_neg hempty]
    exact hlawful.compare_generated salt password hash attempt hgenerated

theorem forall₂_any {α β : Type} {R : α → β → Prop} {left : List α} {right : List β} {p : α → Bool} {q : β → Bool}
    (h : List.Forall₂ R left right) (hsame : ∀ a b, R a b → p a = q b) : left.any p = right.any q := by
  induction h with
  | nil => rfl
  | cons hhead _ ih => rw [List.any_cons, List.any_cons, hsame _ _ hhead, ih]

/-- The first of the accounts that is looked for is the first one of the ledger. -/
theorem forall₂_find? {α β : Type} {R : α → β → Prop} {left : List α} {right : List β} {p : α → Bool} {q : β → Bool}
    (h : List.Forall₂ R left right) (hsame : ∀ a b, R a b → p a = q b) :
    Option.Rel R (left.find? p) (right.find? q) := by
  induction h with
  | nil => exact .none
  | @cons a b _ _ hhead _ ih =>
      cases hq : q b with
      | true =>
          rw [List.find?_cons_of_pos ((hsame a b hhead).trans hq), List.find?_cons_of_pos hq]
          exact .some hhead
      | false =>
          rw [List.find?_cons_of_neg (by rw [hsame a b hhead, hq]; exact Bool.false_ne_true),
            List.find?_cons_of_neg (by rw [hq]; exact Bool.false_ne_true)]
          exact ih

theorem clash_iff {other : User} :
    Clash indexes other user ↔ other.id = user.id ∨ other.userName = user.userName := by
  simp [Clash, indexes]

theorem Refines.insert {ledger : Ledger} {account : Account} (h : Refines config sameKey store ledger)
    (hagrees : Agrees config sameKey user account) :
    Refines config sameKey (store.insert user).2 (ledger.register account) := by
  have hany : (store.users.docs.any fun other => other.id = user.id ∨ other.userName = user.userName) =
      ledger.any fun other => other.id = account.id ∨ other.userName = account.userName := by
    refine forall₂_any h fun other entry hother => ?_
    rw [hother.id, hother.userName, hagrees.id, hagrees.userName]
  unfold Refines Ledger.register
  rw [← hany]
  rcases insert_cases store user with ⟨hsame, -, other, hother, hclash⟩ | ⟨-, -, hdocs, hfree⟩
  · rw [if_pos (List.any_eq_true.mpr ⟨other, hother, decide_eq_true (clash_iff.mp hclash)⟩), hsame]
    exact h
  · rw [if_neg, hdocs]
    · exact List.rel_append h (.cons hagrees .nil)
    · intro hclash
      obtain ⟨other, hother, hsame⟩ := List.any_eq_true.mp hclash
      exact hfree other hother (clash_iff.mpr (of_decide_eq_true hsame))

/-- One account with the id or the name is changed, as all that have it are in the ledger. -/
theorem Refines.update {ledger : Ledger} {query : User → Bool} {change : User → User} {entry : Account → Account}
    (h : Refines config sameKey store ledger) (hclaims : ∀ user, (change user).claims = user.claims)
    (honly : store.users.docs.Pairwise fun left right => ¬ (query left = true ∧ query right = true))
    (hentry : ∀ user account, Agrees config sameKey user account →
      Agrees config sameKey (if query user then change user else user) (entry account)) :
    Refines config sameKey (store.update query change) (ledger.map entry) := by
  unfold Refines
  rw [(update_eq hclaims).1, updateFirst_eq_map honly, List.forall₂_map_left_iff, List.forall₂_map_right_iff]
  exact h.imp hentry

theorem pairwise_hasID (store : Store) (id : String) :
    store.users.docs.Pairwise fun left right => ¬ (hasID id left = true ∧ hasID id right = true) :=
  store.users.unique.imp fun hfree hboth => hfree <| clash_iff.mpr <| .inl <|
    (of_decide_eq_true hboth.1 : _ = id).trans (of_decide_eq_true hboth.2 : _ = id).symm

theorem pairwise_named (store : Store) (username : String) :
    store.users.docs.Pairwise fun left right => ¬ (named username left = true ∧ named username right = true) :=
  store.users.unique.imp fun hfree hboth => hfree <| clash_iff.mpr <| .inr <|
    (of_decide_eq_true hboth.1).2.trans (of_decide_eq_true hboth.2).2.symm

theorem Agrees.setPassword {account : Account} (h : Agrees config sameKey user account) (id : String)
    {hash : String} {password : Option String}
    (hopens : ∀ attempt, config.bcrypt.compareHashAndPassword hash attempt = opened sameKey password attempt) :
    Agrees config sameKey (if hasID id user then { user with password := hash } else user)
      (if account.id = id then { account with password := password } else account) := by
  have hsame : hasID id user = decide (account.id = id) := by rw [hasID, h.id]
  by_cases hid : account.id = id
  · rw [if_pos hid, if_pos (hsame.trans (decide_eq_true hid))]
    exact ⟨h.claims, h.active, hopens⟩
  · rw [if_neg hid, if_neg (by rw [hsame, decide_eq_false hid]; exact Bool.false_ne_true)]
    exact h

/-- A write and what the ledger makes of it. -/
theorem Refines.write {ledger ledger' : Ledger} {choice : Choice} {after : Store}
    (h : Refines config sameKey store ledger) (hafter : Refines config sameKey after ledger') :
    Refines config sameKey (write choice store after).2 (if choice.fault = .fails then ledger else ledger') := by
  unfold Accounts.write
  cases hfault : choice.fault with
  | none =>
      rw [if_neg nofun]
      exact hafter
  | fails =>
      rw [if_pos rfl]
      exact h
  | unanswered =>
      rw [if_neg nofun]
      exact hafter

theorem Refines.setPassword {ledger : Ledger} {id hash password : String}
    (h : Refines config sameKey store ledger) (hlawful : config.bcrypt.Lawful sameKey)
    (hhash : hash = "" ∨ Hashes config password hash) :
    Refines config sameKey (store.update (hasID id) fun user => { user with password := hash })
      (ledger.setPassword id (kept hash password)) :=
  h.update (fun _ => rfl) (pairwise_hasID store id) fun _ _ hagrees => hagrees.setPassword id (opens_kept hlawful hhash)

theorem Refines.setDetails {ledger : Ledger} {details : UserDetails} {password : String}
    (h : Refines config sameKey store ledger) (hlawful : config.bcrypt.Lawful sameKey)
    (hrecorded : (password = "" ∧ details.password = "") ∨ (password ≠ "" ∧ Hashes config password details.password)) :
    Refines config sameKey (store.update (hasID details.id) (.setDetails details))
      (if password = "" then ledger else ledger.setPassword details.id (some password)) := by
  rcases hrecorded with ⟨hnone, hdetails⟩ | ⟨hgiven, hhashes⟩
  · rw [if_pos hnone, ← List.map_id ledger]
    refine h.update (fun _ => rfl) (pairwise_hasID store details.id) fun user account hagrees => ?_
    split
    · refine ⟨hagrees.claims, hagrees.active, fun attempt => ?_⟩
      rw [User.setDetails, if_pos hdetails]
      exact hagrees.opens attempt
    · exact hagrees
  · have hne : details.password ≠ "" := by
      obtain ⟨salt, hgenerated⟩ := hhashes
      intro hempty
      rw [hempty] at hgenerated
      exact hlawful.generate_ne salt password hgenerated
    rw [if_neg hgiven]
    refine h.update (fun _ => rfl) (pairwise_hasID store details.id) fun user account hagrees => ?_
    have hopens := opens_kept hlawful (.inr hhashes)
    rw [kept, if_neg hne] at hopens
    have hset := hagrees.setPassword details.id hopens
    cases hquery : hasID details.id user with
    | false =>
        rw [hquery, if_neg Bool.false_ne_true] at hset
        rw [if_neg Bool.false_ne_true]
        exact hset
    | true =>
        rw [hquery, if_pos rfl] at hset
        rw [if_pos rfl]
        refine ⟨hset.claims, hset.active, fun attempt => ?_⟩
        rw [User.setDetails, if_neg hne]
        exact hset.opens attempt

theorem Refines.setActive {ledger : Ledger} {userName : String} {deactivatedAt : Option String}
    (h : Refines config sameKey store ledger) :
    Refines config sameKey
      (store.update (named userName) fun user => { user with deactivatedAt := deactivatedAt })
      (ledger.setActive userName deactivatedAt.isNone) := by
  refine h.update (fun _ => rfl) (pairwise_named store userName) fun user account hagrees => ?_
  have hsame : named userName user = decide (userName ≠ "" ∧ account.userName = userName) := by
    rw [named, hagrees.userName]
  by_cases hname : userName ≠ "" ∧ account.userName = userName
  · rw [if_pos hname, if_pos (hsame.trans (decide_eq_true hname))]
    exact ⟨hagrees.claims, rfl, hagrees.opens⟩
  · rw [if_neg hname, if_neg (by rw [hsame, decide_eq_false hname]; exact Bool.false_ne_true)]
    exact hagrees

/-- One call. -/
theorem Refines.record {ledger : Ledger} {call : Call} (h : Refines config sameKey store ledger)
    (hlawful : config.bcrypt.Lawful sameKey) (hrecorded : Recorded config call) :
    Refines config sameKey (exec config.bcrypt call.op call.fault store).2 (ledger.record call) := by
  obtain ⟨index, request, op, choice⟩ := call
  unfold Ledger.record
  cases op with
  | insertOne user =>
      have hinserted : Refines config sameKey (store.insert user).2
          (ledger.register ⟨user.id, user.userName, user.role, kept user.password request.password,
            user.deactivatedAt.isNone⟩) :=
        h.insert ⟨rfl, rfl, opens_kept hlawful hrecorded⟩
      simp only [exec]
      cases hfault : choice.fault with
      | none => exact hinserted
      | fails => exact h
      | unanswered => exact hinserted
  | setPassword id hash => exact h.write (h.setPassword hlawful hrecorded)
  | setDetails details => exact h.write (h.setDetails hlawful hrecorded)
  | setDeactivatedAt userName deactivatedAt => exact h.write h.setActive
  | signedString claims =>
      rw [ite_self]
      simp only [exec]
      split
      · exact h
      · exact h
  | _ =>
      rw [ite_self]
      exact h

/-- In every history of rightful calls, the hashes are those of the passwords in the ledger. -/
theorem refines_ledger (hlawful : config.bcrypt.Lawful sameKey) (h : Good (Rightful config) made) :
    Refines config sameKey (after config made) (ledger made) := by
  refine h.induction (motive := fun made => Refines config sameKey (after config made) (ledger made)) .nil
    fun made call _ ih hcall => ?_
  have hstore : after config (made ++ [call]) = (exec config.bcrypt call.op call.fault (after config made)).2 :=
    storeAfter_concat
  rw [hstore, ledger_concat]
  exact ih.record hlawful hcall.2

/-! ## Logins -/

theorem checked_find (h : Refines config sameKey store (ledger made)) {choice : Choice} {userName password : String}
    (hname : userName ≠ "") (hfault : choice.fault = .none) :
    checked config password (find store choice (named userName)) = (ledger made).login sameKey userName password := by
  have hfind := forall₂_find? h (p := named userName) (q := fun account => account.userName = userName)
    fun user account hagrees => by simp [named, hname, hagrees.userName]
  unfold find Ledger.login Collection.findOne
  rw [hfault]
  generalize store.users.docs.find? (named userName) = found at hfind ⊢
  generalize (ledger made).find? (fun account => decide (account.userName = userName)) = entry at hfind ⊢
  cases hfind with
  | none => rfl
  | @some user account hagrees =>
      simp only [checked]
      rw [hagrees.opens, hagrees.claims, ← hagrees.active]
      cases user.deactivatedAt with
      | some time => rfl
      | none =>
          cases account.opens sameKey password with
          | false => rfl
          | true => rfl

/-- A login that brings a name and a password gets the answer that the ledger gives at some moment while the login
is under way, unless one of its own calls fails; and also then a token is only given where the ledger gives it. -/
theorem logins_linearizable {turns : List (Turn Request Choice)} {system : System}
    (hlawful : config.bcrypt.Lawful sameKey) (h : Runs config turns system)
    {index : Nat} {body : User} {answer : Answer} (hname : sanitizeString body.userName ≠ "") (hpassword : body.password ≠ "")
    (hflight : system.flights[index]? = some ⟨.loginUser (some body), .done answer⟩) :
    ∃ front call back, system.made = front ++ call :: back ∧ call.index = index ∧
      ((∀ call ∈ system.made, call.index = index → call.fault.fault = .none) →
        answer = (ledger front).login sameKey (sanitizeString body.userName) body.password) ∧
      ∀ claims, answer = .token claims →
        (ledger front).login sameKey (sanitizeString body.userName) body.password = .token claims := by
  have hends : LoginEnds config index (.loginUser (some body)) answer system.made := h.inv.sound index _ hflight
  obtain ⟨front, call, back, hmade, hindex, hanswer⟩ := hends hname hpassword
  have hgood : Good (Rightful config) front := by
    have hall := h.inv.good_made
    rw [hmade] at hall
    exact hall.of_append
  have hrefines := refines_ledger hlawful hgood
  refine ⟨front, call, back, hmade, hindex, fun hanswered => ?_, fun claims htoken => ?_⟩
  · rcases hanswer with hchecked | ⟨-, failed, hfailed, hown, hfault⟩
    · have hfault := hanswered call (by rw [hmade]; exact List.mem_append_right _ List.mem_cons_self) hindex
      rw [hchecked, checked_find hrefines hname hfault]
    · exact absurd (hanswered failed hfailed hown) hfault
  · rcases hanswer with hchecked | ⟨hserver, -⟩
    · rw [htoken] at hchecked
      cases hfault : call.fault.fault with
      | none => rw [← checked_find hrefines hname hfault, ← hchecked]
      | fails =>
          simp [find, hfault, checked] at hchecked
      | unanswered =>
          simp [find, hfault, checked] at hchecked
    · rw [htoken] at hserver
      cases hserver

theorem lawful_marked : marked.Lawful fun password attempt => password = attempt where
  compare_generated := by
    intro salt password hash attempt h
    obtain rfl : "$" ++ password = hash := Option.some.inj h
    simp [marked]
  compare_empty := by
    intro attempt
    simp [marked]
  generate_ne := by
    intro salt password h
    have hchars := congrArg String.toList (Option.some.inj h)
    simp at hchars

theorem logins_linearizable_administrator :
    ∃ system front, Runs sampleConfig sampleFront system ∧ front <+: system.made ∧
      (ledger front).login (fun password attempt => password = attempt) (sanitizeString sampleLogin.userName)
        sampleLogin.password = .token ⟨"1", .admin, "root"⟩ := by
  have hflight : sampleSystem.flights[1]? =
      some ⟨.loginUser (some sampleLogin), .done (.token ⟨"1", .admin, "root"⟩)⟩ := rfl
  have hname : sanitizeString sampleLogin.userName ≠ "" := by decide
  obtain ⟨front, call, back, hmade, -, -, htoken⟩ :=
    logins_linearizable lawful_marked runs_sampleFront hname (by decide) hflight
  exact ⟨sampleSystem, front, runs_sampleFront, ⟨call :: back, hmade.symm⟩, htoken _ rfl⟩

end LitmusPortal.Accounts
