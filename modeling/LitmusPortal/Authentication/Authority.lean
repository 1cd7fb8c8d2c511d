import LitmusPortal.Authentication.Accounts

/-!
# Who may change an account

The handlers look first and write later, and other requests come in between. What they go by does not change: no
account goes away, and its id, its name and its role stay. So each write is still one that its request may make at
the moment it is made, in every run.
-/

namespace LitmusPortal.Accounts

open DocumentStore Script

variable {config : Config} {store : Store} {user : User} {claims : Claims}

abbrev Call := Made Request Op Choice

abbrev History := List Call

def after (config : Config) (made : History) : Store := storeAfter (exec config.bcrypt) .empty made

/-! ## What a call changes -/

/-- The updates of the accounts, with the filter and the change of each. -/
inductive Updates : Op → (User → Bool) → (User → User) → Prop
  | password (id password : String) :
      Updates (.setPassword id password) (hasID id) fun user => { user with password := password }
  | details (details : UserDetails) : Updates (.setDetails details) (hasID details.id) (.setDetails details)
  | state (username : String) (deactivatedAt : Option String) :
      Updates (.setDeactivatedAt username deactivatedAt) (named username)
        fun user => { user with deactivatedAt := deactivatedAt }

theorem Updates.claims_change {op : Op} {query : User → Bool} {change : User → User} (h : Updates op query change)
    (user : User) : (change user).claims = user.claims := by
  cases h <;> rfl

theorem Updates.createdAt_change {op : Op} {query : User → Bool} {change : User → User} (h : Updates op query change)
    (user : User) : (change user).createdAt = user.createdAt := by
  cases h <;> rfl

theorem write_cases (choice : Choice) (store after : Store) :
    (write choice store after).2 = store ∨ (write choice store after).2 = after := by
  unfold write
  cases choice.fault
  · exact .inr rfl
  · exact .inl rfl
  · exact .inr rfl

theorem insert_cases (store : Store) (user : User) :
    ((store.insert user).2 = store ∧ (store.insert user).1 = .error .duplicateKey ∧
      ∃ other ∈ store.users.docs, Clash indexes other user) ∨
    ((store.insert user).1 = .ok () ∧ (store.insert user).2.tokens = store.tokens ∧
      (store.insert user).2.users.docs = store.users.docs ++ [user] ∧
      ∀ other ∈ store.users.docs, ¬ Clash indexes other user) := by
  unfold Store.insert
  rcases store.users.insertOne_cases user with ⟨hinsert, hclash⟩ | ⟨users, hinsert, hdocs, hfree⟩
  · rw [hinsert]
    exact .inl ⟨rfl, rfl, hclash⟩
  · rw [hinsert]
    exact .inr ⟨rfl, rfl, hdocs, hfree⟩

theorem update_eq {query : User → Bool} {change : User → User}
    (h : ∀ user, (change user).claims = user.claims) :
    (store.update query change).users.docs = updateFirst query change store.users.docs ∧
      (store.update query change).tokens = store.tokens := by
  have hkeeps : ∀ index ∈ indexes, ∀ user : User, query user = true → index (change user) = index user := by
    intro index hindex user _
    have hid : (change user).id = user.id := congrArg Claims.uid (h user)
    have hname : (change user).userName = user.userName := congrArg Claims.username (h user)
    rcases List.mem_cons.mp hindex with rfl | hindex
    · exact congrArg some hid
    · rcases List.mem_singleton.mp hindex with rfl
      exact congrArg some hname
  obtain ⟨users, hupdate, hdocs⟩ := @Collection.updateOne_of_keeps _ _ _ _ store.users _ _ hkeeps
  unfold Store.update
  rw [hupdate]
  exact ⟨hdocs, rfl⟩

/-- A call signs a token, adds an account or changes one, or it leaves everything. -/
theorem exec_cases (bcrypt : Bcrypt) (op : Op) (choice : Choice) (store : Store) :
    (exec bcrypt op choice store).2 = store ∨
    (∃ claims, op = .signedString claims ∧
      (exec bcrypt op choice store).2 = { store with tokens := store.tokens ++ [claims] }) ∨
    (∃ user, op = .insertOne user ∧ (exec bcrypt op choice store).2 = (store.insert user).2) ∨
    ∃ query change, Updates op query change ∧ (exec bcrypt op choice store).2 = store.update query change := by
  cases op with
  | signedString claims =>
      by_cases hfault : choice.fault = .none
      · exact .inr (.inl ⟨claims, rfl, by rw [exec, if_pos hfault]⟩)
      · exact .inl (by rw [exec, if_neg hfault])
  | insertOne user =>
      rw [exec]
      cases choice.fault
      · exact .inr (.inr (.inl ⟨user, rfl, rfl⟩))
      · exact .inl rfl
      · exact .inr (.inr (.inl ⟨user, rfl, rfl⟩))
  | setPassword id password =>
      exact (write_cases choice store _).imp_right fun h => .inr (.inr ⟨_, _, .password id password, h⟩)
  | setDetails details =>
      exact (write_cases choice store _).imp_right fun h => .inr (.inr ⟨_, _, .details details, h⟩)
  | setDeactivatedAt username deactivatedAt =>
      exact (write_cases choice store _).imp_right fun h => .inr (.inr ⟨_, _, .state username deactivatedAt, h⟩)
  | _ => exact .inl rfl

/-! ## What stays -/

structure Persists (store store' : Store) : Prop where
  accounts : ∀ user ∈ store.users.docs, ∃ user' ∈ store'.users.docs,
    user'.claims = user.claims ∧ user'.createdAt = user.createdAt
  tokens : store.tokens ⊆ store'.tokens

theorem Persists.refl (store : Store) : Persists store store :=
  ⟨fun user huser => ⟨user, huser, rfl, rfl⟩, fun _ h => h⟩

theorem Persists.trans {first second third : Store} (h : Persists first second) (h' : Persists second third) :
    Persists first third := by
  refine ⟨fun user huser => ?_, fun _ hclaims => h'.tokens (h.tokens hclaims)⟩
  obtain ⟨user', huser', hclaims, hcreated⟩ := h.accounts user huser
  obtain ⟨user'', huser'', hclaims', hcreated'⟩ := h'.accounts user' huser'
  exact ⟨user'', huser'', hclaims'.trans hclaims, hcreated'.trans hcreated⟩

theorem mem_update {query : User → Bool} {change : User → User}
    (h : ∀ user, (change user).claims = user.claims) (huser : user ∈ store.users.docs) :
    user ∈ (store.update query change).users.docs ∨
      query user = true ∧ change user ∈ (store.update query change).users.docs := by
  rw [(update_eq h).1]
  obtain ⟨i, hi⟩ := List.getElem?_of_mem huser
  have hupdated : (updateFirst query change store.users.docs)[i]? = some user ∨
      store.users.docs.find? query = some user ∧
        (updateFirst query change store.users.docs)[i]? = some (change user) := getElem?_updateFirst hi
  rcases hupdated with hsame | ⟨hfind, hchanged⟩
  · exact .inl (List.mem_of_getElem? hsame)
  · exact .inr ⟨List.find?_some hfind, List.mem_of_getElem? hchanged⟩

theorem persists_exec (bcrypt : Bcrypt) (op : Op) (choice : Choice) (store : Store) :
    Persists store (exec bcrypt op choice store).2 := by
  rcases exec_cases bcrypt op choice store with
    hsame | ⟨claims, -, hsigned⟩ | ⟨user, -, hinserted⟩ | ⟨query, change, hupdates, hupdated⟩
  · rw [hsame]
    exact Persists.refl store
  · rw [hsigned]
    exact ⟨fun user huser => ⟨user, huser, rfl, rfl⟩, List.subset_append_left _ _⟩
  · rw [hinserted]
    rcases insert_cases store user with ⟨hsame, -, -⟩ | ⟨-, htokens, hdocs, -⟩
    · rw [hsame]
      exact Persists.refl store
    · refine ⟨fun other hother => ⟨other, ?_, rfl, rfl⟩, ?_⟩
      · rw [hdocs]
        exact List.mem_append_left _ hother
      · rw [htokens]
        exact fun _ h => h
  · rw [hupdated]
    refine ⟨fun user huser => ?_, ?_⟩
    · rcases mem_update hupdates.claims_change huser with hkept | ⟨-, hchanged⟩
      · exact ⟨user, hkept, rfl, rfl⟩
      · exact ⟨change user, hchanged, hupdates.claims_change user, hupdates.createdAt_change user⟩
    · rw [(update_eq hupdates.claims_change).2]
      exact fun _ h => h

theorem persists_after (config : Config) {made made' : History} (h : made <+: made') :
    Persists (after config made) (after config made') := by
  obtain ⟨more, rfl⟩ := h
  exact storeAfter_related Persists.refl (fun _ _ _ => Persists.trans) (persists_exec config.bcrypt)

/-! ## Authority -/

/-- The token is one of an account. -/
def Names (store : Store) (claims : Claims) : Prop := ∃ user ∈ store.users.docs, user.claims = claims

def Administrator (store : Store) (claims : Claims) : Prop :=
  ∃ user ∈ store.users.docs, user.claims = claims ∧ user.role = .admin

theorem Administrator.names (h : Administrator store claims) : Names store claims := by
  obtain ⟨user, huser, hclaims, -⟩ := h
  exact ⟨user, huser, hclaims⟩

theorem Names.persists {store' : Store} (h : Names store claims) (hpersists : Persists store store') :
    Names store' claims := by
  obtain ⟨user, huser, hclaims⟩ := h
  obtain ⟨user', huser', hclaims', -⟩ := hpersists.accounts user huser
  exact ⟨user', huser', hclaims'.trans hclaims⟩

theorem administrator_iff : Administrator store claims ↔ Names store claims ∧ claims.role = .admin := by
  constructor
  · rintro ⟨user, huser, rfl, hrole⟩
    exact ⟨⟨user, huser, rfl⟩, hrole⟩
  · rintro ⟨⟨user, huser, rfl⟩, hrole⟩
    exact ⟨user, huser, rfl, hrole⟩

/-- Two accounts with one id or one name are one account. -/
theorem eq_of_id {other : User} (huser : user ∈ store.users.docs) (hother : other ∈ store.users.docs)
    (h : user.id = other.id) : user = other :=
  store.users.eq_of_clash huser hother
    ⟨fun user => some user.id, by simp [indexes], Option.some_ne_none _, congrArg some h⟩

theorem eq_of_userName {other : User} (huser : user ∈ store.users.docs) (hother : other ∈ store.users.docs)
    (h : user.userName = other.userName) : user = other :=
  store.users.eq_of_clash huser hother
    ⟨fun user => some user.userName, by simp [indexes], Option.some_ne_none _, congrArg some h⟩

/-- Within the request, the password was the right one of the account. -/
def Knew (config : Config) (front : History) (index : Nat) (claims : Claims) (password : String) : Prop :=
  ∃ earlier call later, front = earlier ++ call :: later ∧ call.index = index ∧
    ∃ user ∈ (after config earlier).users.docs, user.id = claims.uid ∧ user.userName = claims.username ∧
      config.bcrypt.compareHashAndPassword user.password password = true

/-- What a call needs at the moment it is made. -/
def Permitted (config : Config) (front : History) (call : Call) : Prop :=
  match call.op with
  | .signedString claims => Names (after config front) claims
  | .insertOne user =>
      match call.request with
      | .adminSetup adminName _ => user.userName = adminName ∧ user.role = .admin ∧ adminName ≠ ""
      | .dexCallback _ email => user.userName = email ∧ user.role = .user
      | .createUser (.bearer claims) (some body) =>
          Administrator (after config front) claims ∧ user.userName = sanitizeString body.userName ∧
            user.role = body.role ∧ user.userName ≠ ""
      | _ => False
  | .setPassword id _ =>
      match call.request with
      | .updatePassword (.bearer claims) (some body) =>
          Names (after config front) claims ∧ id = claims.uid ∧
            Knew config front call.index claims body.oldPassword
      | .resetPassword (.bearer claims) (some body) =>
          Administrator (after config front) claims ∧
            ∃ user ∈ (after config front).users.docs, user.id = id ∧ user.userName = body.username
      | _ => False
  | .setDetails details =>
      match call.request with
      | .updateUser (.bearer claims) (some _) => Names (after config front) claims ∧ details.id = claims.uid
      | _ => False
  | .setDeactivatedAt username _ =>
      match call.request with
      | .updateUserState (.bearer claims) (some body) =>
          Administrator (after config front) claims ∧ username = body.username ∧
            ∀ user ∈ (after config front).users.docs, user.userName = username → user.role ≠ .admin
      | _ => False
  | _ => True

/-- The password that a request brings for an account. -/
def Request.password : Request → String
  | .createUser _ (some body) => body.password
  | .updateUser _ (some body) => body.password
  | .updatePassword _ (some body) => body.newPassword
  | .resetPassword _ (some body) => body.newPassword
  | .adminSetup _ adminPassword => adminPassword
  | _ => ""

def Hashes (config : Config) (password hash : String) : Prop :=
  ∃ salt, config.bcrypt.generateFromPassword salt password = some hash

/-- What is stored is a hash of the password of the request, or the empty text where there was no hash. -/
def Recorded (config : Config) (call : Call) : Prop :=
  match call.op with
  | .insertOne user => user.password = "" ∨ Hashes config call.request.password user.password
  | .setPassword _ password => password = "" ∨ Hashes config call.request.password password
  | .setDetails details =>
      (call.request.password = "" ∧ details.password = "") ∨
        (call.request.password ≠ "" ∧ Hashes config call.request.password details.password)
  | _ => True

def Rightful (config : Config) (front : History) (call : Call) : Prop :=
  Permitted config front call ∧ Recorded config call

abbrev SoundIn (config : Config) (index : Nat) (request : Request) {α : Type} (post : α → History → Prop)
    (script : Service α) (made : History) : Prop :=
  script.Sound (exec config.bcrypt) .empty (Rightful config) index request post made

/-! ### The tokens that are out -/

/-- Every token that was signed names an account. -/
def TokensNamed (store : Store) : Prop := ∀ claims ∈ store.tokens, Names store claims

theorem tokensNamed_of_good {made : History} (h : Good (Rightful config) made) : TokensNamed (after config made) := by
  refine h.induction (motive := fun made => TokensNamed (after config made)) (fun claims hclaims => ?_)
    fun made call _ ih hcall claims hclaims => ?_
  · exact absurd hclaims List.not_mem_nil
  · have hpersists : Persists (after config made) (after config (made ++ [call])) :=
      persists_after config (List.prefix_append _ _)
    have hstore : after config (made ++ [call]) = (exec config.bcrypt call.op call.fault (after config made)).2 :=
      storeAfter_concat
    rw [hstore] at hclaims
    rcases exec_cases config.bcrypt call.op call.fault (after config made) with
      hsame | ⟨signed, hop, hsigned⟩ | ⟨user, -, hinserted⟩ | ⟨query, change, hupdates, hupdated⟩
    · rw [hsame] at hclaims
      exact (ih claims hclaims).persists hpersists
    · rw [hsigned] at hclaims
      rcases List.mem_append.mp hclaims with hold | hnew
      · exact (ih claims hold).persists hpersists
      · obtain rfl := List.mem_singleton.mp hnew
        have hnames : Names (after config made) claims := by
          have hpermitted := hcall.1
          rw [Permitted, hop] at hpermitted
          exact hpermitted
        exact hnames.persists hpersists
    · rw [hinserted] at hclaims
      rcases insert_cases (after config made) user with ⟨hsame, -, -⟩ | ⟨-, htokens, -, -⟩
      · rw [hsame] at hclaims
        exact (ih claims hclaims).persists hpersists
      · rw [htokens] at hclaims
        exact (ih claims hclaims).persists hpersists
    · rw [hupdated, (update_eq hupdates.claims_change).2] at hclaims
      exact (ih claims hclaims).persists hpersists

end LitmusPortal.Accounts
