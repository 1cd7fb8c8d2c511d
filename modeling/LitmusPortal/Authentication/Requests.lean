import LitmusPortal.Authentication.Authority

/-!
# What the handlers do

Each handler is followed from call to call, with any calls of other requests in between. It makes only calls it may
make, so that all that the authority rests on stays true in every run: accounts stay, administrators stay as they
are, and what a token says of an account is true as long as the token is out.
-/

namespace LitmusPortal.Accounts

open DocumentStore Script

variable {config : Config} {store : Store} {user : User} {claims : Claims}

/-! ## The handlers -/

section Handlers

variable {index : Nat} {request : Request} {made : History} {α β : Type} {post : β → History → Prop}

/-- A call that needs nothing may be made at any time. -/
def Harmless : Op → Prop
  | .signedString _ | .insertOne _ | .setPassword _ _ | .setDetails _ | .setDeactivatedAt _ _ => False
  | _ => True

theorem rightful_of_harmless {op : Op} (h : Harmless op) (front : History) (choice : Choice) :
    Rightful config front ⟨index, request, op, choice⟩ := by
  cases op with
  | signedString _ => exact h.elim
  | insertOne _ => exact h.elim
  | setPassword _ _ => exact h.elim
  | setDetails _ => exact h.elim
  | setDeactivatedAt _ _ => exact h.elim
  | _ => exact ⟨trivial, trivial⟩

theorem sound_ask {op : Op} {next : Reply op → Service β} (hop : Harmless op)
    (hnext : ∀ made' choice, made <+: made' → Good (Rightful config) (made' ++ [⟨index, request, op, choice⟩]) →
      SoundIn config index request post (next (exec config.bcrypt op choice (after config made')).1)
        (made' ++ [⟨index, request, op, choice⟩])) :
    SoundIn config index request post (ask op >>= next) made :=
  sound_perform (fun made' choice _ _ => rightful_of_harmless hop made' choice) hnext

/-- The answer of a call that nothing is made of. -/
theorem sound_ask_of_forall {op : Op} {next : Reply op → Service β} (hop : Harmless op)
    (hnext : ∀ reply made', made <+: made' → SoundIn config index request post (next reply) made') :
    SoundIn config index request post (ask op >>= next) made :=
  sound_ask hop fun _ _ hmade _ => hnext _ _ (hmade.trans (List.prefix_append _ _))

theorem find_ok {choice : Choice} {query : User → Bool} (h : find store choice query = .ok user) :
    user ∈ store.users.docs ∧ query user = true ∧ choice.fault = .none := by
  unfold find at h
  cases hfault : choice.fault with
  | none =>
      cases hfind : store.users.findOne query with
      | none =>
          rw [hfault, hfind] at h
          cases h
      | some found =>
          rw [hfault, hfind] at h
          cases h
          exact ⟨List.mem_of_find?_eq_some hfind, List.find?_some hfind, rfl⟩
  | fails => simp [hfault] at h
  | unanswered => simp [hfault] at h

/-- Whom the middleware lets in has a token of an account. -/
theorem sound_jwtMiddleware {header : Header} {handler : Claims → Service Answer} {post : Answer → History → Prop}
    (hrefused : ∀ made', post (.error .unauthorized) made')
    (h : ∀ claims made', header = .bearer claims → Names (after config made') claims →
      SoundIn config index request post (handler claims) made') :
    SoundIn config index request post (jwtMiddleware header handler) made := by
  cases header with
  | absent => exact hrefused made
  | malformed => trivial
  | bearer claims =>
      refine sound_ask trivial fun made' choice _ hgood => ?_
      have hstore : after config (made' ++ [⟨index, request, .validateToken claims, choice⟩]) = after config made' :=
        storeAfter_concat
      cases hvalid : decide (claims ∈ (after config made').tokens) && !choice.expired with
      | false =>
          have hreply : (exec config.bcrypt (.validateToken claims) choice (after config made')).1 = false := hvalid
          rw [hreply, if_neg Bool.false_ne_true]
          exact hrefused _
      | true =>
          have hreply : (exec config.bcrypt (.validateToken claims) choice (after config made')).1 = true := hvalid
          have htoken : claims ∈ (after config made').tokens :=
            of_decide_eq_true (Bool.and_eq_true_iff.mp hvalid).1
          rw [hreply, if_pos rfl]
          apply h claims _ rfl
          apply tokensNamed_of_good hgood
          rw [hstore]
          exact htoken

theorem hashes_of_generated {password hash : String} {choice : Choice} {store : Store}
    (h : (exec config.bcrypt (.generateFromPassword password) choice store).1 = some hash) :
    Hashes config password hash := by
  rw [exec] at h
  split at h
  · exact ⟨choice.salt, h⟩
  · cases h

theorem getD_generated (password : String) (choice : Choice) (store : Store) :
    (exec config.bcrypt (.generateFromPassword password) choice store).1.getD "" = "" ∨
      Hashes config password ((exec config.bcrypt (.generateFromPassword password) choice store).1.getD "") := by
  cases hgenerated : (exec config.bcrypt (.generateFromPassword password) choice store).1 with
  | none => exact .inl rfl
  | some hash => exact .inr (hashes_of_generated hgenerated)

theorem sound_ite {α : Type} {p : Prop} [Decidable p] {post : α → History → Prop} {first second : Service α}
    (hfirst : p → SoundIn config index request post first made)
    (hsecond : ¬ p → SoundIn config index request post second made) :
    SoundIn config index request post (if p then first else second) made := by
  by_cases h : p
  · rw [if_pos h]
    exact hfirst h
  · rw [if_neg h]
    exact hsecond h

theorem sound_insertUser
    (hrightful : ∀ made' choice, made <+: made' → Rightful config made' ⟨index, request, .insertOne user, choice⟩) :
    SoundIn config index request (fun _ _ => True) (insertUser user) made := by
  refine sound_perform (fun made' choice hmade _ => hrightful made' choice hmade) fun made' choice _ _ => ?_
  split <;> trivial

theorem sound_createUser {body : Option User} (hrequest : request = .createUser (.bearer claims) body)
    (hnames : Names (after config made) claims) :
    SoundIn config index request (fun _ _ => True) (createUser config body claims) made := by
  unfold createUser
  split
  · trivial
  · rename_i hrole
    split
    · trivial
    · rename_i userRequest
      refine sound_ite (fun _ => trivial) fun _ => sound_ite (fun _ => trivial) fun hgiven => ?_
      refine sound_ask trivial fun made₁ choice₁ hmade₁ _ => sound_ask trivial fun made₂ choice₂ hmade₂ _ => ?_
      refine sound_ite (fun _ => trivial) fun _ => ?_
      refine sound_ask trivial fun made₃ choice₃ hmade₃ _ => sound_insertUser fun made₄ choice₄ hmade₄ => ?_
      have hlater : made <+: made₄ :=
        (hmade₁.trans (List.prefix_append _ _)).trans <| (hmade₂.trans (List.prefix_append _ _)).trans <|
          (hmade₃.trans (List.prefix_append _ _)).trans hmade₄
      have hadmin : Administrator (after config made₄) claims :=
        administrator_iff.mpr ⟨hnames.persists (persists_after config hlater), not_not.mp hrole⟩
      subst hrequest
      exact ⟨⟨hadmin, rfl, rfl, fun hname => hgiven (.inl hname)⟩,
        getD_generated userRequest.password choice₂ (after config made₂)⟩

theorem sound_setDetails {details : UserDetails}
    (hrightful : ∀ made' choice, made <+: made' → Rightful config made' ⟨index, request, .setDetails details, choice⟩) :
    SoundIn config index request (fun _ _ => True) (setDetails details) made := by
  refine sound_perform (fun made' choice hmade _ => hrightful made' choice hmade) fun made' choice _ _ => ?_
  split <;> trivial

theorem sound_updateUser {body : Option UserDetails} (hrequest : request = .updateUser (.bearer claims) body)
    (hnames : Names (after config made) claims) :
    SoundIn config index request (fun _ _ => True) (updateUser body claims) made := by
  unfold updateUser
  split
  · trivial
  · rename_i userRequest
    subst hrequest
    split
    · rename_i hpassword
      exact sound_setDetails fun made' choice hmade =>
        ⟨⟨hnames.persists (persists_after config hmade), rfl⟩, .inl ⟨hpassword, hpassword⟩⟩
    · rename_i hpassword
      refine sound_ask trivial fun made₁ choice₁ hmade₁ _ => ?_
      split
      · trivial
      · rename_i password hgenerated
        refine sound_setDetails fun made₂ choice₂ hmade₂ =>
          ⟨⟨?_, rfl⟩, .inr ⟨hpassword, hashes_of_generated hgenerated⟩⟩
        exact hnames.persists (persists_after config ((hmade₁.trans (List.prefix_append _ _)).trans hmade₂))

theorem sound_repository_updatePassword {userPassword : UserPassword} {isAdminBeingReset : Bool}
    (hpassword : request.password = userPassword.newPassword)
    (hpermitted : ∀ (made₁ made₂ : History) (call : Call) (user : User) (hash : String) (choice : Choice),
      made <+: made₁ → made₁ ++ [call] <+: made₂ →
      call.index = index → user ∈ (after config made₁).users.docs → user.userName = userPassword.username →
      (isAdminBeingReset = true →
        config.bcrypt.compareHashAndPassword user.password userPassword.oldPassword = true) →
      Permitted config made₂ ⟨index, request, .setPassword user.id hash, choice⟩) :
    SoundIn config index request (fun _ _ => True)
      (Repository.updatePassword config userPassword isAdminBeingReset) made := by
  unfold Repository.updatePassword
  refine sound_ask trivial fun made₁ choice₁ hmade₁ _ => ?_
  split
  · trivial
  · rename_i result hfound
    obtain ⟨hresult, hnamed, -⟩ := find_ok hfound
    have hname : result.userName = userPassword.username := (of_decide_eq_true hnamed).2
    split
    · trivial
    · rename_i hmatches
      have hknew : isAdminBeingReset = true →
          config.bcrypt.compareHashAndPassword result.password userPassword.oldPassword = true := by
        intro hasked
        by_contra hwrong
        exact hmatches ⟨hasked, Bool.eq_false_iff.mpr hwrong⟩
      refine sound_ask trivial fun made₂ choice₂ hmade₂ _ => ?_
      refine sound_perform (fun made₃ choice₃ hmade₃ _ => ⟨?_, ?_⟩) fun _ _ _ _ => trivial
      · exact hpermitted made₁ made₃ _ result _ choice₃ hmade₁
          ((hmade₂.trans (List.prefix_append _ _)).trans hmade₃) rfl hresult hname hknew
      · change _ = "" ∨ Hashes config request.password _
        rw [hpassword]
        exact getD_generated userPassword.newPassword choice₂ (after config made₂)

theorem sound_updatePassword {body : Option UserPassword} (hrequest : request = .updatePassword (.bearer claims) body)
    (hnames : Names (after config made) claims) :
    SoundIn config index request (fun _ _ => True) (updatePassword config body claims) made := by
  unfold updatePassword
  split
  · trivial
  · rename_i userPasswordRequest
    subst hrequest
    split
    · trivial
    · split
      · trivial
      · refine Sound.bind (sound_repository_updatePassword rfl ?_) fun updated _ _ => by cases updated <;> trivial
        intro made₁ made₂ call user hash choice hmade₁ hmade₂ hindex huser hname hknew
        obtain ⟨holder, hholder, hclaims⟩ := hnames.persists (persists_after config hmade₁)
        obtain rfl : holder = user :=
          eq_of_userName hholder huser ((congrArg Claims.username hclaims).trans hname.symm)
        obtain ⟨later, rfl⟩ := hmade₂
        refine ⟨hnames.persists (persists_after config (hmade₁.trans ?_)), congrArg Claims.uid hclaims, ?_⟩
        · rw [List.append_assoc]
          exact List.prefix_append _ _
        · refine ⟨made₁, call, later, by rw [List.append_assoc, List.singleton_append], hindex, holder, hholder,
            congrArg Claims.uid hclaims, hname, hknew rfl⟩

theorem sound_isAdministrator (hnames : Names (after config made) claims) :
    SoundIn config index request (fun administrator made' => made <+: made' ∧
      (administrator = true → Administrator (after config made') claims))
      (Repository.isAdministrator claims.uid claims.username) made := by
  unfold Repository.isAdministrator
  refine sound_ask trivial fun made₁ choice₁ hmade₁ _ => ?_
  have hlater := hmade₁.trans
    (List.prefix_append made₁ [⟨index, request, .findAccount claims.uid claims.username, choice₁⟩])
  split
  · exact ⟨hlater, nofun⟩
  · rename_i result hfound
    refine ⟨hlater, fun hrole => ?_⟩
    obtain ⟨hresult, hquery, -⟩ := find_ok hfound
    obtain ⟨holder, hholder, hclaims⟩ := hnames.persists (persists_after config hmade₁)
    have hid : result.id = claims.uid := of_decide_eq_true (Bool.and_eq_true_iff.mp hquery).1
    obtain rfl : holder = result := eq_of_id hholder hresult ((congrArg Claims.uid hclaims).trans hid.symm)
    have hadmin : Administrator (after config made₁) claims := ⟨holder, hholder, hclaims, of_decide_eq_true hrole⟩
    obtain ⟨hnamesAt, hclaimsRole⟩ := administrator_iff.mp hadmin
    exact administrator_iff.mpr ⟨hnamesAt.persists (persists_after config (List.prefix_append _ _)), hclaimsRole⟩

theorem sound_resetPassword {body : Option UserPassword} (hrequest : request = .resetPassword (.bearer claims) body)
    (hnames : Names (after config made) claims) :
    SoundIn config index request (fun _ _ => True) (resetPassword config body claims) made := by
  unfold resetPassword
  split
  · trivial
  · rename_i userPasswordRequest
    subst hrequest
    split
    · trivial
    · split
      · trivial
      · refine Sound.bind (sound_isAdministrator hnames) fun administrator made' hadministrator => ?_
        split
        · rename_i hadmin
          refine Sound.bind (sound_repository_updatePassword rfl ?_) fun updated _ _ => by cases updated <;> trivial
          intro made₁ made₂ call user hash choice hmade₁ hmade₂ _ huser hname _
          have hlater : made₁ <+: made₂ := (List.prefix_append made₁ [call]).trans hmade₂
          obtain ⟨hnamesAt, hrole⟩ := administrator_iff.mp (hadministrator.2 hadmin)
          obtain ⟨user', huser', hclaims, -⟩ := (persists_after config hlater).accounts user huser
          exact ⟨administrator_iff.mpr ⟨hnamesAt.persists (persists_after config (hmade₁.trans hlater)), hrole⟩,
            user', huser', congrArg Claims.uid hclaims, (congrArg Claims.username hclaims).trans hname⟩
        · trivial

theorem sound_writeState {username userID : String} {deactivatedAt : Option String}
    (hrightful : ∀ made' choice, made <+: made' →
      Rightful config made' ⟨index, request, .setDeactivatedAt username deactivatedAt, choice⟩) :
    SoundIn config index request (fun _ _ => True) (writeState username userID deactivatedAt) made := by
  unfold writeState
  refine sound_perform (fun made' choice hmade _ => hrightful made' choice hmade) fun made₁ choice₁ _ _ => ?_
  split
  · trivial
  · refine sound_ask_of_forall trivial fun projects made₂ _ => ?_
    split
    · trivial
    · refine sound_ask_of_forall trivial fun committed made₃ _ => ?_
      split <;> trivial

theorem sound_updateStateTransaction {username : String} {isDeactivate : Bool}
    (hpermitted : ∀ made' deactivatedAt choice, made <+: made' →
      (∀ user ∈ (after config made').users.docs, user.userName = username → user.role ≠ .admin) →
      Permitted config made' ⟨index, request, .setDeactivatedAt username deactivatedAt, choice⟩) :
    SoundIn config index request (fun _ _ => True) (updateStateTransaction username isDeactivate) made := by
  unfold updateStateTransaction
  refine sound_ask_of_forall trivial fun session made₁ hmade₁ => ?_
  split
  · trivial
  · refine sound_ask_of_forall trivial fun transaction made₂ hmade₂ => ?_
    split
    · trivial
    · refine sound_ask trivial fun made₃ choice₃ hmade₃ _ => ?_
      split
      · trivial
      · rename_i user hfound
        obtain ⟨huser, hnamed, -⟩ := find_ok hfound
        split
        · trivial
        · rename_i hrole
          -- the account that was found is the only one of the name, and keeps its role
          have hnot : ∀ made', made₃ <+: made' → ∀ other ∈ (after config made').users.docs,
              other.userName = username → other.role ≠ .admin := by
            intro made' hmade other hother hname
            obtain ⟨user', huser', hclaims, -⟩ := (persists_after config hmade).accounts user huser
            have hname' : user'.userName = username :=
              (congrArg Claims.username hclaims).trans (of_decide_eq_true hnamed).2
            obtain rfl : user' = other := eq_of_userName huser' hother (hname'.trans hname.symm)
            have hsame : user'.role = user.role := congrArg Claims.role hclaims
            rw [hsame]
            exact hrole
          have hrightful : ∀ deactivatedAt made' choice, made₃ <+: made' →
              Rightful config made' ⟨index, request, .setDeactivatedAt username deactivatedAt, choice⟩ :=
            fun deactivatedAt made' choice hmade =>
              ⟨hpermitted made' deactivatedAt choice (((hmade₁.trans hmade₂).trans hmade₃).trans hmade)
                (hnot made' hmade), trivial⟩
          split
          · refine sound_ask_of_forall trivial fun deactivateTime made₄ hmade₄ => ?_
            split
            · trivial
            · exact sound_writeState fun made' choice hmade =>
                hrightful _ made' choice (((List.prefix_append _ _).trans hmade₄).trans hmade)
          · exact sound_writeState fun made' choice hmade =>
              hrightful _ made' choice ((List.prefix_append _ _).trans hmade)

theorem sound_updateUserState {body : Option UpdateUserState}
    (hrequest : request = .updateUserState (.bearer claims) body) (hnames : Names (after config made) claims) :
    SoundIn config index request (fun _ _ => True) (updateUserState body claims) made := by
  unfold updateUserState
  split
  · trivial
  · rename_i userRequest
    subst hrequest
    split
    · trivial
    · rename_i isDeactivate hdeactivate
      refine Sound.bind (sound_isAdministrator hnames) fun administrator made' hadministrator => ?_
      split
      · rename_i hadmin
        refine Sound.bind (sound_updateStateTransaction ?_) fun updated _ _ => by cases updated <;> trivial
        intro made₁ deactivatedAt choice hmade₁ hnot
        obtain ⟨hnamesAt, hrole⟩ := administrator_iff.mp (hadministrator.2 hadmin)
        exact ⟨administrator_iff.mpr ⟨hnamesAt.persists (persists_after config hmade₁), hrole⟩, rfl, hnot⟩
      · trivial

theorem sound_signToken {post : Answer → History → Prop} (huser : user ∈ (after config made).users.docs)
    (hpost : ∀ made' choice, made <+: made' →
      post (if choice.fault = .none then .token user.claims else .error .serverError)
        (made' ++ [⟨index, request, .signedString user.claims, choice⟩])) :
    SoundIn config index request post (signToken user) made := by
  have hnames : Names (after config made) user.claims := ⟨user, huser, rfl⟩
  refine sound_perform (fun made' choice hmade _ => ⟨hnames.persists (persists_after config hmade), trivial⟩)
    fun made' choice hmade _ => ?_
  have hafter := hpost made' choice hmade
  by_cases hfault : choice.fault = .none
  · rw [if_pos hfault] at hafter
    rw [exec, if_pos hfault]
    exact hafter
  · rw [if_neg hfault] at hafter
    rw [exec, if_neg hfault]
    exact hafter

theorem mem_of_inserted {bcrypt : Bcrypt} {choice : Choice}
    (h : (exec bcrypt (.insertOne user) choice store).1 = (.ok () : Except MongoError Unit)) :
    user ∈ (exec bcrypt (.insertOne user) choice store).2.users.docs := by
  rw [exec] at h ⊢
  cases hfault : choice.fault with
  | none =>
      rw [hfault] at h
      rcases insert_cases store user with ⟨-, hrefused, -⟩ | ⟨-, -, hdocs, -⟩
      · have hboth := hrefused.symm.trans h
        cases hboth
      · change user ∈ (store.insert user).2.users.docs
        rw [hdocs]
        exact List.mem_append_right _ List.mem_cons_self
  | fails =>
      rw [hfault] at h
      cases h
  | unanswered =>
      rw [hfault] at h
      cases h

theorem sound_dexCallback {name email : String} (hrequest : request = .dexCallback name email) :
    SoundIn config index request (fun _ _ => True) (dexCallback name email) made := by
  subst hrequest
  unfold dexCallback
  refine sound_ask_of_forall trivial fun createdAt made₁ _ => sound_ask_of_forall trivial fun uID made₂ _ => ?_
  refine sound_ask trivial fun made₃ choice₃ _ _ => ?_
  split
  · trivial
  · rename_i password hgenerated
    refine sound_perform (fun made' choice _ _ => ⟨⟨rfl, rfl⟩, .inr (hashes_of_generated hgenerated)⟩)
      fun made₄ choice₄ _ _ => ?_
    split
    · rename_i hinserted
      refine sound_signToken ?_ fun _ _ _ => trivial
      have hstore : ∀ user : User,
          after config (made₄ ++ [⟨index, .dexCallback name email, .insertOne user, choice₄⟩]) =
          (exec config.bcrypt (.insertOne user) choice₄ (after config made₄)).2 := fun _ => storeAfter_concat
      rw [hstore]
      exact mem_of_inserted hinserted
    · refine sound_ask trivial fun made₅ choice₅ _ _ => ?_
      split
      · trivial
      · rename_i result hfound
        refine sound_signToken ?_ fun _ _ _ => trivial
        have hstore : after config (made₅ ++ [⟨index, .dexCallback name email, .findUserByUsername email, choice₅⟩]) =
            after config made₅ := storeAfter_concat
        rw [hstore]
        exact (find_ok hfound).1
    · trivial

theorem sound_validatedAdminSetup {adminName adminPassword : String}
    (hrequest : request = .adminSetup adminName adminPassword) :
    SoundIn config index request (fun _ _ => True) (validatedAdminSetup adminName adminPassword) made := by
  subst hrequest
  unfold validatedAdminSetup
  split
  · trivial
  · rename_i hgiven
    refine sound_ask_of_forall trivial fun uID made₁ _ => sound_ask trivial fun made₂ choice₂ _ _ => ?_
    refine sound_ask_of_forall trivial fun createdAt made₃ _ => ?_
    refine sound_perform (fun made' choice _ _ =>
      ⟨⟨rfl, rfl, fun hname => hgiven (.inl hname)⟩, getD_generated adminPassword choice₂ _⟩)
      fun made₄ choice₄ _ _ => ?_
    split <;> trivial

/-- The answer to a login, by what the look-up has found. -/
def checked (config : Config) (password : String) : Except MongoError User → Answer
  | .error _ => .error .userNotFound
  | .ok user =>
      if user.deactivatedAt ≠ none then .error .userDeactivated
      else if config.bcrypt.compareHashAndPassword user.password password = false then .error .invalidCredentials
      else .token user.claims

/-- A login with a name and a password looks up the account once, and answers by what it finds, unless a call
fails after that. -/
def LoggedIn (config : Config) (index : Nat) (body : User) (answer : Answer) (made : History) : Prop :=
  ∃ front call back, made = front ++ call :: back ∧ call.index = index ∧
    (answer = checked config body.password
        (find (after config front) call.fault (named (sanitizeString body.userName))) ∨
      answer = .error .serverError ∧ ∃ call ∈ made, call.index = index ∧ call.fault.fault ≠ .none)

theorem LoggedIn.extend {body : User} {answer : Answer} (h : LoggedIn config index body answer made) (more : History) :
    LoggedIn config index body answer (made ++ more) := by
  obtain ⟨front, call, back, rfl, hindex, hanswer⟩ := h
  refine ⟨front, call, back ++ more, by rw [List.append_assoc, List.cons_append], hindex, hanswer.imp id ?_⟩
  rintro ⟨hserver, failed, hmem, hfailed⟩
  exact ⟨hserver, failed, List.mem_append_left _ hmem, hfailed⟩

def LoginEnds (config : Config) (index : Nat) (request : Request) (answer : Answer) (made : History) : Prop :=
  match request with
  | .loginUser (some body) =>
      sanitizeString body.userName ≠ "" → body.password ≠ "" → LoggedIn config index body answer made
  | _ => True

theorem LoginEnds.extend {answer : Answer} (h : LoginEnds config index request answer made) (more : History) :
    LoginEnds config index request answer (made ++ more) := by
  cases request with
  | loginUser body =>
      cases body with
      | none => trivial
      | some body => exact fun hname hpassword => (h hname hpassword).extend more
  | _ => trivial

theorem sound_loginUser {body : Option User} (hrequest : request = .loginUser body) :
    SoundIn config index request (LoginEnds config index request) (loginUser config body) made := by
  subst hrequest
  unfold loginUser
  split
  · trivial
  · rename_i userRequest
    refine sound_ite (fun hmissing hname hpassword => absurd hmissing (not_or.mpr ⟨hname, hpassword⟩)) fun _ => ?_
    · refine sound_ask trivial fun made₁ choice₁ _ _ => ?_
      -- this is the call the answer goes by
      have hends : ∀ answer, answer = checked config userRequest.password
          (find (after config made₁) choice₁ (named (sanitizeString userRequest.userName))) →
          LoginEnds config index (.loginUser (some userRequest)) answer
            (made₁ ++ [⟨index, .loginUser (some userRequest), .findUserByUsername (sanitizeString userRequest.userName),
              choice₁⟩]) :=
        fun answer hanswer _ _ => ⟨made₁, _, [], rfl, rfl, .inl hanswer⟩
      split
      · rename_i err hfound
        change find _ _ _ = _ at hfound
        exact hends _ (by rw [hfound, checked])
      · rename_i user hfound
        change find _ _ _ = _ at hfound
        split
        · rename_i hdeactivated
          exact hends _ (by rw [hfound, checked, if_pos hdeactivated])
        · rename_i hactive
          split
          · rename_i hwrong
            exact hends _ (by rw [hfound, checked, if_neg hactive, if_pos hwrong])
          · rename_i hright
            have hstore : after config (made₁ ++ [⟨index, .loginUser (some userRequest),
                .findUserByUsername (sanitizeString userRequest.userName), choice₁⟩]) = after config made₁ :=
              storeAfter_concat
            refine sound_signToken (by rw [hstore]; exact (find_ok hfound).1) fun made₂ choice₂ hmade₂ => ?_
            obtain ⟨later, rfl⟩ := hmade₂
            by_cases hfault : choice₂.fault = .none
            · rw [if_pos hfault]
              rw [List.append_assoc]
              exact (hends _ (by rw [hfound, checked, if_neg hactive, if_neg hright])).extend _
            · rw [if_neg hfault]
              intro _ _
              let signed : Call := ⟨index, .loginUser (some userRequest), .signedString user.claims, choice₂⟩
              have hsplit : made₁ ++ [⟨index, .loginUser (some userRequest),
                  .findUserByUsername (sanitizeString userRequest.userName), choice₁⟩] ++ later ++ [signed] =
                  made₁ ++ ⟨index, .loginUser (some userRequest),
                    .findUserByUsername (sanitizeString userRequest.userName), choice₁⟩ :: (later ++ [signed]) := by
                simp only [List.append_assoc, List.cons_append, List.nil_append]
              exact ⟨made₁, _, later ++ [signed], hsplit, rfl,
                .inr ⟨rfl, signed, List.mem_append_right _ List.mem_cons_self, rfl, hfault⟩⟩

end Handlers

/-- Every request is answered by rightful calls. -/
theorem sound_handle (index : Nat) (request : Request) (made : History) :
    SoundIn config index request (LoginEnds config index request) (handle config request) made := by
  cases request with
  | createUser header body =>
      exact sound_jwtMiddleware (fun _ => trivial) fun claims made' hheader hnames =>
        (sound_createUser (by rw [hheader]) hnames).mono fun _ _ _ => trivial
  | updateUser header body =>
      exact sound_jwtMiddleware (fun _ => trivial) fun claims made' hheader hnames =>
        (sound_updateUser (by rw [hheader]) hnames).mono fun _ _ _ => trivial
  | loginUser body => exact sound_loginUser rfl
  | updatePassword header body =>
      exact sound_jwtMiddleware (fun _ => trivial) fun claims made' hheader hnames =>
        (sound_updatePassword (by rw [hheader]) hnames).mono fun _ _ _ => trivial
  | resetPassword header body =>
      exact sound_jwtMiddleware (fun _ => trivial) fun claims made' hheader hnames =>
        (sound_resetPassword (by rw [hheader]) hnames).mono fun _ _ _ => trivial
  | updateUserState header body =>
      exact sound_jwtMiddleware (fun _ => trivial) fun claims made' hheader hnames =>
        (sound_updateUserState (by rw [hheader]) hnames).mono fun _ _ _ => trivial
  | dexCallback name email => exact (sound_dexCallback rfl).mono fun _ _ _ => trivial
  | adminSetup adminName adminPassword => exact (sound_validatedAdminSetup rfl).mono fun _ _ _ => trivial

/-! ## Runs -/

def start : System := Pool.initial .empty

def Runs (config : Config) (turns : List (Turn Request Choice)) (system : System) : Prop :=
  Transition.run (System.step config) start turns = some system

section Runs

variable {turns : List (Turn Request Choice)} {system : System}

theorem Runs.inv (h : Runs config turns system) :
    system.Inv (exec config.bcrypt) .empty (Rightful config) (LoginEnds config) :=
  Pool.run_inv (fun index request made _ => sound_handle index request made)
    (fun _ _ _ _ more hends => hends.extend more) h

section Sample

/-- A hash function that only marks what it is given. -/
def marked : Bcrypt where
  generateFromPassword _ password := some ("$" ++ password)
  compareHashAndPassword hash attempt := hash = "$" ++ attempt

def sampleConfig : Config := ⟨marked, fun _ => true, false⟩

def sampleChoice : Choice := ⟨.none, "", "1", 0, false⟩

def sampleLogin : User := ⟨"", "root", "key", "", "", .other "", none, none, none⟩

/-- The administrator is set up and logs in. -/
def sampleFront : List (Turn Request Choice) :=
  .start (.adminSetup "root" "key") :: List.replicate 4 (.answer 0 sampleChoice) ++
    .start (.loginUser (some sampleLogin)) :: List.replicate 2 (.answer 1 sampleChoice)

/-- The administrator asks for another password. -/
def sampleBack : List (Turn Request Choice) :=
  .start (.updatePassword (.bearer ⟨"1", .admin, "root"⟩) (some ⟨"", "key", "new"⟩)) ::
    List.replicate 4 (.answer 2 sampleChoice)

def sampleSystem : System := (Transition.run (System.step sampleConfig) start sampleFront).getD start

def sampleSystem' : System := (Transition.run (System.step sampleConfig) sampleSystem sampleBack).getD start

theorem runs_sampleFront : Runs sampleConfig sampleFront sampleSystem := by
  rw [Runs, sampleSystem]
  rfl

theorem run_sampleBack : Transition.run (System.step sampleConfig) sampleSystem sampleBack = some sampleSystem' := by
  rw [sampleSystem']
  rfl

theorem runs_sample : Runs sampleConfig (sampleFront ++ sampleBack) sampleSystem' := by
  rw [Runs, Transition.run_append, (runs_sampleFront : _ = _)]
  exact run_sampleBack

end Sample

/-- Apart from the accounts that a call deactivates or activates, the state stays. -/
theorem deactivatedAt_update {op : Op} {query : User → Bool} {change : User → User} (h : Updates op query change)
    (hstate : ∀ username deactivatedAt, op = .setDeactivatedAt username deactivatedAt → named username user = false)
    (hquery : query user = true) : (change user).deactivatedAt = user.deactivatedAt := by
  cases h with
  | password id password => rfl
  | details details => rfl
  | state username deactivatedAt =>
      have hnot := hstate username deactivatedAt rfl
      rw [hquery] at hnot
      cases hnot

theorem administrator_after {made : History} {call : Call} (hgood : Rightful config made call)
    (huser : user ∈ (after config made).users.docs) (hrole : user.role = .admin) :
    ∃ user' ∈ (after config (made ++ [call])).users.docs, user'.claims = user.claims ∧
      user'.createdAt = user.createdAt ∧ user'.deactivatedAt = user.deactivatedAt := by
  have hstore : after config (made ++ [call]) = (exec config.bcrypt call.op call.fault (after config made)).2 :=
    storeAfter_concat
  rw [hstore]
  rcases exec_cases config.bcrypt call.op call.fault (after config made) with
    hsame | ⟨claims, -, hsigned⟩ | ⟨added, -, hinserted⟩ | ⟨query, change, hupdates, hupdated⟩
  · rw [hsame]
    exact ⟨user, huser, rfl, rfl, rfl⟩
  · rw [hsigned]
    exact ⟨user, huser, rfl, rfl, rfl⟩
  · rw [hinserted]
    rcases insert_cases (after config made) added with ⟨hsame, -, -⟩ | ⟨-, -, hdocs, -⟩
    · rw [hsame]
      exact ⟨user, huser, rfl, rfl, rfl⟩
    · rw [hdocs]
      exact ⟨user, List.mem_append_left _ huser, rfl, rfl, rfl⟩
  · rw [hupdated]
    rcases mem_update hupdates.claims_change huser with hkept | ⟨hquery, hchanged⟩
    · exact ⟨user, hkept, rfl, rfl, rfl⟩
    · refine ⟨change user, hchanged, hupdates.claims_change user, hupdates.createdAt_change user,
        deactivatedAt_update hupdates (fun username deactivatedAt hop => ?_) hquery⟩
      -- the state of an administrator is not what the call may change
      have hpermitted := hgood.1
      rw [Permitted, hop] at hpermitted
      rw [Bool.eq_false_iff]
      intro hnamed
      have hname : user.userName = username := (of_decide_eq_true hnamed).2
      simp only at hpermitted
      split at hpermitted
      · exact hpermitted.2.2 user huser hname hrole
      · exact hpermitted

theorem administrators_after {made more : History} (hgood : Good (Rightful config) (made ++ more))
    (huser : user ∈ (after config made).users.docs) (hrole : user.role = .admin) :
    ∃ user' ∈ (after config (made ++ more)).users.docs, user'.claims = user.claims ∧
      user'.createdAt = user.createdAt ∧ user'.deactivatedAt = user.deactivatedAt := by
  induction more using List.reverseRecOn with
  | nil =>
      rw [List.append_nil]
      exact ⟨user, huser, rfl, rfl, rfl⟩
  | append_singleton more last ih =>
      rw [← List.append_assoc] at hgood ⊢
      obtain ⟨hmore, hlast⟩ := good_concat_iff.mp hgood
      obtain ⟨user', huser', hclaims, hcreated, hstate⟩ := ih hmore
      have hrole' : user'.role = .admin := (congrArg Claims.role hclaims).trans hrole
      obtain ⟨user'', huser'', hclaims', hcreated', hstate'⟩ := administrator_after hlast huser' hrole'
      exact ⟨user'', huser'', hclaims'.trans hclaims, hcreated'.trans hcreated, hstate'.trans hstate⟩

/-- Accounts are never removed or renamed, and no account changes its role. Administrators also stay active, or
inactive, as they were made. -/
theorem accounts_stay {later : List (Turn Request Choice)} {system' : System} (h : Runs config turns system)
    (hlater : Transition.run (System.step config) system later = some system') :
    ∀ user ∈ system.store.users.docs, ∃ user' ∈ system'.store.users.docs,
      user'.claims = user.claims ∧ user'.createdAt = user.createdAt ∧
        (user.role = .admin → user'.deactivatedAt = user.deactivatedAt) := by
  have hrun : Runs config (turns ++ later) system' := by
    have hsystem : Transition.run (System.step config) start turns = some system := h
    rw [Runs, Transition.run_append, hsystem]
    exact hlater
  obtain ⟨more, hmade⟩ := Pool.made_prefix hlater
  have hstore : system.store = after config system.made := h.inv.store
  have hstore' : system'.store = after config (system.made ++ more) := by
    rw [hmade]
    exact hrun.inv.store
  have hgood : Good (Rightful config) (system.made ++ more) := by
    rw [hmade]
    exact hrun.inv.good_made
  rw [hstore, hstore']
  intro user huser
  by_cases hrole : user.role = .admin
  · obtain ⟨user', huser', hclaims, hcreated, hstate⟩ := administrators_after hgood huser hrole
    exact ⟨user', huser', hclaims, hcreated, fun _ => hstate⟩
  · obtain ⟨user', huser', hclaims, hcreated⟩ :=
      (persists_after config (List.prefix_append _ more)).accounts user huser
    exact ⟨user', huser', hclaims, hcreated, fun hadmin => absurd hadmin hrole⟩

theorem accounts_stay_ownPassword :
    ∃ system system', Runs sampleConfig sampleFront system ∧
      Transition.run (System.step sampleConfig) system sampleBack = some system' ∧
      ∀ user ∈ system.store.users.docs, ∃ user' ∈ system'.store.users.docs,
        user'.claims = user.claims ∧ user'.createdAt = user.createdAt ∧
          (user.role = .admin → user'.deactivatedAt = user.deactivatedAt) :=
  ⟨_, _, runs_sampleFront, run_sampleBack, accounts_stay runs_sampleFront run_sampleBack⟩

/-! ### Tokens -/

/-- No administrator goes without a name, under which no query would find the account. -/
def AdministratorsNamed (store : Store) : Prop := ∀ user ∈ store.users.docs, user.role = .admin → user.userName ≠ ""

theorem administratorsNamed_of_good {made : History} (h : Good (Rightful config) made) :
    AdministratorsNamed (after config made) := by
  refine h.induction (motive := fun made => AdministratorsNamed (after config made)) (fun user huser => ?_)
    fun made call _ ih hcall user huser hrole => ?_
  · exact absurd huser List.not_mem_nil
  · have hstore : after config (made ++ [call]) = (exec config.bcrypt call.op call.fault (after config made)).2 :=
      storeAfter_concat
    rw [hstore] at huser
    rcases exec_cases config.bcrypt call.op call.fault (after config made) with
      hsame | ⟨claims, -, hsigned⟩ | ⟨added, hop, hinserted⟩ | ⟨query, change, hupdates, hupdated⟩
    · rw [hsame] at huser
      exact ih user huser hrole
    · rw [hsigned] at huser
      exact ih user huser hrole
    · rw [hinserted] at huser
      rcases insert_cases (after config made) added with ⟨hsame, -, -⟩ | ⟨-, -, hdocs, -⟩
      · rw [hsame] at huser
        exact ih user huser hrole
      · rw [hdocs] at huser
        rcases List.mem_append.mp huser with hold | hnew
        · exact ih user hold hrole
        · obtain rfl := List.mem_singleton.mp hnew
          have hpermitted := hcall.1
          rw [Permitted, hop] at hpermitted
          simp only at hpermitted
          split at hpermitted
          · obtain ⟨hname, -, hgiven⟩ := hpermitted
            rw [hname]
            exact hgiven
          · rw [hpermitted.2] at hrole
            cases hrole
          · exact hpermitted.2.2.2
          · exact hpermitted.elim
    · rw [hupdated, (update_eq hupdates.claims_change).1] at huser
      rcases mem_updateFirst huser with hold | ⟨old, hold, -, rfl⟩
      · exact ih user hold hrole
      · have hclaims := hupdates.claims_change old
        have hname : (change old).userName = old.userName := congrArg Claims.username hclaims
        rw [hname]
        exact ih old hold ((congrArg Claims.role hclaims).symm.trans hrole)

/-- What the store has under the id and the name of a token. -/
def holder (store : Store) (claims : Claims) : Option User :=
  store.users.findOne fun user => hasID claims.uid user && named claims.username user

theorem of_holder {found : User} (h : holder store claims = some found) :
    found ∈ store.users.docs ∧ found.id = claims.uid := by
  unfold holder Collection.findOne at h
  have hquery := List.find?_some h
  exact ⟨List.mem_of_find?_eq_some h, of_decide_eq_true (Bool.and_eq_true_iff.mp hquery).1⟩

theorem holder_of_claims (huser : user ∈ store.users.docs) (hname : user.userName ≠ "") :
    holder store user.claims = some user := by
  have hquery : (hasID user.claims.uid user && named user.claims.username user) = true := by
    simp [hasID, named, User.claims, hname]
  have hsome : (holder store user.claims).isSome = true := List.find?_isSome.mpr ⟨user, huser, hquery⟩
  obtain ⟨found, hfound⟩ := Option.isSome_iff_exists.mp hsome
  obtain ⟨hmem, hid⟩ := of_holder hfound
  rw [hfound, eq_of_id hmem huser hid]

/-- As long as a token is out it names an account, with the name and the role that the account has. So the creation of
accounts, which trusts the role in the token, lets in exactly those whom the other handlers look up. -/
theorem tokens_honest (h : Runs config turns system) {claims : Claims} (hclaims : claims ∈ system.store.tokens) :
    (∃ user ∈ system.store.users.docs, user.claims = claims) ∧
      (claims.role = .admin ↔ ∃ user, holder system.store claims = some user ∧ user.role = .admin) := by
  have hstore : system.store = after config system.made := h.inv.store
  rw [hstore] at hclaims ⊢
  obtain ⟨user, huser, rfl⟩ := tokensNamed_of_good h.inv.good_made claims hclaims
  refine ⟨⟨user, huser, rfl⟩, fun hrole => ?_, ?_⟩
  · have hname : user.userName ≠ "" := administratorsNamed_of_good h.inv.good_made user huser hrole
    exact ⟨user, holder_of_claims huser hname, hrole⟩
  · rintro ⟨found, hfound, hrole⟩
    obtain ⟨hmem, hid⟩ := of_holder hfound
    obtain rfl := eq_of_id hmem huser hid
    exact hrole

theorem tokens_honest_administrator :
    ∃ system, Runs sampleConfig sampleFront system ∧ ⟨"1", .admin, "root"⟩ ∈ system.store.tokens ∧
      ∃ user, holder system.store ⟨"1", .admin, "root"⟩ = some user ∧ user.role = .admin := by
  have htoken : ⟨"1", .admin, "root"⟩ ∈ sampleSystem.store.tokens := List.mem_cons_self
  exact ⟨_, runs_sampleFront, htoken, (tokens_honest runs_sampleFront htoken).2.mp rfl⟩

end Runs

end LitmusPortal.Accounts
