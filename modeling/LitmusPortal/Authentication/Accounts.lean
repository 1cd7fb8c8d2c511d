import LitmusPortal.Lib.Interference
import LitmusPortal.Lib.GoStrings
import LitmusPortal.Schema

/-!
# User accounts

The users of the portal, and the handlers that create them, log them in, change them and deactivate them. Each
handler is a script of the calls it makes outside of itself: of the collection of users, the password hashes, the
tokens, the clock. The hash function is a parameter. A token holds while it is one that the service has signed and
that has not expired: nobody else has the secret.
-/

namespace LitmusPortal.Accounts

open DocumentStore Script

/-! ## Documents -/

inductive Role where
  | admin
  | user
  | other (text : String)
  deriving DecidableEq, Repr

structure User where
  id : String
  userName : String
  password : String
  email : String
  name : String
  role : Role
  createdAt : Option String
  updatedAt : Option String
  deactivatedAt : Option String
  deriving DecidableEq, Repr

/-- What `_id` and the index that is made at the start keep apart. -/
def indexes : List (UniqueIndex User String) := [fun user => some user.id, fun user => some user.userName]

/-- What a token says. -/
structure Claims where
  uid : String
  role : Role
  username : String
  deriving DecidableEq, Repr

def User.claims (user : User) : Claims := ⟨user.id, user.role, user.userName⟩

def User.sanitizedUser (user : User) : User := { user with password := "" }

structure UserDetails where
  id : String
  email : String
  name : String
  password : String
  deriving DecidableEq, Repr

structure UserPassword where
  username : String
  oldPassword : String
  newPassword : String
  deriving DecidableEq, Repr

structure UpdateUserState where
  username : String
  isDeactivate : Option Bool
  deriving DecidableEq, Repr

inductive AppError where
  | invalidCredentials
  | serverError
  | invalidRequest
  | strictPasswordPolicyViolation
  | unauthorized
  | userExists
  | userNotFound
  | updatingAdmin
  | userDeactivated
  | userAlreadyDeactivated
  | invalidEmail
  | other
  deriving DecidableEq, Repr

/-! ## Calls -/

/-- The hash of a password under a salt, and whether a password has a hash. -/
structure Bcrypt where
  generateFromPassword : String → String → Option String
  compareHashAndPassword : String → String → Bool

inductive Fault where
  | none
  | fails
  | unanswered
  deriving DecidableEq, Repr

/-- What the surroundings choose for a call. -/
structure Choice where
  fault : Fault
  salt : String
  uuid : String
  now : Int
  expired : Bool
  deriving DecidableEq, Repr

inductive MongoError where
  | duplicateKey
  | noDocuments
  | failed
  deriving DecidableEq, Repr

inductive Op where
  | validateToken (claims : Claims)
  | newRandom
  | unixTime
  | generateFromPassword (password : String)
  | signedString (claims : Claims)
  | insertOne (user : User)
  | findUserByUsername (username : String)
  | findAccount (uid username : String)
  | setPassword (id password : String)
  | setDetails (details : UserDetails)
  | setDeactivatedAt (username : String) (deactivatedAt : Option String)
  | startSession
  | startTransaction
  | updateProjectState (userID deactivateTime : String)
  | commitTransaction
  deriving DecidableEq, Repr

abbrev Reply : Op → Type
  | .validateToken _ | .signedString _ => Bool
  | .newRandom | .unixTime => String
  | .generateFromPassword _ => Option String
  | .findUserByUsername _ | .findAccount _ _ => Except MongoError User
  | _ => Except MongoError Unit

/-- The users, and the tokens that have been signed. -/
structure Store where
  users : Collection indexes
  tokens : List Claims

def Store.empty : Store := ⟨.empty, []⟩

/-- An empty text is not stored, so that no query for it finds anything. -/
def named (username : String) (user : User) : Bool := username ≠ "" ∧ user.userName = username

def hasID (id : String) (user : User) : Bool := user.id = id

/-- What is empty is left out of the `$set`. -/
def User.setDetails (details : UserDetails) (user : User) : User :=
  { user with
    email := if details.email = "" then user.email else details.email
    name := if details.name = "" then user.name else details.name
    password := if details.password = "" then user.password else details.password }

def Store.update (store : Store) (query : User → Bool) (change : User → User) : Store :=
  match store.users.updateOne query change with
  | .ok (users, _) => { store with users := users }
  | .error _ => store

def Store.insert (store : Store) (user : User) : Except MongoError Unit × Store :=
  match store.users.insertOne user with
  | .ok users => (.ok (), { store with users := users })
  | .error _ => (.error .duplicateKey, store)

def find (store : Store) (choice : Choice) (query : User → Bool) : Except MongoError User :=
  match choice.fault, store.users.findOne query with
  | .none, some user => .ok user
  | .none, none => .error .noDocuments
  | _, _ => .error .failed

def answerOf (choice : Choice) : Except MongoError Unit :=
  if choice.fault = .none then .ok () else .error .failed

def write (choice : Choice) (store after : Store) : Except MongoError Unit × Store :=
  match choice.fault with
  | .none => (.ok (), after)
  | .fails => (.error .failed, store)
  | .unanswered => (.error .failed, after)

def exec (bcrypt : Bcrypt) : (op : Op) → Choice → Store → Reply op × Store
  | .validateToken claims, choice, store => (decide (claims ∈ store.tokens) && !choice.expired, store)
  | .newRandom, choice, store => (choice.uuid, store)
  | .unixTime, choice, store => (formatTime choice.now, store)
  | .generateFromPassword password, choice, store =>
      (if choice.fault = .none then bcrypt.generateFromPassword choice.salt password else none, store)
  | .signedString claims, choice, store =>
      if choice.fault = .none then (true, { store with tokens := store.tokens ++ [claims] }) else (false, store)
  | .insertOne user, choice, store =>
      match choice.fault with
      | .none => store.insert user
      | .fails => (.error .failed, store)
      | .unanswered => (.error .failed, (store.insert user).2)
  | .findUserByUsername username, choice, store => (find store choice (named username), store)
  | .findAccount uid username, choice, store =>
      (find store choice fun user => hasID uid user && named username user, store)
  | .setPassword id password, choice, store =>
      write choice store (store.update (hasID id) fun user => { user with password := password })
  | .setDetails details, choice, store => write choice store (store.update (hasID details.id) (.setDetails details))
  | .setDeactivatedAt username deactivatedAt, choice, store =>
      write choice store (store.update (named username) fun user => { user with deactivatedAt := deactivatedAt })
  | .startSession, choice, store => (answerOf choice, store)
  | .startTransaction, choice, store => (answerOf choice, store)
  | .updateProjectState _ _, choice, store => (answerOf choice, store)
  | .commitTransaction, choice, store => (answerOf choice, store)

/-! ## Handlers -/

/-- What is compiled in, or read from the environment at the start. -/
structure Config where
  bcrypt : Bcrypt
  isEmailValid : String → Bool
  strictPasswordPolicy : Bool

/-- The header of a request; what does not have the form of a token makes the middleware panic. -/
inductive Header where
  | absent
  | malformed
  | bearer (claims : Claims)
  deriving DecidableEq, Repr

/-- A body is `none` where it is not one of its kind. -/
inductive Request where
  | createUser (header : Header) (body : Option User)
  | updateUser (header : Header) (body : Option UserDetails)
  | loginUser (body : Option User)
  | updatePassword (header : Header) (body : Option UserPassword)
  | resetPassword (header : Header) (body : Option UserPassword)
  | updateUserState (header : Header) (body : Option UpdateUserState)
  | dexCallback (name email : String)
  | adminSetup (adminName adminPassword : String)
  deriving DecidableEq, Repr

inductive Answer where
  | error (err : AppError)
  | token (claims : Claims)
  | user (user : User)
  | message (text : String)
  | errorAndMessage (err : AppError) (text : String)
  | nothing
  deriving DecidableEq, Repr

abbrev Service := Script Op Reply GoError

def ask (op : Op) : Service (Reply op) := perform op

/-- `unicode.White_Space` -/
def whiteSpace : String :=
  "\t\n\u000b\u000c\r \u0085\u00a0\u1680\u2000\u2001\u2002\u2003\u2004\u2005" ++
    "\u2006\u2007\u2008\u2009\u200a\u2028\u2029\u202f\u205f\u3000"

def sanitizeString (input : String) : String := GoStrings.trim input whiteSpace

def validateStrictPassword (input : String) : Bool :=
  8 ≤ input.utf8ByteSize &&
    input.toList.any Char.isDigit && input.toList.any Char.isLower && input.toList.any Char.isUpper &&
    input.toList.any "!@#~$%^&*()+|_".toList.contains

def jwtMiddleware (header : Header) (handler : Claims → Service Answer) : Service Answer := do
  match header with
  | .absent => return .error .unauthorized
  | .malformed => .halt (.panic "invalid memory address or nil pointer dereference")
  | .bearer claims => do
      let valid : Bool ← ask (.validateToken claims)
      if valid then handler claims else return .error .unauthorized

variable (config : Config)

def insertUser (user : User) : Service Answer := do
  let inserted : Except MongoError Unit ← ask (.insertOne user)
  match inserted with
  | .ok _ => return .user user.sanitizedUser
  | .error .duplicateKey => return .error .userExists
  | .error _ => return .error .serverError

/-- A hash that could not be made is only logged, the account then has none. -/
def createUser (body : Option User) (claims : Claims) : Service Answer := do
  if claims.role ≠ .admin then return .error .unauthorized
  else match body with
  | none => return .error .invalidRequest
  | some userRequest =>
      if userRequest.role ≠ .user ∧ userRequest.role ≠ .admin then return .error .invalidRequest
      else if sanitizeString userRequest.userName = "" ∨ userRequest.password = "" then
        return .error .invalidRequest
      else do
        let uID : String ← ask .newRandom
        let hashedPassword : Option String ← ask (.generateFromPassword userRequest.password)
        if userRequest.email ≠ "" ∧ config.isEmailValid userRequest.email = false then
          return .error .invalidEmail
        else do
          let createdAt : String ← ask .unixTime
          insertUser
            { userRequest with
              id := uID
              userName := sanitizeString userRequest.userName
              password := hashedPassword.getD ""
              createdAt := some createdAt }

def setDetails (details : UserDetails) : Service Answer := do
  let updated : Except MongoError Unit ← ask (.setDetails details)
  match updated with
  | .ok _ => return .message "User details updated successfully"
  | .error _ => return .errorAndMessage .serverError "User details updated successfully"

/-- Without a hash nothing is answered; after a failed update both answers are written. -/
def updateUser (body : Option UserDetails) (claims : Claims) : Service Answer := do
  match body with
  | none => return .error .invalidRequest
  | some userRequest =>
      if userRequest.password = "" then setDetails { userRequest with id := claims.uid }
      else do
        let hashedPassword : Option String ← ask (.generateFromPassword userRequest.password)
        match hashedPassword with
        | none => return .nothing
        | some password => setDetails { userRequest with id := claims.uid, password := password }

def signToken (user : User) : Service Answer := do
  let signed : Bool ← ask (.signedString user.claims)
  if signed then return .token user.claims else return .error .serverError

def loginUser (body : Option User) : Service Answer := do
  match body with
  | none => return .error .invalidRequest
  | some userRequest =>
      if sanitizeString userRequest.userName = "" ∨ userRequest.password = "" then
        return .error .invalidRequest
      else do
        let found : Except MongoError User ← ask (.findUserByUsername (sanitizeString userRequest.userName))
        match found with
        | .error _ => return .error .userNotFound
        | .ok user =>
            if user.deactivatedAt ≠ none then return .error .userDeactivated
            else if config.bcrypt.compareHashAndPassword user.password userRequest.password = false then
              return .error .invalidCredentials
            else signToken user

namespace Repository

/-- The old password is asked for when the flag is set, in spite of its name. The failure of the hash function is
overwritten by the outcome of the update. -/
def updatePassword (userPassword : UserPassword) (isAdminBeingReset : Bool) : Service Bool := do
  let found : Except MongoError User ← ask (.findUserByUsername userPassword.username)
  match found with
  | .error _ => return false
  | .ok result =>
      if isAdminBeingReset ∧
          config.bcrypt.compareHashAndPassword result.password userPassword.oldPassword = false then
        return false
      else do
        let newHashedPassword : Option String ← ask (.generateFromPassword userPassword.newPassword)
        let updated : Except MongoError Unit ← ask (.setPassword result.id (newHashedPassword.getD ""))
        return updated.isOk

def isAdministrator (uid username : String) : Service Bool := do
  let found : Except MongoError User ← ask (.findAccount uid username)
  match found with
  | .error _ => return false
  | .ok result => return result.role = .admin

end Repository

def updatePassword (body : Option UserPassword) (claims : Claims) : Service Answer := do
  match body with
  | none => return .error .invalidRequest
  | some userPasswordRequest =>
      if config.strictPasswordPolicy ∧ validateStrictPassword userPasswordRequest.newPassword = false then
        return .error .strictPasswordPolicyViolation
      else if userPasswordRequest.newPassword = "" then return .error .invalidRequest
      else do
        let updated ←
          Repository.updatePassword config { userPasswordRequest with username := claims.username } true
        if updated then return .message "password has been reset" else return .error .invalidCredentials

def resetPassword (body : Option UserPassword) (claims : Claims) : Service Answer := do
  match body with
  | none => return .error .invalidRequest
  | some userPasswordRequest =>
      if config.strictPasswordPolicy ∧ validateStrictPassword userPasswordRequest.newPassword = false then
        return .error .strictPasswordPolicyViolation
      else if userPasswordRequest.username = "" ∨ userPasswordRequest.newPassword = "" then
        return .error .invalidRequest
      else do
        let administrator ← Repository.isAdministrator claims.uid claims.username
        if administrator then do
          let updated ← Repository.updatePassword config userPasswordRequest false
          if updated then return .message "password has been reset successfully"
          else return .error .serverError
        else return .error .unauthorized

def writeState (username userID : String) (deactivatedAt : Option String) : Service (Except AppError Unit) := do
  let updated : Except MongoError Unit ← ask (.setDeactivatedAt username deactivatedAt)
  match updated with
  | .error _ => return .error .serverError
  | .ok _ => do
      let projects : Except MongoError Unit ← ask (.updateProjectState userID (deactivatedAt.getD ""))
      match projects with
      | .error _ => return .error .serverError
      | .ok _ => do
          let committed : Except MongoError Unit ← ask .commitTransaction
          match committed with
          | .error _ => return .error .other
          | .ok _ => return .ok ()

def updateStateTransaction (username : String) (isDeactivate : Bool) : Service (Except AppError Unit) := do
  let session : Except MongoError Unit ← ask .startSession
  match session with
  | .error _ => return .error .other
  | .ok _ => do
      let transaction : Except MongoError Unit ← ask .startTransaction
      match transaction with
      | .error _ => return .error .other
      | .ok _ => do
          let found : Except MongoError User ← ask (.findUserByUsername username)
          match found with
          | .error _ => return .error .userNotFound
          | .ok user =>
              if user.role = .admin then return .error .updatingAdmin
              else if isDeactivate then do
                let deactivateTime : String ← ask .unixTime
                if user.deactivatedAt ≠ none then return .error .userAlreadyDeactivated
                else writeState username user.id (some deactivateTime)
              else writeState username user.id none

def updateUserState (body : Option UpdateUserState) (claims : Claims) : Service Answer := do
  match body with
  | none => return .error .invalidRequest
  | some userRequest =>
      match userRequest.isDeactivate with
      | none => return .error .invalidRequest
      | some isDeactivate => do
          let administrator ← Repository.isAdministrator claims.uid claims.username
          if administrator then do
            let updated ← updateStateTransaction userRequest.username isDeactivate
            match updated with
            | .error err => return .error err
            | .ok _ => return .message "user's state updated successfully"
          else return .error .unauthorized

/-- The account of an identity that the provider has verified is made with the first login. Whoever has its name is
taken for it, deactivated or not. -/
def dexCallback (name email : String) : Service Answer := do
  let createdAt : String ← ask .unixTime
  let uID : String ← ask .newRandom
  let hashedPassword : Option String ← ask (.generateFromPassword "")
  match hashedPassword with
  | none => return .error .serverError
  | some password => do
      let user : User := ⟨uID, email, password, email, name, .user, some createdAt, none, none⟩
      let inserted : Except MongoError Unit ← ask (.insertOne user)
      match inserted with
      | .ok _ => signToken user
      | .error .duplicateKey => do
          let found : Except MongoError User ← ask (.findUserByUsername email)
          match found with
          | .error _ => return .error .serverError
          | .ok result => signToken result
      | .error _ => return .error .serverError

/-- Done once at each start of the service. -/
def validatedAdminSetup (adminName adminPassword : String) : Service Answer := do
  if adminName = "" ∨ adminPassword = "" then .halt (.failed "Config has not been set")
  else do
    let uID : String ← ask .newRandom
    let hashedPassword : Option String ← ask (.generateFromPassword adminPassword)
    let createdAt : String ← ask .unixTime
    let inserted : Except MongoError Unit ← ask
      (.insertOne ⟨uID, adminName, hashedPassword.getD "", "", "", .admin, some createdAt, none, none⟩)
    match inserted with
    | .ok _ => return .nothing
    | .error .duplicateKey =>
        return .message "Admin already exists in the database, not creating a new admin"
    | .error _ => .halt (.panic "Unable to create admin")

def handle : Request → Service Answer
  | .createUser header body => jwtMiddleware header (createUser config body)
  | .updateUser header body => jwtMiddleware header (updateUser body)
  | .loginUser body => loginUser config body
  | .updatePassword header body => jwtMiddleware header (updatePassword config body)
  | .resetPassword header body => jwtMiddleware header (resetPassword config body)
  | .updateUserState header body => jwtMiddleware header (updateUserState body)
  | .dexCallback name email => dexCallback name email
  | .adminSetup adminName adminPassword => validatedAdminSetup adminName adminPassword

/-- The service with its requests in flight. -/
abbrev System := Pool Request Op Choice Reply GoError Answer Store

def System.step (system : System) (turn : Turn Request Choice) : Option System :=
  Pool.step (handle config) (exec config.bcrypt) system turn

end LitmusPortal.Accounts
