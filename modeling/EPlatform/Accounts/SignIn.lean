import EPlatform.Accounts.Services
import EPlatform.Runs.Run
import Mathlib.Logic.Function.Basic

/-!
# Signing in, and staying signed in

The requests that sign in, sign out and change a password, each cut where it reads or writes a row. A session holds a hash of
the password as it was when the user signed in, and is good for as long as the account still has that password.
-/

namespace EPlatform.SignIn

open Runs Accounts

/-! ### Requests and rows -/

inductive Call
  | login (email password : String)
  | logout
  | changePassword (currentPassword newPassword : String)
  | me
  deriving DecidableEq, Repr

/-- A request and the cookie it comes with. -/
structure Request where
  cookie : Option String
  call : Call
  deriving DecidableEq, Repr

/-- What a session holds of its user, and the request that wrote it, which nothing reads. -/
structure SessionData where
  user : Uuid
  authHash : String
  request : Nat
  deriving DecidableEq, Repr

/-- The keys and salts that are drawn, in their order, and what is made of a password. -/
structure Hashing where
  key : Nat → String
  salt : Nat → String
  encode : String → String → String
  check : String → String → Bool
  authHash : String → String

/-- The rows. `opened` tells of each session that was begun whose it was and what it held, and `encodings` is what
`set_password` has made: nothing reads them. -/
structure Database where
  users : List Account := []
  sessions : String → Option SessionData := fun _ => none
  opened : List (Uuid × String) := []
  encodings : List String := []

inductive Answer
  | signedIn
  | refused
  | interrupted
  | signedOut
  | changed
  | incorrect
  | forbidden
  | me (user : Uuid)
  deriving DecidableEq, Repr

/-- Where a request stands, with the session it was found to have and the user as it has read it. -/
inductive Stage
  | arrived
  | loaded (session : Option (String × SessionData))
  | served (session : Option (String × SessionData)) (user : Option Account)
  | signingIn (session : Option (String × SessionData)) (user : Account)
  | saving (key : String) (user : Account)
  | refreshing (key : String) (user : Account)
  | answered (answer : Answer)
  deriving DecidableEq, Repr

structure State where
  database : Database := {}
  requests : List (Request × Stage) := []

/-! ### Sessions and passwords -/

namespace Database

variable (db : Database)

def userAt (pk : Uuid) : Option Account := Table.find (fun user : Account => user.pk) pk db.users

/-- `session.flush()`. -/
def flush (key : String) : Database := { db with sessions := Function.update db.sessions key none }

def flushAny : Option String → Database
  | none => db
  | some key => db.flush key

/-- `user.save(update_fields=["password"])`. -/
def savePassword (pk : Uuid) (encoded : String) : Database :=
  { db with
    users := db.users.map fun user => if user.pk = pk then { user with password := encoded } else user
    encodings := db.encodings ++ [encoded] }

end Database

section Views

variable (hashing : Hashing)

/-- `make_password`, with a salt of its own. -/
def makePassword (db : Database) (raw : String) : String := hashing.encode (hashing.salt db.encodings.length) raw

/-- The session of the cookie ends, and one under a key of its own begins. -/
def beginSession (number : Nat) (old : Option String) (user : Account) (db : Database) : Database :=
  { db.flushAny old with
    sessions := Function.update (db.flushAny old).sessions (hashing.key db.opened.length)
      (some ⟨user.pk, hashing.authHash user.password, number⟩)
    opened := db.opened ++ [(user.pk, hashing.authHash user.password)] }

/-- `get_user`: a session that no longer fits its user is flushed, and one whose user may not sign in is left. -/
def getUser (session : Option (String × SessionData)) (db : Database) : Database × Stage :=
  match session with
  | none => (db, .served none none)
  | some (key, data) =>
    match (db.userAt data.user).filter (·.isActive) with
    | none => (db, .served (some (key, data)) none)
    | some user =>
      if hashing.authHash user.password = data.authHash then (db, .served (some (key, data)) (some user))
      else (db.flush key, .served none none)

/-- `authenticate`, on the address as it is written. -/
def authenticate (email password : String) (db : Database) : Option Account :=
  (db.users.find? fun user => user.email = email).filter fun user => hashing.check password user.password && user.isActive

/-- `login`: a session of the same user that is still good is kept, unless it has been ended since. -/
def login (number : Nat) (session : Option (String × SessionData)) (user : Account) (db : Database) : Database × Stage :=
  match session with
  | none => (beginSession hashing number none user db, .answered .signedIn)
  | some (key, data) =>
    if data.user = user.pk ∧ data.authHash = hashing.authHash user.password then
      match db.sessions key with
      | none => (db, .answered .interrupted)
      | some _ =>
        ({ db with sessions := Function.update db.sessions key (some { data with request := number }) }, .answered .signedIn)
    else (beginSession hashing number (some key) user db, .answered .signedIn)

/-- `LoginView.post`, `LogoutView.post`, `PasswordChangeView.post` and `MeView.get`, once the user is known. -/
def view (refused : Bool) (call : Call) (session : Option (String × SessionData)) (user : Option Account) (db : Database) :
    Database × Stage :=
  match call with
  | .login email password =>
    match (authenticate hashing email password db).filter fun _ => !refused with
    | none => (db, .answered .refused)
    | some account => (db, .signingIn session account)
  | .logout => (db.flushAny (session.map Prod.fst), .answered .signedOut)
  | .changePassword currentPassword _ =>
    match session, user with
    | some (key, _), some user =>
      if refused then (db, .answered .refused)
      else if hashing.check currentPassword user.password then (db, .saving key user)
      else (db, .answered .incorrect)
    | _, _ => (db, .answered .forbidden)
  | .me =>
    match user with
    | some user => (db, .answered (.me user.pk))
    | none => (db, .answered .forbidden)

/-- The next statement of a request. -/
def serve (number : Nat) (refused : Bool) (request : Request) (db : Database) : Stage → Database × Stage
  | .arrived => (db, .loaded (request.cookie.bind fun key => (db.sessions key).map (key, ·)))
  | .loaded session => getUser hashing session db
  | .served session user => view hashing refused request.call session user db
  | .signingIn session user => login hashing number session user db
  | .saving key user =>
    match request.call with
    | .changePassword _ newPassword =>
      let encoded := makePassword hashing db newPassword
      (db.savePassword user.pk encoded, .refreshing key { user with password := encoded })
    | _ => (db, .saving key user)
  | .refreshing key user => (beginSession hashing number (some key) user db, .answered .changed)
  | .answered answer => (db, .answered answer)

/-! ### What happens -/

/-- `refused` is what turns a request away before its view decides: a throttle, a lockout or a validator. -/
inductive Event
  | register (email password : String) (pk : Uuid)
  | resetPassword (user : Uuid) (newPassword : String)
  | setActive (user : Uuid) (active : Bool)
  | expire (key : String)
  | request (request : Request)
  | act (number : Nat) (refused : Bool)
  deriving DecidableEq, Repr

variable (casing : Casing)

/-- A reset is what `reset_password` commits: its token is redeemed by then. -/
def step (s : State) : Event → State
  | .register email password pk =>
    let encoded := makePassword hashing s.database password
    match createAccount casing (fun _ => encoded) email password pk s.database.users with
    | .ok (_, users) => { s with database := { s.database with users, encodings := s.database.encodings ++ [encoded] } }
    | .error _ => s
  | .resetPassword user newPassword =>
    { s with database := s.database.savePassword user (makePassword hashing s.database newPassword) }
  | .setActive user active =>
    { s with database := { s.database with
        users := s.database.users.map fun account => if account.pk = user then { account with isActive := active } else account } }
  | .expire key => { s with database := s.database.flush key }
  | .request request => { s with requests := s.requests ++ [(request, .arrived)] }
  | .act number refused =>
    match s.requests[number]? with
    | none => s
    | some (request, stage) =>
      ⟨(serve hashing number refused request s.database stage).1,
        s.requests.set number (request, (serve hashing number refused request s.database stage).2)⟩

end Views

/-! ### Who is signed in -/

/-- A password is accepted by what was made of it. -/
def Hashing.ChecksItsOwn (hashing : Hashing) : Prop :=
  ∀ n raw, hashing.check raw (hashing.encode (hashing.salt n) raw) = true

/-- No key has been drawn twice, and no two of the passwords that were made have one hash. -/
structure Hashing.Distinct (hashing : Hashing) (db : Database) : Prop where
  keys : ∀ m n, m < db.opened.length → n < db.opened.length → hashing.key m = hashing.key n → m = n
  hashes : (db.encodings.map hashing.authHash).Nodup

/-- The session is good for this user. -/
def Hashing.Accepts (hashing : Hashing) (db : Database) (data : SessionData) (user : Account) : Prop :=
  db.userAt data.user = some user ∧ user.isActive = true ∧ hashing.authHash user.password = data.authHash

/-- The password a request gives for an account, which it signs in to or changes to it. -/
def Call.Presents (email raw : String) : Call → Prop
  | .login email' password => email' = email ∧ password = raw
  | .changePassword _ newPassword => newPassword = raw
  | _ => False

end EPlatform.SignIn
