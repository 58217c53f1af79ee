import EPlatform.Accounts.SignIn

/-!
# Who is signed in

Whatever the requests, and however their statements are interleaved: a session that is good was begun by a request that gave
the password the account has now, and once the password has been written no session from before is good again.
-/

namespace EPlatform.SignIn

open Runs Accounts

/-! ### What a statement does -/

/-- An answer that says no. -/
def Answer.isNo : Answer → Bool
  | .refused | .interrupted | .incorrect | .forbidden => true
  | _ => false

/-- All that a statement of a request can do. -/
inductive Serves (hashing : Hashing) (number : Nat) (request : Request) (db : Database) : Stage → Database → Stage → Prop
  | loads : Serves hashing number request db .arrived db
      (.loaded (request.cookie.bind fun key => (db.sessions key).map (key, ·)))
  | finds {key : String} {data : SessionData} {user : Account} (h : hashing.Accepts db data user) :
      Serves hashing number request db (.loaded (some (key, data))) db (.served (some (key, data)) (some user))
  | findsNobody {session : Option (String × SessionData)} :
      Serves hashing number request db (.loaded session) db (.served session none)
  | flushes {key : String} {data : SessionData} :
      Serves hashing number request db (.loaded (some (key, data))) (db.flush key) (.served none none)
  | authenticates {session : Option (String × SessionData)} {user : Option Account} {account : Account}
      {email password : String} (hcall : request.call = .login email password) (hmem : account ∈ db.users)
      (hemail : account.email = email)
      (hcheck : hashing.check password account.password = true) :
      Serves hashing number request db (.served session user) db (.signingIn session account)
  | begins {session : Option (String × SessionData)} {user : Account} : Serves hashing number request db
      (.signingIn session user)
      (beginSession hashing number (session.map Prod.fst) user db) (.answered .signedIn)
  | keeps {key : String} {data : SessionData} {user : Account} (huser : data.user = user.pk)
      (hhash : data.authHash = hashing.authHash user.password) (hstored : (db.sessions key).isSome) :
      Serves hashing number request db (.signingIn (some (key, data)) user)
      { db with sessions := Function.update db.sessions key (some { data with request := number }) } (.answered .signedIn)
  | signsOut {session : Option (String × SessionData)} {user : Option Account} (hcall : request.call = .logout) :
      Serves hashing number request db (.served session user) (db.flushAny (session.map Prod.fst)) (.answered .signedOut)
  | checks {key : String} {data : SessionData} {user : Account} {currentPassword newPassword : String}
      (hcall : request.call = .changePassword currentPassword newPassword)
      (hcheck : hashing.check currentPassword user.password = true) :
      Serves hashing number request db (.served (some (key, data)) (some user)) db (.saving key user)
  | saves {key : String} {user : Account} {currentPassword newPassword : String}
      (hcall : request.call = .changePassword currentPassword newPassword) :
      Serves hashing number request db (.saving key user) (db.savePassword user.pk (makePassword hashing db newPassword))
        (.refreshing key { user with password := makePassword hashing db newPassword })
  | refreshes {key : String} {user : Account} : Serves hashing number request db (.refreshing key user)
      (beginSession hashing number (some key) user db) (.answered .changed)
  | tells {session : Option (String × SessionData)} {user : Account} (hcall : request.call = .me) :
      Serves hashing number request db (.served session (some user)) db (.answered (.me user.pk))
  | declines {stage : Stage} {answer : Answer} (h : answer.isNo = true) :
      Serves hashing number request db stage db (.answered answer)
  | stays {stage : Stage} : Serves hashing number request db stage db stage

theorem serves (hashing : Hashing) (number : Nat) (refused : Bool) (request : Request) (db : Database) (stage : Stage) :
    Serves hashing number request db stage (serve hashing number refused request db stage).1
      (serve hashing number refused request db stage).2 := by
  cases stage with
  | arrived => exact .loads
  | loaded session =>
    simp only [serve, getUser]
    split
    · exact .findsNobody
    · rename_i key data
      split
      · exact .findsNobody
      · rename_i user huser
        obtain ⟨hfound, hactive⟩ := Option.filter_eq_some_iff.mp huser
        split_ifs with hhash
        · exact .finds ⟨hfound, hactive, hhash⟩
        · exact .flushes
  | served session user =>
    simp only [serve, view]
    split
    · rename_i email password hcall
      split
      · exact .declines rfl
      · rename_i account haccount
        obtain ⟨hauthenticate, -⟩ := Option.filter_eq_some_iff.mp haccount
        obtain ⟨hfind, hcheck⟩ := Option.filter_eq_some_iff.mp hauthenticate
        exact .authenticates hcall (List.mem_of_find?_eq_some hfind) (by simpa using List.find?_some hfind)
          (Bool.and_eq_true_iff.mp hcheck).1
    · rename_i hcall
      exact .signsOut hcall
    · rename_i hcall
      split
      · split_ifs with hrefused hcheck
        · exact .declines rfl
        · exact .checks hcall hcheck
        · exact .declines rfl
      · exact .declines rfl
    · rename_i hcall
      split
      · exact .tells hcall
      · exact .declines rfl
  | signingIn session user =>
    simp only [serve, login]
    split
    · exact .begins
    · rename_i key data
      split_ifs with hsame
      · split
        · exact .declines rfl
        · rename_i stored hstored
          exact .keeps hsame.1 hsame.2 (by rw [hstored]; rfl)
      · exact .begins
  | saving key user =>
    simp only [serve]
    split
    · rename_i hcall
      exact .saves hcall
    · exact .stays
  | refreshing key user => exact .refreshes
  | answered answer => exact .stays

variable {hashing : Hashing} {casing : Casing} {s s' : State} {db db' : Database} {number : Nat} {refused : Bool}
  {request : Request} {stage stage' : Stage} {session : Option (String × SessionData)} {user : Account} {key : String}
  {data : SessionData}

/-! ### What only grows -/

structure Database.Grows (db db' : Database) : Prop where
  encodings : db.encodings <+: db'.encodings
  opened : db.opened <+: db'.opened
  users : ∀ user ∈ db.users, ∃ user' ∈ db'.users, user'.pk = user.pk ∧ user'.email = user.email

structure Grows (s s' : State) : Prop where
  database : s.database.Grows s'.database
  requests : ∀ (number : Nat) (request : Request) (stage : Stage), s.requests[number]? = some (request, stage) →
    ∃ stage', s'.requests[number]? = some (request, stage')

namespace Database.Grows

theorem refl (db : Database) : db.Grows db := ⟨List.prefix_refl _, List.prefix_refl _, fun user h => ⟨user, h, rfl, rfl⟩⟩

theorem trans {db'' : Database} (h : db.Grows db') (h' : db'.Grows db'') : db.Grows db'' := by
  refine ⟨h.encodings.trans h'.encodings, h.opened.trans h'.opened, fun user hmem => ?_⟩
  obtain ⟨user', hmem', hpk, hemail⟩ := h.users user hmem
  obtain ⟨user'', hmem'', hpk', hemail'⟩ := h'.users user' hmem'
  exact ⟨user'', hmem'', hpk'.trans hpk, hemail'.trans hemail⟩

theorem flush (db : Database) (key : String) : db.Grows (db.flush key) :=
  ⟨List.prefix_refl _, List.prefix_refl _, fun user h => ⟨user, h, rfl, rfl⟩⟩

theorem flushAny (db : Database) (key : Option String) : db.Grows (db.flushAny key) := by
  cases key with
  | none => exact refl db
  | some key => exact flush db key

/-- Rows are written in place. -/
theorem writeUsers {write : Account → Account} {encodings : List String} (hencodings : db.encodings <+: encodings)
    (hkeeps : ∀ user, (write user).pk = user.pk ∧ (write user).email = user.email) :
    db.Grows { db with users := db.users.map write, encodings } :=
  ⟨hencodings, List.prefix_refl _, fun user h => ⟨write user, List.mem_map_of_mem h, hkeeps user⟩⟩

theorem savePassword (db : Database) (pk : Uuid) (encoded : String) : db.Grows (db.savePassword pk encoded) := by
  refine writeUsers (List.prefix_append _ _) fun user => ?_
  split_ifs
  · exact ⟨rfl, rfl⟩
  · exact ⟨rfl, rfl⟩

theorem beginSession (hashing : Hashing) (number : Nat) (old : Option String) (user : Account) (db : Database) :
    db.Grows (beginSession hashing number old user db) := by
  obtain ⟨hencodings, -, husers⟩ := flushAny db old
  cases old with
  | none => exact ⟨hencodings, List.prefix_append _ _, husers⟩
  | some key => exact ⟨hencodings, List.prefix_append _ _, husers⟩

theorem serves (h : Serves hashing number request db stage db' stage') : db.Grows db' := by
  cases h with
  | flushes => exact flush db _
  | begins => exact beginSession hashing number _ _ db
  | keeps => exact ⟨List.prefix_refl _, List.prefix_refl _, fun user h => ⟨user, h, rfl, rfl⟩⟩
  | signsOut => exact flushAny db _
  | saves => exact savePassword db _ _
  | refreshes => exact beginSession hashing number _ _ db
  | _ => exact refl db

end Database.Grows

theorem grows_step (s : State) (event : Event) : Grows s (step hashing casing s event) := by
  have hsame : ∀ (number : Nat) (request : Request) (stage : Stage), s.requests[number]? = some (request, stage) →
      ∃ stage', s.requests[number]? = some (request, stage') := fun _ _ stage h => ⟨stage, h⟩
  cases event with
  | register email password pk =>
    rw [step]
    dsimp only
    split
    · rename_i user users hcreate
      obtain ⟨-, -, -, -, rfl⟩ := createAccount_ok hcreate
      exact ⟨⟨List.prefix_append _ _, List.prefix_refl _, fun user h => ⟨user, List.mem_append_left _ h, rfl, rfl⟩⟩, hsame⟩
    · exact ⟨.refl _, hsame⟩
  | resetPassword user newPassword => exact ⟨.savePassword _ _ _, hsame⟩
  | setActive user active =>
    refine ⟨.writeUsers (List.prefix_refl _) fun account => ?_, hsame⟩
    split_ifs
    · exact ⟨rfl, rfl⟩
    · exact ⟨rfl, rfl⟩
  | expire key => exact ⟨.flush _ key, hsame⟩
  | request request =>
    refine ⟨.refl _, fun number other stage h => ⟨stage, ?_⟩⟩
    obtain ⟨hlt, hget⟩ := List.getElem?_eq_some_iff.mp h
    exact (List.getElem?_append_left hlt).trans h
  | act number refused =>
    rw [step]
    split
    · exact ⟨.refl _, hsame⟩
    · rename_i request stage hnumber
      refine ⟨.serves (serves hashing number refused request s.database stage), fun other request' stage' hother => ?_⟩
      dsimp only
      rw [List.getElem?_set]
      split_ifs with heq hlt
      · rw [← heq, hnumber] at hother
        cases hother
        exact ⟨_, rfl⟩
      · obtain ⟨hlt', -⟩ := List.getElem?_eq_some_iff.mp hnumber
        exact absurd hlt' hlt
      · exact ⟨stage', hother⟩

/-! ### What a session says of its request -/

/-- There is this account, under this address. -/
def Database.Knows (db : Database) (pk : Uuid) (email : String) : Prop := ∃ user ∈ db.users, user.pk = pk ∧ user.email = email

/-- The request that wrote the session gave a password for its user, and the session holds the hash of what accepts it. -/
def Established (hashing : Hashing) (s : State) (data : SessionData) : Prop :=
  ∃ request stage email raw encoded, s.requests[data.request]? = some (request, stage) ∧
    s.database.Knows data.user email ∧ request.call.Presents email raw ∧ encoded ∈ s.database.encodings ∧
      hashing.check raw encoded = true ∧ data.authHash = hashing.authHash encoded

/-- The session stands under the key it was begun with. -/
structure Held (hashing : Hashing) (s : State) (key : String) (data : SessionData) : Prop where
  opened : ∃ n, key = hashing.key n ∧ s.database.opened[n]? = some (data.user, data.authHash)
  established : Established hashing s data

def HeldAny (hashing : Hashing) (s : State) (session : Option (String × SessionData)) : Prop :=
  ∀ key data, session = some (key, data) → Held hashing s key data

/-- The user was read, or is about to be saved. -/
structure Known (s : State) (user : Account) : Prop where
  known : s.database.Knows user.pk user.email
  made : user.password ∈ s.database.encodings

/-- The request may begin a session of this user. -/
def Proven (hashing : Hashing) (s : State) (request : Request) (user : Account) : Prop :=
  Known s user ∧ ∃ raw, request.call.Presents user.email raw ∧ hashing.check raw user.password = true

def StageSound (hashing : Hashing) (s : State) (request : Request) : Stage → Prop
  | .arrived | .answered _ => True
  | .loaded session => HeldAny hashing s session
  | .served session user => HeldAny hashing s session ∧ ∀ account, user = some account → Known s account
  | .signingIn session user => HeldAny hashing s session ∧ Proven hashing s request user
  | .saving _ user => Known s user
  | .refreshing _ user => Proven hashing s request user

/-- The users, each with a password that was made for it. -/
structure UsersSound (db : Database) : Prop where
  unique : Table.Unique (fun user : Account => user.pk) db.users
  users : ∀ user ∈ db.users, user.password ∈ db.encodings

structure Sound (hashing : Hashing) (s : State) : Prop extends UsersSound s.database where
  sessions : ∀ key data, s.database.sessions key = some data → Held hashing s key data
  requests : ∀ (number : Nat) (request : Request) (stage : Stage), s.requests[number]? = some (request, stage) →
    StageSound hashing s request stage

section Mono

variable (hgrows : Grows s s')

include hgrows

theorem Grows.knows {pk : Uuid} {email : String} (h : s.database.Knows pk email) : s'.database.Knows pk email := by
  obtain ⟨user, hmem, hpk, hemail⟩ := h
  obtain ⟨user', hmem', hpk', hemail'⟩ := hgrows.database.users user hmem
  exact ⟨user', hmem', hpk'.trans hpk, hemail'.trans hemail⟩

theorem Grows.established (h : Established hashing s data) : Established hashing s' data := by
  obtain ⟨request, stage, email, raw, encoded, hrequest, hknows, hpresents, hmade, hcheck, hhash⟩ := h
  obtain ⟨stage', hrequest'⟩ := hgrows.requests data.request request stage hrequest
  exact ⟨request, stage', email, raw, encoded, hrequest', hgrows.knows hknows, hpresents,
    hgrows.database.encodings.subset hmade, hcheck, hhash⟩

theorem Grows.held (h : Held hashing s key data) : Held hashing s' key data := by
  obtain ⟨⟨n, hkey, hopened⟩, hestablished⟩ := h
  obtain ⟨hlt, hget⟩ := List.getElem?_eq_some_iff.mp hopened
  have hopened' := List.prefix_iff_getElem?.mp hgrows.database.opened n hlt
  exact ⟨⟨n, hkey, hopened'.trans (congrArg some hget)⟩, hgrows.established hestablished⟩

theorem Grows.heldAny (h : HeldAny hashing s session) : HeldAny hashing s' session :=
  fun key data hsession => hgrows.held (h key data hsession)

theorem Grows.known (h : Known s user) : Known s' user :=
  ⟨hgrows.knows h.known, hgrows.database.encodings.subset h.made⟩

theorem Grows.proven (h : Proven hashing s request user) : Proven hashing s' request user := ⟨hgrows.known h.1, h.2⟩

theorem Grows.stageSound (h : StageSound hashing s request stage) : StageSound hashing s' request stage := by
  cases stage with
  | arrived => trivial
  | loaded session => exact hgrows.heldAny h
  | served session user => exact ⟨hgrows.heldAny h.1, fun account haccount => hgrows.known (h.2 account haccount)⟩
  | signingIn session user => exact ⟨hgrows.heldAny h.1, hgrows.proven h.2⟩
  | saving key user => exact hgrows.known h
  | refreshing key user => exact hgrows.proven h
  | answered answer => trivial

end Mono

theorem Proven.established (h : Proven hashing s request user) (hnumber : s.requests[number]? = some (request, stage)) :
    Established hashing s ⟨user.pk, hashing.authHash user.password, number⟩ := by
  obtain ⟨⟨hknows, hmade⟩, raw, hpresents, hcheck⟩ := h
  exact ⟨request, stage, user.email, raw, user.password, hnumber, hknows, hpresents, hmade, hcheck, rfl⟩

/-! ### Sessions, statement by statement -/

theorem sessions_flush_eq (db : Database) (k : String) :
    (db.flush k).sessions = fun key => if key = k then none else db.sessions key := by
  funext key
  exact Function.update_apply _ _ _ _

theorem sessions_beginSession_eq (old : Option String) : (beginSession hashing number old user db).sessions =
    fun key => if key = hashing.key db.opened.length then some ⟨user.pk, hashing.authHash user.password, number⟩
      else (db.flushAny old).sessions key := by
  funext key
  exact Function.update_apply _ _ _ _

theorem sessions_flush {k : String} (h : (db.flush k).sessions key = some data) : db.sessions key = some data := by
  rw [sessions_flush_eq] at h
  dsimp only at h
  split_ifs at h
  exact h

theorem sessions_flushAny {old : Option String} (h : (db.flushAny old).sessions key = some data) :
    db.sessions key = some data := by
  cases old with
  | none => exact h
  | some k => exact sessions_flush h

theorem sessions_beginSession {old : Option String}
    (h : (beginSession hashing number old user db).sessions key = some data) : db.sessions key = some data ∨
      key = hashing.key db.opened.length ∧ data = ⟨user.pk, hashing.authHash user.password, number⟩ := by
  rw [sessions_beginSession_eq] at h
  dsimp only at h
  split_ifs at h with hkey
  · exact .inr ⟨hkey, (Option.some.inj h).symm⟩
  · exact .inl (sessions_flushAny h)

theorem opened_beginSession (old : Option String) : (beginSession hashing number old user db).opened[db.opened.length]? =
    some (user.pk, hashing.authHash user.password) := by
  rw [beginSession, List.getElem?_append_right (Nat.le_refl _), Nat.sub_self]
  rfl

/-- The session that was begun is the request's. -/
theorem Proven.held {old : Option String} (h : Proven hashing s request user)
    (hnumber : s.requests[number]? = some (request, stage))
    (hdatabase : s.database = beginSession hashing number old user db) :
    Held hashing s (hashing.key db.opened.length) ⟨user.pk, hashing.authHash user.password, number⟩ := by
  refine ⟨⟨db.opened.length, rfl, ?_⟩, h.established hnumber⟩
  rw [hdatabase]
  exact opened_beginSession old

/-- What a statement leaves in the table was there, or is what its request may put there. -/
theorem Serves.held (h : Serves hashing number request s.database stage db' stage') (hgrows : Grows s s')
    (hdatabase : s'.database = db') (hnumber : s'.requests[number]? = some (request, stage'))
    (hsessions : ∀ key data, s.database.sessions key = some data → Held hashing s key data)
    (hstage : StageSound hashing s request stage) (hsession : db'.sessions key = some data) : Held hashing s' key data := by
  have hold : s.database.sessions key = some data → Held hashing s' key data :=
    fun hstored => hgrows.held (hsessions key data hstored)
  cases h with
  | flushes => exact hold (sessions_flush hsession)
  | signsOut => exact hold (sessions_flushAny hsession)
  | begins =>
    obtain hstored | ⟨rfl, rfl⟩ := sessions_beginSession hsession
    · exact hold hstored
    · exact (hgrows.proven hstage.2).held hnumber hdatabase
  | refreshes =>
    obtain hstored | ⟨rfl, rfl⟩ := sessions_beginSession hsession
    · exact hold hstored
    · exact (hgrows.proven hstage).held hnumber hdatabase
  | @keeps kept read user huser hhash hstored =>
    dsimp only at hsession
    rw [Function.update_apply] at hsession
    split_ifs at hsession with hkey
    · cases hsession
      obtain ⟨⟨n, hn, hopened⟩, -⟩ := hgrows.held (hstage.1 kept read rfl)
      refine ⟨⟨n, hkey.trans hn, hopened⟩, ?_⟩
      have hestablished := (hgrows.proven hstage.2).established hnumber
      rw [← huser, ← hhash] at hestablished
      exact hestablished
    · exact hold hsession
  | _ => exact hold hsession

theorem known_of_mem (h : Sound hashing s) (hmem : user ∈ s.database.users) : Known s user :=
  ⟨⟨user, hmem, rfl, rfl⟩, h.users user hmem⟩

/-- Where a statement leaves its request is as sound. -/
theorem Serves.stageSound (h : Serves hashing number request s.database stage db' stage') (hgrows : Grows s s')
    (hdatabase : s'.database = db') (hchecks : hashing.ChecksItsOwn) (hsound : Sound hashing s)
    (hstage : StageSound hashing s request stage) : StageSound hashing s' request stage' := by
  cases h with
  | loads =>
    intro key data hsession
    obtain ⟨k, hcookie, hread⟩ := Option.bind_eq_some_iff.mp hsession
    obtain ⟨stored, hstored, heq⟩ := Option.map_eq_some_iff.mp hread
    cases heq
    exact hgrows.held (hsound.sessions key data hstored)
  | finds haccepts =>
    refine ⟨hgrows.heldAny hstage, fun account haccount => ?_⟩
    cases haccount
    exact hgrows.known (known_of_mem hsound (Table.find_eq_some haccepts.1).1)
  | findsNobody => exact ⟨hgrows.heldAny hstage, fun account h => by cases h⟩
  | flushes => exact ⟨fun key data h => (by cases h), fun account h => (by cases h)⟩
  | authenticates hcall hmem hemail hcheck =>
    refine ⟨hgrows.heldAny hstage.1, hgrows.proven ⟨known_of_mem hsound hmem, _, ?_, hcheck⟩⟩
    rw [hcall]
    exact ⟨hemail.symm, rfl⟩
  | checks hcall hcheck => exact hgrows.known (hstage.2 _ rfl)
  | @saves key user currentPassword newPassword hcall =>
    refine ⟨⟨(hgrows.known hstage).known, ?_⟩, newPassword, ?_, hchecks _ _⟩
    · rw [hdatabase]
      exact List.mem_append_right _ List.mem_cons_self
    · rw [hcall]
      exact rfl
  | stays => exact hgrows.stageSound hstage
  | _ => trivial

/-! ### The users -/

theorem UsersSound.flush (h : UsersSound db) (key : String) : UsersSound (db.flush key) := ⟨h.unique, h.users⟩

theorem UsersSound.flushAny (h : UsersSound db) (old : Option String) : UsersSound (db.flushAny old) := by
  cases old with
  | none => exact h
  | some key => exact h.flush key

theorem UsersSound.beginSession (h : UsersSound db) (old : Option String) :
    UsersSound (beginSession hashing number old user db) := ⟨(h.flushAny old).unique, by
  have husers := (h.flushAny old).users
  cases old with
  | none => exact husers
  | some key => exact husers⟩

theorem UsersSound.savePassword (h : UsersSound db) (pk : Uuid) (encoded : String) :
    UsersSound (db.savePassword pk encoded) := by
  refine ⟨(Table.unique_map_iff fun user => ?_).mpr h.unique, fun user hmem => ?_⟩
  · split_ifs
    · rfl
    · rfl
  · obtain ⟨before, hbefore, rfl⟩ := List.mem_map.mp hmem
    split_ifs
    · exact List.mem_append_right _ List.mem_cons_self
    · exact List.mem_append_left _ (h.users before hbefore)

theorem UsersSound.setActive (h : UsersSound db) (pk : Uuid) (active : Bool) :
    UsersSound { db with
      users := db.users.map fun account => if account.pk = pk then { account with isActive := active } else account } := by
  refine ⟨(Table.unique_map_iff fun user => ?_).mpr h.unique, fun user hmem => ?_⟩
  · split_ifs
    · rfl
    · rfl
  · obtain ⟨before, hbefore, rfl⟩ := List.mem_map.mp hmem
    split_ifs
    · exact h.users before hbefore
    · exact h.users before hbefore

theorem password_createAccount {makePassword : String → String} {email password : String} {pk : Uuid}
    {users users' : List Account} (h : createAccount casing makePassword email password pk users = .ok (user, users')) :
    user.password = makePassword password := by
  simp only [createAccount, mapError_eq_ok, createUser, bind_eq_ok, require_eq_ok, exists_const, pure_eq_ok,
    Prod.mk.injEq] at h
  obtain ⟨-, after, -, rfl, rfl⟩ := h
  rfl

theorem UsersSound.register {encoded email password : String} {pk : Uuid} {users : List Account} (h : UsersSound db)
    (hcreate : createAccount casing (fun _ => encoded) email password pk db.users = .ok (user, users)) :
    UsersSound { db with users, encodings := db.encodings ++ [encoded] } := by
  have hpassword := password_createAccount hcreate
  obtain ⟨-, -, -, hfree, rfl⟩ := createAccount_ok hcreate
  refine ⟨Table.unique_append h.unique fun other hother heq => hfree other hother (.inl heq), fun account hmem => ?_⟩
  obtain hold | hnew := List.mem_append.mp hmem
  · exact List.mem_append_left _ (h.users account hold)
  · rw [List.mem_singleton.mp hnew, hpassword]
    exact List.mem_append_right _ List.mem_cons_self

theorem UsersSound.serves (h : UsersSound db) (hserves : Serves hashing number request db stage db' stage') :
    UsersSound db' := by
  cases hserves with
  | begins => exact h.beginSession _
  | refreshes => exact h.beginSession _
  | flushes => exact h.flush _
  | keeps => exact ⟨h.unique, h.users⟩
  | signsOut => exact h.flushAny _
  | saves => exact h.savePassword _ _
  | _ => exact h

/-! ### Every step -/

/-- A step that begins no session leaves everything as sound as it was. -/
theorem Sound.of_grows (h : Sound hashing s) (hgrows : Grows s s') (husers : UsersSound s'.database)
    (hsessions : ∀ key data, s'.database.sessions key = some data → s.database.sessions key = some data)
    (hrequests : ∀ (number : Nat) (request : Request) (stage : Stage), s'.requests[number]? = some (request, stage) →
      s.requests[number]? = some (request, stage) ∨ stage = .arrived) : Sound hashing s' where
  unique := husers.unique
  users := husers.users
  sessions key data hstored := hgrows.held (h.sessions key data (hsessions key data hstored))
  requests number request stage hnumber := by
    obtain hold | rfl := hrequests number request stage hnumber
    · exact hgrows.stageSound (h.requests number request stage hold)
    · trivial

theorem Sound.step (hchecks : hashing.ChecksItsOwn) (h : Sound hashing s) (event : Event) :
    Sound hashing (step hashing casing s event) := by
  have hgrows : Grows s (SignIn.step hashing casing s event) := grows_step s event
  have husers : UsersSound s.database := h.toUsersSound
  cases event with
  | register email password pk =>
    rw [SignIn.step] at hgrows ⊢
    dsimp only at hgrows ⊢
    split at hgrows
    · rename_i user users hcreate
      exact h.of_grows hgrows (husers.register hcreate) (fun _ _ hstored => hstored) fun _ _ _ hnumber => .inl hnumber
    · exact h
  | resetPassword pk newPassword =>
    exact h.of_grows hgrows (husers.savePassword _ _) (fun _ _ hstored => hstored) fun _ _ _ hnumber => .inl hnumber
  | setActive pk active =>
    exact h.of_grows hgrows (husers.setActive _ _) (fun _ _ hstored => hstored) fun _ _ _ hnumber => .inl hnumber
  | expire key =>
    exact h.of_grows hgrows (husers.flush key) (fun _ _ hstored => sessions_flush hstored) fun _ _ _ hnumber => .inl hnumber
  | request arriving =>
    refine h.of_grows hgrows husers (fun _ _ hstored => hstored) fun number request stage hnumber => ?_
    have hsome : (s.requests ++ [(arriving, .arrived)])[number]? = some (request, stage) := hnumber
    rw [List.getElem?_append] at hsome
    split_ifs at hsome with hlt
    · exact .inl hsome
    · right
      cases List.mem_singleton.mp (List.mem_of_getElem? hsome)
      rfl
  | act number refused =>
    rw [SignIn.step] at hgrows ⊢
    split at hgrows
    · exact h
    · rename_i request stage hnumber
      have hserves := serves hashing number refused request s.database stage
      have hstage := h.requests number request stage hnumber
      obtain ⟨hlt, -⟩ := List.getElem?_eq_some_iff.mp hnumber
      have hset : (s.requests.set number (request, (serve hashing number refused request s.database stage).2))[number]? = _ :=
        List.getElem?_set_self hlt
      refine ⟨husers.serves hserves, fun key data hstored => ?_, ?_⟩
      · exact hserves.held hgrows rfl hset h.sessions hstage hstored
      · intro other request' stage' hother
        by_cases heq : number = other
        · subst heq
          rw [hset] at hother
          cases hother
          exact hserves.stageSound hgrows rfl hchecks h hstage
        · rw [List.getElem?_set_ne heq] at hother
          exact hgrows.stageSound (h.requests other request' stage' hother)

theorem sound_start : Sound hashing {} where
  toUsersSound := ⟨List.nodup_nil, fun _ h => absurd h List.not_mem_nil⟩
  sessions _ _ h := by cases h
  requests _ _ _ h := by cases h

theorem sound_final (hchecks : hashing.ChecksItsOwn) (casing : Casing) (run : List Event) :
    Sound hashing (final (step hashing casing) {} run) :=
  final_of_step (fun _ event h => h.step hchecks event) sound_start run

/-! ### Who is signed in -/

/-- Of two passwords that were made, only the same has the same hash. -/
theorem Hashing.Distinct.eq_of_authHash (h : hashing.Distinct db) {encoded encoded' : String} (hmade : encoded ∈ db.encodings)
    (hmade' : encoded' ∈ db.encodings) (hhash : hashing.authHash encoded = hashing.authHash encoded') : encoded = encoded' :=
  List.inj_on_of_nodup_map h.hashes hmade hmade' hhash

/-- The session is good for the user because its request gave the password the user has. -/
theorem Held.presented (h : Held hashing s key data) (hsound : Sound hashing s) (hdistinct : hashing.Distinct s.database)
    (haccepts : hashing.Accepts s.database data user) : ∃ request stage raw,
      s.requests[data.request]? = some (request, stage) ∧ request.call.Presents user.email raw ∧
        hashing.check raw user.password = true := by
  obtain ⟨request, stage, email, raw, encoded, hrequest, ⟨known, hknown, hpk, rfl⟩, hpresents, hmade, hcheck, hhash⟩ :=
    h.established
  obtain ⟨hfound, -, haccepted⟩ := haccepts
  obtain ⟨hmem, huser⟩ := Table.find_eq_some hfound
  obtain rfl := hsound.unique.eq hmem hknown (huser.trans hpk.symm)
  obtain rfl := hdistinct.eq_of_authHash hmade (hsound.users user hmem) (hhash.symm.trans haccepted.symm)
  exact ⟨request, stage, raw, hrequest, hpresents, hcheck⟩

end EPlatform.SignIn
