import EPlatform.Accounts.SignedIn

/-!
# What signs out

A password that is written ends every session of its user there is, and nothing brings one of them back. Who is answered as a
user, or changes a password, had been signed in while the request was served.
-/

namespace EPlatform.SignIn

open Runs Accounts

variable {hashing : Hashing} {casing : Casing} {s s' : State} {db db' : Database} {number : Nat} {request : Request}
  {stage stage' : Stage} {session : Option (String × SessionData)} {user : Account} {key : String} {data : SessionData}

/-! ### Passwords that were written -/

theorem find_map {write : Account → Account} (hkeeps : ∀ user, (write user).pk = user.pk) (pk : Uuid) (users : List Account) :
    Table.find (fun user : Account => user.pk) pk (users.map write) =
      (Table.find (fun user : Account => user.pk) pk users).map write := by
  have hpk : (fun user : Account => decide (user.pk = pk)) ∘ write = fun user => decide (user.pk = pk) := by
    funext user
    rw [Function.comp_apply, hkeeps]
  rw [Table.find, Table.find, List.find?_map, hpk]

/-- The user has the password it had, or one that has just been made. -/
def Renews (db db' : Database) : Prop := ∀ (pk : Uuid) (user' : Account), db'.userAt pk = some user' →
  (∃ user, db.userAt pk = some user ∧ user.password = user'.password) ∨ db'.encodings = db.encodings ++ [user'.password]

theorem renews_of_users (h : db'.users = db.users) : Renews db db' := by
  intro pk user' hafter
  rw [Database.userAt, h] at hafter
  exact .inl ⟨user', hafter, rfl⟩

theorem renews_savePassword (db : Database) (saved : Uuid) (encoded : String) : Renews db (db.savePassword saved encoded) := by
  intro pk user' hafter
  rw [Database.userAt, Database.savePassword, find_map fun user => by split_ifs <;> rfl] at hafter
  obtain ⟨user, hfound, rfl⟩ := Option.map_eq_some_iff.mp hafter
  split_ifs
  · exact .inr rfl
  · exact .inl ⟨user, hfound, rfl⟩

theorem renews_flushAny (db : Database) (old : Option String) : Renews db (db.flushAny old) := by
  apply renews_of_users
  cases old with
  | none => rfl
  | some key => rfl

theorem renews_beginSession (old : Option String) : Renews db (beginSession hashing number old user db) := by
  apply renews_of_users
  cases old with
  | none => rfl
  | some key => rfl

theorem Serves.renews (h : Serves hashing number request db stage db' stage') : Renews db db' := by
  cases h with
  | begins => exact renews_beginSession _
  | refreshes => exact renews_beginSession _
  | signsOut => exact renews_flushAny db _
  | saves => exact renews_savePassword db _ _
  | _ => exact renews_of_users rfl

theorem renews_step (s : State) (event : Event) : Renews s.database (step hashing casing s event).database := by
  cases event with
  | register email password pk =>
    rw [step]
    dsimp only
    split
    · rename_i user users hcreate
      intro pk' user' hafter
      have hpassword := password_createAccount hcreate
      obtain ⟨-, -, -, -, rfl⟩ := createAccount_ok hcreate
      rw [Database.userAt, Table.find, List.find?_append] at hafter
      obtain hfound | ⟨-, hfound⟩ := Option.or_eq_some_iff.mp hafter
      · exact .inl ⟨user', hfound, rfl⟩
      · right
        rw [List.mem_singleton.mp (List.mem_of_find?_eq_some hfound), hpassword]
    · exact renews_of_users rfl
  | resetPassword pk newPassword => exact renews_savePassword _ _ _
  | setActive changed active =>
    intro pk user' hafter
    rw [step, Database.userAt, find_map fun user => by split_ifs <;> rfl] at hafter
    obtain ⟨user, hfound, rfl⟩ := Option.map_eq_some_iff.mp hafter
    refine .inl ⟨user, hfound, ?_⟩
    split_ifs
    · rfl
    · rfl
  | expire key => exact renews_of_users rfl
  | request request => exact renews_of_users rfl
  | act number refused =>
    rw [step]
    split
    · exact renews_of_users rfl
    · rename_i request stage hnumber
      exact (serves hashing number refused request s.database stage).renews

/-- The password of the user was made when so many had been made already, or later. -/
structure MadeSince (count : Nat) (pk : Uuid) (db : Database) : Prop where
  within : count ≤ db.encodings.length
  made : ∀ user, db.userAt pk = some user → ∃ n, count ≤ n ∧ db.encodings[n]? = some user.password

theorem MadeSince.renews {count : Nat} {pk : Uuid} (h : MadeSince count pk db) (hrenews : Renews db db')
    (hgrows : db.encodings <+: db'.encodings) : MadeSince count pk db' := by
  refine ⟨Nat.le_trans h.within hgrows.length_le, fun user' hafter => ?_⟩
  obtain ⟨user, hbefore, hsame⟩ | hnew := hrenews pk user' hafter
  · obtain ⟨n, hn, hmade⟩ := h.made user hbefore
    obtain ⟨hlt, hget⟩ := List.getElem?_eq_some_iff.mp hmade
    refine ⟨n, hn, (List.prefix_iff_getElem?.mp hgrows n hlt).trans ?_⟩
    rw [hget, hsame]
  · refine ⟨db.encodings.length, h.within, ?_⟩
    rw [hnew, List.getElem?_append_right (Nat.le_refl _), Nat.sub_self]
    rfl

theorem madeSince_final (hashing : Hashing) (casing : Casing) {count : Nat} {pk : Uuid} (h : MadeSince count pk s.database)
    (run : List Event) :
    MadeSince count pk (final (step hashing casing) s run).database :=
  final_of_step (I := fun s => MadeSince count pk s.database)
    (fun s event h => h.renews (renews_step s event) (grows_step s event).database.encodings) h run

theorem grows_final (hashing : Hashing) (casing : Casing) (s : State) (run : List Event) :
    s.database.Grows (final (step hashing casing) s run).database := by
  induction run generalizing s with
  | nil => exact .refl _
  | cons event run ih => exact (grows_step s event).database.trans (ih _)

theorem grows_run (hashing : Hashing) (casing : Casing) (s : State) (run later : List Event) :
    (final (step hashing casing) s run).database.Grows (final (step hashing casing) s (run ++ later)).database := by
  rw [final_append]
  exact grows_final hashing casing _ later

theorem Hashing.Distinct.of_grows (h : hashing.Distinct db') (hgrows : db.Grows db') : hashing.Distinct db where
  keys m n hm hn := h.keys m n (Nat.lt_of_lt_of_le hm hgrows.opened.length_le) (Nat.lt_of_lt_of_le hn hgrows.opened.length_le)
  hashes := h.hashes.sublist (hgrows.encodings.sublist.map _)

/-- What a session holds under a key is what it was begun with. -/
theorem Held.same (hdistinct : hashing.Distinct s'.database) (hopened : s.database.opened <+: s'.database.opened)
    (h : Held hashing s key data) {data' : SessionData} (h' : Held hashing s' key data') :
    data'.user = data.user ∧ data'.authHash = data.authHash := by
  obtain ⟨⟨m, hm, hfirst⟩, -⟩ := h
  obtain ⟨⟨n, hn, hlast⟩, -⟩ := h'
  obtain ⟨hlt, hget⟩ := List.getElem?_eq_some_iff.mp hfirst
  obtain ⟨hlt', -⟩ := List.getElem?_eq_some_iff.mp hlast
  obtain rfl := hdistinct.keys m n (Nat.lt_of_lt_of_le hlt hopened.length_le) hlt' (hm.symm.trans hn)
  have hsame := (List.prefix_iff_getElem?.mp hopened m hlt).symm.trans hlast
  rw [hget] at hsame
  rw [Option.some.injEq, Prod.mk.injEq] at hsame
  exact ⟨hsame.1.symm, hsame.2.symm⟩

/-! ### Keys -/

/-- A key comes into the table once. -/
theorem Serves.stored (h : Serves hashing number request db stage db' stage') (hstored : db'.sessions key = some data) :
    (db.sessions key).isSome ∨ key = hashing.key db.opened.length ∧ db.opened.length < db'.opened.length := by
  have hold : ∀ {data : SessionData}, db.sessions key = some data → (db.sessions key).isSome ∨
      key = hashing.key db.opened.length ∧ db.opened.length < db'.opened.length := fun h => .inl (by rw [h]; rfl)
  have hopened : ∀ old user, (beginSession hashing number old user db).opened.length = db.opened.length + 1 :=
    fun old user => List.length_append
  cases h with
  | begins =>
    obtain hbefore | ⟨hkey, -⟩ := sessions_beginSession hstored
    · exact hold hbefore
    · exact .inr ⟨hkey, by rw [hopened]; omega⟩
  | refreshes =>
    obtain hbefore | ⟨hkey, -⟩ := sessions_beginSession hstored
    · exact hold hbefore
    · exact .inr ⟨hkey, by rw [hopened]; omega⟩
  | flushes => exact hold (sessions_flush hstored)
  | signsOut => exact hold (sessions_flushAny hstored)
  | keeps huser hhash hkept =>
    dsimp only at hstored
    rw [Function.update_apply] at hstored
    split_ifs at hstored with hkey
    · rw [hkey]
      exact .inl hkept
    · exact hold hstored
  | _ => exact hold hstored

/-- The session under the key has been begun, and has ended. -/
structure Gone (hashing : Hashing) (key : String) (db : Database) : Prop where
  begun : ∃ n, key = hashing.key n ∧ n < db.opened.length
  ended : db.sessions key = none

theorem stored_step {event : Event} (hstored : (step hashing casing s event).database.sessions key = some data) :
    (s.database.sessions key).isSome ∨ key = hashing.key s.database.opened.length ∧
      s.database.opened.length < (step hashing casing s event).database.opened.length := by
  have hold : ∀ {data : SessionData}, s.database.sessions key = some data → (s.database.sessions key).isSome :=
    fun h => by rw [h]; rfl
  cases event with
  | register email password pk =>
    rw [step] at hstored
    dsimp only at hstored
    split at hstored
    · exact .inl (hold hstored)
    · exact .inl (hold hstored)
  | expire k => exact .inl (hold (sessions_flush hstored))
  | act number refused =>
    rw [step] at hstored ⊢
    split at hstored
    · exact .inl (hold hstored)
    · exact (serves hashing number refused _ s.database _).stored hstored
  | _ => exact .inl (hold hstored)

theorem Gone.step (h : Gone hashing key s.database) {event : Event}
    (hdistinct : hashing.Distinct (step hashing casing s event).database) :
    Gone hashing key (step hashing casing s event).database := by
  obtain ⟨⟨n, hkey, hn⟩, hended⟩ := h
  have hgrows : s.database.Grows (SignIn.step hashing casing s event).database := (grows_step s event).database
  have hlength := hgrows.opened.length_le
  refine ⟨⟨n, hkey, by omega⟩, ?_⟩
  by_contra hne
  obtain ⟨data, hstored⟩ := Option.ne_none_iff_exists'.mp hne
  obtain hbefore | ⟨hagain, hlt⟩ := stored_step hstored
  · rw [hended] at hbefore
    cases hbefore
  · have hsame := hdistinct.keys n s.database.opened.length (by omega) hlt (hkey.symm.trans hagain)
    omega

theorem Gone.final (h : Gone hashing key s.database) {run : List Event}
    (hdistinct : hashing.Distinct (final (SignIn.step hashing casing) s run).database) :
    Gone hashing key (Runs.final (SignIn.step hashing casing) s run).database := by
  induction run generalizing s with
  | nil => exact h
  | cons event run ih =>
    exact ih (h.step (hdistinct.of_grows (grows_final hashing casing _ run))) hdistinct

/-! ### Two sessions, one of which changes the password -/

/-- Salts and keys of growing length, and a password kept as it is before its salt. -/
def plainHashing : Hashing where
  key n := .ofList (List.replicate (n + 1) 'k')
  salt n := .ofList (List.replicate (n + 1) 's')
  encode salt raw := .ofList (raw.toList ++ '$' :: salt.toList)
  check raw encoded := (raw.toList ++ ['$']).isPrefixOf encoded.toList
  authHash encoded := encoded

theorem plainHashing_checks : plainHashing.ChecksItsOwn := by
  intro n raw
  show (raw.toList ++ ['$']).isPrefixOf (String.ofList (raw.toList ++ '$' :: _)).toList = true
  rw [String.toList_ofList, List.isPrefixOf_iff_prefix, List.prefix_append_right_inj]
  exact List.cons_prefix_cons.mpr ⟨rfl, List.nil_prefix⟩

theorem plainHashing_keys {m n : Nat} (h : plainHashing.key m = plainHashing.key n) : m = n := by
  have hlist := congrArg (fun key => key.toList.length) h
  simp only [plainHashing, String.toList_ofList, List.length_replicate] at hlist
  omega

/-- Two browsers sign in, and the first comes to save another password. -/
def signedInTwice : List Event :=
  [.register "ana@example.com" "uno" 1, .request ⟨none, .login "ana@example.com" "uno"⟩,
    .request ⟨none, .login "ana@example.com" "uno"⟩] ++
    [0, 0, 0, 0, 1, 1, 1, 1].map (fun number => .act number false) ++
    [.request ⟨some "k", .changePassword "uno" "dos"⟩, .act 2 false, .act 2 false, .act 2 false]

/-- Its password is saved, and its session goes on under another key. -/
def changed : List Event := signedInTwice ++ [.act 2 false, .act 2 false]

def ana (password : String) : Account where
  pk := 1
  email := "ana@example.com"
  role := .student
  isSuperuser := false
  password := password
  isEmailVerified := false
  isActive := true

theorem distinct_changed : plainHashing.Distinct (final (step plainHashing asciiCasing) {} changed).database where
  keys _ _ _ _ h := plainHashing_keys h
  hashes := by decide +kernel

theorem distinct_signedInTwice : plainHashing.Distinct (final (step plainHashing asciiCasing) {} signedInTwice).database :=
  distinct_changed.of_grows (grows_run plainHashing asciiCasing {} signedInTwice [.act 2 false, .act 2 false])

/-- A request had given the password that the account had. -/
def Presented (hashing : Hashing) (s : State) (data : SessionData) (user : Account) : Prop :=
  ∃ request stage raw, s.requests[data.request]? = some (request, stage) ∧ request.call.Presents user.email raw ∧
    hashing.check raw user.password = true

/-- A session that is good for a user was begun by a request that gave, for the address of the user, a password that the
user's password accepts now. -/
theorem sessions_know_the_password (hchecks : hashing.ChecksItsOwn) (casing : Casing) (run : List Event)
    (hdistinct : hashing.Distinct (final (step hashing casing) {} run).database) (key : String) (data : SessionData)
    (user : Account) (hstored : (final (step hashing casing) {} run).database.sessions key = some data)
    (haccepts : hashing.Accepts (final (step hashing casing) {} run).database data user) :
    Presented hashing (final (step hashing casing) {} run) data user :=
  ((sound_final hchecks casing run).sessions key data hstored).presented (sound_final hchecks casing run) hdistinct haccepts

/-- The session that was changed knows the password that was chosen. -/
theorem changed_knows : Presented plainHashing (final (step plainHashing asciiCasing) {} changed) ⟨1, "dos$ss", 2⟩
    (ana "dos$ss") :=
  sessions_know_the_password plainHashing_checks asciiCasing changed distinct_changed "kkk" ⟨1, "dos$ss", 2⟩ (ana "dos$ss")
    (by decide +kernel) ⟨by decide +kernel, rfl, rfl⟩

/-! ### Passwords that end sessions -/

/-- From when a password is written, by a reset or by the request of another session, no session of its user that was there
is ever good again: not the one whose request has written it either, which goes on under another key. -/
theorem password_write_ends_sessions (hchecks : hashing.ChecksItsOwn) (casing : Casing) (run later : List Event)
    (event : Event) (hdistinct : hashing.Distinct (final (step hashing casing) {} (run ++ event :: later)).database)
    {user user' : Account} (hstored : (final (step hashing casing) {} run).database.sessions key = some data)
    (hbefore : (final (step hashing casing) {} run).database.userAt data.user = some user)
    (hafter : (final (step hashing casing) {} (run ++ [event])).database.userAt data.user = some user')
    (hchanged : user'.password ≠ user.password) {data' : SessionData} {account : Account}
    (hstored' : (final (step hashing casing) {} (run ++ event :: later)).database.sessions key = some data') :
    ¬ hashing.Accepts (final (step hashing casing) {} (run ++ event :: later)).database data' account := by
  intro haccepts
  have hsound := sound_final hchecks casing run
  have hsound' := sound_final hchecks casing (run ++ event :: later)
  have hgrows := grows_run hashing casing {} run (event :: later)
  obtain ⟨huser, hhash⟩ := (hsound.sessions key data hstored).same hdistinct hgrows.opened
    (hsound'.sessions key data' hstored')
  obtain ⟨hfound, -, haccepted⟩ := haccepts
  -- the password that was written is the first of those made since
  have hmade : MadeSince (final (step hashing casing) {} run).database.encodings.length data.user
      (final (step hashing casing) {} (run ++ [event])).database := by
    rw [final_append, final_cons, final_nil] at hafter ⊢
    refine ⟨(grows_step _ event).database.encodings.length_le, fun written hwritten => ?_⟩
    obtain ⟨kept, hkept, hsame⟩ | hnew := renews_step _ event data.user written hwritten
    · rw [hwritten] at hafter
      rw [hbefore] at hkept
      cases hafter
      cases hkept
      exact absurd hsame.symm hchanged
    · refine ⟨_, Nat.le_refl _, ?_⟩
      rw [hnew, List.getElem?_append_right (Nat.le_refl _), Nat.sub_self]
      rfl
  have hfinal := madeSince_final hashing casing hmade later
  rw [← final_append, List.append_assoc, List.singleton_append] at hfinal
  rw [huser] at hfound
  obtain ⟨n, hn, hlast⟩ := hfinal.made account hfound
  obtain ⟨-, -, -, -, encoded, -, -, -, hencoded, -, hheld⟩ := (hsound.sessions key data hstored).established
  obtain ⟨m, hm, hget⟩ := List.getElem_of_mem hencoded
  have hfirst := List.prefix_iff_getElem?.mp hgrows.encodings m hm
  have hsame : encoded = account.password := hdistinct.eq_of_authHash (hgrows.encodings.subset hencoded)
    (List.mem_of_getElem? hlast) (hheld.symm.trans (hhash.symm.trans haccepted.symm))
  have hnodup := List.Nodup.of_map hashing.authHash hdistinct.hashes
  obtain ⟨hlt, hlast⟩ := List.getElem?_eq_some_iff.mp hlast
  obtain ⟨hlt', hfirst⟩ := List.getElem?_eq_some_iff.mp hfirst
  have hindex : m = n := (hnodup.getElem_inj_iff).mp (by rw [hlast, hfirst, hget, hsame])
  omega

/-- The other browser is signed out. -/
theorem changed_ends_other : ¬ plainHashing.Accepts
    (final (step plainHashing asciiCasing) {} (signedInTwice ++ [.act 2 false, .act 2 false])).database ⟨1, "uno$s", 1⟩
    (ana "dos$ss") := by
  have hstored : (final (step plainHashing asciiCasing) {} signedInTwice).database.sessions "kk" = some ⟨1, "uno$s", 1⟩ := by
    decide +kernel
  have hbefore : (final (step plainHashing asciiCasing) {} signedInTwice).database.userAt 1 = some (ana "uno$s") := by
    decide +kernel
  have hafter : (final (step plainHashing asciiCasing) {} (signedInTwice ++ [.act 2 false])).database.userAt 1 =
      some (ana "dos$ss") := by
    decide +kernel
  exact password_write_ends_sessions plainHashing_checks asciiCasing signedInTwice [.act 2 false] (.act 2 false)
    distinct_changed hstored hbefore hafter (by decide) (by decide +kernel)

/-! ### Signing out -/

/-- The request has the session of its cookie, or that session has ended. -/
def EndsSession (key : String) (db : Database) : Stage → Prop
  | .loaded none | .served none _ | .answered .signedOut => db.sessions key = none
  | .loaded (some (k, _)) | .served (some (k, _)) _ => k = key
  | _ => True

structure SigningOut (hashing : Hashing) (key : String) (number : Nat) (s : State) : Prop where
  begun : ∃ n, key = hashing.key n ∧ n < s.database.opened.length
  stage : ∃ stage, s.requests[number]? = some (⟨some key, .logout⟩, stage) ∧ EndsSession key s.database stage

theorem EndsSession.mono (h : EndsSession key db stage) (hended : db.sessions key = none → db'.sessions key = none) :
    EndsSession key db' stage := by
  cases stage with
  | loaded session =>
    cases session with
    | none => exact hended h
    | some held => exact h
  | served session user =>
    cases session with
    | none => exact hended h
    | some held => exact h
  | answered answer =>
    cases answer with
    | signedOut => exact hended h
    | _ => trivial
  | _ => trivial

theorem sessions_flush_self (db : Database) (key : String) : (db.flush key).sessions key = none := by
  rw [sessions_flush_eq]
  exact if_pos rfl

theorem Serves.endsSession (h : Serves hashing number ⟨some key, .logout⟩ db stage db' stage')
    (hstage : EndsSession key db stage) (hended : db.sessions key = none → db'.sessions key = none) :
    EndsSession key db' stage' := by
  cases h with
  | loads =>
    show EndsSession key db (.loaded ((db.sessions key).map (key, ·)))
    cases hread : db.sessions key with
    | none => exact hread
    | some data => exact rfl
  | finds => exact hstage
  | @findsNobody session =>
    cases session with
    | none => exact hstage
    | some held => exact hstage
  | @flushes k data =>
    obtain rfl : k = key := hstage
    exact sessions_flush_self db k
  | @signsOut session user =>
    cases session with
    | none => exact hstage
    | some held =>
      obtain rfl : held.1 = key := hstage
      exact sessions_flush_self db _
  | authenticates hcall => cases hcall
  | begins => trivial
  | keeps => trivial
  | checks hcall => cases hcall
  | saves hcall => cases hcall
  | refreshes => trivial
  | tells hcall => cases hcall
  | @declines _ answer hno =>
    cases answer with
    | signedOut => cases hno
    | _ => trivial
  | stays => exact hstage.mono hended

theorem SigningOut.step (h : SigningOut hashing key number s) {event : Event}
    (hdistinct : hashing.Distinct (SignIn.step hashing casing s event).database) :
    SigningOut hashing key number (SignIn.step hashing casing s event) := by
  obtain ⟨⟨n, hkey, hn⟩, stage, hnumber, hstage⟩ := h
  have hgrows : s.database.Grows (SignIn.step hashing casing s event).database := (grows_step s event).database
  have hlength := hgrows.opened.length_le
  have hended : s.database.sessions key = none → (SignIn.step hashing casing s event).database.sessions key = none :=
    fun hnone => (Gone.step ⟨⟨n, hkey, hn⟩, hnone⟩ hdistinct).ended
  refine ⟨⟨n, hkey, by omega⟩, ?_⟩
  cases event with
  | act other refused =>
    rw [SignIn.step] at hended ⊢
    split at hended
    · exact ⟨stage, hnumber, hstage⟩
    · rename_i request stage' hother
      dsimp only
      by_cases heq : other = number
      · subst heq
        rw [hnumber] at hother
        cases hother
        obtain ⟨hlt, -⟩ := List.getElem?_eq_some_iff.mp hnumber
        exact ⟨_, List.getElem?_set_self hlt, (serves hashing other refused _ s.database stage).endsSession hstage hended⟩
      · exact ⟨stage, (List.getElem?_set_ne heq).trans hnumber, hstage.mono hended⟩
  | request request =>
    obtain ⟨hlt, -⟩ := List.getElem?_eq_some_iff.mp hnumber
    exact ⟨stage, (List.getElem?_append_left hlt).trans hnumber, hstage⟩
  | register email password pk =>
    refine ⟨stage, ?_, hstage.mono hended⟩
    rw [SignIn.step]
    dsimp only
    split
    · exact hnumber
    · exact hnumber
  | _ => exact ⟨stage, hnumber, hstage.mono hended⟩

theorem SigningOut.final (h : SigningOut hashing key number s) {run : List Event}
    (hdistinct : hashing.Distinct (Runs.final (SignIn.step hashing casing) s run).database) :
    SigningOut hashing key number (Runs.final (SignIn.step hashing casing) s run) := by
  induction run generalizing s with
  | nil => exact h
  | cons event run ih => exact ih (h.step (hdistinct.of_grows (grows_final hashing casing _ run))) hdistinct

/-- When signing out is answered, the session the request came with is gone, and does not come back. -/
theorem signing_out_ends_session (hchecks : hashing.ChecksItsOwn) (casing : Casing) (before after later : List Event)
    (hdistinct : hashing.Distinct
      (final (step hashing casing) {} (before ++ .request ⟨some key, .logout⟩ :: after ++ later)).database)
    (hstored : (final (step hashing casing) {} before).database.sessions key = some data)
    (hanswered : (final (step hashing casing) {} (before ++ .request ⟨some key, .logout⟩ :: after)).requests[
      (final (step hashing casing) {} before).requests.length]? = some (⟨some key, .logout⟩, .answered .signedOut)) :
    (final (step hashing casing) {} (before ++ .request ⟨some key, .logout⟩ :: after ++ later)).database.sessions key = none := by
  have hgrows := grows_run hashing casing {} (before ++ .request ⟨some key, .logout⟩ :: after) later
  obtain ⟨⟨n, hkey, hopened⟩, -⟩ := (sound_final hchecks casing before).sessions key data hstored
  obtain ⟨hn, -⟩ := List.getElem?_eq_some_iff.mp hopened
  have harrives : SigningOut hashing key (final (step hashing casing) {} before).requests.length
      (step hashing casing (final (step hashing casing) {} before) (.request ⟨some key, .logout⟩)) := by
    refine ⟨⟨n, hkey, hn⟩, .arrived, ?_, trivial⟩
    show (_ ++ [_])[_]? = _
    rw [List.getElem?_append_right (Nat.le_refl _), Nat.sub_self]
    rfl
  have hreached : final (step hashing casing) {} (before ++ .request ⟨some key, .logout⟩ :: after) =
      final (step hashing casing) (step hashing casing (final (step hashing casing) {} before) (.request ⟨some key, .logout⟩))
        after := by
    rw [final_append, final_cons]
  have hdistinct' := hdistinct.of_grows hgrows
  rw [hreached] at hdistinct' hanswered
  obtain ⟨hbegun, stage, hnumber, hends⟩ := harrives.final hdistinct'
  rw [hanswered] at hnumber
  cases hnumber
  have hgone : Gone hashing key (final (step hashing casing) {} (before ++ .request ⟨some key, .logout⟩ :: after)).database := by
    rw [hreached]
    exact ⟨hbegun, hends⟩
  rw [final_append] at hdistinct ⊢
  exact (hgone.final hdistinct).ended

/-- The first browser signs out while its request comes to save the password. -/
def signedOut : List Event := [.act 3 false, .act 3 false, .act 3 false]

theorem signedOut_ends_session : (final (step plainHashing asciiCasing) {}
    (signedInTwice ++ .request ⟨some "k", .logout⟩ :: signedOut ++ [.act 2 false, .act 2 false])).database.sessions "k" = none := by
  have hdistinct : plainHashing.Distinct (final (step plainHashing asciiCasing) {}
      (signedInTwice ++ .request ⟨some "k", .logout⟩ :: signedOut ++ [.act 2 false, .act 2 false])).database :=
    ⟨fun _ _ _ _ h => plainHashing_keys h, by decide +kernel⟩
  have hstored : (final (step plainHashing asciiCasing) {} signedInTwice).database.sessions "k" = some ⟨1, "uno$s", 0⟩ := by
    decide +kernel
  exact signing_out_ends_session plainHashing_checks asciiCasing signedInTwice signedOut [.act 2 false, .act 2 false] hdistinct
    hstored (by decide +kernel)

/-! ### Who acts -/

/-- At some moment of the run the request was there with a session that was good for this user, and that was begun with the
password the user had. -/
def Vouched (hashing : Hashing) (casing : Casing) (run : List Event) (number : Nat) (user : Account) : Prop :=
  ∃ before, before <+: run ∧ ∃ request key data,
    (final (step hashing casing) {} before).requests[number]? = some (request, .loaded (some (key, data))) ∧
    hashing.Accepts (final (step hashing casing) {} before).database data user ∧
    Presented hashing (final (step hashing casing) {} before) data user

def StageVouched (hashing : Hashing) (casing : Casing) (run : List Event) (number : Nat) (request : Request) : Stage → Prop
  | .served _ (some user) => Vouched hashing casing run number user
  | .saving _ user => Vouched hashing casing run number user ∧ ∃ currentPassword newPassword,
      request.call = .changePassword currentPassword newPassword ∧ hashing.check currentPassword user.password = true
  | .refreshing _ user => ∃ before : Account, before.pk = user.pk ∧ Vouched hashing casing run number before
  | .answered .changed => ∃ user, Vouched hashing casing run number user
  | .answered (.me pk) => ∃ user : Account, user.pk = pk ∧ Vouched hashing casing run number user
  | _ => True

theorem Vouched.mono {run later : List Event} (h : Vouched hashing casing run number user) :
    Vouched hashing casing (run ++ later) number user := by
  obtain ⟨before, hbefore, hvouched⟩ := h
  exact ⟨before, hbefore.trans (List.prefix_append _ _), hvouched⟩

theorem StageVouched.mono {run later : List Event} (h : StageVouched hashing casing run number request stage) :
    StageVouched hashing casing (run ++ later) number request stage := by
  cases stage with
  | served session user =>
    cases user with
    | none => trivial
    | some user => exact Vouched.mono h
  | saving key user => exact ⟨h.1.mono, h.2⟩
  | refreshing key user =>
    obtain ⟨before, hpk, hvouched⟩ := h
    exact ⟨before, hpk, hvouched.mono⟩
  | answered answer =>
    cases answer with
    | changed =>
      obtain ⟨user, hvouched⟩ := h
      exact ⟨user, hvouched.mono⟩
    | me pk =>
      obtain ⟨user, hpk, hvouched⟩ := h
      exact ⟨user, hpk, hvouched.mono⟩
    | _ => trivial
  | _ => trivial

/-- Who a statement lets its request act as was vouched for, or is vouched for by the session it has found good. -/
theorem Serves.vouched {run later : List Event}
    (h : Serves hashing number request (final (step hashing casing) {} run).database stage db' stage')
    (hstage : StageVouched hashing casing run number request stage)
    (hfound : ∀ key data user, stage = .loaded (some (key, data)) →
      hashing.Accepts (final (step hashing casing) {} run).database data user → Vouched hashing casing run number user) :
    StageVouched hashing casing (run ++ later) number request stage' := by
  cases h with
  | loads => trivial
  | @finds key data user haccepts => exact (hfound key data user rfl haccepts).mono
  | findsNobody => trivial
  | flushes => trivial
  | authenticates => trivial
  | begins => trivial
  | keeps => trivial
  | signsOut => trivial
  | checks hcall hcheck => exact ⟨Vouched.mono hstage, _, _, hcall, hcheck⟩
  | @saves key user currentPassword newPassword hcall => exact ⟨user, rfl, hstage.1.mono⟩
  | refreshes =>
    obtain ⟨user, -, hvouched⟩ := hstage
    exact ⟨user, hvouched.mono⟩
  | tells => exact ⟨_, rfl, Vouched.mono hstage⟩
  | @declines _ answer hno =>
    cases answer with
    | changed => cases hno
    | me pk => cases hno
    | _ => trivial
  | stays => exact hstage.mono

theorem stageVouched_final (hchecks : hashing.ChecksItsOwn) (casing : Casing) (run : List Event)
    (hdistinct : hashing.Distinct (final (step hashing casing) {} run).database) (number : Nat) (request : Request)
    (stage : Stage) (hnumber : (final (step hashing casing) {} run).requests[number]? = some (request, stage)) :
    StageVouched hashing casing run number request stage := by
  induction run using List.reverseRecOn generalizing number request stage with
  | nil => cases hnumber
  | append_singleton run event ih =>
    have hdistinct' := hdistinct.of_grows (grows_run hashing casing {} run [event])
    have hsound := sound_final hchecks casing run
    rw [final_append, final_cons, final_nil] at hnumber
    cases event with
    | act other refused =>
      rw [step] at hnumber
      split at hnumber
      · exact (ih hdistinct' number request stage hnumber).mono
      · rename_i request' stage' hother
        dsimp only at hnumber
        by_cases heq : other = number
        · subst heq
          obtain ⟨hlt, -⟩ := List.getElem?_eq_some_iff.mp hother
          rw [List.getElem?_set_self hlt] at hnumber
          cases hnumber
          refine (serves hashing other refused request _ stage').vouched (ih hdistinct' other request stage' hother) ?_
          rintro key data user rfl haccepts
          have hheld := hsound.requests other request _ hother key data rfl
          exact ⟨run, List.prefix_refl _, request, key, data, hother, haccepts, hheld.presented hsound hdistinct' haccepts⟩
        · rw [List.getElem?_set_ne heq] at hnumber
          exact (ih hdistinct' number request stage hnumber).mono
    | request arriving =>
      have hsome : (_ ++ [(arriving, Stage.arrived)])[number]? = some (request, stage) := hnumber
      rw [List.getElem?_append] at hsome
      split_ifs at hsome with hlt
      · exact (ih hdistinct' number request stage hsome).mono
      · cases List.mem_singleton.mp (List.mem_of_getElem? hsome)
        trivial
    | register email password pk =>
      rw [step] at hnumber
      dsimp only at hnumber
      split at hnumber
      · exact (ih hdistinct' number request stage hnumber).mono
      · exact (ih hdistinct' number request stage hnumber).mono
    | _ => exact (ih hdistinct' number request stage hnumber).mono

theorem saved_of_password_ne {saved pk : Uuid} {encoded : String} {user' : Account} (hbefore : db.userAt pk = some user)
    (hafter : (db.savePassword saved encoded).userAt pk = some user') (hchanged : user'.password ≠ user.password) : saved = pk := by
  rw [Database.userAt, Database.savePassword, find_map fun user => by split_ifs <;> rfl] at hafter
  obtain ⟨found, hfound, rfl⟩ := Option.map_eq_some_iff.mp hafter
  obtain rfl := Option.some.inj (hbefore.symm.trans hfound)
  by_contra hne
  have hpk := (Table.find_eq_some hbefore).2
  rw [if_neg fun heq => hne (heq.symm.trans hpk)] at hchanged
  exact hchanged rfl

theorem password_of_users {pk : Uuid} {user' : Account} (h : db'.users = db.users) (hbefore : db.userAt pk = some user)
    (hafter : db'.userAt pk = some user') : user'.password = user.password := by
  rw [Database.userAt, h] at hafter
  rw [Option.some.inj (hbefore.symm.trans hafter)]

theorem users_flushAny (db : Database) (old : Option String) : (db.flushAny old).users = db.users := by
  cases old with
  | none => rfl
  | some key => rfl

theorem Serves.saving_of_password_ne (h : Serves hashing number request db stage db' stage') {pk : Uuid} {user' : Account}
    (hbefore : db.userAt pk = some user) (hafter : db'.userAt pk = some user') (hchanged : user'.password ≠ user.password) :
    ∃ key account, stage = .saving key account ∧ account.pk = pk := by
  cases h with
  | saves => exact ⟨_, _, rfl, saved_of_password_ne hbefore hafter hchanged⟩
  | begins => exact absurd (password_of_users (users_flushAny db _) hbefore hafter) hchanged
  | refreshes => exact absurd (password_of_users (users_flushAny db _) hbefore hafter) hchanged
  | signsOut => exact absurd (password_of_users (users_flushAny db _) hbefore hafter) hchanged
  | _ => exact absurd (password_of_users rfl hbefore hafter) hchanged

/-- Whoever is answered as a user was signed in as that user while the request was served. And a password is replaced by a
reset, or by a request whose user was signed in while it was served, and gave the password that the user had then. -/
theorem acts_are_vouched (hchecks : hashing.ChecksItsOwn) (casing : Casing) (run : List Event)
    (hdistinct : hashing.Distinct (final (step hashing casing) {} run).database) :
    (∀ (number : Nat) (request : Request) (pk : Uuid),
      (final (step hashing casing) {} run).requests[number]? = some (request, .answered (.me pk)) →
        ∃ user : Account, user.pk = pk ∧ Vouched hashing casing run number user) ∧
    ∀ (event : Event) (pk : Uuid) (user user' : Account), (final (step hashing casing) {} run).database.userAt pk = some user →
      (final (step hashing casing) {} (run ++ [event])).database.userAt pk = some user' → user'.password ≠ user.password →
        (∃ newPassword, event = .resetPassword pk newPassword) ∨
          ∃ number refused request key account currentPassword newPassword, event = .act number refused ∧
            (final (step hashing casing) {} run).requests[number]? = some (request, .saving key account) ∧ account.pk = pk ∧
            request.call = .changePassword currentPassword newPassword ∧
            hashing.check currentPassword account.password = true ∧ Vouched hashing casing run number account := by
  refine ⟨fun number request pk hnumber => stageVouched_final hchecks casing run hdistinct number request _ hnumber, ?_⟩
  intro event pk user user' hbefore hafter hchanged
  rw [final_append, final_cons, final_nil] at hafter
  cases event with
  | resetPassword saved newPassword =>
    obtain rfl := saved_of_password_ne hbefore hafter hchanged
    exact .inl ⟨newPassword, rfl⟩
  | act number refused =>
    rw [step] at hafter
    split at hafter
    · exact absurd (password_of_users rfl hbefore hafter) hchanged
    · rename_i request stage hnumber
      obtain ⟨key, account, rfl, hpk⟩ := (serves hashing number refused request _ stage).saving_of_password_ne hbefore hafter
        hchanged
      obtain ⟨hvouched, currentPassword, newPassword, hcall, hcheck⟩ :=
        stageVouched_final hchecks casing run hdistinct number request _ hnumber
      exact .inr ⟨number, refused, request, key, account, currentPassword, newPassword, rfl, hnumber, hpk, hcall, hcheck, hvouched⟩
  | register email password registered =>
    rw [step] at hafter
    dsimp only at hafter
    split at hafter
    · rename_i created users hcreate
      obtain ⟨-, -, -, -, rfl⟩ := createAccount_ok hcreate
      rw [Database.userAt, Table.find] at hbefore hafter
      rw [List.find?_append, hbefore] at hafter
      cases hafter
      exact absurd rfl hchanged
    · exact absurd (password_of_users rfl hbefore hafter) hchanged
  | setActive changed active =>
    rw [step, Database.userAt, find_map fun user => by split_ifs <;> rfl] at hafter
    obtain ⟨found, hfound, rfl⟩ := Option.map_eq_some_iff.mp hafter
    obtain rfl := Option.some.inj (hbefore.symm.trans hfound)
    split_ifs at hchanged
    · exact absurd rfl hchanged
    · exact absurd rfl hchanged
  | _ => exact absurd (password_of_users rfl hbefore hafter) hchanged

theorem changed_is_vouched : (∃ newPassword, Event.act 2 false = .resetPassword 1 newPassword) ∨
    ∃ number refused request key account currentPassword newPassword, Event.act 2 false = .act number refused ∧
      (final (step plainHashing asciiCasing) {} signedInTwice).requests[number]? = some (request, .saving key account) ∧
      account.pk = 1 ∧ request.call = .changePassword currentPassword newPassword ∧
      plainHashing.check currentPassword account.password = true ∧
      Vouched plainHashing asciiCasing signedInTwice number account :=
  (acts_are_vouched plainHashing_checks asciiCasing signedInTwice distinct_signedInTwice).2 (.act 2 false) 1 (ana "uno$s")
    (ana "dos$ss") (by decide +kernel) (by decide +kernel) (by decide)

end EPlatform.SignIn
