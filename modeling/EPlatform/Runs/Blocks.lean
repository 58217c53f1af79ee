import EPlatform.Runs.Transaction

/-!
# Blocks, savepoints and what follows a commit

Code sends statements over a connection, and what raises leaves the statements before it in place. A block takes back its
own statements when an exception leaves it, and the outermost block commits. What is registered inside a block is
performed once the outermost has committed, when an exception can no longer take anything back.
-/

namespace Runs

/-- `registered` waits for the commit of the outermost block. -/
structure Connection (ρ ν : Type) where
  rows : ρ
  inBlock : Bool
  registered : List ν
  deriving DecidableEq, Repr

/-- What the code returns or raises, and the connection as it leaves it either way. -/
def Code (ρ ν ε α : Type) : Type := Connection ρ ν → Except ε α × Connection ρ ν

/-- `commit` refuses rows, and `perform` does what was registered, on committed rows it can only read. -/
structure Backend (ρ ν ε : Type) where
  commit : ρ → Except ε Unit
  perform : ν → ρ → Except ε Unit

variable {ρ ν ε α β : Type}

namespace Code

instance : Monad (Code ρ ν ε) where
  pure a s := (.ok a, s)
  bind x f s :=
    match x s with
    | (.ok a, t) => f a t
    | (.error e, t) => (.error e, t)

/-- What sends no statement. -/
def lift (x : Except ε α) : Code ρ ν ε α := fun s => (x, s)

/-- `except ... as error: raise ... from error`. -/
def mapError (f : ε → ε) (x : Code ρ ν ε α) : Code ρ ν ε α := fun s =>
  match x s with
  | (.ok a, t) => (.ok a, t)
  | (.error e, t) => (.error (f e), t)

section Backend

variable (backend : Backend ρ ν ε)

def performAll (registered : List ν) (rows : ρ) : Except ε Unit := registered.forM fun note => backend.perform note rows

/-- `with transaction.atomic():`. -/
def atomic (x : Code ρ ν ε α) : Code ρ ν ε α := fun s =>
  match x { s with inBlock := true } with
  | (.error e, _) => (.error e, s)
  | (.ok a, t) =>
    if s.inBlock then (.ok a, t)
    else
      match backend.commit t.rows with
      | .error e => (.error e, s)
      | .ok _ => ((performAll backend t.registered t.rows).map fun _ => a, ⟨t.rows, false, []⟩)

/-- One statement: it is refused, or leaves rows. Outside of a block it is a block of its own. -/
def statement (f : ρ → Except ε (α × ρ)) : Code ρ ν ε α := fun s =>
  let send : Code ρ ν ε α := fun t =>
    match f t.rows with
    | .error e => (.error e, t)
    | .ok (a, rows) => (.ok a, { t with rows })
  if s.inBlock then send s else atomic backend send s

/-- `transaction.on_commit(...)`. Outside of a block it is done at once. -/
def onCommit (note : ν) : Code ρ ν ε Unit := fun s =>
  if s.inBlock then (.ok (), { s with registered := s.registered ++ [note] }) else (backend.perform note s.rows, s)

end Backend

/-! ### What returning says -/

variable {backend : Backend ρ ν ε} {s t : Connection ρ ν} {rows : ρ} {registered : List ν} {x : Code ρ ν ε α}
  {a : α} {e : ε}

@[simp] theorem pure_eq_ok {b : α} : (pure a : Code ρ ν ε α) s = (.ok b, t) ↔ b = a ∧ t = s := by
  show (Except.ok a, s) = _ ↔ _
  rw [Prod.mk.injEq, Except.ok.injEq, eq_comm, eq_comm (a := s)]

@[simp] theorem bind_eq_ok {f : α → Code ρ ν ε β} {b : β} :
    (x >>= f) s = (.ok b, t) ↔ ∃ a u, x s = (.ok a, u) ∧ f a u = (.ok b, t) := by
  show (match x s with | (.ok a, t) => f a t | (.error e, t) => (.error e, t)) = _ ↔ _
  cases hx : x s with
  | mk result u => cases result <;> simp

@[simp] theorem lift_eq_ok {y : Except ε α} : lift y s = (.ok a, t) ↔ y = .ok a ∧ t = s := by
  rw [lift, Prod.mk.injEq, eq_comm (a := s)]

@[simp] theorem mapError_eq_ok {f : ε → ε} : mapError f x s = (.ok a, t) ↔ x s = (.ok a, t) := by
  unfold mapError
  cases hx : x s with
  | mk result u => cases result <;> simp

@[simp] theorem statement_eq_ok {f : ρ → Except ε (α × ρ)} :
    statement backend f ⟨rows, true, registered⟩ = (.ok a, t) ↔
      ∃ rows', f rows = .ok (a, rows') ∧ t = ⟨rows', true, registered⟩ := by
  simp only [statement, if_true]
  cases hf : f rows with
  | error e => simp
  | ok result =>
    obtain ⟨b, rows'⟩ := result
    simp only [Prod.mk.injEq, Except.ok.injEq]
    constructor
    · intro h
      obtain ⟨hb, ht⟩ := h
      exact ⟨rows', ⟨hb, rfl⟩, ht.symm⟩
    · intro h
      obtain ⟨_, ⟨hb, hrows⟩, ht⟩ := h
      exact ⟨hb, by rw [ht, hrows]⟩

@[simp] theorem onCommit_eq_ok {note : ν} {u : Unit} :
    onCommit backend note ⟨rows, true, registered⟩ = (.ok u, t) ↔ t = ⟨rows, true, registered ++ [note]⟩ := by
  simp [onCommit, eq_comm]

theorem performAll_singleton {note : ν} :
    performAll backend [note] rows = .ok () ↔ backend.perform note rows = .ok () := by
  rw [performAll, forM_eq_ok, List.forall_mem_singleton]

/-- Inside a block, a block that returns has done what its code did. -/
@[simp] theorem atomic_eq_ok :
    atomic backend x ⟨rows, true, registered⟩ = (.ok a, t) ↔ x ⟨rows, true, registered⟩ = (.ok a, t) := by
  unfold atomic
  cases hx : x ⟨rows, true, registered⟩ with
  | mk result u => cases result <;> simp

/-! ### All or nothing -/

/-- What raises leaves the rows as they were, and what returns has done as `P` says. -/
structure AllOrNothing (P : ρ → ρ → Prop) (x : Code ρ ν ε α) (s : Connection ρ ν) : Prop where
  raises : ∀ e, (x s).1 = .error e → (x s).2.rows = s.rows
  returns : ∀ a, (x s).1 = .ok a → P s.rows (x s).2.rows

variable {P : ρ → ρ → Prop}

theorem AllOrNothing.rows_cases (h : AllOrNothing P x s) :
    (x s).2.rows = s.rows ∨ P s.rows (x s).2.rows := by
  cases hresult : (x s).1 with
  | error e => exact .inl (h.raises e hresult)
  | ok a => exact .inr (h.returns a hresult)

/-- Checks before a block send nothing. -/
theorem allOrNothing_lift_bind {c : Except ε β} {f : β → Code ρ ν ε α} :
    AllOrNothing P (lift c >>= f) s ↔ ∀ b, c = .ok b → AllOrNothing P (f b) s := by
  cases c with
  | error e =>
    refine iff_of_true ⟨fun _ _ => rfl, fun a ha => ?_⟩ fun b hb => ?_
    · cases ha
    · cases hb
  | ok b =>
    constructor
    · intro h b' hb
      cases hb
      exact h
    · intro h
      exact h b rfl

theorem rows_lift_bind {Q : ρ → Prop} {c : Except ε β} {f : β → Code ρ ν ε α} (hs : Q s.rows)
    (hf : ∀ b, Q (f b s).2.rows) : Q ((lift c >>= f) s).2.rows := by
  cases c with
  | error e => exact hs
  | ok b => exact hf b

/-- A block inside another is all or nothing if it does what it should. -/
theorem allOrNothing_nested (hdoes : ∀ a t, x ⟨rows, true, registered⟩ = (.ok a, t) → P rows t.rows) :
    AllOrNothing P (atomic backend x) ⟨rows, true, registered⟩ := by
  have hatomic : atomic backend x ⟨rows, true, registered⟩ =
      match x ⟨rows, true, registered⟩ with
      | (.error e, _) => (.error e, ⟨rows, true, registered⟩)
      | (.ok a, t) => (.ok a, t) := rfl
  cases hx : x ⟨rows, true, registered⟩ with
  | mk result u =>
    rw [hx] at hatomic
    cases result with
    | error e =>
      refine ⟨fun _ _ => by rw [hatomic], fun a ha => ?_⟩
      rw [hatomic] at ha
      cases ha
    | ok a =>
      refine ⟨fun e he => ?_, fun a' ha => ?_⟩
      · rw [hatomic] at he
        cases he
      · rw [hatomic] at ha ⊢
        cases ha
        exact hdoes a u hx

/-- The outermost block commits, and then does what was registered; or it leaves everything as it was. -/
theorem atomic_cases (backend : Backend ρ ν ε) (x : Code ρ ν ε α) (rows : ρ) :
    (∃ e, atomic backend x ⟨rows, false, []⟩ = (.error e, ⟨rows, false, []⟩) ∧
      ∀ a t, x ⟨rows, true, []⟩ = (.ok a, t) → backend.commit t.rows ≠ .ok ()) ∨
      ∃ a t, x ⟨rows, true, []⟩ = (.ok a, t) ∧ backend.commit t.rows = .ok () ∧
        atomic backend x ⟨rows, false, []⟩ =
          ((performAll backend t.registered t.rows).map fun _ => a, ⟨t.rows, false, []⟩) := by
  cases hx : x ⟨rows, true, []⟩ with
  | mk result u =>
    cases result with
    | error e =>
      refine .inl ⟨e, by simp only [atomic, hx], fun a t ht => ?_⟩
      cases ht
    | ok a =>
      cases hcommit : backend.commit u.rows with
      | error e =>
        refine .inl ⟨e, by simp [atomic, hx, hcommit], fun a t ht => ?_⟩
        cases ht
        rw [hcommit]
        intro hok
        cases hok
      | ok _ => exact .inr ⟨a, u, rfl, hcommit, by simp [atomic, hx, hcommit]⟩

/-- Whatever raises after the commit, the rows are as they were or as they should be. -/
theorem atomic_rows_cases (backend : Backend ρ ν ε) (hdoes : ∀ a t, x ⟨rows, true, []⟩ = (.ok a, t) → P rows t.rows) :
    (atomic backend x ⟨rows, false, []⟩).2.rows = rows ∨ P rows (atomic backend x ⟨rows, false, []⟩).2.rows := by
  rcases atomic_cases backend x rows with ⟨e, hatomic, _⟩ | ⟨a, t, hx, _, hatomic⟩
  · rw [hatomic]
    exact .inl rfl
  · rw [hatomic]
    exact .inr (hdoes a t hx)

/-- What changes rows from outside of every block has committed them. -/
theorem atomic_rows_eq_or_commit (backend : Backend ρ ν ε) (x : Code ρ ν ε α) (rows : ρ) :
    (atomic backend x ⟨rows, false, []⟩).2.rows = rows ∨
      backend.commit (atomic backend x ⟨rows, false, []⟩).2.rows = .ok () := by
  rcases atomic_cases backend x rows with ⟨e, hatomic, _⟩ | ⟨a, t, _, hcommit, hatomic⟩
  · rw [hatomic]
    exact .inl rfl
  · rw [hatomic]
    exact .inr hcommit

/-- The outermost block is all or nothing if and only if nothing raises after the commit. -/
theorem allOrNothing_iff (hdoes : ∀ a t, x ⟨rows, true, []⟩ = (.ok a, t) → P rows t.rows)
    (hchanges : ∀ a t, x ⟨rows, true, []⟩ = (.ok a, t) → t.registered ≠ [] → t.rows ≠ rows) :
    AllOrNothing P (atomic backend x) ⟨rows, false, []⟩ ↔
      ∀ a t, x ⟨rows, true, []⟩ = (.ok a, t) → backend.commit t.rows = .ok () →
        performAll backend t.registered t.rows = .ok () := by
  rcases atomic_cases backend x rows with ⟨e, hatomic, hrefused⟩ | ⟨a, t, hx, hcommit, hatomic⟩
  · refine iff_of_true ⟨fun _ _ => by rw [hatomic], fun a ha => ?_⟩ fun a t hx hcommit => ?_
    · rw [hatomic] at ha
      cases ha
    · exact absurd hcommit (hrefused a t hx)
  · cases hperform : performAll backend t.registered t.rows with
    | ok _ =>
      rw [hperform] at hatomic
      refine iff_of_true ⟨fun e he => ?_, fun a' ha => ?_⟩ fun a' t' hx' _ => ?_
      · rw [hatomic] at he
        cases he
      · rw [hatomic] at ha ⊢
        cases ha
        exact hdoes a t hx
      · cases hx.symm.trans hx'
        exact hperform
    | error e =>
      rw [hperform] at hatomic
      refine iff_of_false (fun h => ?_) fun h => ?_
      · have hsame : t.rows = rows := by
          have hraises := h.raises e (by rw [hatomic]; rfl)
          rwa [hatomic] at hraises
        have hregistered : t.registered ≠ [] := by
          intro hnil
          rw [hnil] at hperform
          cases hperform
        exact hchanges a t hx hregistered hsame
      · cases (h a t hx hcommit).symm.trans hperform

/-- Inside a block, what returns has done as `P` says, and has registered nothing. -/
def Does (P : ρ → ρ → Prop) (x : Code ρ ν ε α) : Prop :=
  ∀ rows registered a t, x ⟨rows, true, registered⟩ = (.ok a, t) → P rows t.rows ∧ t.registered = registered

/-- A block that registers nothing is all or nothing wherever it stands. -/
theorem Does.allOrNothing (h : Does P x) (backend : Backend ρ ν ε) (hs : s.inBlock = true ∨ s.registered = []) :
    AllOrNothing P (atomic backend x) s := by
  obtain ⟨rows, inBlock, registered⟩ := s
  cases inBlock with
  | true => exact allOrNothing_nested fun a t hx => (h rows registered a t hx).1
  | false =>
    obtain rfl : registered = [] := hs.resolve_left Bool.false_ne_true
    refine (allOrNothing_iff (fun a t hx => (h rows [] a t hx).1) fun a t hx hne => ?_).mpr fun a t hx _ => ?_
    · exact absurd (h rows [] a t hx).2 hne
    · rw [(h rows [] a t hx).2]
      rfl

end Code

end Runs
