import Mathlib.Tactic.Common

/-!
# Transactions over constrained rows

A database state is rows that satisfy the tables' constraints. A transaction computes new rows or raises; it is
committed when it returns and the constraints accept what it left, and otherwise it is rolled back.
-/

namespace Runs

universe u v

section Raising

variable {ε : Type v} {α β : Type u}

/-- Go on if the condition holds, and raise otherwise. -/
def require (condition : Prop) [Decidable condition] (e : ε) : Except ε PUnit.{u + 1} :=
  if condition then .ok ⟨⟩ else .error e

@[simp] theorem require_eq_ok {condition : Prop} [Decidable condition] {e : ε} {u : PUnit} :
    require condition e = .ok u ↔ condition := by
  unfold require
  split <;> simp_all

theorem require_bind_of {condition : Prop} [Decidable condition] {e : ε} {k : PUnit → Except ε β} (h : condition) :
    (require condition e >>= k) = k ⟨⟩ := by
  rw [require, if_pos h]
  rfl

theorem require_bind_of_not {condition : Prop} [Decidable condition] {e : ε} {k : PUnit → Except ε β}
    (h : ¬ condition) : (require condition e >>= k) = .error e := by
  rw [require, if_neg h]
  rfl

@[simp] theorem bind_eq_ok {x : Except ε α} {f : α → Except ε β} {b : β} :
    (x >>= f) = .ok b ↔ ∃ a, x = .ok a ∧ f a = .ok b := by
  cases x with
  | error e => simp [bind, Except.bind]
  | ok a => simp [bind, Except.bind]

theorem bind_pure_eq_error {x : Except ε α} {f : α → β} {e : ε} : (x >>= fun a => pure (f a)) = .error e ↔ x = .error e := by
  cases x <;> simp [bind, Except.bind, pure, Except.pure]

@[simp] theorem pure_eq_ok {a b : α} : (pure a : Except ε α) = .ok b ↔ b = a := by
  simp [pure, Except.pure, eq_comm]

@[simp] theorem mapError_eq_ok {ε' : Type*} {x : Except ε α} {f : ε → ε'} {a : α} :
    x.mapError f = .ok a ↔ x = .ok a := by
  cases x <;> simp [Except.mapError]

theorem map_eq_ok {x : Except ε α} {f : α → β} {b : β} : x.map f = .ok b ↔ ∃ a, x = .ok a ∧ f a = b := by
  cases x <;> simp [Except.map]

/-- Running over a list returns what each run returns, if all do. -/
theorem mapM_eq_ok {f : α → Except ε β} {items : List α} {results : List β} :
    items.mapM f = .ok results ↔ items.map f = results.map Except.ok := by
  induction items generalizing results with
  | nil =>
    cases results with
    | nil => simp
    | cons result results => simp [pure, Except.pure]
  | cons item items ih =>
    rw [List.mapM_cons]
    simp only [bind_eq_ok, pure_eq_ok]
    constructor
    · rintro ⟨result, hresult, rest, hrest, rfl⟩
      rw [List.map_cons, List.map_cons, hresult, ih.mp hrest]
    · intro h
      cases results with
      | nil => cases h
      | cons result results =>
        obtain ⟨hresult, hrest⟩ := List.cons.inj h
        exact ⟨result, hresult, results, ih.mpr hrest, rfl⟩

theorem mem_of_mapM_eq_ok {f : α → Except ε β} {items : List α} {results : List β} (h : items.mapM f = .ok results)
    (result : β) : result ∈ results ↔ ∃ item ∈ items, f item = .ok result := by
  have hmem := congrArg (Except.ok result ∈ ·) (mapM_eq_ok.mp h)
  simpa [List.mem_map] using hmem.symm.to_iff

theorem exists_of_mapM_eq_ok {f : α → Except ε β} {items : List α} {results : List β} (h : items.mapM f = .ok results)
    {item : α} (hitem : item ∈ items) : ∃ result ∈ results, f item = .ok result := by
  have hmem := List.mem_map_of_mem (f := f) hitem
  rw [mapM_eq_ok.mp h] at hmem
  obtain ⟨result, hresult, heq⟩ := List.mem_map.mp hmem
  exact ⟨result, hresult, heq.symm⟩

/-- Running over a list fails as one of the runs does. -/
theorem exists_of_mapM_eq_error {f : α → Except ε β} {items : List α} {e : ε} (h : items.mapM f = .error e) :
    ∃ item ∈ items, f item = .error e := by
  induction items with
  | nil => cases h
  | cons item items ih =>
    rw [List.mapM_cons] at h
    cases hitem : f item with
    | error e' =>
      rw [hitem] at h
      cases h
      exact ⟨item, List.mem_cons_self, hitem⟩
    | ok result =>
      rw [hitem] at h
      cases hrest : items.mapM f with
      | error e' =>
        simp only [bind, Except.bind, hrest] at h
        cases h
        obtain ⟨item', hmem, herror⟩ := ih hrest
        exact ⟨item', List.mem_cons_of_mem _ hmem, herror⟩
      | ok results =>
        simp only [bind, Except.bind, hrest] at h
        cases h

theorem exists_mapM_eq_ok {f : α → Except ε β} {items : List α} :
    (∃ results, items.mapM f = .ok results) ↔ ∀ item ∈ items, ∃ result, f item = .ok result := by
  constructor
  · intro ⟨results, hresults⟩ item hitem
    obtain ⟨result, _, hresult⟩ := exists_of_mapM_eq_ok hresults hitem
    exact ⟨result, hresult⟩
  · intro h
    cases hresults : items.mapM f with
    | ok results => exact ⟨results, rfl⟩
    | error e =>
      obtain ⟨item, hitem, herror⟩ := exists_of_mapM_eq_error hresults
      obtain ⟨result, hresult⟩ := h item hitem
      cases herror.symm.trans hresult

theorem forM_eq_ok {f : α → Except ε PUnit.{u + 1}} {items : List α} :
    items.forM f = .ok ⟨⟩ ↔ ∀ item ∈ items, f item = .ok ⟨⟩ := by
  induction items with
  | nil => simp [pure, Except.pure]
  | cons item items ih =>
    change (f item >>= fun _ => items.forM f) = _ ↔ _
    rw [bind_eq_ok, List.forall_mem_cons, ← ih]
    exact ⟨fun ⟨_, hitem, hitems⟩ => ⟨hitem, hitems⟩, fun ⟨hitem, hitems⟩ => ⟨_, hitem, hitems⟩⟩

/-- A fold that returns has returned at each item. -/
theorem exists_of_foldlM_eq_ok {f : β → α → Except ε β} {items : List α} {b b' : β} (h : items.foldlM f b = .ok b')
    {item : α} (hitem : item ∈ items) : ∃ before after, f before item = .ok after := by
  induction items generalizing b with
  | nil => cases hitem
  | cons first items ih =>
    rw [List.foldlM_cons, bind_eq_ok] at h
    obtain ⟨after, hfirst, hrest⟩ := h
    rcases List.mem_cons.mp hitem with rfl | hmem
    · exact ⟨b, after, hfirst⟩
    · exact ih hrest hmem

/-! ### What may be raised -/

/-- Nothing else is raised. -/
def RaisesOnly (P : ε → Prop) (x : Except ε α) : Prop := ∀ e, x = .error e → P e

namespace RaisesOnly

variable {P Q : ε → Prop}

theorem mono {x : Except ε α} (hx : RaisesOnly P x) (h : ∀ e, P e → Q e) : RaisesOnly Q x :=
  fun e he => h e (hx e he)

theorem ok (a : α) : RaisesOnly P (.ok a) := by
  intro e he
  cases he

theorem require {condition : Prop} [Decidable condition] {e : ε} (he : P e) : RaisesOnly P (require condition e) := by
  intro e' herror
  unfold Runs.require at herror
  split at herror
  · cases herror
  · cases herror
    exact he

theorem bind {x : Except ε α} {f : α → Except ε β} (hx : RaisesOnly P x) (hf : ∀ a, x = .ok a → RaisesOnly P (f a)) :
    RaisesOnly P (x >>= f) := by
  intro e he
  cases x with
  | error e' =>
    cases he
    exact hx _ rfl
  | ok a => exact hf a rfl e he

theorem map {x : Except ε α} {f : α → β} (hx : RaisesOnly P x) : RaisesOnly P (x.map f) := by
  intro e he
  cases x with
  | error e' =>
    cases he
    exact hx _ rfl
  | ok a => cases he

theorem mapM {f : α → Except ε β} {items : List α} (h : ∀ item ∈ items, RaisesOnly P (f item)) :
    RaisesOnly P (items.mapM f) := by
  intro e he
  obtain ⟨item, hitem, herror⟩ := exists_of_mapM_eq_error he
  exact h item hitem e herror

theorem forM {f : α → Except ε PUnit.{u + 1}} {items : List α} (h : ∀ item ∈ items, RaisesOnly P (f item)) :
    RaisesOnly P (items.forM f) := by
  induction items with
  | nil => exact ok _
  | cons item items ih =>
    change RaisesOnly P (f item >>= fun _ => items.forM f)
    exact bind (h item List.mem_cons_self) fun _ _ => ih fun item hitem => h item (List.mem_cons_of_mem _ hitem)

theorem foldlM {f : β → α → Except ε β} {items : List α} (h : ∀ b, ∀ item ∈ items, RaisesOnly P (f b item)) (b : β) :
    RaisesOnly P (items.foldlM f b) := by
  induction items generalizing b with
  | nil => exact ok b
  | cons item items ih =>
    rw [List.foldlM_cons]
    exact bind (h b item List.mem_cons_self) fun b' _ =>
      ih (fun b item hitem => h b item (List.mem_cons_of_mem _ hitem)) b'

end RaisesOnly

end Raising

/-- Rows the constraints accept. -/
structure Database {ρ : Type*} (Valid : ρ → Prop) where
  rows : ρ
  valid : Valid rows

namespace Database

variable {ρ ε : Type*} {Valid : ρ → Prop}

@[ext] theorem ext {db db' : Database Valid} (h : db.rows = db'.rows) : db = db' := by
  cases db
  cases db'
  simpa using h

instance [DecidableEq ρ] : DecidableEq (Database Valid) := fun db db' =>
  decidable_of_iff (db.rows = db'.rows) ⟨ext, fun h => by rw [h]⟩

/-- The transaction returned, and the constraints accept the rows it left. -/
def Commits (Valid : ρ → Prop) : Except ε ρ → Prop
  | .error _ => False
  | .ok rows => Valid rows

theorem commits_iff {result : Except ε ρ} : Commits Valid result ↔ ∃ rows, result = .ok rows ∧ Valid rows := by
  cases result with
  | error e => simp [Commits]
  | ok rows => simp [Commits]

@[simp] theorem commits_pure {rows : ρ} : Commits Valid (pure rows : Except ε ρ) ↔ Valid rows := Iff.rfl

theorem commits_bind {ρ α : Type u} {Valid : ρ → Prop} {x : Except ε α} {k : α → Except ε ρ} :
    Commits Valid (x >>= k) ↔ ∃ a, x = .ok a ∧ Commits Valid (k a) := by
  cases x with
  | error e => simp [bind, Except.bind, Commits]
  | ok a => simp [bind, Except.bind]

@[simp] theorem commits_require_bind {condition : Prop} [Decidable condition] {e : ε} {k : PUnit → Except ε ρ} :
    Commits Valid (require condition e >>= k) ↔ condition ∧ Commits Valid (k ⟨⟩) := by
  rw [commits_bind]
  constructor
  · rintro ⟨u, hrequire, hk⟩
    exact ⟨require_eq_ok.mp hrequire, hk⟩
  · rintro ⟨hcondition, hk⟩
    exact ⟨⟨⟩, require_eq_ok.mpr hcondition, hk⟩

variable [DecidablePred Valid]

/-- Commit what a transaction left, or roll it back if it raised or the constraints refuse its rows. -/
def settle (db : Database Valid) : Except ε ρ → Database Valid
  | .error _ => db
  | .ok rows => if h : Valid rows then ⟨rows, h⟩ else db

theorem settle_ok {db : Database Valid} {rows : ρ} (h : Valid rows) :
    db.settle (Except.ok rows : Except ε ρ) = ⟨rows, h⟩ := by
  simp only [settle, dif_pos h]

theorem settle_refused {db : Database Valid} {rows : ρ} (h : ¬ Valid rows) :
    db.settle (Except.ok rows : Except ε ρ) = db := by
  simp only [settle, dif_neg h]

@[simp] theorem settle_error (db : Database Valid) (e : ε) : db.settle (.error e) = db := rfl

instance : DecidablePred (Commits Valid : Except ε ρ → Prop)
  | .error _ => inferInstanceAs (Decidable False)
  | .ok rows => inferInstanceAs (Decidable (Valid rows))

theorem settle_of_commits (db : Database Valid) {result : Except ε ρ} (h : Commits Valid result) :
    result = .ok (db.settle result).rows := by
  obtain ⟨rows, rfl, hvalid⟩ := commits_iff.mp h
  rw [settle_ok hvalid]

theorem settle_of_not_commits {db : Database Valid} {result : Except ε ρ} (h : ¬ Commits Valid result) :
    db.settle result = db := by
  cases result with
  | error e => rfl
  | ok rows => exact settle_refused h

/-- A transaction either changes nothing or leaves the valid rows it computed. -/
theorem settle_cases (db : Database Valid) (result : Except ε ρ) :
    db.settle result = db ∨ ∃ rows, result = .ok rows ∧ Valid rows ∧ (db.settle result).rows = rows := by
  cases result with
  | error e => exact .inl rfl
  | ok rows =>
    by_cases h : Valid rows
    · exact .inr ⟨rows, rfl, h, by rw [settle_ok h]⟩
    · exact .inl (settle_refused h)

/-- To show a property of the rows after a transaction, show it of the rows before and of those it may leave. -/
theorem settle_induction {P : ρ → Prop} {db : Database Valid} {result : Except ε ρ} (hbefore : P db.rows)
    (hafter : ∀ rows, result = .ok rows → Valid rows → P rows) : P (db.settle result).rows := by
  rcases settle_cases db result with h | ⟨rows, hok, hvalid, hrows⟩
  · rw [h]
    exact hbefore
  · rw [hrows]
    exact hafter rows hok hvalid

end Database

end Runs
