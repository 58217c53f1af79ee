import EPlatform.Runs.Run

/-!
# Requests in flight over a shared store

A request reads the store once and then takes a few atomic steps on it, and any number of requests may be between two
of their steps at the same time. What a request has read travels with it as its in-flight value, so nothing makes the
store it writes the store it read.

`Noninterference` is the proof rule: an invariant of the store and an assertion about each request in flight, kept by
that request's own steps and by the steps of every other. `throughout_iff_guarded` turns it into an exact account of the
runs that keep a property of the store.
-/

namespace Runs

/-- What a request does: its first read, and its atomic steps. `act` answers with the store it leaves and with what is
still in flight, or nothing once the request has finished. -/
structure Protocol (σ φ ρ ε : Type*) where
  load : ρ → σ → Option φ
  act : ε → φ → σ → σ × Option φ

/-- The committed store and the requests in flight over it. -/
structure World (σ φ : Type*) where
  store : σ
  inflight : List φ
  deriving DecidableEq

/-- One step of a run: a request arrives and reads, or the one at an index takes its next step. -/
inductive Move (ρ ε : Type*)
  | load (request : ρ)
  | act (index : Nat) (env : ε)

variable {σ φ ρ ε : Type*}

/-- A store with no request in flight. -/
def World.idle (store : σ) : World σ φ := ⟨store, []⟩

namespace Protocol

variable (p : Protocol σ φ ρ ε)

def step (w : World σ φ) : Move ρ ε → World σ φ
  | .load request =>
    match p.load request w.store with
    | none => w
    | some f => { w with inflight := w.inflight ++ [f] }
  | .act index env =>
    match w.inflight[index]? with
    | none => w
    | some f =>
      match p.act env f w.store with
      | (store, none) => ⟨store, w.inflight.eraseIdx index⟩
      | (store, some next) => ⟨store, w.inflight.set index next⟩

/-- A guard on the steps of requests in flight, as a guard on the moves of a run. Reads are free. -/
def Guarded (G : ε → φ → σ → Prop) (w : World σ φ) : Move ρ ε → Prop
  | .load _ => True
  | .act index env => ∀ f, w.inflight[index]? = some f → G env f w.store

instance (G : ε → φ → σ → Prop) [∀ e f s, Decidable (G e f s)] (w : World σ φ) :
    (m : Move ρ ε) → Decidable (Guarded G w m)
  | .load _ => inferInstanceAs (Decidable True)
  | .act index env =>
    match h : w.inflight[index]? with
    | none => isTrue fun f hf => by simp [h] at hf
    | some f => decidable_of_iff (G env f w.store) (by simp [Guarded, h])

/-- `I` holds of the store and `J` of every request in flight over it. -/
def Holds (I : σ → Prop) (J : σ → φ → Prop) (w : World σ φ) : Prop :=
  I w.store ∧ ∀ f ∈ w.inflight, J w.store f

theorem holds_idle {I : σ → Prop} {J : σ → φ → Prop} {s : σ} (hs : I s) : Holds I J (World.idle s) :=
  ⟨hs, by simp [World.idle]⟩

/-- `I` and `J` survive every read, and every step that `G` allows: the request that steps keeps both, and no other
request in flight loses its assertion. -/
structure Noninterference (G : ε → φ → σ → Prop) (I : σ → Prop) (J : σ → φ → Prop) : Prop where
  load : ∀ {s request f}, I s → p.load request s = some f → J s f
  store : ∀ {s env f}, I s → J s f → G env f s → I (p.act env f s).1
  next : ∀ {s env f f'}, I s → J s f → G env f s → (p.act env f s).2 = some f' → J (p.act env f s).1 f'
  others : ∀ {s env f g}, I s → J s f → G env f s → J s g → J (p.act env f s).1 g

variable {p}

@[simp] theorem step_load_none {w : World σ φ} {request : ρ} (h : p.load request w.store = none) :
    p.step w (.load request) = w := by
  simp only [step, h]

theorem step_load_some {w : World σ φ} {request : ρ} {f : φ} (h : p.load request w.store = some f) :
    p.step w (.load request) = { w with inflight := w.inflight ++ [f] } := by
  simp only [step, h]

theorem step_act_none {w : World σ φ} {index : Nat} {env : ε} (h : w.inflight[index]? = none) :
    p.step w (.act index env) = w := by
  simp only [step, h]

/-- A step of a request in flight leaves the store its action leaves. -/
theorem step_act_store {w : World σ φ} {index : Nat} {env : ε} {f : φ} (h : w.inflight[index]? = some f) :
    (p.step w (.act index env)).store = (p.act env f w.store).1 := by
  simp only [step, h]
  split <;> simp_all

/-- After a step of the request at an index, what is in flight was in flight elsewhere, or is what that request became. -/
theorem mem_eraseIdx_of_mem_step {w : World σ φ} {index : Nat} {env : ε} {f g : φ} (h : w.inflight[index]? = some f)
    (hg : g ∈ (p.step w (.act index env)).inflight) :
    g ∈ w.inflight.eraseIdx index ∨ (p.act env f w.store).2 = some g := by
  simp only [step, h] at hg
  split at hg
  · exact .inl hg
  · rename_i hact
    obtain ⟨i, hi⟩ := List.mem_iff_getElem?.mp hg
    by_cases hne : i = index
    · subst hne
      obtain ⟨hlt, -⟩ := List.getElem?_eq_some_iff.mp h
      rw [List.getElem?_set_self hlt] at hi
      exact .inr (by rw [hact, Option.some.inj hi])
    · rw [List.getElem?_set_ne fun heq => hne heq.symm] at hi
      exact .inl (List.mem_eraseIdx_iff_getElem?.mpr ⟨i, hne, hi⟩)

/-- After a step the requests in flight are among the old ones and what the stepping one became. -/
theorem mem_inflight_step_act {w : World σ φ} {index : Nat} {env : ε} {f g : φ} (h : w.inflight[index]? = some f)
    (hg : g ∈ (p.step w (.act index env)).inflight) : g ∈ w.inflight ∨ (p.act env f w.store).2 = some g :=
  (p.mem_eraseIdx_of_mem_step h hg).imp_left List.mem_of_mem_eraseIdx

/-- The others stay in flight. -/
theorem mem_step_of_ne {w : World σ φ} {index : Nat} {env : ε} {f g : φ} (h : w.inflight[index]? = some f)
    (hg : g ∈ w.inflight) (hne : g ≠ f) : g ∈ (p.step w (.act index env)).inflight := by
  obtain ⟨i, hi⟩ := List.mem_iff_getElem?.mp hg
  have hindex : i ≠ index := by
    rintro rfl
    exact hne (Option.some.inj (hi.symm.trans h))
  simp only [step, h]
  split
  · exact List.mem_eraseIdx_iff_getElem?.mpr ⟨i, hindex, hi⟩
  · exact List.mem_of_getElem? ((List.getElem?_set_ne hindex.symm).trans hi)

theorem next_mem_step {w : World σ φ} {index : Nat} {env : ε} {f f' : φ} (h : w.inflight[index]? = some f)
    (hnext : (p.act env f w.store).2 = some f') : f' ∈ (p.step w (.act index env)).inflight := by
  obtain ⟨hlt, -⟩ := List.getElem?_eq_some_iff.mp h
  simp only [step, h]
  split
  · rename_i hact
    rw [hact] at hnext
    cases hnext
  · rename_i hact
    rw [hact] at hnext
    cases hnext
    exact List.mem_of_getElem? (List.getElem?_set_self hlt)

theorem Noninterference.step {G : ε → φ → σ → Prop} {I : σ → Prop} {J : σ → φ → Prop}
    (h : p.Noninterference G I J) {w : World σ φ} (hw : Holds I J w) (m : Move ρ ε) (hm : Guarded G w m) :
    Holds I J (p.step w m) := by
  obtain ⟨hstore, hflight⟩ := hw
  cases m with
  | load request =>
    cases hload : p.load request w.store with
    | none => rw [step_load_none hload]; exact ⟨hstore, hflight⟩
    | some f =>
      rw [step_load_some hload]
      refine ⟨hstore, fun g hg => ?_⟩
      rcases List.mem_append.mp hg with hg | hg
      · exact hflight g hg
      · rw [List.mem_singleton.mp hg]
        exact h.load hstore hload
  | act index env =>
    cases hindex : w.inflight[index]? with
    | none => rw [step_act_none hindex]; exact ⟨hstore, hflight⟩
    | some f =>
      have hf := hflight f (List.mem_of_getElem? hindex)
      have hG := hm f hindex
      constructor
      · rw [step_act_store hindex]
        exact h.store hstore hf hG
      · intro g hg
        rw [step_act_store hindex]
        rcases mem_inflight_step_act hindex hg with hold | hnext
        · exact h.others hstore hf hG (hflight g hold)
        · exact h.next hstore hf hG hnext

/-- If guarded steps keep `I` and `J`, and with both at hand a step that is not guarded loses `P`, then the runs that keep
`P` in every committed state are exactly the guarded ones. -/
theorem Noninterference.throughout_iff {G : ε → φ → σ → Prop} {I : σ → Prop} {J : σ → φ → Prop} {P : σ → Prop}
    (h : p.Noninterference G I J) (himp : ∀ {s}, I s → P s)
    (hbreak : ∀ {s env f}, I s → J s f → ¬ G env f s → ¬ P (p.act env f s).1)
    {w : World σ φ} {run : List (Move ρ ε)} (hw : Holds I J w) :
    Throughout p.step (fun w => P w.store) w run ↔ Along p.step (Guarded G) w run := by
  have hlose : ∀ (w : World σ φ) (m : Move ρ ε), Holds I J w → ¬ Guarded G w m → ¬ P (p.step w m).store := by
    intro w m hw hm
    cases m with
    | load request => exact absurd trivial hm
    | act index env =>
      simp only [Guarded, not_forall] at hm
      obtain ⟨f, hindex, hG⟩ := hm
      rw [step_act_store hindex]
      exact hbreak hw.1 (hw.2 f (List.mem_of_getElem? hindex)) hG
  have hgives : ∀ w : World σ φ, Holds I J w → P w.store := fun w hw => himp hw.1
  exact throughout_iff_along (fun w m hw hm => h.step hw m hm) hlose hgives hw

/-- If, with `I` and `J` at hand, a step keeps `P` of the store exactly when `G` allows it, then the runs that keep `P`
in every committed state are exactly the guarded ones that start with it. -/
theorem throughout_iff_guarded {G : ε → φ → σ → Prop} {I : σ → Prop} {J : σ → φ → Prop} {P : σ → Prop}
    (h : p.Noninterference (fun _ _ _ => True) I J)
    (hstep : ∀ {s env f}, I s → J s f → P s → (P (p.act env f s).1 ↔ G env f s))
    {w : World σ φ} {run : List (Move ρ ε)} (hw : Holds I J w) :
    Throughout p.step (fun w => P w.store) w run ↔ P w.store ∧ Along p.step (Guarded G) w run := by
  by_cases hP : P w.store
  · rw [and_iff_right hP]
    have hkeep : p.Noninterference G (fun s => I s ∧ P s) J :=
      { load := fun hs hload => h.load hs.1 hload
        store := fun hs hf hG => ⟨h.store hs.1 hf trivial, (hstep hs.1 hf hs.2).mpr hG⟩
        next := fun hs hf _ hnext => h.next hs.1 hf trivial hnext
        others := fun hs hf _ hg => h.others hs.1 hf trivial hg }
    apply hkeep.throughout_iff (fun hs => hs.2) (fun hs hf hG => ?_) ⟨⟨hw.1, hP⟩, hw.2⟩
    exact mt (hstep hs.1 hf hs.2).mp hG
  · exact iff_of_false (fun hrun => hP (throughout_iff_earlier.mp hrun [] List.nil_prefix)) fun hrun => hP hrun.1

theorem noninterference_trivial : p.Noninterference (fun _ _ _ => True) (fun _ => True) fun _ _ => True := by
  constructor <;> intros <;> trivial

/-- The same for requests of which nothing need be known. -/
theorem throughout_iff_of_step {G : ε → φ → σ → Prop} {P : σ → Prop}
    (hstep : ∀ {s env f}, P s → (P (p.act env f s).1 ↔ G env f s)) (s : σ) (run : List (Move ρ ε)) :
    Throughout p.step (fun w => P w.store) (World.idle s) run ↔
      P s ∧ Along p.step (Guarded G) (World.idle s) run := by
  apply throughout_iff_guarded noninterference_trivial
  · intro s env f _ _ hs
    exact hstep hs
  · exact holds_idle trivial

/-! ### What requests in flight have in hand -/

/-- Read off every request in flight. -/
def gather {κ : Type*} (g : φ → Option κ) (w : World σ φ) : List κ := w.inflight.filterMap g

variable {κ : Type*} {g : φ → Option κ}

theorem filterMap_eraseIdx {fs : List φ} {index : Nat} {f : φ} (hindex : fs[index]? = some f) (hf : g f = none) :
    (fs.eraseIdx index).filterMap g = fs.filterMap g := by
  induction fs generalizing index with
  | nil => cases hindex
  | cons head tail ih =>
    cases index with
    | zero =>
      cases hindex
      rw [List.eraseIdx_cons_zero, List.filterMap_cons_none hf]
    | succ index =>
      have htail := ih (by simpa using hindex)
      simp only [List.eraseIdx_cons_succ, List.filterMap_cons, htail]

theorem filterMap_set {fs : List φ} {index : Nat} {f f' : φ} (hindex : fs[index]? = some f) (hf : g f = none)
    (hf' : g f' = none) : (fs.set index f').filterMap g = fs.filterMap g := by
  induction fs generalizing index with
  | nil => cases hindex
  | cons head tail ih =>
    cases index with
    | zero =>
      cases hindex
      rw [List.set_cons_zero, List.filterMap_cons_none hf', List.filterMap_cons_none hf]
    | succ index =>
      have htail := ih (by simpa using hindex)
      simp only [List.set_cons_succ, List.filterMap_cons, htail]

theorem gather_load {w : World σ φ} {request : ρ} {f : φ} (h : p.load request w.store = some f) :
    gather g (p.step w (.load request)) = gather g w ++ (g f).toList := by
  rw [step_load_some h, gather, List.filterMap_append, gather]
  cases hg : g f <;> simp [hg]

/-- A step of a request with nothing in hand, neither before nor after. -/
theorem gather_act {w : World σ φ} {index : Nat} {env : ε} {f : φ} (hindex : w.inflight[index]? = some f)
    (hf : g f = none) (hnext : ∀ f', (p.act env f w.store).2 = some f' → g f' = none) :
    gather g (p.step w (.act index env)) = gather g w := by
  simp only [step, hindex]
  split
  · exact filterMap_eraseIdx hindex hf
  · rename_i hact
    exact filterMap_set hindex hf (hnext _ (by rw [hact]))

theorem gather_act_subset {w : World σ φ} {index : Nat} {env : ε} {f : φ} (hindex : w.inflight[index]? = some f)
    (hnext : ∀ f', (p.act env f w.store).2 = some f' → g f' = none) :
    gather g (p.step w (.act index env)) ⊆ gather g w := by
  intro k hk
  obtain ⟨f', hf', hg⟩ := List.mem_filterMap.mp hk
  rcases mem_inflight_step_act hindex hf' with hold | hnew
  · exact List.mem_filterMap.mpr ⟨f', hold, hg⟩
  · rw [hnext f' hnew] at hg
    cases hg

/-! ### One request at a time -/

variable (p)

/-- A request in flight takes its steps with nothing between them, at most the given number. -/
def finish (env : ε) : Nat → φ → σ → σ
  | 0, _, s => s
  | n + 1, f, s =>
    match p.act env f s with
    | (s', none) => s'
    | (s', some f') => finish env n f' s'

def alone (steps : Nat) (env : ε) (request : ρ) (s : σ) : σ :=
  match p.load request s with
  | none => s
  | some f => p.finish env steps f s

variable {p}

/-- Where every step leads to a stage with fewer steps to come, no request needs more than it has to come and one. -/
theorem finish_eq {env : ε} {left : φ → Nat} (hleft : ∀ s f f', (p.act env f s).2 = some f' → left f' < left f)
    {n m : Nat} {f : φ} (hn : left f < n) (hm : left f < m) (s : σ) : p.finish env n f s = p.finish env m f s := by
  induction n generalizing m f s with
  | zero => exact absurd hn (Nat.not_lt_zero _)
  | succ n ih =>
    cases m with
    | zero => exact absurd hm (Nat.not_lt_zero _)
    | succ m =>
      simp only [finish]
      cases hresult : p.act env f s with
      | mk s' next =>
        cases next with
        | none => rfl
        | some f' =>
          have hless : left f' < left f := hleft s f f' (by rw [hresult])
          exact ih (by omega) (by omega) s'

/-- Alone, a request keeps `I` if each of its steps does with what `J` says of the stage, and leads to the next. -/
theorem finish_keeps {env : ε} {I : σ → Prop} {J : σ → φ → Prop}
    (hact : ∀ s f, I s → J s f → I (p.act env f s).1 ∧ ∀ f', (p.act env f s).2 = some f' → J (p.act env f s).1 f')
    (steps : Nat) {s : σ} {f : φ} (hs : I s) (hf : J s f) : I (p.finish env steps f s) := by
  induction steps generalizing s f with
  | zero => exact hs
  | succ n ih =>
    obtain ⟨hstore, hnext⟩ := hact s f hs hf
    simp only [finish]
    cases hresult : p.act env f s with
    | mk s' next =>
      rw [hresult] at hstore hnext
      cases next with
      | none => exact hstore
      | some f' => exact ih hstore (hnext f' rfl)

theorem alone_keeps {env : ε} {I : σ → Prop} {J : σ → φ → Prop} {request : ρ} {s : σ}
    (hload : ∀ f, p.load request s = some f → J s f)
    (hact : ∀ s f, I s → J s f → I (p.act env f s).1 ∧ ∀ f', (p.act env f s).2 = some f' → J (p.act env f s).1 f')
    (steps : Nat) (hs : I s) : I (p.alone steps env request s) := by
  simp only [alone]
  cases hresult : p.load request s with
  | none => exact hs
  | some f => exact finish_keeps hact steps hs (hload f hresult)

end Protocol

end Runs
