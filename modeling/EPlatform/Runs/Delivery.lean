import EPlatform.Runs.ReadCommitted

/-!
# What every transaction of a run delivers

Transactions of requests that are about different things: each relies on what nobody but itself changes, and leaves
something that nobody else changes. If none of them is rolled back, then once they have all ended each has left it.
-/

namespace Runs.ReadCommitted

variable {κ : Type*} {ν : κ → Type*} {ρ ε φ α : Type*} [DecidableEq κ] (p : Program ν ρ ε φ α)

/-- The turn rolls a transaction back. -/
def Program.RollsBack (w : Server ν φ α) : Turn ρ ε → Prop
  | .begin _ => False
  | .step i env => ∃ s, w.At i s ∧ p.statement env s.stage (s.view w.committed) = .rollback

/-- The requests that a turn begins a transaction for. -/
def Program.begins : Turn ρ ε → List ρ
  | .begin request => if (p.start request).isSome then [request] else []
  | .step _ _ => []

/-- The requests of a run, in the order in which their transactions begin. -/
def Program.begun (run : List (Turn ρ ε)) : List ρ := run.flatMap p.begins

/-- `F` holds of a request before it begins, `T` of its transaction in flight, and `E` once that is committed. A commit of
another request takes none of them away. -/
structure Program.Delivers {κ' : Type*} (M : ε → Prop) (about : ρ → κ') (F : ρ → Store ν → Prop)
    (T : ρ → Store ν → Session ν φ α → Prop) (E : ρ → Store ν → Prop) : Prop where
  begins : ∀ {r stage committed}, p.start r = some stage → F r committed → T r committed (.begin stage)
  takes : ∀ {r env committed s s'}, M env → T r committed s → p.Takes env committed s s' → T r committed s'
  commits : ∀ {r env committed s}, T r committed s → p.statement env s.stage (s.view committed) = .commit →
    E r (s.view committed)
  fresh : ∀ {r r' env committed s}, about r' ≠ about r → T r' committed s →
    p.statement env s.stage (s.view committed) = .commit → F r committed → F r (s.view committed)
  flying : ∀ {r r' env committed s t}, about r' ≠ about r → T r' committed s →
    p.statement env s.stage (s.view committed) = .commit → T r committed t → T r (s.view committed) t
  ended : ∀ {r r' env committed s}, about r' ≠ about r → T r' committed s →
    p.statement env s.stage (s.view committed) = .commit → E r committed → E r (s.view committed)

/-- Where a run stands that has begun the requests `past` and is to begin those of `later`. -/
structure Server.Delivering (w : Server ν φ α) (F : ρ → Store ν → Prop) (T : ρ → Store ν → Session ν φ α → Prop)
    (E : ρ → Store ν → Prop) (past later : List ρ) : Prop where
  count : w.sessions.length = past.length
  fresh : ∀ r ∈ later, F r w.committed
  flying : ∀ {i : Nat} {s}, w.At i s → ∃ r, past[i]? = some r ∧ T r w.committed s
  ended : ∀ {i : Nat} {r}, past[i]? = some r → w.sessions[i]? = some none → E r w.committed

variable {p} {κ' : Type*} {M : ε → Prop} {about : ρ → κ'} {F : ρ → Store ν → Prop}
  {T : ρ → Store ν → Session ν φ α → Prop} {E : ρ → Store ν → Prop} {w : Server ν φ α} {past later : List ρ}

theorem about_ne {requests : List ρ} (h : (requests.map about).Nodup) {i j : Nat} {r r' : ρ} (hi : requests[i]? = some r)
    (hj : requests[j]? = some r') (hij : i ≠ j) : about r ≠ about r' := by
  intro heq
  have hlt : i < (requests.map about).length := by
    rw [List.length_map]
    exact (List.getElem?_eq_some_iff.mp hi).1
  refine hij ((List.getElem?_inj hlt h).mp ?_)
  rw [List.getElem?_map, List.getElem?_map, hi, hj, Option.map_some, Option.map_some, heq]

omit [DecidableEq κ] in
theorem delivering_idle {committed : Store ν} {log : List α} (h : ∀ r ∈ later, F r committed) :
    (Server.idle committed log).Delivering F T E [] later where
  count := rfl
  fresh := h
  flying hat := by simp [Server.idle, Server.At] at hat
  ended hr := by simp at hr

theorem Program.Delivers.begin (hp : p.Delivers M about F T E) {r : ρ} {stage : φ} (hstart : p.start r = some stage)
    (h : w.Delivering F T E past (r :: later)) :
    Server.Delivering { w with sessions := w.sessions ++ [some (.begin stage)] } F T E (past ++ [r]) later := by
  have hfresh := h.fresh r List.mem_cons_self
  refine ⟨by simp [h.count], fun r' hr' => h.fresh r' (List.mem_cons_of_mem _ hr'), ?_, ?_⟩
  · intro i s hat
    rcases at_begin.mp hat with hat | ⟨rfl, rfl⟩
    · obtain ⟨r', hr', hT⟩ := h.flying hat
      have hlt := (List.getElem?_eq_some_iff.mp hr').1
      exact ⟨r', by rw [List.getElem?_append_left hlt, hr'], hT⟩
    · exact ⟨r, by rw [h.count, List.getElem?_concat_length], hp.begins hstart hfresh⟩
  · intro i r' hr' hslot
    have hlt : i < past.length := by
      by_contra hle
      rw [List.getElem?_append_right (h.count ▸ Nat.not_lt.mp hle), List.getElem?_singleton] at hslot
      split at hslot <;> cases hslot
    rw [List.getElem?_append_left hlt] at hr'
    rw [List.getElem?_append_left (h.count ▸ hlt)] at hslot
    exact h.ended hr' hslot

theorem Program.Delivers.take (hp : p.Delivers M about F T E) {i : Nat} {env : ε} {s s' : Session ν φ α} (henv : M env)
    (hat : w.At i s) (htakes : p.Takes env w.committed s s') (h : w.Delivering F T E past later) :
    (w.put i s').Delivering F T E past later where
  count := by simpa [Server.put] using h.count
  fresh := h.fresh
  flying ht := by
    rcases (at_put hat).mp ht with ⟨rfl, rfl⟩ | ⟨-, ht⟩
    · obtain ⟨r, hr, hT⟩ := h.flying hat
      exact ⟨r, hr, hp.takes henv hT htakes⟩
    · exact h.flying ht
  ended := by
    intro j r hr hslot
    refine h.ended hr ?_
    by_cases hji : j = i
    · subst hji
      have hput : (w.put j s').At j s' := (at_put hat).mpr (.inl ⟨rfl, rfl⟩)
      rw [Server.At, hslot] at hput
      cases hput
    · simpa only [Server.put, List.getElem?_set_ne (Ne.symm hji)] using hslot

theorem Program.Delivers.commit (hp : p.Delivers M about F T E) (hnodup : ((past ++ later).map about).Nodup) {i : Nat}
    {env : ε} {s : Session ν φ α} (hat : w.At i s) (hcommit : p.statement env s.stage (s.view w.committed) = .commit)
    (h : w.Delivering F T E past later) : (w.commit i s).Delivering F T E past later := by
  obtain ⟨r, hr, hT⟩ := h.flying hat
  rw [List.map_append] at hnodup
  have hpast : (past.map about).Nodup := (List.nodup_append.mp hnodup).1
  refine ⟨by simpa [Server.commit] using h.count, ?_, ?_, ?_⟩
  · intro r' hr'
    refine hp.fresh ?_ hT hcommit (h.fresh r' hr')
    have hrpast : about r ∈ past.map about := List.mem_map_of_mem (List.mem_of_getElem? hr)
    exact (List.nodup_append.mp hnodup).2.2 _ hrpast _ (List.mem_map_of_mem hr')
  · intro j t ht
    obtain ⟨hji, ht⟩ := at_commit.mp ht
    obtain ⟨r', hr', hT'⟩ := h.flying ht
    exact ⟨r', hr', hp.flying (about_ne hpast hr hr' (Ne.symm hji)) hT hcommit hT'⟩
  · intro j r' hr' hslot
    by_cases hji : j = i
    · subst hji
      rw [hr, Option.some.injEq] at hr'
      exact hr' ▸ hp.commits hT hcommit
    · have hslot' : w.sessions[j]? = some none := by
        simpa only [Server.commit, List.getElem?_set_ne (Ne.symm hji)] using hslot
      exact hp.ended (about_ne hpast hr hr' (Ne.symm hji)) hT hcommit (h.ended hr' hslot')

theorem Program.Delivers.step (hp : p.Delivers M about F T E) {turn : Turn ρ ε}
    (hturn : ∀ i env, turn = .step i env → M env) (hcommits : ¬ p.RollsBack w turn)
    (hnodup : ((past ++ (p.begins turn ++ later)).map about).Nodup)
    (h : w.Delivering F T E past (p.begins turn ++ later)) :
    (p.step w turn).Delivering F T E (past ++ p.begins turn) later := by
  cases turn with
  | begin request =>
    cases hstart : p.start request with
    | none => simpa [Program.step, Program.begins, hstart] using h
    | some stage =>
      simp only [Program.step, Program.begins, hstart, Option.isSome_some, if_true] at h ⊢
      exact hp.begin hstart h
  | step i env =>
    rw [Program.begins, List.append_nil]
    rw [Program.begins, List.nil_append] at h hnodup
    have hstep := p.step_spec w (.step i env)
    generalize p.step w (.step i env) = w' at hstep
    cases hstep with
    | wait => exact h
    | take hat htakes => exact hp.take (hturn i env rfl) hat htakes h
    | commit hat hcommit => exact hp.commit hnodup hat hcommit h
    | rollback hat hrollback => exact absurd ⟨_, hat, hrollback⟩ hcommits

/-- Where nothing is rolled back, every request of a run has been delivered once its transactions have ended. -/
theorem Program.Delivers.run (hp : p.Delivers M about F T E) {run : List (Turn ρ ε)}
    (hrun : ∀ i env, .step i env ∈ run → M env) (hcommits : Along p.step (fun w turn => ¬ p.RollsBack w turn) w run)
    (hnodup : ((past ++ p.begun run).map about).Nodup) (h : w.Delivering F T E past (p.begun run)) :
    (final p.step w run).Delivering F T E (past ++ p.begun run) [] := by
  induction run generalizing w past with
  | nil => simpa [Program.begun] using h
  | cons turn run ih =>
    have hbegun : p.begun (turn :: run) = p.begins turn ++ p.begun run := List.flatMap_cons
    rw [hbegun] at h hnodup ⊢
    have hnext := hp.step (fun i env hturn => hrun i env (hturn ▸ List.mem_cons_self)) hcommits.1 hnodup h
    rw [← List.append_assoc] at hnodup ⊢
    exact ih (fun i env hmem => hrun i env (List.mem_cons_of_mem _ hmem)) hcommits.2 hnodup hnext

omit [DecidableEq κ] in
theorem Server.Delivering.of_quiet (h : w.Delivering F T E past later) (hquiet : w.Quiet) : ∀ r ∈ past, E r w.committed := by
  intro r hr
  obtain ⟨i, hi⟩ := List.getElem?_of_mem hr
  have hlt : i < w.sessions.length := h.count ▸ (List.getElem?_eq_some_iff.mp hi).1
  cases hslot : w.sessions[i]? with
  | none => exact absurd (List.getElem?_eq_none_iff.mp hslot) (by omega)
  | some slot => cases slot with
    | none => exact h.ended hi hslot
    | some s => exact absurd hslot (quiet_iff.mp hquiet i s)

end Runs.ReadCommitted
