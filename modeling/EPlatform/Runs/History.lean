import EPlatform.Runs.Interleaving

/-!
# Histories beside a store

What a property says about the past is kept beside the store it is about: every step of the protocol is recorded, and a
request in flight carries a note made when it came to its present stage. The protocol itself never reads either.
-/

namespace Runs

/-- A store and what is recorded of its past. -/
structure Recorded (σ η : Type*) where
  store : σ
  past : η
  deriving DecidableEq

/-- A request in flight and the note it carries. -/
structure Noted (φ α : Type*) where
  flight : φ
  note : α
  deriving DecidableEq

namespace Protocol

variable {σ φ ρ ε η α : Type*}

/-- The protocol with its steps recorded. `record` reads the step and the store it is taken from, `note` the stage a
request has come to and the store it finds there. -/
def withHistory (p : Protocol σ φ ρ ε) (record : ε → φ → σ → η → η) (note : φ → Recorded σ η → α) :
    Protocol (Recorded σ η) (Noted φ α) ρ ε where
  load request s := (p.load request s.store).map fun flight => ⟨flight, note flight s⟩
  act env f s :=
    let (store, next) := p.act env f.flight s.store
    let s' : Recorded σ η := ⟨store, record env f.flight s.store s.past⟩
    (s', next.map fun flight => ⟨flight, note flight s'⟩)

variable {p : Protocol σ φ ρ ε} {record : ε → φ → σ → η → η} {note : φ → Recorded σ η → α}

theorem withHistory_load {request : ρ} {s : Recorded σ η} {f : Noted φ α}
    (h : (p.withHistory record note).load request s = some f) :
    p.load request s.store = some f.flight ∧ f.note = note f.flight s := by
  obtain ⟨flight, hload, rfl⟩ := Option.map_eq_some_iff.mp h
  exact ⟨hload, rfl⟩

@[simp] theorem withHistory_store (env : ε) (f : Noted φ α) (s : Recorded σ η) :
    ((p.withHistory record note).act env f s).1.store = (p.act env f.flight s.store).1 := rfl

@[simp] theorem withHistory_past (env : ε) (f : Noted φ α) (s : Recorded σ η) :
    ((p.withHistory record note).act env f s).1.past = record env f.flight s.store s.past := rfl

theorem withHistory_next {env : ε} {f f' : Noted φ α} {s : Recorded σ η}
    (h : ((p.withHistory record note).act env f s).2 = some f') :
    (p.act env f.flight s.store).2 = some f'.flight ∧
      f'.note = note f'.flight ((p.withHistory record note).act env f s).1 := by
  obtain ⟨flight, hnext, rfl⟩ := Option.map_eq_some_iff.mp h
  exact ⟨hnext, rfl⟩

end Protocol

end Runs
