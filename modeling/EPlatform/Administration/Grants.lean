import EPlatform.Administration.AllOrNothing
import EPlatform.Runs.Run

/-!
# No grant is permanent

Any sequence of administrative calls, each by itself: the constraints hold after each of them, the trail only grows, and
every override they grant is over when the longest one could be.
-/

namespace EPlatform.Administration

open Runs

variable {casing : Accounts.Casing} {rows rows' : Rows}

/-- A call, with what it finds. Every call finds the same database. -/
structure Occasion (casing : Accounts.Casing) where
  env : Env
  request : Request
  sameCasing : env.casing = casing

def operate (rows : Rows) (occasion : Occasion casing) : Rows :=
  (occasion.request.call occasion.env ⟨rows, false, []⟩).2.rows

/-- What holds of the rows after a call, given those before it. -/
structure Follows (casing : Accounts.Casing) (before after : Rows) : Prop where
  checked : after.Checked casing
  linked : after.Linked
  trail : before.auditLog <+: after.auditLog
  bounded : ∀ override ∈ after.overrides, override ∈ before.overrides ∨ override.IsBounded

theorem linked_call (env : Env) (request : Request) (hlinked : rows.Linked) :
    (request.call env ⟨rows, false, []⟩).2.rows.Linked := by
  have hatomic : ∀ x : Call Unit, (env.atomic x ⟨rows, false, []⟩).2.rows.Linked := by
    intro x
    show (Code.atomic env.backend x ⟨rows, false, []⟩).2.rows.Linked
    rcases Code.atomic_rows_eq_or_commit env.backend x rows with hsame | hcommit
    · rw [hsame]
      exact hlinked
    · exact (Env.commit_eq_ok.mp hcommit).2
  obtain ⟨actor, act, ipAddress⟩ := request
  cases act with
  | grantAccessOverride user days reason =>
    exact Code.rows_lift_bind hlinked fun _ => Code.rows_lift_bind hlinked fun _ => hatomic _
  | approve | reject | requestChanges | changeRole | issueInvitation | revokeInvitation => exact hatomic _

theorem Answered.checked {env : Env} {request : Request} (h : Answered env request rows rows')
    (hchecked : rows.Checked env.casing) : rows'.Checked env.casing := by
  cases h with
  | recorded _ _ _ hrecorded => exact hrecorded
  | alreadyRevoked => exact hchecked

theorem follows_operate (occasion : Occasion casing) (hchecked : rows.Checked casing) (hlinked : rows.Linked) :
    Follows casing rows (operate rows occasion) := by
  obtain ⟨env, request, rfl⟩ := occasion
  have hlinked' := linked_call env request hlinked
  have hcases : (request.call env ⟨rows, false, []⟩).2.rows = rows ∨
      Answered env request rows (request.call env ⟨rows, false, []⟩).2.rows :=
    rows_cases env request (.alone ⟨rows, hchecked, hlinked⟩)
  rcases hcases with hsame | hanswered
  · rw [operate, hsame]
    exact ⟨hchecked, hlinked, List.prefix_rfl, fun _ hoverride => .inl hoverride⟩
  · obtain ⟨entries, htrail, _⟩ := hanswered.auditLog_eq
    exact ⟨hanswered.checked hchecked, hlinked', ⟨entries, htrail.symm⟩, hanswered.bounded⟩

theorem Follows.trans {rows'' : Rows} (h : Follows casing rows rows') (h' : Follows casing rows' rows'') :
    Follows casing rows rows'' where
  checked := h'.checked
  linked := h'.linked
  trail := h.trail.trans h'.trail
  bounded override hoverride := by
    rcases h'.bounded override hoverride with hmem | hbounded
    · exact h.bounded override hmem
    · exact .inr hbounded

/-- The constraints, the trail and the bound on what is granted, after any calls. -/
theorem follows_run (hchecked : rows.Checked casing) (hlinked : rows.Linked) (run : List (Occasion casing)) :
    Follows casing rows (final operate rows run) := by
  apply final_of_step (I := Follows casing rows)
  · intro rows' occasion h
    exact h.trans (follows_operate occasion h.checked h.linked)
  · exact ⟨hchecked, hlinked, List.prefix_rfl, fun _ hoverride => .inl hoverride⟩

theorem AccessOverride.IsBounded.isOver {override : AccessOverride} {now : Instant} (h : override.IsBounded)
    (hnow : (override.startsAt : Int) + ACCESS_OVERRIDE_MAX_DAYS * Entitlements.DAY ≤ now) : ¬ now < override.endsAt := by
  intro hlt
  have hends := h.ends
  have hlt : (now : Int) < override.endsAt := Int.ofNat_lt.mpr hlt
  omega

/-- Whatever was granted by whatever calls, the resolver finds nothing of it once the longest grant would be over. -/
theorem no_grant_is_permanent (hchecked : rows.Checked casing) (hlinked : rows.Linked) (hnone : rows.overrides = [])
    (run : List (Occasion casing)) {now : Instant}
    (hnow : ∀ override ∈ (final operate rows run).overrides,
      (override.startsAt : Int) + ACCESS_OVERRIDE_MAX_DAYS * Entitlements.DAY ≤ now) (user : User) :
    Entitlements.activeOverrideExists ((final operate rows run).overrides.map (·.toAccessOverride)) user now = false := by
  rw [Entitlements.activeOverrideExists, List.any_map, List.any_eq_false]
  intro override hoverride
  have hbounded : override.IsBounded := by
    rcases (follows_run hchecked hlinked run).bounded override hoverride with hmem | hbounded
    · rw [hnone] at hmem
      exact absurd hmem List.not_mem_nil
    · exact hbounded
  simp [hbounded.isOver (hnow override hoverride)]

end EPlatform.Administration
