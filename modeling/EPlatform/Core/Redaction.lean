import EPlatform.Core.PyValue
import EPlatform.Formats.Patterns

/-!
# Addresses in error reports

`redact_addresses` over every value an event may hold. What it returns is said along paths: the items of lists and tuples
and the values of dictionaries, from the event down.
-/

namespace EPlatform

open Formats Pattern

def REDACTED : PyString := pyString "[redacted]"

/-- `[^\s<>@,;:"'()\[\]]`. -/
def isLocal (c : CodePoint) : Bool := !c.isSpace && c ∉ pyString "<>@,;:\"'()[]"

/-- `[A-Za-z]`. -/
def isLetter (c : CodePoint) : Bool := (65 ≤ c.val && c.val ≤ 90) || (97 ≤ c.val && c.val ≤ 122)

/-- `[A-Za-z0-9]`. -/
def isAlphanumeric (c : CodePoint) : Bool := isLetter c || (48 ≤ c.val && c.val ≤ 57)

/-- `[A-Za-z0-9.-]`. -/
def isHost (c : CodePoint) : Bool := isAlphanumeric c || c.val = 46 || c.val = 45

def isAt (c : CodePoint) : Bool := c.val = 64

def isDot (c : CodePoint) : Bool := c.val = 46

/-- `_EMAIL`. -/
def EMAIL : Pattern CodePoint :=
  .seq (.plus isLocal) (.seq (.one isAt) (.seq (.one isAlphanumeric)
    (.seq (.optional (.seq (.many isHost) (.one isAlphanumeric)))
      (.seq (.one isDot) (.seq (.one isLetter) (.plus isLetter))))))

/-- `_MAX_DEPTH`. -/
def MAX_DEPTH : Nat := 10

mutual

def redactAddresses (depth : Nat) (value : PyValue) : PyValue :=
  if MAX_DEPTH < depth then value
  else
    match value with
    | .str text => .str (EMAIL.sub REDACTED text)
    | .dict fields => .dict (redactFields depth fields)
    | .list items => .list (redactItems depth items)
    | .tuple items => .tuple (redactItems depth items)
    | value => value

def redactItems (depth : Nat) : List PyValue → List PyValue
  | [] => []
  | item :: items => redactAddresses (depth + 1) item :: redactItems depth items

def redactFields (depth : Nat) : List (PyString × PyValue) → List (PyString × PyValue)
  | [] => []
  | (key, item) :: fields => (key, redactAddresses (depth + 1) item) :: redactFields depth fields

end

namespace PyValue

/-- The value at a place of a list, a tuple or a dictionary. -/
def child : PyValue → Nat → Option PyValue
  | .list items, place => items[place]?
  | .tuple items, place => items[place]?
  | .dict fields, place => fields[place]?.map Prod.snd
  | _, _ => .none

/-- The value at the end of a path. Its depth is the path's length. -/
def descend : List Nat → PyValue → Option PyValue
  | [], value => some value
  | place :: path, value => (value.child place).bind (descend path)

/-- The same scalar, two strings, or two containers of one kind with as many items under the same keys. -/
def SameKind : PyValue → PyValue → Prop
  | .str _, .str _ => True
  | .list items, .list items' => items.length = items'.length
  | .tuple items, .tuple items' => items.length = items'.length
  | .dict fields, .dict fields' => fields.map Prod.fst = fields'.map Prod.fst
  | value, value' => value = value'

end PyValue

/-- Strings down to the limit hold no address, what is deeper is as it was, and redacting again changes nothing. -/
structure Redacted (before after : PyValue) : Prop where
  shape : ∀ path, Option.Rel PyValue.SameKind (before.descend path) (after.descend path)
  clean : ∀ path text, path.length ≤ MAX_DEPTH → after.descend path = some (.str text) → ¬ EMAIL.Occurs text
  deeper : ∀ path, MAX_DEPTH < path.length → after.descend path = before.descend path
  again : redactAddresses 0 after = after

/-! ### The pattern and what replaces it -/

theorem mem_of_matches_email {word : PyString} (h : EMAIL.Matches word) : ∃ c ∈ word, isAt c = true := by
  obtain ⟨-, back, rfl, -, front, -, rfl, ⟨c, hc, rfl⟩, -⟩ := h
  exact ⟨c, by simp, hc⟩

theorem email_consumes : ¬ EMAIL.Matches [] := by
  intro h
  obtain ⟨c, hc, -⟩ := mem_of_matches_email h
  exact absurd hc List.not_mem_nil

theorem seals_redacted : EMAIL.Seals REDACTED := by
  refine ⟨.ofNat 91, pyString "redacted", .ofNat 93, by decide, by decide +kernel, by decide +kernel, ?_⟩
  rintro ⟨word, hword, hwithin⟩
  obtain ⟨c, hc, hat⟩ := mem_of_matches_email hword
  have hnone : (pyString "redacted").all (!isAt ·) = true := by decide +kernel
  have hfree := List.all_eq_true.mp hnone c (hwithin.subset hc)
  rw [hat] at hfree
  cases hfree

/-! ### Along a path -/

theorem redactItems_eq (depth : Nat) (items : List PyValue) :
    redactItems depth items = items.map (redactAddresses (depth + 1)) := by
  induction items with
  | nil => rw [redactItems, List.map_nil]
  | cons item items ih => rw [redactItems, ih, List.map_cons]

theorem redactFields_eq (depth : Nat) (fields : List (PyString × PyValue)) :
    redactFields depth fields = fields.map fun field => (field.1, redactAddresses (depth + 1) field.2) := by
  induction fields with
  | nil => rw [redactFields, List.map_nil]
  | cons field fields ih => rw [redactFields, ih, List.map_cons]

theorem redactAddresses_deep {depth : Nat} (h : MAX_DEPTH < depth) (value : PyValue) :
    redactAddresses depth value = value := by
  rw [redactAddresses.eq_def, if_pos h]

section Shallow

variable {depth : Nat} (h : ¬ MAX_DEPTH < depth)

include h

theorem redactAddresses_str (text : PyString) : redactAddresses depth (.str text) = .str (EMAIL.sub REDACTED text) := by
  rw [redactAddresses.eq_def, if_neg h]

theorem redactAddresses_list (items : List PyValue) :
    redactAddresses depth (.list items) = .list (items.map (redactAddresses (depth + 1))) := by
  rw [redactAddresses.eq_def, if_neg h, ← redactItems_eq]

theorem redactAddresses_tuple (items : List PyValue) :
    redactAddresses depth (.tuple items) = .tuple (items.map (redactAddresses (depth + 1))) := by
  rw [redactAddresses.eq_def, if_neg h, ← redactItems_eq]

theorem redactAddresses_dict (fields : List (PyString × PyValue)) : redactAddresses depth (.dict fields) =
    .dict (fields.map fun field => (field.1, redactAddresses (depth + 1) field.2)) := by
  rw [redactAddresses.eq_def, if_neg h, ← redactFields_eq]

end Shallow

theorem child_redactAddresses (depth : Nat) (value : PyValue) (place : Nat) :
    (redactAddresses depth value).child place = (value.child place).map (redactAddresses (depth + 1)) := by
  by_cases hdepth : MAX_DEPTH < depth
  · have hid : redactAddresses (depth + 1) = id := funext (redactAddresses_deep (Nat.lt_succ_of_lt hdepth))
    rw [redactAddresses_deep hdepth, hid, Option.map_id, id]
  · cases value with
    | str text =>
      rw [redactAddresses_str hdepth]
      rfl
    | list items => simp only [redactAddresses_list hdepth, PyValue.child, List.getElem?_map]
    | tuple items => simp only [redactAddresses_tuple hdepth, PyValue.child, List.getElem?_map]
    | dict fields =>
      simp only [redactAddresses_dict hdepth, PyValue.child, List.getElem?_map, Option.map_map, Function.comp_def]
    | _ =>
      rw [redactAddresses.eq_def, if_neg hdepth]
      rfl

theorem descend_redactAddresses (depth : Nat) (value : PyValue) (path : List Nat) :
    (redactAddresses depth value).descend path =
      (value.descend path).map (redactAddresses (depth + path.length)) := by
  induction path generalizing depth value with
  | nil => rfl
  | cons place path ih =>
    rw [PyValue.descend, PyValue.descend, child_redactAddresses, List.length_cons, Nat.add_comm path.length,
      ← Nat.add_assoc]
    cases value.child place with
    | none => rfl
    | some item => exact ih (depth + 1) item

theorem sameKind_redactAddresses (depth : Nat) (value : PyValue) : value.SameKind (redactAddresses depth value) := by
  by_cases hdepth : MAX_DEPTH < depth
  · rw [redactAddresses_deep hdepth]
    cases value <;> simp [PyValue.SameKind]
  · cases value with
    | str text => simp only [redactAddresses_str hdepth, PyValue.SameKind]
    | list items => simp only [redactAddresses_list hdepth, PyValue.SameKind, List.length_map]
    | tuple items => simp only [redactAddresses_tuple hdepth, PyValue.SameKind, List.length_map]
    | dict fields =>
      simp only [redactAddresses_dict hdepth, PyValue.SameKind, List.map_map, Function.comp_def]
    | _ =>
      rw [redactAddresses.eq_def, if_neg hdepth]
      simp only [PyValue.SameKind]

mutual

theorem redactAddresses_twice (depth : Nat) (value : PyValue) :
    redactAddresses depth (redactAddresses depth value) = redactAddresses depth value := by
  by_cases hdepth : MAX_DEPTH < depth
  · rw [redactAddresses_deep hdepth, redactAddresses_deep hdepth]
  · match value with
    | .str text =>
      rw [redactAddresses_str hdepth, redactAddresses_str hdepth, sub_sub email_consumes seals_redacted]
    | .list items =>
      have htwice := redactItems_twice depth items
      rw [redactItems_eq, redactItems_eq] at htwice
      rw [redactAddresses_list hdepth, redactAddresses_list hdepth, htwice]
    | .tuple items =>
      have htwice := redactItems_twice depth items
      rw [redactItems_eq, redactItems_eq] at htwice
      rw [redactAddresses_tuple hdepth, redactAddresses_tuple hdepth, htwice]
    | .dict fields =>
      have htwice := redactFields_twice depth fields
      rw [redactFields_eq, redactFields_eq] at htwice
      rw [redactAddresses_dict hdepth, redactAddresses_dict hdepth, htwice]
    | .none => rw [redactAddresses.eq_def depth .none, if_neg hdepth, redactAddresses.eq_def, if_neg hdepth]
    | .bool value => rw [redactAddresses.eq_def depth (.bool value), if_neg hdepth, redactAddresses.eq_def, if_neg hdepth]
    | .int value => rw [redactAddresses.eq_def depth (.int value), if_neg hdepth, redactAddresses.eq_def, if_neg hdepth]
    | .float value =>
      rw [redactAddresses.eq_def depth (.float value), if_neg hdepth, redactAddresses.eq_def, if_neg hdepth]

theorem redactItems_twice (depth : Nat) (items : List PyValue) :
    redactItems depth (redactItems depth items) = redactItems depth items := by
  match items with
  | [] => rfl
  | item :: items =>
    rw [redactItems, redactItems, redactAddresses_twice (depth + 1) item, redactItems_twice depth items]

theorem redactFields_twice (depth : Nat) (fields : List (PyString × PyValue)) :
    redactFields depth (redactFields depth fields) = redactFields depth fields := by
  match fields with
  | [] => rfl
  | (key, item) :: fields =>
    rw [redactFields, redactFields, redactAddresses_twice (depth + 1) item, redactFields_twice depth fields]

end

/-- Down to the limit no string holds an address, whatever the event is. -/
theorem redactAddresses_redacted (value : PyValue) : Redacted value (redactAddresses 0 value) := by
  refine ⟨fun path => ?_, fun path text hdepth htext => ?_, fun path hdepth => ?_, redactAddresses_twice 0 value⟩
  · rw [descend_redactAddresses]
    cases value.descend path with
    | none => exact .none
    | some item => exact .some (sameKind_redactAddresses _ item)
  · rw [descend_redactAddresses, Nat.zero_add] at htext
    obtain ⟨item, -, hitem⟩ := Option.map_eq_some_iff.mp htext
    have hkind := sameKind_redactAddresses path.length item
    rw [hitem] at hkind
    cases item with
    | str text' =>
      rw [redactAddresses_str (Nat.not_lt.mpr hdepth), PyValue.str.injEq] at hitem
      rw [← hitem]
      exact not_occurs_sub email_consumes seals_redacted text'
    | _ => cases hkind
  · rw [descend_redactAddresses, Nat.zero_add]
    have hid : redactAddresses path.length = id := funext (redactAddresses_deep hdepth)
    rw [hid, Option.map_id, id]

example : EMAIL.sub REDACTED (pyString "user alice@example.com already exists") =
    pyString "user [redacted] already exists" := by decide +kernel

def leaf : PyString := pyString "leaf@example.com"

def buried : PyValue := (fun value => .list [value])^[11] (.str leaf)

/-- An address below the limit is left where it is. -/
theorem buried_address_stays :
    ∃ path text, (redactAddresses 0 buried).descend path = some (.str text) ∧ EMAIL.Occurs text := by
  have hleaf : EMAIL.matchAt leaf = some [] := by decide +kernel
  obtain ⟨word, hword, hmatches⟩ := matchAt_eq_some hleaf
  refine ⟨List.replicate 11 0, leaf, ?_, word, hmatches, ?_⟩
  · rw [descend_redactAddresses]
    have hdeep : redactAddresses (0 + (List.replicate 11 0).length) = id :=
      funext (redactAddresses_deep (by decide))
    rw [hdeep, Option.map_id]
    rfl
  · rw [hword]
    exact (List.prefix_append word []).isInfix

end EPlatform
