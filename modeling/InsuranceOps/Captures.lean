/-
This file follows what a pattern captures through a text. It captures at the
first place where it can be read, so what a text captures is found by going
through it: the first capture that begins in a part of the text, or else what
the rest captures. At one place a pattern reads a value ahead of its lead.
-/

import InsuranceOps.Library.Continuation
import InsuranceOps.PolicyTokens

namespace InsuranceOps

open Backtracking

/-! ### Captures -/

/-- What is first read of something that begins in the first of two parts of a text. -/
def firstAt (reads : Text → Option Text) : Text → Text → Option Text
  | [], _ => none
  | char :: part, rest => (reads (char :: part ++ rest)).or (firstAt reads part rest)

theorem firstAt_append (reads : Text → Option Text) (part other rest : Text) :
    firstAt reads (part ++ other) rest =
      (firstAt reads part (other ++ rest)).or (firstAt reads other rest) := by
  induction part with
  | nil => rfl
  | cons char part inductionHypothesis =>
    rw [List.cons_append, firstAt, inductionHypothesis, firstAt, Option.or_assoc, List.cons_append,
      List.cons_append, List.append_assoc]

/-- What is read at the places of a part tells what is first read there. -/
theorem firstAt_congr {reads others : Text → Option Text} {part rest : Text}
    (same : ∀ place, place <:+ part → place ≠ [] → reads (place ++ rest) = others (place ++ rest)) :
    firstAt reads part rest = firstAt others part rest := by
  induction part with
  | nil => rfl
  | cons char part inductionHypothesis =>
    rw [firstAt, firstAt, same _ (List.suffix_refl _) (List.cons_ne_nil _ _),
      inductionHypothesis fun place within => same place (within.trans (List.suffix_cons _ _))]

/-- Where one thing is read at some places and nothing at the others, it is read first. -/
theorem firstAt_ite {reads : Text → Option Text} {stands : Text → Bool} {result : Option Text}
    {part rest : Text} (never : stands [] = false)
    (each : ∀ place, place <:+ part →
      reads (place ++ rest) = if stands place then result else none) :
    firstAt reads part rest = if part.tails.any stands then result else none := by
  induction part with
  | nil =>
    rw [List.tails, List.any_cons, List.any_nil, never]
    rfl
  | cons char part inductionHypothesis =>
    rw [firstAt, each _ (List.suffix_refl _), inductionHypothesis fun place within =>
      each place (within.trans (List.suffix_cons _ _)), List.tails, List.any_cons]
    cases stands (char :: part)
    · rfl
    · cases part.tails.any stands <;> cases result <;> rfl

theorem firstAt_none (part rest : Text) : firstAt (fun _ => none) part rest = none := by
  induction part with
  | nil => rfl
  | cons char part inductionHypothesis => rw [firstAt, inductionHypothesis, Option.none_or]

namespace Pattern

variable (pattern : Pattern)

/-- The value a pattern reads at the start of a text. -/
def read (text : Text) : Option Text :=
  match (pattern.expression.readings text).head? with
  | some ⟨_, some (start, stop)⟩ => some (FloatValue.strip (slice text start stop))
  | _ => none

/-- The value a pattern captures in a text. -/
def capture : Text → Option Text
  | [] => pattern.read []
  | char :: rest => (pattern.read (char :: rest)).or (capture rest)

variable {pattern}

theorem capture_append (part rest : Text) : pattern.capture (part ++ rest) =
    (firstAt pattern.read part rest).or (pattern.capture rest) := by
  induction part with
  | nil => rfl
  | cons char part inductionHypothesis =>
    rw [List.cons_append, capture, inductionHypothesis, firstAt, Option.or_assoc, List.cons_append]

theorem capture_of_read {text value : Text} (read : pattern.read text = some value) :
    pattern.capture text = some value := by
  cases text with
  | nil => exact read
  | cons char rest => rw [capture, read, Option.some_or]

theorem read_eq_none_iff {text : Text} :
    pattern.read text = none ↔ pattern.expression.readings text = [] := by
  unfold read
  cases head : (pattern.expression.readings text).head? with
  | none => exact iff_of_true rfl (List.head?_eq_none_iff.mp head)
  | some reading =>
    obtain ⟨consumed, group⟩ := reading
    obtain ⟨start, stop, grouped⟩ := pattern.reading_group (List.mem_of_head? head)
    dsimp only at grouped
    rw [grouped]
    refine iff_of_false nofun fun none => ?_
    rw [none] at head
    cases head

/-- What a text captures stands where the search finds it. -/
theorem capture_eq_search (text : Text) : pattern.capture text =
    match pattern.expression.search text with
    | some (position, ⟨_, some (start, stop)⟩) =>
      some (FloatValue.strip (slice text (position + start) (position + stop)))
    | _ => none := by
  induction text with
  | nil =>
    rw [capture, read, Expression.search]
    cases head : (pattern.expression.readings []).head? with
    | none => rfl
    | some reading =>
      obtain ⟨consumed, group⟩ := reading
      obtain ⟨start, stop, grouped⟩ := pattern.reading_group (List.mem_of_head? head)
      dsimp only at grouped
      subst grouped
      simp only [Option.map_some, Nat.zero_add]
  | cons char rest inductionHypothesis =>
    rw [capture, read, Expression.search]
    cases head : (pattern.expression.readings (char :: rest)).head? with
    | some reading =>
      obtain ⟨consumed, group⟩ := reading
      obtain ⟨start, stop, grouped⟩ := pattern.reading_group (List.mem_of_head? head)
      dsimp only at grouped
      subst grouped
      simp only [Option.some_or, Nat.zero_add]
    | none =>
      dsimp only
      rw [Option.none_or, inductionHypothesis]
      cases found : pattern.expression.search rest with
      | none => rfl
      | some result =>
        obtain ⟨position, consumed, group⟩ := result
        obtain ⟨start, stop, grouped⟩ := pattern.reading_group (search_mem found)
        dsimp only at grouped
        subst grouped
        simp only [Option.map_some]
        unfold slice
        rw [Nat.add_right_comm position 1 start, Nat.add_right_comm position 1 stop,
          Nat.add_sub_add_right, List.drop_succ_cons]

/-- The field a pattern finds has the value it captures. -/
theorem field_value (name : String) (text : Text) :
    (pattern.field name text).map (fun field => field.value) =
      (pattern.capture text).map String.ofList := by
  rw [capture_eq_search]
  unfold Pattern.field
  cases found : pattern.expression.search text with
  | none => rfl
  | some result =>
    obtain ⟨position, consumed, group⟩ := result
    obtain ⟨start, stop, grouped⟩ := pattern.reading_group (search_mem found)
    dsimp only at grouped
    subst grouped
    rfl

/-- The value a pattern takes where its lead has been read. -/
def taken (pattern : Pattern) (text : Text) : Option Text :=
  (pattern.value.readings text).head?.map fun reading =>
    FloatValue.strip (text.take reading.consumed)

/-- The value a pattern takes is all that does not remain. -/
theorem taken_eq_ahead (text : Text) : pattern.taken text = pattern.value.ahead
    (fun rest => some (FloatValue.strip (text.take (text.length - rest.length)))) text := by
  unfold taken Expression.ahead
  cases read : pattern.value.readings text with
  | nil => rfl
  | cons reading others =>
    have within := readings_within _ text reading (by rw [read]; exact List.mem_cons_self)
    rw [List.findSome?_cons_of_isSome rfl]
    dsimp only
    rw [List.length_drop, Nat.sub_sub_self within.consumed]
    rfl

/-- A pattern reads its lead ahead of its value. -/
theorem read_eq_ahead (text : Text) :
    pattern.read text = pattern.lead.ahead pattern.taken text := by
  unfold read Expression.ahead
  show (match ((pattern.lead.seq (.group pattern.value)).readings text).head? with
    | some ⟨_, some (start, stop)⟩ => some (FloatValue.strip (slice text start stop))
    | _ => none) = _
  rw [Expression.readings]
  induction pattern.lead.readings text with
  | nil => rfl
  | cons reading rest inductionHypothesis =>
    rw [List.flatMap_cons, List.head?_append, List.head?_map, List.findSome?_cons, taken,
      Expression.readings, List.head?_map]
    cases (pattern.value.readings (text.drop reading.consumed)).head? with
    | none => exact inductionHypothesis
    | some behind =>
      simp only [Option.map_some, Option.some_or, Reading.follow]
      rw [slice, Nat.add_zero, Nat.add_sub_cancel_left]

/-- A pattern reads the value behind its lead. -/
theorem read_of_head? {lead value rest : Text} {before behind : Reading}
    (leads : (pattern.lead.readings (lead ++ (value ++ rest))).head? = some before)
    (length : before.consumed = lead.length)
    (takes : (pattern.value.readings (value ++ rest)).head? = some behind)
    (valueLength : behind.consumed = value.length) :
    pattern.read (lead ++ (value ++ rest)) = some (FloatValue.strip value) := by
  have grouped : ((Expression.group pattern.value).readings (value ++ rest)).head? =
      some { consumed := behind.consumed, group := some (0, behind.consumed) } := by
    rw [Expression.readings, List.head?_map, takes]
    rfl
  have whole : (pattern.expression.readings (lead ++ (value ++ rest))).head? = _ :=
    head?_readings_seq_of leads (by rw [length, List.drop_left]; exact grouped)
  unfold read
  rw [whole]
  dsimp only [Reading.follow]
  rw [length, valueLength, Nat.add_zero, slice, Nat.add_sub_cancel_left, List.drop_left,
    List.take_left]

/-- Without a word of the lead a pattern reads nothing. -/
theorem read_eq_none_of_lead {text : Text} (none : pattern.lead.readings text = []) :
    pattern.read text = .none := by
  rw [read_eq_none_iff]
  show (pattern.lead.seq (.group pattern.value)).readings text = []
  rw [Expression.readings, none]
  rfl

end Pattern

end InsuranceOps
