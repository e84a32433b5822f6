/-
This file develops regular expressions as a backtracking matcher reads them. An
expression has its readings of a text in order of preference, so that the first
one is the match, and a search takes the first position that has one. A reading
says how much it consumes and where its group stands; both lie within the text.
-/

import Mathlib.Data.List.Basic
import Mathlib.Tactic.TypeStar

namespace Backtracking

variable {Symbol : Type}

/-- A regular expression with one group, whose repetitions are of single symbols. -/
inductive Expression (Symbol : Type) where
  | one (accepts : Symbol → Bool)
  | seq (first second : Expression Symbol)
  | alt (first second : Expression Symbol)
  | optional (body : Expression Symbol)
  | repeated (accepts : Symbol → Bool) (least : Nat) (most : Option Nat)
  | group (body : Expression Symbol)

/-- A reading of the start of a text: how many symbols it consumes, and where its group starts and
ends. -/
structure Reading where
  consumed : Nat
  group : Option (Nat × Nat) := none
  deriving DecidableEq

/-- A reading that follows another one. -/
def Reading.follow (first second : Reading) : Reading where
  consumed := first.consumed + second.consumed
  group := match second.group with
    | some (start, stop) => some (first.consumed + start, first.consumed + stop)
    | none => first.group

/-- How often a repetition can be read, greedily from the greatest number down. -/
def counts (accepts : Symbol → Bool) (least : Nat) (most : Option Nat) (text : List Symbol) :
    List Nat :=
  let available := (text.takeWhile accepts).length
  let greatest := most.elim available (min available)
  ((List.range (greatest + 1)).filter fun count => least ≤ count).reverse

/-- The readings of the start of a text, the preferred ones first. -/
def Expression.readings : Expression Symbol → List Symbol → List Reading
  | .one _, [] => []
  | .one accepts, symbol :: _ => if accepts symbol then [{ consumed := 1 }] else []
  | .seq first second, text => (first.readings text).flatMap fun reading =>
      (second.readings (text.drop reading.consumed)).map reading.follow
  | .alt first second, text => first.readings text ++ second.readings text
  | .optional body, text => body.readings text ++ [{ consumed := 0 }]
  | .repeated accepts least most, text =>
      (counts accepts least most text).map fun count => { consumed := count }
  | .group body, text => (body.readings text).map fun reading =>
      { consumed := reading.consumed, group := some (0, reading.consumed) }

/-- The first position with a reading, and its first reading. -/
def Expression.search (expression : Expression Symbol) : List Symbol → Option (Nat × Reading)
  | [] => (expression.readings []).head?.map fun reading => (0, reading)
  | symbol :: rest =>
    match (expression.readings (symbol :: rest)).head? with
    | some reading => some (0, reading)
    | none => (expression.search rest).map fun found => (found.1 + 1, found.2)

/-! ### Readings lie within the text -/

/-- A reading of at most so many symbols, with its group in order inside it. -/
structure Reading.Within (reading : Reading) (length : Nat) : Prop where
  consumed : reading.consumed ≤ length
  group : ∀ start stop, reading.group = some (start, stop) →
    start ≤ stop ∧ stop ≤ reading.consumed

theorem within_plain {count length : Nat} (fits : count ≤ length) :
    Reading.Within { consumed := count } length :=
  ⟨fits, fun _ _ grouped => by cases grouped⟩

theorem Reading.Within.follow {first second : Reading} {length : Nat} (within : first.Within length)
    (next : second.Within (length - first.consumed)) : (first.follow second).Within length := by
  have fits := within.consumed
  have nextFits := next.consumed
  have consumed : (first.follow second).consumed = first.consumed + second.consumed := rfl
  refine ⟨by omega, fun start stop grouped => ?_⟩
  rw [consumed]
  simp only [Reading.follow] at grouped
  split at grouped
  · rename_i innerStart innerStop inner
    cases grouped
    have inside := next.group innerStart innerStop inner
    omega
  · have inside := within.group start stop grouped
    omega

theorem counts_le {accepts : Symbol → Bool} {least : Nat} {most : Option Nat} {text : List Symbol}
    {count : Nat} (member : count ∈ counts accepts least most text) : count ≤ text.length := by
  unfold counts at member
  rw [List.mem_reverse, List.mem_filter, List.mem_range] at member
  have available : (text.takeWhile accepts).length ≤ text.length :=
    (List.takeWhile_prefix accepts).length_le
  cases most with
  | none =>
    rw [Option.elim_none] at member
    omega
  | some bound =>
    rw [Option.elim_some] at member
    omega

theorem readings_within (expression : Expression Symbol) (text : List Symbol) (reading : Reading)
    (member : reading ∈ expression.readings text) : reading.Within text.length := by
  induction expression generalizing text reading with
  | one accepts =>
    cases text with
    | nil => cases member
    | cons symbol rest =>
      rw [Expression.readings] at member
      split at member
      · rw [List.mem_singleton.mp member]
        exact within_plain (Nat.le_add_left _ _)
      · cases member
  | seq first second firstHypothesis secondHypothesis =>
    obtain ⟨before, beforeRead, member⟩ := List.mem_flatMap.mp member
    obtain ⟨behind, behindRead, rfl⟩ := List.mem_map.mp member
    refine (firstHypothesis text before beforeRead).follow ?_
    rw [← List.length_drop]
    exact secondHypothesis _ behind behindRead
  | alt first second firstHypothesis secondHypothesis =>
    rcases List.mem_append.mp member with left | right
    · exact firstHypothesis text reading left
    · exact secondHypothesis text reading right
  | optional body inductionHypothesis =>
    rcases List.mem_append.mp member with taken | skipped
    · exact inductionHypothesis text reading taken
    · rw [List.mem_singleton.mp skipped]
      exact within_plain (Nat.zero_le _)
  | repeated accepts least most =>
    obtain ⟨count, counted, rfl⟩ := List.mem_map.mp member
    exact within_plain (counts_le counted)
  | group body inductionHypothesis =>
    obtain ⟨inner, innerRead, rfl⟩ := List.mem_map.mp member
    refine ⟨(inductionHypothesis text inner innerRead).consumed, fun start stop grouped => ?_⟩
    cases grouped
    exact ⟨Nat.zero_le _, Nat.le_refl _⟩

/-- What a search finds lies within the text. -/
theorem search_within {expression : Expression Symbol} {text : List Symbol} {start : Nat}
    {reading : Reading} (found : expression.search text = some (start, reading)) :
    start ≤ text.length ∧ reading.Within (text.length - start) := by
  induction text generalizing start with
  | nil =>
    obtain ⟨first, head, same⟩ := Option.map_eq_some_iff.mp found
    cases same
    exact ⟨Nat.le_refl _, readings_within expression [] reading (List.mem_of_head? head)⟩
  | cons symbol rest inductionHypothesis =>
    rw [Expression.search] at found
    split at found
    · rename_i first head
      cases found
      exact ⟨Nat.zero_le _, readings_within expression _ reading (List.mem_of_head? head)⟩
    · obtain ⟨later, laterFound, same⟩ := Option.map_eq_some_iff.mp found
      obtain ⟨position, laterReading⟩ := later
      cases same
      obtain ⟨bound, within⟩ := inductionHypothesis laterFound
      rw [List.length_cons, Nat.add_sub_add_right]
      exact ⟨Nat.succ_le_succ bound, within⟩

/-- What a search finds is a reading of the text from that position. -/
theorem search_mem {expression : Expression Symbol} {text : List Symbol} {start : Nat}
    {reading : Reading} (found : expression.search text = some (start, reading)) :
    reading ∈ expression.readings (text.drop start) := by
  induction text generalizing start with
  | nil =>
    obtain ⟨first, head, same⟩ := Option.map_eq_some_iff.mp found
    cases same
    exact List.mem_of_head? head
  | cons symbol rest inductionHypothesis =>
    rw [Expression.search] at found
    split at found
    · rename_i first head
      cases found
      exact List.mem_of_head? head
    · obtain ⟨later, laterFound, same⟩ := Option.map_eq_some_iff.mp found
      obtain ⟨position, laterReading⟩ := later
      cases same
      exact inductionHypothesis laterFound

end Backtracking
