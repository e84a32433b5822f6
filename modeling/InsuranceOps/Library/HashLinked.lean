/-
This file develops hash-linked lists: rows that each store the digest of the
row before them. The rules say how linking composes with appending and with
cutting, and that a chain with distinct digests leaves no freedom: any linked
list drawn from its rows is one of its initial segments.
-/

import Mathlib.Data.List.Nodup
import Mathlib.Data.List.Infix
import Mathlib.Tactic.TypeStar

namespace HashLinked

variable {Row Digest : Type*} (previous : Row → Option Digest) (digest : Row → Digest)

/-- The digest the next row has to store: that of the last row, or the one the list starts
from. -/
def tip : Option Digest → List Row → Option Digest
  | start, [] => start
  | _, row :: rest => tip (some (digest row)) rest

/-- Each row stores the digest of the row before it, the first one that of the start. -/
def LinkedFrom : Option Digest → List Row → Prop
  | _, [] => True
  | start, row :: rest => previous row = start ∧ LinkedFrom (some (digest row)) rest

theorem tip_append (start : Option Digest) (first second : List Row) :
    tip digest start (first ++ second) = tip digest (tip digest start first) second := by
  induction first generalizing start with
  | nil => rfl
  | cons row rest inductionHypothesis => exact inductionHypothesis _

@[simp] theorem tip_concat (start : Option Digest) (rows : List Row) (row : Row) :
    tip digest start (rows ++ [row]) = some (digest row) := by
  rw [tip_append]
  rfl

/-- The tip reads the last row. -/
theorem tip_eq_getLast? (rows : List Row) :
    tip digest none rows = rows.getLast?.map digest := by
  rcases List.eq_nil_or_concat rows with rfl | ⟨initial, last, rfl⟩
  · rfl
  · rw [List.concat_eq_append, tip_concat, List.getLast?_concat, Option.map_some]

theorem linkedFrom_append (start : Option Digest) (first second : List Row) :
    LinkedFrom previous digest start (first ++ second) ↔
      LinkedFrom previous digest start first ∧
        LinkedFrom previous digest (tip digest start first) second := by
  induction first generalizing start with
  | nil => simp only [List.nil_append, LinkedFrom, tip, true_and]
  | cons row rest inductionHypothesis =>
    simp only [List.cons_append, LinkedFrom, tip, inductionHypothesis, and_assoc]

theorem linkedFrom_concat (start : Option Digest) (rows : List Row) (row : Row) :
    LinkedFrom previous digest start (rows ++ [row]) ↔
      LinkedFrom previous digest start rows ∧ previous row = tip digest start rows := by
  rw [linkedFrom_append]
  simp only [LinkedFrom, and_true]

/-- An initial segment of a linked list is linked. -/
theorem LinkedFrom.initial {start : Option Digest} {rows segment : List Row}
    (linked : LinkedFrom previous digest start rows) (cut : segment <+: rows) :
    LinkedFrom previous digest start segment := by
  obtain ⟨rest, rfl⟩ := cut
  exact ((linkedFrom_append previous digest start segment rest).mp linked).1

/-- Linking only reads the stored digests, so two lists that agree on them are linked
together. -/
theorem linkedFrom_congr {first second : List Row} (start : Option Digest)
    (same : first.map (fun row => (previous row, digest row)) =
      second.map fun row => (previous row, digest row)) :
    LinkedFrom previous digest start first ↔ LinkedFrom previous digest start second := by
  induction first generalizing start second with
  | nil =>
    rw [List.map_nil] at same
    rw [List.map_eq_nil_iff.mp same.symm]
  | cons row rest inductionHypothesis =>
    cases second with
    | nil => cases same
    | cons other others =>
      simp only [List.map_cons, List.cons.injEq, Prod.mk.injEq] at same
      obtain ⟨⟨samePrevious, sameDigest⟩, sameRest⟩ := same
      simp only [LinkedFrom, samePrevious, sameDigest, inductionHypothesis _ sameRest]

/-- A list is linked when the row at each position stores the digest of the one before it. -/
theorem linkedFrom_iff_getElem (start : Option Digest) (rows : List Row) :
    LinkedFrom previous digest start rows ↔
      ∀ (index : Nat) (bound : index < rows.length),
        previous rows[index] = tip digest start (rows.take index) := by
  induction rows generalizing start with
  | nil => exact ⟨fun _ _ bound => absurd bound (Nat.not_lt_zero _), fun _ => trivial⟩
  | cons row rest inductionHypothesis =>
    rw [LinkedFrom, inductionHypothesis]
    constructor
    · rintro ⟨first, later⟩ (_ | index) bound
      · exact first
      · exact later index (Nat.lt_of_succ_lt_succ bound)
    · intro each
      exact ⟨each 0 (Nat.zero_lt_succ _),
        fun index bound => each (index + 1) (Nat.succ_lt_succ bound)⟩

/-- In a list with distinct digests the tip of an initial segment tells its length. -/
theorem tip_take_injective {rows : List Row} (distinct : (rows.map digest).Nodup)
    {first second : Nat} (firstBound : first ≤ rows.length) (secondBound : second ≤ rows.length)
    (same : tip digest none (rows.take first) = tip digest none (rows.take second)) :
    first = second := by
  have tipSucc (count : Nat) (bound : count < rows.length) :
      tip digest none (rows.take (count + 1)) = some (digest rows[count]) := by
    rw [List.take_succ_eq_append_getElem bound, tip_concat]
  cases first with
  | zero =>
    cases second with
    | zero => rfl
    | succ count =>
      rw [tipSucc count secondBound] at same
      cases same
  | succ count =>
    cases second with
    | zero =>
      rw [tipSucc count firstBound] at same
      cases same
    | succ other =>
      rw [tipSucc count firstBound, tipSucc other secondBound, Option.some_inj] at same
      have mappedFirst : count < (rows.map digest).length := by
        rw [List.length_map]
        exact firstBound
      have mappedSecond : other < (rows.map digest).length := by
        rw [List.length_map]
        exact secondBound
      have read : (rows.map digest)[count] = (rows.map digest)[other] := by
        rw [List.getElem_map, List.getElem_map, same]
      exact congrArg (· + 1) ((List.Nodup.getElem_inj_iff distinct).mp read)

/-- A list linked from nothing whose rows are links of a chain with distinct digests is, link
by link, an initial segment of that chain: after as many rows of the chain as it already has,
only the next one stores the right digest. -/
theorem LinkedFrom.eq_take {chain : List Row}
    (linked : LinkedFrom previous digest none chain) (distinct : (chain.map digest).Nodup)
    {rows : List Row} (linkedRows : LinkedFrom previous digest none rows)
    (drawn : ∀ row ∈ rows, ∃ link ∈ chain, previous row = previous link ∧
      digest row = digest link) :
    rows.map digest = (chain.take rows.length).map digest ∧ rows.length ≤ chain.length := by
  induction rows using List.reverseRecOn with
  | nil => exact ⟨rfl, Nat.zero_le _⟩
  | append_singleton rows row inductionHypothesis =>
    obtain ⟨linkedInit, stored⟩ := (linkedFrom_concat previous digest none rows row).mp linkedRows
    obtain ⟨same, bound⟩ := inductionHypothesis linkedInit
      fun other member => drawn other (List.mem_append_left _ member)
    obtain ⟨link, member, samePrevious, sameDigest⟩ :=
      drawn row (List.mem_append_right _ (List.mem_singleton_self row))
    obtain ⟨index, indexBound, rfl⟩ := List.getElem_of_mem member
    have tipSame : tip digest none rows = tip digest none (chain.take rows.length) := by
      rw [tip_eq_getLast?, tip_eq_getLast?, ← List.getLast?_map, ← List.getLast?_map, same]
    have position : rows.length = index := by
      refine tip_take_injective digest distinct bound (Nat.le_of_lt indexBound) ?_
      rw [← tipSame, ← stored, samePrevious,
        (linkedFrom_iff_getElem previous digest none chain).mp linked index indexBound]
    subst position
    refine ⟨?_, by rw [List.length_append, List.length_singleton]; exact indexBound⟩
    rw [List.map_append, List.length_append, List.length_singleton, same,
      List.take_succ_eq_append_getElem indexBound, List.map_append, List.map_singleton,
      List.map_singleton, sameDigest]

/-- The converse: rows that agree with an initial segment of a chain are linked as it is. -/
theorem LinkedFrom.of_initial {chain rows : List Row}
    (linked : LinkedFrom previous digest none chain)
    (same : rows.map (fun row => (previous row, digest row)) <+:
      chain.map fun row => (previous row, digest row)) :
    LinkedFrom previous digest none rows := by
  have cut : rows.map (fun row => (previous row, digest row)) =
      (chain.take rows.length).map fun row => (previous row, digest row) := by
    have segment := List.prefix_iff_eq_take.mp same
    rwa [List.length_map, ← List.map_take] at segment
  exact (linkedFrom_congr previous digest none cut).mpr
    (linked.initial previous digest (List.take_prefix _ _))

end HashLinked
