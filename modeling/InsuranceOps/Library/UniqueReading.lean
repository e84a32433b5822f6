/-
This file develops printers whose output can be read in one way only. A printer
writes a value as a list of symbols. Two values split in front of some
continuations when their texts, each followed by such a continuation, are the
same only if the values are, and the continuations too. The rules say how the
parts of a printer split: symbols of one class in front of another symbol, codes
up to a symbol that starts none of them, and items between separators.
-/

import Mathlib.Data.List.Basic

namespace UniqueReading

variable {Value Symbol : Type*} {follows : List Symbol → Prop} {print : Value → List Symbol}

/-- The texts of two values, each followed by a continuation, agree only if both do. -/
def Splits (follows : List Symbol → Prop) (print : Value → List Symbol) (first second : Value) :
    Prop :=
  ∀ rest left, follows rest → follows left → print first ++ rest = print second ++ left →
    first = second ∧ rest = left

/-- Values that split at the end of the text are told apart by their texts. -/
theorem Splits.eq {first second : Value} (splits : Splits follows print first second)
    (ends : follows []) (same : print first = print second) : first = second :=
  (splits [] [] ends ends (by rw [same])).1

/-- Values a reader finds again in front of any continuation split. -/
theorem splits_of_reads {read : List Symbol → Option (Value × List Symbol)}
    (reads : ∀ value rest, read (print value ++ rest) = some (value, rest)) (first second : Value) :
    Splits (fun _ => True) print first second := by
  intro rest left _ _ same
  have found := (reads first rest).symm.trans ((congrArg read same).trans (reads second left))
  exact Prod.mk.inj (Option.some.inj found)

/-! ### Symbols of one class -/

/-- The continuation does not start with a symbol of the class. -/
def Outside (inClass : Symbol → Prop) (rest : List Symbol) : Prop :=
  ∀ symbol tail, rest = symbol :: tail → ¬inClass symbol

theorem outside_nil (inClass : Symbol → Prop) : Outside inClass [] := nofun

theorem outside_cons {inClass : Symbol → Prop} {symbol : Symbol} (outside : ¬inClass symbol)
    (tail : List Symbol) : Outside inClass (symbol :: tail) := by
  rintro _ _ ⟨⟩
  exact outside

/-- A text of one class ends where the first symbol of another class stands. -/
theorem append_inj_of_class {inClass : Symbol → Prop} {first second rest left : List Symbol}
    (inFirst : ∀ symbol ∈ first, inClass symbol) (inSecond : ∀ symbol ∈ second, inClass symbol)
    (afterFirst : Outside inClass rest) (afterSecond : Outside inClass left)
    (same : first ++ rest = second ++ left) : first = second ∧ rest = left := by
  induction first generalizing second with
  | nil =>
    cases second with
    | nil => exact ⟨rfl, same⟩
    | cons symbol tail =>
      exact absurd (inSecond symbol List.mem_cons_self) (afterFirst symbol (tail ++ left) same)
  | cons symbol tail inductionHypothesis =>
    cases second with
    | nil =>
      exact absurd (inFirst symbol List.mem_cons_self) (afterSecond symbol (tail ++ rest) same.symm)
    | cons other remaining =>
      obtain ⟨sameSymbol, sameTail⟩ := List.cons.inj same
      obtain ⟨equal, rests⟩ := inductionHypothesis
        (fun item member => inFirst item (List.mem_cons_of_mem _ member))
        (fun item member => inSecond item (List.mem_cons_of_mem _ member)) sameTail
      exact ⟨by rw [sameSymbol, equal], rests⟩

/-! ### Codes -/

/-- Texts made of codes end at a symbol no code starts with. -/
theorem flatMap_inj_of_splits {stop : Symbol}
    (splits : ∀ first second, Splits (fun _ => True) print first second)
    (starts : ∀ value, ∃ symbol tail, print value = symbol :: tail ∧ symbol ≠ stop)
    {first second : List Value} {rest left : List Symbol}
    (same : first.flatMap print ++ stop :: rest = second.flatMap print ++ stop :: left) :
    first = second ∧ rest = left := by
  have stopped {value : Value} {before after : List Symbol} :
      print value ++ before ≠ stop :: after := by
    obtain ⟨symbol, tail, text, different⟩ := starts value
    rw [text, List.cons_append]
    exact fun equal => different (List.cons.inj equal).1
  induction first generalizing second with
  | nil =>
    cases second with
    | nil => exact ⟨rfl, (List.cons.inj same).2⟩
    | cons value tail =>
      rw [List.flatMap_cons, List.append_assoc] at same
      exact absurd same.symm stopped
  | cons value tail inductionHypothesis =>
    cases second with
    | nil =>
      rw [List.flatMap_cons, List.append_assoc] at same
      exact absurd same stopped
    | cons other remaining =>
      rw [List.flatMap_cons, List.flatMap_cons, List.append_assoc, List.append_assoc] at same
      obtain ⟨sameValue, sameTail⟩ := splits value other _ _ trivial trivial same
      obtain ⟨equal, rests⟩ := inductionHypothesis sameTail
      exact ⟨by rw [sameValue, equal], rests⟩

/-! ### Items between separators -/

/-- The texts of some items with a separator between any two of them. -/
def separated (separator : Symbol) : List (List Symbol) → List Symbol
  | [] => []
  | [item] => item
  | item :: rest => item ++ separator :: separated separator rest

theorem separated_cons (separator : Symbol) (item : List Symbol) {rest : List (List Symbol)}
    (more : rest ≠ []) :
    separated separator (item :: rest) = item ++ separator :: separated separator rest := by
  cases rest with
  | nil => exact absurd rfl more
  | cons => rfl

/-- Items that split in front of the separator and of the symbol that closes the list are read off
one by one. -/
theorem separated_inj_of_splits {separator close : Symbol} (distinct : separator ≠ close)
    (beforeSeparator : ∀ tail, follows (separator :: tail))
    (beforeClose : ∀ tail, follows (close :: tail))
    {first second : List Value} {rest left : List Symbol}
    (splits : ∀ value ∈ first, ∀ other ∈ second, Splits follows print value other)
    (starts : ∀ value, value ∈ first ∨ value ∈ second →
      ∃ symbol tail, print value = symbol :: tail ∧ symbol ≠ close)
    (same : separated separator (first.map print) ++ close :: rest =
      separated separator (second.map print) ++ close :: left) :
    first = second ∧ rest = left := by
  -- The text behind the first item starts with the separator or the closing symbol.
  have behind (value : Value) (tail : List Value) (end' : List Symbol) :
      ∃ after, follows after ∧
        separated separator ((value :: tail).map print) ++ close :: end' = print value ++ after ∧
        (tail = [] ∧ after = close :: end' ∨ tail ≠ [] ∧
          after = separator :: (separated separator (tail.map print) ++ close :: end')) := by
    cases tail with
    | nil => exact ⟨_, beforeClose end', rfl, .inl ⟨rfl, rfl⟩⟩
    | cons next more =>
      refine ⟨_, beforeSeparator _, ?_, .inr ⟨List.cons_ne_nil _ _, rfl⟩⟩
      rw [List.map_cons, separated_cons _ _ (by simp), List.append_assoc, List.cons_append]
  have closed {value : Value} {before after : List Symbol}
      (opens : ∃ symbol tail, print value = symbol :: tail ∧ symbol ≠ close) :
      print value ++ before ≠ close :: after := by
    obtain ⟨symbol, tail, text, different⟩ := opens
    rw [text, List.cons_append]
    exact fun equal => different (List.cons.inj equal).1
  induction first generalizing second with
  | nil =>
    cases second with
    | nil => exact ⟨rfl, (List.cons.inj same).2⟩
    | cons value tail =>
      obtain ⟨after, -, text, -⟩ := behind value tail left
      rw [text] at same
      exact absurd same.symm (closed (starts value (.inr List.mem_cons_self)))
  | cons value tail inductionHypothesis =>
    obtain ⟨after, follow, text, cases⟩ := behind value tail rest
    rw [text] at same
    cases second with
    | nil => exact absurd same (closed (starts value (.inl List.mem_cons_self)))
    | cons other remaining =>
      obtain ⟨afterOther, followOther, textOther, casesOther⟩ := behind other remaining left
      rw [textOther] at same
      obtain ⟨rfl, sameAfter⟩ := splits value List.mem_cons_self other List.mem_cons_self _ _
        follow followOther same
      rcases cases with ⟨rfl, rfl⟩ | ⟨-, rfl⟩
      · rcases casesOther with ⟨rfl, rfl⟩ | ⟨-, rfl⟩
        · exact ⟨rfl, (List.cons.inj sameAfter).2⟩
        · exact absurd (List.cons.inj sameAfter).1.symm distinct
      · rcases casesOther with ⟨rfl, rfl⟩ | ⟨-, rfl⟩
        · exact absurd (List.cons.inj sameAfter).1 distinct
        · obtain ⟨equal, rests⟩ := inductionHypothesis
            (fun item member target found => splits item (List.mem_cons_of_mem _ member) target
              (List.mem_cons_of_mem _ found))
            (fun item found => starts item (found.imp (List.mem_cons_of_mem _)
              (List.mem_cons_of_mem _))) (List.cons.inj sameAfter).2
          exact ⟨by rw [equal], rests⟩

end UniqueReading
