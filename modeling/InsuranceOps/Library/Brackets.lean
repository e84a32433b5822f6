/-
This file develops texts with brackets and quotations. A scanner reads such a
text symbol by symbol: outside a quotation it counts the open brackets, inside
one it looks only for the closing quote and for an escape. A text is balanced
when the scanner leaves it as deep as it entered. A bracketed text at the end of
another text is found there in one way only: no proper part of a balanced text
is left that would end with another one.
-/

import Mathlib.Data.List.Basic

namespace Brackets

/-- The symbols a scanner tells apart. -/
structure Marks (Symbol : Type*) where
  quote : Symbol
  escape : Symbol
  opening : Symbol → Bool
  closing : Symbol → Bool
  /-- The symbols that may stand behind an escape. -/
  letter : Symbol → Bool
  escape_ne_quote : escape ≠ quote
  opening_quote : opening quote = false
  closing_quote : closing quote = false
  opening_escape : opening escape = false
  closing_escape : closing escape = false
  closing_opening : ∀ symbol, opening symbol = true → closing symbol = false

/-- Where a scanner is: how many brackets are open, and whether a quotation or an escape is. -/
inductive State where
  | outside (depth : Nat)
  | inside (depth : Nat)
  | escaped (depth : Nat)

variable {Symbol : Type*} [DecidableEq Symbol] (marks : Marks Symbol)

/-- Read one symbol. A bracket that closes none, an escape outside a quotation and an escape of
another symbol than a letter stop the scanner. -/
def step : State → Symbol → Option State
  | .outside depth, symbol =>
    if symbol = marks.quote then some (.inside depth)
    else if symbol = marks.escape then none
    else if marks.opening symbol then some (.outside (depth + 1))
    else if marks.closing symbol then
      if depth = 0 then none else some (.outside (depth - 1))
    else some (.outside depth)
  | .inside depth, symbol =>
    if symbol = marks.quote then some (.outside depth)
    else if symbol = marks.escape then some (.escaped depth)
    else some (.inside depth)
  | .escaped depth, symbol => if marks.letter symbol then some (.inside depth) else none

/-- Read a text. -/
def run : State → List Symbol → Option State
  | state, [] => some state
  | state, symbol :: rest => (step marks state symbol).bind fun next => run next rest

theorem run_append (state : State) (first second : List Symbol) :
    run marks state (first ++ second) =
      (run marks state first).bind fun next => run marks next second := by
  induction first generalizing state with
  | nil => rfl
  | cons symbol rest inductionHypothesis =>
    rw [List.cons_append, run, run, Option.bind_assoc]
    exact congrArg _ (funext inductionHypothesis)

variable {marks}

theorem step_opening {symbol : Symbol} (opens : marks.opening symbol = true) (depth : Nat) :
    step marks (.outside depth) symbol = some (.outside (depth + 1)) := by
  have notQuote : symbol ≠ marks.quote := by
    rintro rfl
    exact absurd opens (by rw [marks.opening_quote]; decide)
  have notEscape : symbol ≠ marks.escape := by
    rintro rfl
    exact absurd opens (by rw [marks.opening_escape]; decide)
  rw [step, if_neg notQuote, if_neg notEscape, if_pos opens]

theorem step_closing {symbol : Symbol} (closes : marks.closing symbol = true) (depth : Nat) :
    step marks (.outside (depth + 1)) symbol = some (.outside depth) := by
  have notQuote : symbol ≠ marks.quote := by
    rintro rfl
    exact absurd closes (by rw [marks.closing_quote]; decide)
  have notEscape : symbol ≠ marks.escape := by
    rintro rfl
    exact absurd closes (by rw [marks.closing_escape]; decide)
  have notOpening : ¬marks.opening symbol = true := fun opens =>
    absurd closes (by rw [marks.closing_opening symbol opens]; decide)
  rw [step, if_neg notQuote, if_neg notEscape, if_neg notOpening, if_pos closes,
    if_neg (Nat.succ_ne_zero depth), Nat.add_sub_cancel]

/-! ### Balanced texts -/

variable (marks)

/-- The scanner leaves the text as it entered, however many brackets are open. -/
def Balanced (text : List Symbol) : Prop :=
  ∀ depth, run marks (.outside depth) text = some (.outside depth)

/-- The scanner stays inside the quotation. -/
def Quotable (text : List Symbol) : Prop :=
  ∀ depth, run marks (.inside depth) text = some (.inside depth)

/-- The symbol is no mark. -/
def Unmarked (symbol : Symbol) : Prop :=
  symbol ≠ marks.quote ∧ symbol ≠ marks.escape ∧ marks.opening symbol = false ∧
    marks.closing symbol = false

variable {marks}

theorem balanced_nil : Balanced marks [] := fun _ => rfl

theorem Balanced.append {first second : List Symbol} (firstBalanced : Balanced marks first)
    (secondBalanced : Balanced marks second) : Balanced marks (first ++ second) := by
  intro depth
  rw [run_append, firstBalanced, Option.bind_some, secondBalanced]

theorem balanced_unmarked {text : List Symbol} (unmarked : ∀ symbol ∈ text, Unmarked marks symbol) :
    Balanced marks text := by
  intro depth
  induction text with
  | nil => rfl
  | cons symbol rest inductionHypothesis =>
    obtain ⟨notQuote, notEscape, notOpening, notClosing⟩ := unmarked symbol List.mem_cons_self
    rw [run, step, if_neg notQuote, if_neg notEscape, if_neg (by simp [notOpening]),
      if_neg (by simp [notClosing]), Option.bind_some]
    exact inductionHypothesis fun other member => unmarked other (List.mem_cons_of_mem _ member)

/-- A balanced text between two brackets is balanced. -/
theorem Balanced.bracketed {text : List Symbol} (balanced : Balanced marks text)
    {first last : Symbol} (opens : marks.opening first = true)
    (closes : marks.closing last = true) :
    Balanced marks (first :: text ++ [last]) := by
  intro depth
  rw [List.cons_append, run, step_opening opens, Option.bind_some, run_append, balanced,
    Option.bind_some, run, step_closing closes]
  rfl

theorem quotable_nil : Quotable marks [] := fun _ => rfl

theorem Quotable.append {first second : List Symbol} (firstQuotable : Quotable marks first)
    (secondQuotable : Quotable marks second) : Quotable marks (first ++ second) := by
  intro depth
  rw [run_append, firstQuotable, Option.bind_some, secondQuotable]

theorem quotable_flatMap {Value : Type*} {print : Value → List Symbol} {values : List Value}
    (each : ∀ value ∈ values, Quotable marks (print value)) :
    Quotable marks (values.flatMap print) := by
  induction values with
  | nil => exact quotable_nil
  | cons value rest inductionHypothesis =>
    rw [List.flatMap_cons]
    exact (each value List.mem_cons_self).append
      (inductionHypothesis fun other member => each other (List.mem_cons_of_mem _ member))

theorem quotable_plain {text : List Symbol}
    (plain : ∀ symbol ∈ text, symbol ≠ marks.quote ∧ symbol ≠ marks.escape) :
    Quotable marks text := by
  intro depth
  induction text with
  | nil => rfl
  | cons symbol rest inductionHypothesis =>
    obtain ⟨notQuote, notEscape⟩ := plain symbol List.mem_cons_self
    rw [run, step, if_neg notQuote, if_neg notEscape, Option.bind_some]
    exact inductionHypothesis fun other member => plain other (List.mem_cons_of_mem _ member)

theorem quotable_escape {symbol : Symbol} (letter : marks.letter symbol = true) :
    Quotable marks [marks.escape, symbol] := by
  intro depth
  simp only [run, step, if_neg marks.escape_ne_quote, if_pos letter, if_true, Option.bind_some]

/-- A quotation is balanced. -/
theorem Quotable.quoted {text : List Symbol} (quotable : Quotable marks text) :
    Balanced marks (marks.quote :: text ++ [marks.quote]) := by
  intro depth
  rw [List.cons_append, run, step, if_pos rfl, Option.bind_some, run_append, quotable,
    Option.bind_some, run, step, if_pos rfl]
  rfl

/-! ### Reading out of step -/

/-- One state is outside a quotation where the other is inside one. -/
def Opposite : State → State → Prop
  | .outside _, .inside _ => True
  | .inside _, .outside _ => True
  | _, _ => False

/-- Of two scanners out of step, an escape stops the one outside a quotation, so none is left that
reads one. -/
theorem step_opposite {first second firstNext secondNext : State}
    (opposite : Opposite first second) {symbol : Symbol}
    (firstRead : step marks first symbol = some firstNext)
    (secondRead : step marks second symbol = some secondNext) :
    Opposite firstNext secondNext := by
  have flipped (outer inner : Nat) {outerNext innerNext : State}
      (outerRead : step marks (.outside outer) symbol = some outerNext)
      (innerRead : step marks (.inside inner) symbol = some innerNext) :
      (∃ depth, outerNext = .inside depth) ∧ (∃ depth, innerNext = .outside depth) ∨
        (∃ depth, outerNext = .outside depth) ∧ ∃ depth, innerNext = .inside depth := by
    simp only [step] at outerRead innerRead
    split_ifs at outerRead innerRead
    all_goals cases outerRead; cases innerRead; simp
  cases first with
  | outside outer =>
    cases second with
    | inside inner =>
      rcases flipped outer inner firstRead secondRead with
        ⟨⟨_, rfl⟩, ⟨_, rfl⟩⟩ | ⟨⟨_, rfl⟩, ⟨_, rfl⟩⟩ <;> trivial
    | _ => exact opposite.elim
  | inside inner =>
    cases second with
    | outside outer =>
      rcases flipped outer inner secondRead firstRead with
        ⟨⟨_, rfl⟩, ⟨_, rfl⟩⟩ | ⟨⟨_, rfl⟩, ⟨_, rfl⟩⟩ <;> trivial
    | _ => exact opposite.elim
  | escaped depth => exact opposite.elim

theorem run_opposite {text : List Symbol} {first second firstLast secondLast : State}
    (opposite : Opposite first second) (firstRead : run marks first text = some firstLast)
    (secondRead : run marks second text = some secondLast) : Opposite firstLast secondLast := by
  induction text generalizing first second with
  | nil =>
    obtain rfl := Option.some.inj firstRead
    obtain rfl := Option.some.inj secondRead
    exact opposite
  | cons symbol rest inductionHypothesis =>
    rw [run, Option.bind_eq_some_iff] at firstRead secondRead
    obtain ⟨firstNext, firstStep, firstRest⟩ := firstRead
    obtain ⟨secondNext, secondStep, secondRest⟩ := secondRead
    exact inductionHypothesis (step_opposite opposite firstStep secondStep) firstRest secondRest

/-! ### Bracketed texts at the end of a text -/

/-- No part of a balanced text is a bracket that opens and then a balanced text. -/
theorem Balanced.no_open_end {front text body : List Symbol} {first : Symbol}
    (whole : Balanced marks text) (balanced : Balanced marks body)
    (opens : marks.opening first = true) (notLetter : marks.letter first = false) :
    text ≠ front ++ first :: body := by
  intro same
  have read := whole 0
  rw [same, run_append, Option.bind_eq_some_iff] at read
  obtain ⟨state, -, read⟩ := read
  rw [run, Option.bind_eq_some_iff] at read
  obtain ⟨next, opened, read⟩ := read
  cases state with
  | outside depth =>
    rw [step_opening opens] at opened
    obtain rfl := Option.some.inj opened
    rw [balanced] at read
    exact absurd (State.outside.inj (Option.some.inj read)) (Nat.succ_ne_zero depth)
  | inside depth =>
    -- The rest is read out of step and ends inside a quotation.
    rw [step, if_neg, if_neg] at opened
    · obtain rfl := Option.some.inj opened
      have outOfStep : Opposite (.outside depth) (.inside depth) := trivial
      exact run_opposite outOfStep (balanced depth) read
    · rintro rfl
      exact absurd opens (by rw [marks.opening_escape]; decide)
    · rintro rfl
      exact absurd opens (by rw [marks.opening_quote]; decide)
  | escaped depth =>
    rw [step, if_neg (by rw [notLetter]; decide)] at opened
    nomatch opened

/-- A bracketed text at the end of a text is found there in one way only. -/
theorem open_end_inj {front back first second : List Symbol} {left right : Symbol}
    (firstBalanced : Balanced marks first) (secondBalanced : Balanced marks second)
    (leftOpens : marks.opening left = true) (rightOpens : marks.opening right = true)
    (leftNotLetter : marks.letter left = false) (rightNotLetter : marks.letter right = false)
    (same : front ++ left :: first = back ++ right :: second) : front = back ∧ first = second := by
  rcases List.append_eq_append_iff.mp same with ⟨middle, rfl, rest⟩ | ⟨middle, rfl, rest⟩
  · cases middle with
    | nil => exact ⟨(List.append_nil _).symm, (List.cons.inj rest).2⟩
    | cons symbol middle =>
      exact absurd (List.cons.inj rest).2
        (firstBalanced.no_open_end secondBalanced rightOpens rightNotLetter)
  · cases middle with
    | nil => exact ⟨List.append_nil _, (List.cons.inj rest).2.symm⟩
    | cons symbol middle =>
      exact absurd (List.cons.inj rest).2
        (secondBalanced.no_open_end firstBalanced leftOpens leftNotLetter)

end Brackets
