/-
This file develops scans of a text from its start to its end: whether and where
another text stands in it, the lines that begin in a certain way, the matches
that do not overlap, and the bracket that closes the first one. Each scan is told
by what it meets before it stops.
-/

import Mathlib.Data.List.TakeWhile
import Mathlib.Tactic.TypeStar

namespace Scanning

variable {Symbol Result : Type*}

/-! ### Places in a text -/

/-- Somewhere in a text before another one, the test holds of what follows. -/
def foundBefore (test : List Symbol → Bool) : List Symbol → List Symbol → Bool
  | [], _ => false
  | symbol :: text, behind => test (symbol :: text ++ behind) || foundBefore test text behind

/-- Somewhere in a text, the test holds of what follows. -/
def found (test : List Symbol → Bool) (text : List Symbol) : Bool := foundBefore test text []

/-- A place is in one part of a text or in the other. -/
theorem foundBefore_append (test : List Symbol → Bool) (first second behind : List Symbol) :
    foundBefore test (first ++ second) behind =
      (foundBefore test first (second ++ behind) || foundBefore test second behind) := by
  induction first with
  | nil => rfl
  | cons symbol rest inductionHypothesis =>
    simp only [List.cons_append, foundBefore, inductionHypothesis, List.append_assoc,
      Bool.or_assoc]

section Find

variable [BEq Symbol]

/-- `str.find`. -/
def find (part : List Symbol) : List Symbol → Option Nat
  | [] => if part.isEmpty then some 0 else none
  | symbol :: text =>
    if part.isPrefixOf (symbol :: text) then some 0 else (find part text).map (· + 1)

/-- The text behind the first place where a part stands. -/
def behindFirst (part : List Symbol) : List Symbol → Option (List Symbol)
  | [] => none
  | symbol :: text =>
    if part.isPrefixOf (symbol :: text) then some ((symbol :: text).drop part.length)
    else behindFirst part text

/-- A part of a text is found in it. -/
theorem find_isSome [LawfulBEq Symbol] {part text : List Symbol} (within : part <:+: text) :
    (find part text).isSome = true := by
  induction text with
  | nil =>
    obtain rfl := List.eq_nil_of_infix_nil within
    rfl
  | cons symbol text inductionHypothesis =>
    rw [find]
    split
    · rfl
    · rename_i apart
      rw [List.isPrefixOf_iff_prefix] at apart
      rw [Option.isSome_map]
      exact inductionHypothesis ((List.infix_cons_iff.mp within).resolve_left apart)

/-- What is found stands at its place. -/
theorem find_eq_some [LawfulBEq Symbol] {part text : List Symbol} {offset : Nat}
    (found : find part text = some offset) :
    ∃ before behind, text = before ++ (part ++ behind) ∧ before.length = offset := by
  induction text generalizing offset with
  | nil =>
    rw [find, Option.ite_none_right_eq_some, List.isEmpty_iff] at found
    obtain ⟨rfl, none⟩ := found
    exact ⟨[], [], rfl, Option.some.inj none⟩
  | cons symbol text inductionHypothesis =>
    rw [find] at found
    split at found
    · rename_i here
      obtain ⟨behind, whole⟩ := List.isPrefixOf_iff_prefix.mp here
      exact ⟨[], behind, whole.symm, Option.some.inj found⟩
    · obtain ⟨later, place, rfl⟩ := Option.map_eq_some_iff.mp found
      obtain ⟨before, behind, rfl, rfl⟩ := inductionHypothesis place
      exact ⟨symbol :: before, behind, rfl, rfl⟩

theorem behindFirst_suffix {part text behind : List Symbol}
    (found : behindFirst part text = some behind) : behind <:+ text := by
  induction text with
  | nil => cases found
  | cons symbol text inductionHypothesis =>
    rw [behindFirst] at found
    split at found
    · cases found
      exact List.drop_suffix _ _
    · exact (inductionHypothesis found).trans (List.suffix_cons _ _)

/-- A part that stands nowhere before is found first. -/
theorem behindFirst_append [LawfulBEq Symbol] {part before : List Symbol} (some : part ≠ [])
    {behind : List Symbol}
    (absent : foundBefore part.isPrefixOf before (part ++ behind) = false) :
    behindFirst part (before ++ (part ++ behind)) = .some behind := by
  induction before with
  | nil =>
    obtain ⟨first, rest, rfl⟩ := List.exists_cons_of_ne_nil some
    rw [List.nil_append, List.cons_append, behindFirst, ← List.cons_append,
      if_pos (List.isPrefixOf_iff_prefix.mpr (List.prefix_append _ _)), List.drop_left]
  | cons symbol before inductionHypothesis =>
    rw [foundBefore, Bool.or_eq_false_iff] at absent
    rw [List.cons_append, behindFirst, ← List.cons_append, absent.1,
      if_neg Bool.false_ne_true]
    exact inductionHypothesis absent.2

end Find

/-! ### Lines -/

section Lines

variable [BEq Symbol] (newline : Symbol)

/-- Behind a text a line begins. -/
def lineStart (atStart : Bool) (text : List Symbol) : Bool :=
  text.getLast?.elim atStart (· == newline)

/-- In a text before another one a line begins that passes the test. -/
def lineBefore (test : List Symbol → Bool) : Bool → List Symbol → List Symbol → Bool
  | _, [], _ => false
  | atStart, symbol :: text, behind =>
    (atStart && test (symbol :: text ++ behind)) || lineBefore test (symbol == newline) text behind

/-- What is read from the first line that can be read. -/
def firstLine (read : List Symbol → Option Result) : Bool → List Symbol → Option Result
  | _, [] => none
  | atStart, symbol :: text =>
    (if atStart then read (symbol :: text) else none).or (firstLine read (symbol == newline) text)

/-- A text up to the first line that passes the test. -/
def upToLine (test : List Symbol → Bool) : Bool → List Symbol → List Symbol
  | _, [] => []
  | atStart, symbol :: text =>
    if atStart && test (symbol :: text) then []
    else symbol :: upToLine test (symbol == newline) text

variable {newline}

theorem lineStart_cons (atStart : Bool) (symbol : Symbol) (text : List Symbol) :
    lineStart newline atStart (symbol :: text) = lineStart newline (symbol == newline) text := by
  unfold lineStart
  cases text with
  | nil => rfl
  | cons next rest => rw [List.getLast?_cons_cons, List.getLast?_cons]; rfl

/-- Lines that cannot be read are passed over. -/
theorem firstLine_append {read : List Symbol → Option Result} {test : List Symbol → Bool}
    (tested : ∀ text, test text = false → read text = none) {atStart : Bool}
    {before behind : List Symbol}
    (absent : lineBefore newline test atStart before behind = false) :
    firstLine newline read atStart (before ++ behind) =
      firstLine newline read (lineStart newline atStart before) behind := by
  induction before generalizing atStart with
  | nil => rfl
  | cons symbol before inductionHypothesis =>
    rw [lineBefore, Bool.or_eq_false_iff, Bool.and_eq_false_iff] at absent
    have here : (if atStart then read (symbol :: (before ++ behind)) else none) = none := by
      rcases absent.1 with inside | fails
      · rw [inside, if_neg Bool.false_ne_true]
      · rw [show read (symbol :: (before ++ behind)) = none from tested _ fails, ite_self]
    rw [List.cons_append, firstLine, here, Option.none_or, inductionHypothesis absent.2,
      lineStart_cons]

/-- What is read from a line is read where the line begins. -/
theorem firstLine_eq_some {read : List Symbol → Option Result} {atStart : Bool}
    {text : List Symbol} {result : Result}
    (found : firstLine newline read atStart text = some result) :
    ∃ line, line <:+ text ∧ read line = some result := by
  induction text generalizing atStart with
  | nil => cases found
  | cons symbol text inductionHypothesis =>
    rw [firstLine, Option.or_eq_some_iff] at found
    rcases found with here | ⟨-, later⟩
    · exact ⟨_, List.suffix_rfl, (Option.ite_none_right_eq_some.mp here).2⟩
    · obtain ⟨line, within, read⟩ := inductionHypothesis later
      exact ⟨line, within.trans (List.suffix_cons _ _), read⟩

theorem upToLine_within (test : List Symbol → Bool) (atStart : Bool) (text : List Symbol) :
    upToLine newline test atStart text <+: text := by
  induction text generalizing atStart with
  | nil => exact List.nil_prefix
  | cons symbol text inductionHypothesis =>
    rw [upToLine]
    split
    · exact List.nil_prefix
    · exact List.cons_prefix_cons.mpr ⟨rfl, inductionHypothesis _⟩

/-- Lines that do not pass the test are kept. -/
theorem upToLine_append {test : List Symbol → Bool} {atStart : Bool} {before behind : List Symbol}
    (absent : lineBefore newline test atStart before behind = false) :
    upToLine newline test atStart (before ++ behind) =
      before ++ upToLine newline test (lineStart newline atStart before) behind := by
  induction before generalizing atStart with
  | nil => rfl
  | cons symbol before inductionHypothesis =>
    rw [lineBefore, Bool.or_eq_false_iff] at absent
    have here : (atStart && test (symbol :: (before ++ behind))) = false := absent.1
    rw [List.cons_append, upToLine, here, if_neg Bool.false_ne_true,
      inductionHypothesis absent.2, lineStart_cons, List.cons_append]

end Lines

/-! ### Matches -/

/-- The starts of the matches that do not overlap, from the left, where `length` says how long a
match at the start of a text is, and none is empty. -/
def starts (length : List Symbol → Option Nat) : Nat → Nat → List Symbol → List Nat
  | _, _, [] => []
  | skip + 1, position, _ :: text => starts length skip (position + 1) text
  | 0, position, symbol :: text =>
    match length (symbol :: text) with
    | some (more + 1) => position :: starts length more (position + 1) text
    | _ => starts length 0 (position + 1) text

/-- A match that no earlier one can overlap is among them. -/
theorem mem_starts {length : List Symbol → Option Nat} {before behind : List Symbol}
    {skip position matched : Nat} (here : length behind = some matched) (positive : matched ≠ 0)
    (some : behind ≠ [])
    (apart : ∀ near ≠ [], near <:+ before → ∀ count, length (near ++ behind) = Option.some count →
      count ≤ near.length) (within : skip ≤ before.length) :
    position + before.length ∈ starts length skip position (before ++ behind) := by
  induction before generalizing skip position with
  | nil =>
    obtain ⟨symbol, text, rfl⟩ := List.exists_cons_of_ne_nil some
    obtain ⟨more, rfl⟩ := Nat.exists_eq_succ_of_ne_zero positive
    rw [Nat.le_zero.mp within, List.nil_append, starts, here]
    exact List.mem_cons_self
  | cons symbol before inductionHypothesis =>
    have later : ∀ near ≠ [], near <:+ before → ∀ count,
        length (near ++ behind) = Option.some count → count ≤ near.length :=
      fun near some suffix => apart near some (suffix.trans (List.suffix_cons _ _))
    have next {skip : Nat} (fits : skip ≤ before.length) :
        position + (symbol :: before).length ∈
          starts length skip (position + 1) (before ++ behind) := by
      rw [List.length_cons, Nat.add_comm before.length, ← Nat.add_assoc]
      exact inductionHypothesis later fits
    cases skip with
    | succ skip => exact next (Nat.le_of_succ_le_succ within)
    | zero =>
      rw [List.cons_append, starts]
      split
      · rename_i count matched
        refine List.mem_cons_of_mem _ (next ?_)
        have short := apart _ (List.cons_ne_nil symbol before) List.suffix_rfl _ matched
        exact Nat.le_of_succ_le_succ short
      · exact next (Nat.zero_le _)

/-- At each start a match begins. -/
theorem of_mem_starts {length : List Symbol → Option Nat} {text : List Symbol}
    {skip position start : Nat} (member : start ∈ starts length skip position text) :
    ∃ before behind, text = before ++ behind ∧ start = position + before.length ∧
      (length behind).isSome = true := by
  induction text generalizing skip position with
  | nil => exact absurd member (by rw [starts]; exact List.not_mem_nil)
  | cons symbol text inductionHypothesis =>
    have later {skip : Nat} (member : start ∈ starts length skip (position + 1) text) :
        ∃ before behind, symbol :: text = before ++ behind ∧
          start = position + before.length ∧ (length behind).isSome = true := by
      obtain ⟨before, behind, rfl, rfl, matched⟩ := inductionHypothesis member
      exact ⟨symbol :: before, behind, rfl, by rw [List.length_cons]; omega, matched⟩
    cases skip with
    | succ skip => exact later member
    | zero =>
      rw [starts] at member
      split at member
      · rename_i matched
        rcases List.mem_cons.mp member with rfl | member
        · exact ⟨[], symbol :: text, rfl, rfl, by rw [matched]; rfl⟩
        · exact later member
      · exact later member

/-! ### Brackets -/

section Brackets

variable [BEq Symbol] (opening closing : Symbol)

/-- A text up to the bracket that brings the depth back to zero. -/
def upToClosing : Int → List Symbol → Option (List Symbol)
  | _, [] => none
  | depth, symbol :: text =>
    if symbol == opening then (upToClosing (depth + 1) text).map (symbol :: ·)
    else if symbol == closing then
      if depth - 1 = 0 then some [symbol] else (upToClosing (depth - 1) text).map (symbol :: ·)
    else (upToClosing depth text).map (symbol :: ·)

/-- Every closing bracket of a text has an opening one before it, and as many are left open before
it as are left closed. -/
def balanced : Nat → List Symbol → Bool
  | depth, [] => depth == 0
  | depth, symbol :: text =>
    if symbol == opening then balanced (depth + 1) text
    else if symbol == closing then depth != 0 && balanced (depth - 1) text
    else balanced depth text

variable {opening closing}

/-- What has no brackets is passed over. -/
theorem upToClosing_append {before : List Symbol} {depth : Int}
    (plain : ∀ symbol ∈ before, (symbol == opening) = false ∧ (symbol == closing) = false)
    (behind : List Symbol) : upToClosing opening closing depth (before ++ behind) =
      (upToClosing opening closing depth behind).map (before ++ ·) := by
  induction before with
  | nil => exact Option.map_id'.symm
  | cons symbol before inductionHypothesis =>
    obtain ⟨noOpening, noClosing⟩ := plain symbol List.mem_cons_self
    rw [List.cons_append, upToClosing, noOpening, noClosing, if_neg Bool.false_ne_true,
      if_neg Bool.false_ne_true,
      inductionHypothesis fun symbol member => plain symbol (List.mem_cons_of_mem _ member),
      Option.map_map]
    rfl

/-- A balanced text is closed behind it. -/
theorem upToClosing_balanced [LawfulBEq Symbol] (differ : closing ≠ opening) {text : List Symbol}
    {depth : Nat} (even : balanced opening closing depth text = true) (behind : List Symbol) :
    upToClosing opening closing (depth + 1) (text ++ closing :: behind) =
      some (text ++ [closing]) := by
  induction text generalizing depth with
  | nil =>
    obtain rfl : depth = 0 := by simpa [balanced] using even
    rw [List.nil_append, upToClosing, if_neg (by simpa using differ), if_pos (by simp),
      if_pos (by omega)]
    rfl
  | cons symbol text inductionHypothesis =>
    rw [balanced] at even
    rw [List.cons_append, upToClosing]
    by_cases opens : (symbol == opening) = true
    · rw [if_pos opens] at even ⊢
      have inner := inductionHypothesis even
      rw [Int.natCast_add] at inner
      exact congrArg (Option.map (symbol :: ·)) inner
    · rw [if_neg opens] at even ⊢
      by_cases closes : (symbol == closing) = true
      · rw [if_pos closes] at even ⊢
        cases depth with
        | zero => cases even
        | succ depth =>
          have inner := inductionHypothesis (Bool.and_eq_true_iff.mp even).2
          rw [Nat.add_sub_cancel] at inner
          rw [if_neg (by omega), show ((depth + 1 : Nat) : Int) + 1 - 1 = depth + 1 by omega, inner]
          rfl
      · rw [if_neg closes] at even ⊢
        rw [inductionHypothesis even]
        rfl

end Brackets

end Scanning
