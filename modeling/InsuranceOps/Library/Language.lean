/-
This file relates a backtracking matcher to the languages of its expressions. A
text has a reading of some length exactly when its start of that length is in
the language; a search finds the first position where a word of the language
begins; and the first reading of a sequence is made of a reading of its first
part and the first reading of its second part behind it.
-/

import InsuranceOps.Library.Backtracking
import Mathlib.Data.List.TakeWhile

namespace Backtracking

variable {Symbol : Type}

/-- The words an expression matches as a whole. -/
def Expression.Matches : Expression Symbol → List Symbol → Prop
  | .one accepts, word => ∃ symbol, word = [symbol] ∧ accepts symbol = true
  | .seq first second, word =>
      ∃ before after, word = before ++ after ∧ first.Matches before ∧ second.Matches after
  | .alt first second, word => first.Matches word ∨ second.Matches word
  | .optional body, word => body.Matches word ∨ word = []
  | .repeated accepts least most, word => (∀ symbol ∈ word, accepts symbol = true) ∧
      least ≤ word.length ∧ ∀ bound, most = some bound → word.length ≤ bound
  | .group body, word => body.Matches word

/-! ### Readings and words -/

theorem le_length_takeWhile_iff {accepts : Symbol → Bool} {text : List Symbol} {count : Nat} :
    count ≤ (text.takeWhile accepts).length ↔
      count ≤ text.length ∧ ∀ symbol ∈ text.take count, accepts symbol = true := by
  induction text generalizing count with
  | nil =>
    rw [List.takeWhile_nil, List.take_nil]
    exact (and_iff_left fun _ member => nomatch member).symm
  | cons first rest inductionHypothesis =>
    cases count with
    | zero => exact iff_of_true (Nat.zero_le _) ⟨Nat.zero_le _, fun _ member => nomatch member⟩
    | succ count =>
      by_cases accepted : accepts first = true
      · rw [List.takeWhile_cons_of_pos accepted, List.length_cons, Nat.add_le_add_iff_right,
          inductionHypothesis, List.length_cons, Nat.add_le_add_iff_right, List.take_succ_cons,
          List.forall_mem_cons]
        exact and_congr_right fun _ => (and_iff_right accepted).symm
      · rw [List.takeWhile_cons_of_neg accepted, List.length_nil, List.take_succ_cons,
          List.forall_mem_cons]
        exact iff_of_false (Nat.not_succ_le_zero _) fun all => accepted all.2.1

/-- How often a repetition can be read. -/
theorem mem_counts_iff {accepts : Symbol → Bool} {least : Nat} {most : Option Nat}
    {text : List Symbol} {count : Nat} :
    count ∈ counts accepts least most text ↔ count ≤ text.length ∧
      (∀ symbol ∈ text.take count, accepts symbol = true) ∧ least ≤ count ∧
        ∀ bound, most = some bound → count ≤ bound := by
  have greatest : count ≤ most.elim (text.takeWhile accepts).length
      (min (text.takeWhile accepts).length) ↔
        count ≤ (text.takeWhile accepts).length ∧ ∀ bound, most = some bound → count ≤ bound := by
    cases most with
    | none => exact (and_iff_left nofun).symm
    | some bound =>
      rw [Option.elim_some, Nat.le_min]
      simp only [Option.some.injEq, forall_eq']
  unfold counts
  rw [List.mem_reverse, List.mem_filter, List.mem_range, Nat.lt_succ_iff, greatest,
    le_length_takeWhile_iff, decide_eq_true_eq]
  constructor
  · rintro ⟨⟨⟨fits, all⟩, bounded⟩, enough⟩
    exact ⟨fits, all, enough, bounded⟩
  · rintro ⟨fits, all, enough, bounded⟩
    exact ⟨⟨⟨fits, all⟩, bounded⟩, enough⟩

/-- A text has a reading of some length exactly when its start of that length is a word. -/
theorem exists_reading_iff (expression : Expression Symbol) (text : List Symbol) (length : Nat) :
    (∃ reading ∈ expression.readings text, reading.consumed = length) ↔
      length ≤ text.length ∧ expression.Matches (text.take length) := by
  induction expression generalizing text length with
  | one accepts =>
    cases text with
    | nil =>
      refine iff_of_false (fun ⟨_, member, _⟩ => nomatch member) ?_
      rintro ⟨-, symbol, same, -⟩
      rw [List.take_nil] at same
      cases same
    | cons first rest =>
      rw [Expression.readings]
      constructor
      · rintro ⟨reading, member, rfl⟩
        split at member
        · rw [List.mem_singleton.mp member]
          exact ⟨Nat.le_add_left _ _, first, rfl, ‹_›⟩
        · cases member
      · rintro ⟨fits, symbol, same, accepted⟩
        cases length with
        | zero => cases same
        | succ length =>
          rw [List.take_succ_cons, List.cons.injEq] at same
          obtain ⟨rfl, ended⟩ := same
          rw [if_pos accepted]
          refine ⟨_, List.mem_singleton_self _, ?_⟩
          show 1 = length + 1
          rw [List.length_cons] at fits
          rcases List.take_eq_nil_iff.mp ended with none | none
          · rw [none]
          · rw [none, List.length_nil] at fits
            omega
  | seq first second firstHypothesis secondHypothesis =>
    rw [Expression.readings]
    constructor
    · rintro ⟨reading, member, rfl⟩
      obtain ⟨before, beforeRead, member⟩ := List.mem_flatMap.mp member
      obtain ⟨behind, behindRead, rfl⟩ := List.mem_map.mp member
      obtain ⟨fits, word⟩ := (firstHypothesis text _).mp ⟨before, beforeRead, rfl⟩
      obtain ⟨nextFits, nextWord⟩ := (secondHypothesis _ _).mp ⟨behind, behindRead, rfl⟩
      rw [List.length_drop] at nextFits
      refine ⟨?_, _, _, ?_, word, nextWord⟩
      · show before.consumed + behind.consumed ≤ text.length
        omega
      · exact List.take_add
    · rintro ⟨fits, before, after, same, word, nextWord⟩
      have lengths := congrArg List.length same
      rw [List.length_take, List.length_append, Nat.min_eq_left fits] at lengths
      have parts : text = before ++ (after ++ text.drop length) := by
        rw [← List.append_assoc, ← same, List.take_append_drop]
      have firstWord : text.take before.length = before := by
        rw [parts, List.take_left]
      have rest : text.drop before.length = after ++ text.drop length := by
        conv_lhs => rw [parts, List.drop_left]
      obtain ⟨reading, read, consumed⟩ := (firstHypothesis text before.length).mpr
        ⟨by omega, by rwa [firstWord]⟩
      obtain ⟨behind, behindRead, behindConsumed⟩ :=
        (secondHypothesis (text.drop before.length) after.length).mpr
          ⟨by rw [List.length_drop]; omega, by rwa [rest, List.take_left]⟩
      refine ⟨reading.follow behind, List.mem_flatMap.mpr ⟨reading, read, ?_⟩, ?_⟩
      · rw [consumed]
        exact List.mem_map_of_mem behindRead
      · show reading.consumed + behind.consumed = length
        omega
  | alt first second firstHypothesis secondHypothesis =>
    rw [Expression.readings, Expression.Matches, and_or_left, ← firstHypothesis, ← secondHypothesis]
    simp only [List.mem_append, or_and_right, exists_or]
  | optional body inductionHypothesis =>
    rw [Expression.readings, Expression.Matches, and_or_left, ← inductionHypothesis]
    simp only [List.mem_append, or_and_right, exists_or, List.mem_singleton, exists_eq_left,
      List.take_eq_nil_iff]
    refine or_congr_right ⟨?_, ?_⟩
    · rintro rfl
      exact ⟨Nat.zero_le _, .inl rfl⟩
    · rintro ⟨fits, rfl | rfl⟩
      · rfl
      · exact (Nat.le_zero.mp fits).symm
  | repeated accepts least most =>
    rw [Expression.readings, Expression.Matches]
    simp only [List.mem_map, exists_exists_and_eq_and, exists_eq_right, mem_counts_iff]
    refine and_congr_right fun fits => ?_
    rw [List.length_take, Nat.min_eq_left fits]
  | group body inductionHypothesis =>
    rw [Expression.readings, Expression.Matches, ← inductionHypothesis]
    simp only [List.mem_map, exists_exists_and_eq_and]

/-- A text has a reading exactly when it begins with a word. -/
theorem readings_ne_nil_iff (expression : Expression Symbol) (text : List Symbol) :
    expression.readings text ≠ [] ↔
      ∃ word rest, text = word ++ rest ∧ expression.Matches word := by
  constructor
  · intro some
    obtain ⟨reading, member⟩ := List.exists_mem_of_ne_nil _ some
    obtain ⟨-, word⟩ := (exists_reading_iff expression text _).mp ⟨reading, member, rfl⟩
    exact ⟨_, _, (List.take_append_drop _ text).symm, word⟩
  · rintro ⟨word, rest, rfl, language⟩
    obtain ⟨reading, member, -⟩ := (exists_reading_iff expression (word ++ rest) word.length).mpr
      ⟨by rw [List.length_append]; exact Nat.le_add_right _ _, by rwa [List.take_left]⟩
    exact List.ne_nil_of_mem member

/-! ### Searches -/

/-- A search finds the first reading at the first position that has one. -/
theorem search_eq_some_iff {expression : Expression Symbol} {text : List Symbol} {start : Nat}
    {reading : Reading} : expression.search text = some (start, reading) ↔
      start ≤ text.length ∧ (expression.readings (text.drop start)).head? = some reading ∧
        ∀ earlier < start, expression.readings (text.drop earlier) = [] := by
  induction text generalizing start with
  | nil =>
    rw [Expression.search, List.drop_nil, Option.map_eq_some_iff]
    simp only [Prod.mk.injEq, exists_eq_right_right, List.length_nil, Nat.le_zero]
    constructor
    · rintro ⟨head, rfl⟩
      exact ⟨rfl, head, fun _ before => absurd before (Nat.not_lt_zero _)⟩
    · rintro ⟨rfl, head, -⟩
      exact ⟨head, rfl⟩
  | cons first rest inductionHypothesis =>
    rw [Expression.search]
    cases here : (expression.readings (first :: rest)).head? with
    | some found =>
      dsimp only
      rw [Option.some.injEq, Prod.mk.injEq]
      constructor
      · rintro ⟨rfl, rfl⟩
        exact ⟨Nat.zero_le _, here, fun _ before => absurd before (Nat.not_lt_zero _)⟩
      · rintro ⟨-, head, none⟩
        cases start with
        | zero =>
          rw [List.drop_zero, here, Option.some.injEq] at head
          exact ⟨rfl, head⟩
        | succ start =>
          have empty := none 0 (Nat.succ_pos _)
          rw [List.drop_zero] at empty
          rw [empty] at here
          cases here
    | none =>
      dsimp only
      have empty := List.head?_eq_none_iff.mp here
      rw [Option.map_eq_some_iff]
      simp only [Prod.mk.injEq, Prod.exists]
      constructor
      · rintro ⟨later, laterReading, found, rfl, rfl⟩
        obtain ⟨fits, head, none⟩ := inductionHypothesis.mp found
        refine ⟨Nat.succ_le_succ fits, head, fun earlier before => ?_⟩
        cases earlier with
        | zero => exact empty
        | succ earlier => exact none earlier (Nat.lt_of_succ_lt_succ before)
      · rintro ⟨fits, head, none⟩
        cases start with
        | zero =>
          rw [List.drop_zero, here] at head
          cases head
        | succ start =>
          refine ⟨start, reading, inductionHypothesis.mpr
            ⟨Nat.le_of_succ_le_succ fits, head, fun earlier before => ?_⟩, rfl, rfl⟩
          exact none (earlier + 1) (Nat.succ_lt_succ before)

/-- A search finds nothing exactly when no position has a reading. -/
theorem search_eq_none_iff {expression : Expression Symbol} {text : List Symbol} :
    expression.search text = none ↔
      ∀ start ≤ text.length, expression.readings (text.drop start) = [] := by
  induction text with
  | nil =>
    rw [Expression.search, Option.map_eq_none_iff, List.head?_eq_none_iff]
    simp only [List.drop_nil, List.length_nil, Nat.le_zero, forall_eq]
  | cons first rest inductionHypothesis =>
    rw [Expression.search]
    cases here : (expression.readings (first :: rest)).head? with
    | some found =>
      refine iff_of_false (Option.some_ne_none _) fun none => ?_
      have empty := none 0 (Nat.zero_le _)
      rw [List.drop_zero] at empty
      rw [empty] at here
      cases here
    | none =>
      dsimp only
      rw [Option.map_eq_none_iff, inductionHypothesis]
      constructor
      · intro none start fits
        cases start with
        | zero => exact List.head?_eq_none_iff.mp here
        | succ start => exact none start (Nat.le_of_succ_le_succ fits)
      · exact fun none start fits => none (start + 1) (Nat.succ_le_succ fits)

/-! ### First readings -/

/-- The first reading of a sequence is the first reading of its second part behind a reading of its
first part. -/
theorem head?_readings_seq {first second : Expression Symbol} {text : List Symbol}
    {reading : Reading} (head : ((first.seq second).readings text).head? = some reading) :
    ∃ before ∈ first.readings text, ∃ behind,
      (second.readings (text.drop before.consumed)).head? = some behind ∧
        reading = before.follow behind := by
  rw [Expression.readings] at head
  generalize first.readings text = readings at head ⊢
  induction readings with
  | nil => cases head
  | cons before rest inductionHypothesis =>
    rw [List.flatMap_cons, List.head?_append, List.head?_map] at head
    cases found : (second.readings (text.drop before.consumed)).head? with
    | some behind =>
      rw [found] at head
      cases head
      exact ⟨before, List.mem_cons_self, behind, found, rfl⟩
    | none =>
      rw [found] at head
      obtain ⟨other, member, rest⟩ := inductionHypothesis head
      exact ⟨other, List.mem_cons_of_mem _ member, rest⟩

/-- The greatest number of times a repetition can be read. -/
theorem head?_counts (accepts : Symbol → Bool) (least : Nat) (most : Option Nat)
    (text : List Symbol) : (counts accepts least most text).head? =
      let greatest := most.elim (text.takeWhile accepts).length
        (min (text.takeWhile accepts).length)
      if least ≤ greatest then some greatest else none := by
  unfold counts
  dsimp only
  generalize most.elim (text.takeWhile accepts).length
    (min (text.takeWhile accepts).length) = greatest
  rw [List.range_succ, List.filter_append, List.reverse_append, List.filter_cons]
  by_cases enough : least ≤ greatest
  · rw [if_pos (decide_eq_true enough), if_pos enough]
    rfl
  · have none : ∀ other ∈ List.range greatest, ¬decide (least ≤ other) = true := by
      intro other member
      rw [List.mem_range] at member
      rw [decide_eq_true_eq]
      omega
    rw [if_neg (by rwa [decide_eq_true_eq]), if_neg enough, List.filter_eq_nil_iff.mpr none]
    rfl

/-- The first reading of a repetition takes as many symbols as it can. -/
theorem head?_readings_repeated {accepts : Symbol → Bool} {least : Nat} {most : Option Nat}
    {text : List Symbol} {reading : Reading}
    (head : ((Expression.repeated accepts least most).readings text).head? = some reading) :
    least ≤ reading.consumed ∧ reading = { consumed := reading.consumed } ∧
      reading.consumed = most.elim (text.takeWhile accepts).length
        (min (text.takeWhile accepts).length) := by
  rw [Expression.readings, List.head?_map, head?_counts] at head
  dsimp only at head
  split at head
  · rename_i enough
    cases head
    exact ⟨enough, rfl, rfl⟩
  · cases head

theorem head?_readings_group {body : Expression Symbol} {text : List Symbol} {reading : Reading}
    (head : (body.group.readings text).head? = some reading) :
    ∃ inner, (body.readings text).head? = some inner ∧
      reading = { consumed := inner.consumed, group := some (0, inner.consumed) } := by
  rw [Expression.readings, List.head?_map, Option.map_eq_some_iff] at head
  obtain ⟨inner, first, rfl⟩ := head
  exact ⟨inner, first, rfl⟩

/-- A first reading of a sequence is made of first readings of its parts. -/
theorem head?_readings_seq_of {first second : Expression Symbol} {text : List Symbol}
    {before behind : Reading} (head : (first.readings text).head? = some before)
    (next : (second.readings (text.drop before.consumed)).head? = some behind) :
    ((first.seq second).readings text).head? = some (before.follow behind) := by
  obtain ⟨rest, read⟩ := List.head?_eq_some_iff.mp head
  rw [Expression.readings, read, List.flatMap_cons, List.head?_append, List.head?_map, next]
  rfl

/-- Two expressions take two parts of a text one after the other. -/
theorem head?_readings_seq_append {first second : Expression Symbol} {word rest : List Symbol}
    {count : Nat} (head : (first.readings (word ++ rest)).head? = some { consumed := word.length })
    (next : (second.readings rest).head? = some { consumed := count }) :
    ((first.seq second).readings (word ++ rest)).head? =
      some { consumed := word.length + count } :=
  head?_readings_seq_of head (by rwa [List.drop_left])

theorem head?_readings_one_of {accepts : Symbol → Bool} (symbol : Symbol)
    (accepted : accepts symbol = true) (rest : List Symbol) :
    ((Expression.one accepts).readings (symbol :: rest)).head? = some { consumed := 1 } := by
  rw [Expression.readings, if_pos accepted]
  rfl

/-- A repetition takes as many symbols as it can. -/
theorem head?_readings_repeated_of {accepts : Symbol → Bool} {least : Nat} {most : Option Nat}
    {word rest : List Symbol} (all : ∀ symbol ∈ word, accepts symbol = true)
    (ended : ∀ symbol, rest.head? = some symbol → accepts symbol = false)
    (enough : least ≤ word.length) (bounded : ∀ bound, most = some bound → word.length ≤ bound) :
    ((Expression.repeated accepts least most).readings (word ++ rest)).head? =
      some { consumed := word.length } := by
  have taken : ((word ++ rest).takeWhile accepts).length = word.length := by
    rw [List.takeWhile_append_of_pos all, List.length_append, Nat.add_eq_left,
      List.length_eq_zero_iff, List.takeWhile_eq_nil_iff]
    intro nonempty accepted
    have refused := ended _ (List.head?_eq_getElem?.trans (List.getElem?_eq_getElem nonempty))
    exact Bool.noConfusion (refused.symm.trans accepted)
  have greatest : most.elim ((word ++ rest).takeWhile accepts).length
      (min ((word ++ rest).takeWhile accepts).length) = word.length := by
    rw [taken]
    cases most with
    | none => rfl
    | some bound => exact Nat.min_eq_left (bounded bound rfl)
  rw [Expression.readings, List.head?_map, head?_counts]
  dsimp only
  rw [greatest, if_pos enough]
  rfl

/-! ### Readings of a known start -/

/-- The readings of a text of which the start is known, if they do not depend on the rest. -/
def Expression.known : Expression Symbol → List Symbol → Option (List Reading)
  | .one _, [] => none
  | .one accepts, symbol :: _ => some (if accepts symbol then [{ consumed := 1 }] else [])
  | .seq first second, start => (first.known start).bind fun readings =>
      (readings.mapM fun reading =>
        if reading.consumed ≤ start.length then
          (second.known (start.drop reading.consumed)).map fun behind => behind.map reading.follow
        else none).map List.flatten
  | .alt first second, start => (first.known start).bind fun left =>
      (second.known start).map fun right => left ++ right
  | .optional body, start => (body.known start).map fun readings => readings ++ [{ consumed := 0 }]
  | .repeated accepts least most, start =>
      if start.all accepts then none
      else some ((counts accepts least most start).map fun count => { consumed := count })
  | .group body, start => (body.known start).map fun readings => readings.map fun reading =>
      { consumed := reading.consumed, group := some (0, reading.consumed) }

/-- Known readings are those of every text with this start. -/
theorem readings_of_known {expression : Expression Symbol} {start : List Symbol}
    {readings : List Reading} (known : expression.known start = some readings)
    (more : List Symbol) : expression.readings (start ++ more) = readings := by
  induction expression generalizing start readings with
  | one accepts =>
    cases start with
    | nil => cases known
    | cons symbol rest => exact Option.some.inj known
  | seq first second firstHypothesis secondHypothesis =>
    rw [Expression.known, Option.bind_eq_some_iff] at known
    obtain ⟨before, beforeKnown, known⟩ := known
    obtain ⟨parts, mapped, rfl⟩ := Option.map_eq_some_iff.mp known
    rw [Expression.readings, firstHypothesis beforeKnown, List.flatMap_def]
    congr 1
    clear beforeKnown known
    induction before generalizing parts with
    | nil =>
      cases mapped
      rfl
    | cons reading rest restHypothesis =>
      simp only [List.mapM_cons, Option.bind_eq_bind, Option.bind_eq_some_iff, Option.pure_def,
        Option.some.injEq] at mapped
      obtain ⟨part, partKnown, others, othersMapped, rfl⟩ := mapped
      rw [List.map_cons, restHypothesis others othersMapped]
      split at partKnown
      · rename_i inside
        obtain ⟨behind, behindKnown, rfl⟩ := Option.map_eq_some_iff.mp partKnown
        rw [List.drop_append_of_le_length inside, secondHypothesis behindKnown]
      · cases partKnown
  | alt first second firstHypothesis secondHypothesis =>
    rw [Expression.known, Option.bind_eq_some_iff] at known
    obtain ⟨left, leftKnown, known⟩ := known
    obtain ⟨right, rightKnown, rfl⟩ := Option.map_eq_some_iff.mp known
    rw [Expression.readings, firstHypothesis leftKnown, secondHypothesis rightKnown]
  | optional body inductionHypothesis =>
    obtain ⟨inner, innerKnown, rfl⟩ := Option.map_eq_some_iff.mp known
    rw [Expression.readings, inductionHypothesis innerKnown]
  | repeated accepts least most =>
    rw [Expression.known] at known
    split at known
    · cases known
    · rename_i refused
      cases known
      have taken : (start ++ more).takeWhile accepts = start.takeWhile accepts := by
        rw [List.takeWhile_append, if_neg]
        intro whole
        refine refused (List.all_eq_true.mpr fun symbol member => ?_)
        rw [← (List.takeWhile_prefix accepts).eq_of_length whole] at member
        exact List.mem_takeWhile_imp member
      rw [Expression.readings]
      unfold counts
      rw [taken]
  | group body inductionHypothesis =>
    obtain ⟨inner, innerKnown, rfl⟩ := Option.map_eq_some_iff.mp known
    rw [Expression.readings, inductionHypothesis innerKnown]

/-! ### Symbols of words -/

/-- Every symbol an expression can read is of some kind. -/
def Expression.Only (kind : Symbol → Prop) : Expression Symbol → Prop
  | .one accepts => ∀ symbol, accepts symbol = true → kind symbol
  | .seq first second => first.Only kind ∧ second.Only kind
  | .alt first second => first.Only kind ∧ second.Only kind
  | .optional body => body.Only kind
  | .repeated accepts _ _ => ∀ symbol, accepts symbol = true → kind symbol
  | .group body => body.Only kind

theorem Expression.Only.forall_mem {kind : Symbol → Prop} {expression : Expression Symbol}
    (only : expression.Only kind) {word : List Symbol} (language : expression.Matches word) :
    ∀ symbol ∈ word, kind symbol := by
  induction expression generalizing word with
  | one accepts =>
    obtain ⟨symbol, rfl, accepted⟩ := language
    exact List.forall_mem_singleton.mpr (only symbol accepted)
  | seq first second firstHypothesis secondHypothesis =>
    obtain ⟨before, after, rfl, beforeWord, afterWord⟩ := language
    exact List.forall_mem_append.mpr
      ⟨firstHypothesis only.1 beforeWord, secondHypothesis only.2 afterWord⟩
  | alt first second firstHypothesis secondHypothesis =>
    exact language.elim (firstHypothesis only.1) (secondHypothesis only.2)
  | optional body inductionHypothesis =>
    rcases language with taken | rfl
    · exact inductionHypothesis only taken
    · exact fun _ member => nomatch member
  | repeated accepts least most => exact fun symbol member => only symbol (language.1 symbol member)
  | group body inductionHypothesis => exact inductionHypothesis only language

/-- Every word of an expression has a symbol of some kind. -/
def Expression.Needs (kind : Symbol → Prop) : Expression Symbol → Prop
  | .one accepts => ∀ symbol, accepts symbol = true → kind symbol
  | .seq first second => first.Needs kind ∨ second.Needs kind
  | .alt first second => first.Needs kind ∧ second.Needs kind
  | .optional _ => False
  | .repeated accepts least _ => 1 ≤ least ∧ ∀ symbol, accepts symbol = true → kind symbol
  | .group body => body.Needs kind

theorem Expression.Needs.exists_mem {kind : Symbol → Prop} {expression : Expression Symbol}
    (needs : expression.Needs kind) {word : List Symbol} (language : expression.Matches word) :
    ∃ symbol ∈ word, kind symbol := by
  induction expression generalizing word with
  | one accepts =>
    obtain ⟨symbol, rfl, accepted⟩ := language
    exact ⟨symbol, List.mem_singleton_self symbol, needs symbol accepted⟩
  | seq first second firstHypothesis secondHypothesis =>
    obtain ⟨before, after, rfl, beforeWord, afterWord⟩ := language
    rcases needs with needs | needs
    · obtain ⟨symbol, member, is⟩ := firstHypothesis needs beforeWord
      exact ⟨symbol, List.mem_append_left _ member, is⟩
    · obtain ⟨symbol, member, is⟩ := secondHypothesis needs afterWord
      exact ⟨symbol, List.mem_append_right _ member, is⟩
  | alt first second firstHypothesis secondHypothesis =>
    exact language.elim (firstHypothesis needs.1) (secondHypothesis needs.2)
  | optional body => exact needs.elim
  | repeated accepts least most =>
    obtain ⟨symbol, member⟩ := List.exists_mem_of_length_pos (needs.1.trans language.2.1)
    exact ⟨symbol, member, needs.2 symbol (language.1 symbol member)⟩
  | group body inductionHypothesis => exact inductionHypothesis needs language

end Backtracking
