/-
This file reads an expression ahead of what must follow it. Of the readings of
an expression the first one counts behind which the rest can be read as well,
and a repetition takes as much as it can where the rest cannot begin with what
it repeats.
-/

import InsuranceOps.Library.Language

namespace Backtracking

variable {Symbol Result : Type}

/-- What the rest gives behind the first reading of an expression behind which it gives
something. -/
def Expression.ahead (expression : Expression Symbol) (next : List Symbol → Option Result)
    (text : List Symbol) : Option Result :=
  (expression.readings text).findSome? fun reading => next (text.drop reading.consumed)

variable {next : List Symbol → Option Result} {text : List Symbol}

theorem findSome?_cons_or {Item : Type} (item : Item) (rest : List Item)
    (find : Item → Option Result) :
    (item :: rest).findSome? find = (find item).or (rest.findSome? find) := by
  rw [List.findSome?_cons]
  cases find item <;> rfl

theorem findSome?_flatMap {First Second : Type} (list : List First) (parts : First → List Second)
    (find : Second → Option Result) : (list.flatMap parts).findSome? find =
      list.findSome? fun first => (parts first).findSome? find := by
  induction list with
  | nil => rfl
  | cons first rest inductionHypothesis =>
    rw [List.flatMap_cons, List.findSome?_append, inductionHypothesis, findSome?_cons_or]

/-- Where only one item of a list gives something, that is what is found. -/
theorem findSome?_eq_of_mem {Item : Type} {list : List Item} {find : Item → Option Result}
    {item : Item} (member : item ∈ list)
    (only : ∀ other ∈ list, find other ≠ none → other = item) :
    list.findSome? find = find item := by
  cases found : list.findSome? find with
  | none => exact (List.findSome?_eq_none_iff.mp found item member).symm
  | some result =>
    obtain ⟨other, listed, gives⟩ := List.exists_of_findSome?_eq_some found
    rw [← only other listed (by rw [gives]; exact nofun), gives]

/-- Where some items of a list give one thing and the others nothing, it is found if there are
such. -/
theorem findSome?_ite {Item : Type} {list : List Item} {find : Item → Option Result}
    {holds : Item → Prop} [DecidablePred holds] {result : Option Result}
    (each : ∀ item ∈ list, find item = if holds item then result else none) :
    list.findSome? find = if list.any (fun item => holds item) then result else none := by
  induction list with
  | nil => rfl
  | cons item rest inductionHypothesis =>
    obtain ⟨here, others⟩ := List.forall_mem_cons.mp each
    rw [findSome?_cons_or, here, inductionHypothesis others, List.any_cons]
    by_cases held : holds item
    · rw [if_pos held, decide_eq_true held, Bool.true_or, if_pos rfl]
      split
      · exact Option.or_self
      · exact Option.or_none
    · rw [if_neg held, decide_eq_false held, Bool.false_or, Option.none_or]

theorem ahead_one_nil (accepts : Symbol → Bool) :
    (Expression.one accepts).ahead next [] = none := rfl

theorem ahead_one_cons (accepts : Symbol → Bool) (symbol : Symbol) (rest : List Symbol) :
    (Expression.one accepts).ahead next (symbol :: rest) =
      if accepts symbol then next rest else none := by
  unfold Expression.ahead
  rw [Expression.readings]
  split
  · rw [List.findSome?_singleton]
    rfl
  · rfl

theorem ahead_seq (first second : Expression Symbol) :
    (first.seq second).ahead next text = first.ahead (second.ahead next) text := by
  unfold Expression.ahead
  rw [Expression.readings, findSome?_flatMap]
  congr 1
  funext reading
  rw [List.findSome?_map]
  congr 1
  funext behind
  rw [List.drop_drop]
  rfl

theorem ahead_alt (first second : Expression Symbol) :
    (first.alt second).ahead next text = (first.ahead next text).or (second.ahead next text) := by
  unfold Expression.ahead
  rw [Expression.readings, List.findSome?_append]

theorem ahead_optional (body : Expression Symbol) :
    body.optional.ahead next text = (body.ahead next text).or (next text) := by
  unfold Expression.ahead
  rw [Expression.readings, List.findSome?_append, List.findSome?_singleton]
  rfl

theorem drop_takeWhile (accepts : Symbol → Bool) (text : List Symbol) :
    text.drop (text.takeWhile accepts).length = text.dropWhile accepts := by
  have parts := List.takeWhile_append_dropWhile (p := accepts) (l := text)
  exact (congrArg (List.drop _) parts.symm).trans List.drop_left

theorem counts_cons {accepts : Symbol → Bool} {symbol : Symbol} (accepted : accepts symbol = true)
    (rest : List Symbol) : counts accepts 0 none (symbol :: rest) =
      (counts accepts 0 none rest).map Nat.succ ++ [0] := by
  unfold counts
  simp only [Nat.zero_le, decide_true, List.filter_true, Option.elim_none,
    List.takeWhile_cons_of_pos accepted, List.length_cons]
  rw [List.range_succ_eq_map, List.reverse_cons, List.map_reverse]

theorem ahead_repeated_cons {accepts : Symbol → Bool} {symbol : Symbol}
    (accepted : accepts symbol = true) (rest : List Symbol) :
    (Expression.repeated accepts 0 none).ahead next (symbol :: rest) =
      ((Expression.repeated accepts 0 none).ahead next rest).or (next (symbol :: rest)) := by
  unfold Expression.ahead
  rw [Expression.readings, Expression.readings, List.findSome?_map, List.findSome?_map,
    counts_cons accepted, List.findSome?_append, List.findSome?_map, List.findSome?_singleton]
  rfl

/-- Where the rest cannot begin with a repeated symbol, a repetition takes all of them. -/
theorem ahead_repeated {accepts : Symbol → Bool} {least : Nat} {most : Option Nat}
    (refused : ∀ symbol rest, accepts symbol = true → next (symbol :: rest) = none) :
    (Expression.repeated accepts least most).ahead next text =
      if least ≤ (text.takeWhile accepts).length ∧
          most.all (fun bound => (text.takeWhile accepts).length ≤ bound)
        then next (text.dropWhile accepts) else none := by
  have earlier {count : Nat} (member : count ∈ counts accepts least most text)
      (given : next (text.drop count) ≠ none) : count = (text.takeWhile accepts).length := by
    obtain ⟨fits, all, -⟩ := mem_counts_iff.mp member
    refine Nat.le_antisymm (le_length_takeWhile_iff.mpr ⟨fits, all⟩)
      (Nat.le_of_not_lt fun fewer => ?_)
    have within := List.takeWhile_prefix (l := text) accepts
    have inside := Nat.lt_of_lt_of_le fewer within.length_le
    rw [List.drop_eq_getElem_cons inside] at given
    refine given (refused _ _ ?_)
    rw [← within.getElem fewer]
    exact List.mem_takeWhile_imp (List.getElem_mem fewer)
  unfold Expression.ahead
  rw [Expression.readings, List.findSome?_map, ← drop_takeWhile]
  split
  · rename_i enough
    refine findSome?_eq_of_mem (mem_counts_iff.mpr ?_)
      fun count member given => earlier member given
    obtain ⟨fits, all⟩ := le_length_takeWhile_iff.mp (Nat.le_refl (text.takeWhile accepts).length)
    refine ⟨fits, all, enough.1, fun bound bounded => ?_⟩
    have few := enough.2
    rw [bounded] at few
    exact of_decide_eq_true few
  · rename_i unfit
    refine List.findSome?_eq_none_iff.mpr fun count member => by_contra fun given => unfit ?_
    obtain ⟨-, -, enough, few⟩ := mem_counts_iff.mp member
    rw [earlier member given] at enough few
    refine ⟨enough, ?_⟩
    cases most with
    | none => rfl
    | some bound => exact decide_eq_true (few bound rfl)

/-- Where none of its symbols stands, a repetition that must take some is not read. -/
theorem ahead_repeated_none {accepts : Symbol → Bool} {least : Nat} {most : Option Nat}
    (ended : ∀ symbol, text.head? = some symbol → accepts symbol = false) :
    (Expression.repeated accepts (least + 1) most).ahead next text = none := by
  refine List.findSome?_eq_none_iff.mpr fun reading member => ?_
  obtain ⟨count, counted, -⟩ := List.mem_map.mp member
  obtain ⟨fits, all, enough, -⟩ := mem_counts_iff.mp counted
  cases text with
  | nil => exact absurd (enough.trans fits) (Nat.not_succ_le_zero _)
  | cons symbol rest =>
    obtain ⟨fewer, rfl⟩ := Nat.exists_eq_add_of_le' ((Nat.le_add_left 1 least).trans enough)
    have accepted := all symbol (by rw [List.take_succ_cons]; exact List.mem_cons_self)
    rw [ended symbol rfl] at accepted
    cases accepted

/-- Where one of its symbols stands alone, a repetition that must take some takes it. -/
theorem ahead_repeated_single {accepts : Symbol → Bool} {symbol : Symbol} {rest : List Symbol}
    (accepted : accepts symbol = true)
    (ended : ∀ symbol, rest.head? = some symbol → accepts symbol = false) :
    (Expression.repeated accepts 1 none).ahead next (symbol :: rest) = next rest := by
  have alone : rest.takeWhile accepts = [] := by
    cases rest with
    | nil => rfl
    | cons other others =>
      exact List.takeWhile_cons_of_neg (by rw [ended other rfl]; exact Bool.false_ne_true)
  have counted : counts accepts 1 none (symbol :: rest) = [1] := by
    unfold counts
    rw [List.takeWhile_cons_of_pos accepted, alone]
    rfl
  unfold Expression.ahead
  rw [Expression.readings, counted]
  exact List.findSome?_singleton

/-- A repetition before two choices: the first of them, which cannot begin with a repeated symbol,
is read behind all of these, and the second one, which can, where the repetition begins. -/
theorem ahead_repeated_or {accepts : Symbol → Bool} {mark : List Symbol → Option Result}
    (refused : ∀ symbol rest, accepts symbol = true → mark (symbol :: rest) = none)
    (absorbed : ∀ symbol rest result, accepts symbol = true → next rest = some result →
      next (symbol :: rest) = some result) :
    (Expression.repeated accepts 0 none).ahead (fun text => (mark text).or (next text)) text =
      (mark (text.dropWhile accepts)).or (next text) := by
  induction text with
  | nil => exact List.findSome?_singleton
  | cons symbol rest inductionHypothesis =>
    by_cases accepted : accepts symbol = true
    · rw [ahead_repeated_cons accepted, inductionHypothesis, refused symbol rest accepted,
        Option.none_or, List.dropWhile_cons_of_pos accepted, Option.or_assoc]
      congr 1
      cases behind : next rest with
      | none => rfl
      | some result => exact (absorbed symbol rest result accepted behind).symm
    · have none : counts accepts 0 none (symbol :: rest) = [0] := by
        unfold counts
        rw [List.takeWhile_cons_of_neg accepted]
        rfl
      unfold Expression.ahead
      rw [Expression.readings, none, List.dropWhile_cons_of_neg accepted]
      exact List.findSome?_singleton

/-- Where the rest can always be read, a repetition takes as many symbols as it can. -/
theorem ahead_repeated_total {accepts : Symbol → Bool} {least : Nat} {most : Option Nat}
    (total : ∀ rest, next rest ≠ none) :
    (Expression.repeated accepts least most).ahead next text =
      let greatest := most.elim (text.takeWhile accepts).length
        (min (text.takeWhile accepts).length)
      if least ≤ greatest then next (text.drop greatest) else none := by
  have head := head?_counts accepts least most text
  unfold Expression.ahead
  rw [Expression.readings, List.findSome?_map]
  dsimp only at head ⊢
  split at head
  · obtain ⟨others, read⟩ := List.head?_eq_some_iff.mp head
    rw [if_pos ‹_›, read, List.findSome?_cons_of_isSome]
    · rfl
    · exact Option.isSome_iff_ne_none.mpr (total _)
  · rw [if_neg ‹_›, List.head?_eq_none_iff.mp head]
    rfl

end Backtracking
