/-
This file develops dictionaries that keep their entries in the order of
insertion. Setting a key changes its entry in place or appends one, so keys stay
distinct; after a run of updates a key has the value the last of them gave it,
and the dictionary has one entry for each key that was ever set.
-/

import Mathlib.Data.List.Nodup

namespace Dictionary

variable {Key Value : Type} [DecidableEq Key]

/-- The value of a key. -/
def get? (entries : List (Key × Value)) (key : Key) : Option Value :=
  (entries.find? fun entry => entry.1 = key).map Prod.snd

/-- Give a key a value, in place where it has one. -/
def set (entries : List (Key × Value)) (entry : Key × Value) : List (Key × Value) :=
  if entry.1 ∈ entries.map Prod.fst then
    entries.map fun other => if other.1 = entry.1 then entry else other
  else entries ++ [entry]

/-- Set several keys, one after the other. -/
def update (entries changes : List (Key × Value)) : List (Key × Value) := changes.foldl set entries

theorem get?_cons (entry : Key × Value) (rest : List (Key × Value)) (key : Key) :
    get? (entry :: rest) key = if entry.1 = key then some entry.2 else get? rest key := by
  unfold get?
  by_cases asked : entry.1 = key
  · rw [if_pos asked, List.find?_cons_of_pos (by simpa using asked), Option.map_some]
  · rw [if_neg asked, List.find?_cons_of_neg (by simpa using asked)]

theorem get?_eq_none_iff {entries : List (Key × Value)} {key : Key} :
    get? entries key = none ↔ key ∉ entries.map Prod.fst := by
  simp only [get?, Option.map_eq_none_iff, List.find?_eq_none, decide_eq_true_eq, List.mem_map,
    not_exists, not_and]

theorem isSome_get?_iff {entries : List (Key × Value)} {key : Key} :
    (get? entries key).isSome ↔ key ∈ entries.map Prod.fst := by
  rw [← not_iff_not, Bool.not_eq_true, Option.isSome_eq_false_iff, Option.isNone_iff_eq_none,
    get?_eq_none_iff]

/-- With distinct keys every entry is found under its key. -/
theorem get?_eq_some_iff {entries : List (Key × Value)} (distinct : (entries.map Prod.fst).Nodup)
    {key : Key} {value : Value} : get? entries key = some value ↔ (key, value) ∈ entries := by
  induction entries with
  | nil => exact iff_of_false nofun List.not_mem_nil
  | cons entry rest inductionHypothesis =>
    rw [List.map_cons, List.nodup_cons] at distinct
    rw [get?_cons, List.mem_cons, ← inductionHypothesis distinct.2]
    by_cases asked : entry.1 = key
    · subst asked
      rw [if_pos rfl, get?_eq_none_iff.mpr distinct.1, Option.some.injEq, Prod.ext_iff]
      simp only [true_and, reduceCtorEq, or_false, eq_comm]
    · rw [if_neg asked]
      refine (or_iff_right fun same => asked ?_).symm
      rw [← same]

theorem get?_append (entries others : List (Key × Value)) (key : Key) :
    get? (entries ++ others) key = (get? entries key).or (get? others key) := by
  rw [get?, List.find?_append, get?, get?]
  cases entries.find? fun entry => entry.1 = key <;> rfl

theorem get?_map {Other : Type} (change : Value → Other) (entries : List (Key × Value))
    (key : Key) : get? (entries.map (Prod.map id change)) key = (get? entries key).map change := by
  induction entries with
  | nil => rfl
  | cons entry rest inductionHypothesis =>
    rw [List.map_cons, get?_cons, get?_cons, inductionHypothesis]
    show (if entry.1 = key then _ else _) = _
    split <;> rfl

/-- The keys are those there were and the one that is set. -/
theorem keys_set (entries : List (Key × Value)) (entry : Key × Value) :
    (set entries entry).map Prod.fst =
      if entry.1 ∈ entries.map Prod.fst then entries.map Prod.fst
      else entries.map Prod.fst ++ [entry.1] := by
  unfold set
  split
  · rw [List.map_map]
    refine List.map_congr_left fun other _ => ?_
    rw [Function.comp_apply]
    split
    · rename_i same
      exact same.symm
    · rfl
  · rw [List.map_append]
    rfl

theorem nodup_set {entries : List (Key × Value)} (distinct : (entries.map Prod.fst).Nodup)
    (entry : Key × Value) : ((set entries entry).map Prod.fst).Nodup := by
  rw [keys_set]
  split
  · exact distinct
  · rename_i absent
    refine List.nodup_append.mpr ⟨distinct, List.nodup_singleton _, fun key member other new => ?_⟩
    rw [List.mem_singleton.mp new]
    rintro rfl
    exact absent member

/-- A key that is set has the value it was given, and the others keep theirs. -/
theorem get?_set (entries : List (Key × Value)) (entry : Key × Value) (key : Key) :
    get? (set entries entry) key = if entry.1 = key then some entry.2 else get? entries key := by
  unfold set
  by_cases stored : entry.1 ∈ entries.map Prod.fst
  · rw [if_pos stored]
    induction entries with
    | nil => cases stored
    | cons first rest inductionHypothesis =>
      rw [List.map_cons, get?_cons, get?_cons]
      by_cases later : entry.1 ∈ rest.map Prod.fst
      · rw [inductionHypothesis later]
        by_cases here : first.1 = entry.1
        · rw [if_pos here, here]
          split <;> rfl
        · rw [if_neg here]
          by_cases asked : first.1 = key
          · rw [if_pos asked, if_neg fun same => here (asked.trans same.symm), if_pos asked]
          · rw [if_neg asked, if_neg asked]
      · have here : first.1 = entry.1 := ((List.mem_cons.mp stored).resolve_right later).symm
        have untouched : (rest.map fun other => if other.1 = entry.1 then entry else other) =
            rest := by
          refine (List.map_congr_left fun other member => if_neg fun same => ?_).trans
            (List.map_id _)
          exact later (List.mem_map.mpr ⟨other, member, same⟩)
        rw [if_pos here, here, untouched]
        split <;> rfl
  · rw [if_neg stored, get?_append, get?_cons]
    by_cases asked : entry.1 = key
    · rw [if_pos asked, if_pos asked, get?_eq_none_iff.mpr (asked ▸ stored), Option.none_or]
    · rw [if_neg asked, if_neg asked]
      exact Option.or_none

theorem nodup_update {entries : List (Key × Value)} (distinct : (entries.map Prod.fst).Nodup)
    (changes : List (Key × Value)) : ((update entries changes).map Prod.fst).Nodup := by
  unfold update
  induction changes generalizing entries with
  | nil => exact distinct
  | cons entry rest inductionHypothesis => exact inductionHypothesis (nodup_set distinct entry)

theorem nodup_update_nil (changes : List (Key × Value)) :
    ((update [] changes).map Prod.fst).Nodup := by
  have empty : (([] : List (Key × Value)).map Prod.fst).Nodup := List.nodup_nil
  exact nodup_update empty changes

/-- After an update with distinct keys a key has its value from there, or else its old one. -/
theorem get?_update {changes : List (Key × Value)} (distinct : (changes.map Prod.fst).Nodup)
    (entries : List (Key × Value)) (key : Key) :
    get? (update entries changes) key = (get? changes key).or (get? entries key) := by
  unfold update
  induction changes generalizing entries with
  | nil => rfl
  | cons entry rest inductionHypothesis =>
    rw [List.map_cons, List.nodup_cons] at distinct
    rw [List.foldl_cons, inductionHypothesis distinct.2, get?_set, get?_cons]
    by_cases asked : entry.1 = key
    · rw [if_pos asked, if_pos asked, get?_eq_none_iff.mpr (asked ▸ distinct.1), Option.none_or,
        Option.some_or]
    · rw [if_neg asked, if_neg asked]

/-! ### Several updates -/

/-- The value the last of some dictionaries has under a key. -/
def last? (dictionaries : List (List (Key × Value))) (key : Key) : Option Value :=
  dictionaries.reverse.findSome? fun entries => get? entries key

theorem nodup_updates (dictionaries : List (List (Key × Value))) :
    ((dictionaries.foldl update []).map Prod.fst).Nodup := by
  have general {entries : List (Key × Value)} (distinct : (entries.map Prod.fst).Nodup) :
      ((dictionaries.foldl update entries).map Prod.fst).Nodup := by
    induction dictionaries generalizing entries with
    | nil => exact distinct
    | cons changes rest inductionHypothesis =>
      exact inductionHypothesis (nodup_update distinct changes)
  have empty : (([] : List (Key × Value)).map Prod.fst).Nodup := List.nodup_nil
  exact general empty

/-- After updates with several dictionaries a key has its value from the last of them that has it,
or else its old one. -/
theorem get?_updates {dictionaries : List (List (Key × Value))}
    (distinct : ∀ changes ∈ dictionaries, (changes.map Prod.fst).Nodup)
    (entries : List (Key × Value)) (key : Key) :
    get? (dictionaries.foldl update entries) key =
      (last? dictionaries key).or (get? entries key) := by
  induction dictionaries generalizing entries with
  | nil => rfl
  | cons changes rest inductionHypothesis =>
    rw [List.forall_mem_cons] at distinct
    rw [List.foldl_cons, inductionHypothesis distinct.2, get?_update distinct.1, last?, last?,
      List.reverse_cons, List.findSome?_append, Option.or_assoc]
    cases found : get? changes key <;> simp [found]

/-- An update of nothing gives the changes themselves. -/
theorem update_nil {changes : List (Key × Value)} (distinct : (changes.map Prod.fst).Nodup) :
    update [] changes = changes := by
  have general (before after : List (Key × Value))
      (apart : ((before ++ after).map Prod.fst).Nodup) : update before after = before ++ after := by
    unfold update
    induction after generalizing before with
    | nil => exact (List.append_nil _).symm
    | cons entry rest inductionHypothesis =>
      have absent : entry.1 ∉ before.map Prod.fst := by
        rw [List.map_append, List.map_cons] at apart
        exact fun member => (List.nodup_append.mp apart).2.2 _ member _ List.mem_cons_self rfl
      rw [List.foldl_cons, set, if_neg absent, inductionHypothesis, List.append_assoc]
      · rfl
      · rwa [List.append_assoc]
  exact general [] changes distinct

/-- Setting keys commutes with a change of the values. -/
theorem update_map {Other : Type} (change : Value → Other) (entries changes : List (Key × Value)) :
    update (entries.map (Prod.map id change)) (changes.map (Prod.map id change)) =
      (update entries changes).map (Prod.map id change) := by
  unfold update
  induction changes generalizing entries with
  | nil => rfl
  | cons entry rest inductionHypothesis =>
    rw [List.map_cons, List.foldl_cons, List.foldl_cons, ← inductionHypothesis]
    refine congrArg (fun start => List.foldl set start _) ?_
    have keys : (entries.map (Prod.map id change)).map Prod.fst = entries.map Prod.fst := by
      rw [List.map_map]
      rfl
    unfold set
    rw [keys]
    show (if entry.1 ∈ entries.map Prod.fst then _ else _) = _
    split
    · rw [List.map_map, List.map_map]
      refine List.map_congr_left fun other _ => ?_
      simp only [Function.comp_apply, Prod.map_fst, id]
      split <;> rfl
    · rw [List.map_append]
      rfl

end Dictionary
