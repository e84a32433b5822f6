/-
This file develops the content of a sorted set: its members with their scores,
in their order, no member twice. Popping the least entry and adding it again
gives the set back. The entries up to a score are an initial segment, as long as
there are such entries.
-/

import InsuranceOps.Library.ListStore

namespace ListStore

variable {Key Value Score : Type} [DecidableEq Key] [DecidableEq Value]
  {before : Value × Score → Value × Score → Prop} [DecidableRel before]

/-- The entries stand in their order, and no member stands twice. -/
structure Ranked (before : Value × Score → Value × Score → Prop) (entries : List (Value × Score)) :
    Prop where
  ordered : entries.Pairwise before
  distinct : (entries.map Prod.fst).Nodup

omit [DecidableEq Value] [DecidableRel before] in
theorem Ranked.tail {entry : Value × Score} {rest : List (Value × Score)}
    (ranked : Ranked before (entry :: rest)) : Ranked before rest where
  ordered := (List.pairwise_cons.mp ranked.ordered).2
  distinct := (List.nodup_cons.mp ranked.distinct).2

/-- The least entry goes back to the front. -/
theorem Ranked.put_back {value : Value} {score : Score} {rest : List (Value × Score)}
    (ranked : Ranked before ((value, score) :: rest)) :
    (rest.filter fun entry => entry.1 ≠ value).orderedInsert before (value, score) =
      (value, score) :: rest := by
  have absent : ∀ entry ∈ rest, decide (entry.1 ≠ value) = true := fun entry member =>
    decide_eq_true fun same => (List.nodup_cons.mp ranked.distinct).1
      (List.mem_map.mpr ⟨entry, member, same⟩)
  rw [List.filter_eq_self.mpr absent]
  cases rest with
  | nil => rfl
  | cons next more =>
    exact List.orderedInsert_cons_of_le before more
      ((List.pairwise_cons.mp ranked.ordered).1 next List.mem_cons_self)

omit [DecidableEq Value] in
/-- What popping finds: the first entry, with the rest left behind. -/
theorem Store.zpopmin_eq_some {store popped : Store Key Value Score} {key : Key}
    {entry : Value × Score} (least : store.zpopmin key = some (entry, popped)) :
    ∃ rest, store.sorted key = entry :: rest ∧
      popped = { store with sorted := Function.update store.sorted key rest } := by
  unfold Store.zpopmin at least
  split at least
  · cases least
  · rename_i rest listed
    cases least
    exact ⟨rest, listed, rfl⟩

omit [DecidableEq Value] in
theorem Store.zpopmin_eq_none {store : Store Key Value Score} {key : Key}
    (empty : store.zpopmin key = none) : store.sorted key = [] := by
  unfold Store.zpopmin at empty
  split at empty
  · assumption
  · cases empty

/-- Popping the least entry of a sorted set and adding it again gives the store back. -/
theorem Store.zadd_zpopmin {store popped : Store Key Value Score} {key : Key} {value : Value}
    {score : Score} (ranked : Ranked before (store.sorted key))
    (least : store.zpopmin key = some ((value, score), popped)) :
    popped.zadd before key value score = store := by
  obtain ⟨rest, listed, rfl⟩ := Store.zpopmin_eq_some least
  rw [listed] at ranked
  simp only [Store.zadd, Function.update_self, Function.update_idem]
  rw [ranked.put_back, ← listed, Function.update_eq_self]

/-! ### Entries up to a score -/

/-- Entries in the order of their scores. -/
def ByScore [LE Score] (entries : List (Value × Score)) : Prop :=
  entries.Pairwise fun first second => first.2 ≤ second.2

omit [DecidableEq Value] in
/-- Behind an entry above a score stand no entries up to it. -/
theorem countP_eq_zero_of_lt [LinearOrder Score] {entry : Value × Score}
    {rest : List (Value × Score)} {maxScore : Score} (sorted : ByScore (entry :: rest))
    (above : maxScore < entry.2) :
    (entry :: rest).countP (fun entry => entry.2 ≤ maxScore) = 0 := by
  refine List.countP_eq_zero.mpr fun other member => ?_
  rw [decide_eq_true_eq, not_le]
  rcases List.mem_cons.mp member with rfl | later
  · exact above
  · exact lt_of_lt_of_le above ((List.pairwise_cons.mp sorted).1 other later)

end ListStore
