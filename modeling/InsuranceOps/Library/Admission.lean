/-
This file develops conditions on what a store may hold: one on the values in its
lists and one on the values in its sorted sets with their scores. Every command
keeps such a condition when the values it adds meet it, and the values it takes
out meet it.
-/

import InsuranceOps.Library.RankedSet

namespace ListStore

variable {Key Value Score : Type}

/-- Every value in a list meets one condition, and every entry of a sorted set another. -/
structure Store.Admits (listed : Value → Prop) (ranked : Value → Score → Prop)
    (store : Store Key Value Score) : Prop where
  lists : ∀ key, ∀ value ∈ store.lists key, listed value
  sorted : ∀ key, ∀ entry ∈ store.sorted key, ranked entry.1 entry.2

namespace Store.Admits

variable {listed : Value → Prop} {ranked : Value → Score → Prop}
  {store next : Store Key Value Score}

theorem empty : Admits listed ranked (.empty : Store Key Value Score) where
  lists _ _ member := absurd member List.not_mem_nil
  sorted _ _ member := absurd member List.not_mem_nil

/-- Weaker conditions hold of the same store. -/
theorem mono {laxer : Value → Prop} {laxerRanked : Value → Score → Prop}
    (admits : store.Admits listed ranked) (weaker : ∀ value, listed value → laxer value)
    (weakerRanked : ∀ value score, ranked value score → laxerRanked value score) :
    store.Admits laxer laxerRanked where
  lists key value member := weaker value (admits.lists key value member)
  sorted key entry member := weakerRanked _ _ (admits.sorted key entry member)

variable [DecidableEq Key]

/-- A list is replaced by one whose values meet the condition. -/
theorem update_lists (admits : store.Admits listed ranked) (key : Key) {values : List Value}
    (each : ∀ value ∈ values, listed value) :
    Admits listed ranked { store with lists := Function.update store.lists key values } where
  lists place value member := by
    rcases (exists_mem_update store.lists key values value).mp ⟨place, member⟩ with
      changed | ⟨other, -, stored⟩
    · exact each value changed
    · exact admits.lists other value stored
  sorted := admits.sorted

/-- A sorted set is replaced by one whose entries meet the condition. -/
theorem update_sorted (admits : store.Admits listed ranked) (key : Key)
    {entries : List (Value × Score)} (each : ∀ entry ∈ entries, ranked entry.1 entry.2) :
    Admits listed ranked { store with sorted := Function.update store.sorted key entries } where
  lists := admits.lists
  sorted place entry member := by
    rcases (exists_mem_update store.sorted key entries entry).mp ⟨place, member⟩ with
      changed | ⟨other, -, stored⟩
    · exact each entry changed
    · exact admits.sorted other entry stored

theorem lpush (admits : store.Admits listed ranked) (key : Key) {value : Value}
    (met : listed value) : (store.lpush key value).Admits listed ranked := by
  refine admits.update_lists key fun other member => ?_
  rcases List.mem_cons.mp member with rfl | stored
  · exact met
  · exact admits.lists key other stored

theorem lrem [DecidableEq Value] (admits : store.Admits listed ranked) (key : Key)
    (value : Value) : (store.lrem key value).Admits listed ranked :=
  admits.update_lists key fun other member =>
    admits.lists key other (List.mem_of_mem_erase member)

/-- The value moved meets the condition. -/
theorem rpoplpush (admits : store.Admits listed ranked) {source target : Key} {value : Value}
    (moved : store.rpoplpush source target = some (value, next)) :
    listed value ∧ next.Admits listed ranked := by
  unfold Store.rpoplpush at moved
  split at moved
  · cases moved
  · rename_i last found
    cases moved
    have met : listed value := admits.lists source value (List.mem_of_getLast? found)
    refine ⟨met, lpush (admits.update_lists source fun other member => ?_) target met⟩
    exact admits.lists source other (List.dropLast_subset _ member)

theorem zadd [DecidableEq Value] {before : Value × Score → Value × Score → Prop}
    [DecidableRel before] (admits : store.Admits listed ranked) (key : Key) {value : Value}
    {score : Score} (met : ranked value score) :
    (store.zadd before key value score).Admits listed ranked := by
  refine admits.update_sorted key fun entry member => ?_
  rcases (List.mem_orderedInsert before).mp member with rfl | kept
  · exact met
  · exact admits.sorted key entry (List.mem_filter.mp kept).1

/-- The entry popped meets the condition. -/
theorem zpopmin (admits : store.Admits listed ranked) {key : Key} {value : Value} {score : Score}
    (least : store.zpopmin key = some ((value, score), next)) :
    ranked value score ∧ next.Admits listed ranked := by
  obtain ⟨rest, found, rfl⟩ := Store.zpopmin_eq_some least
  have stored : ∀ entry ∈ (value, score) :: rest, ranked entry.1 entry.2 :=
    found ▸ admits.sorted key
  exact ⟨stored _ List.mem_cons_self,
    admits.update_sorted key fun entry member => stored entry (List.mem_cons_of_mem _ member)⟩

end Store.Admits

end ListStore
