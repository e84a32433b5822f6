/-
This file develops a store whose keys hold lists and sorted sets of values, as
a queue server offers them: pushing on the left end of a list, moving a value
between two lists in one step, removing one occurrence, and adding to and
popping from a sorted set. The rules say what each command does to the values
the store holds anywhere: nothing is lost but by a removal, and a removal
loses at most the value it names; and how often a value occurs at each place.
-/

import Mathlib.Data.List.Sort
import Mathlib.Logic.Function.Basic

namespace ListStore

/-- The lists and the sorted sets at each key; a sorted set is kept in its order. -/
structure Store (Key Value Score : Type) where
  lists : Key → List Value
  sorted : Key → List (Value × Score)

variable {Key Value Score : Type}

/-- The store without any value. -/
def Store.empty : Store Key Value Score := ⟨fun _ => [], fun _ => []⟩

/-- A value is somewhere in the store. -/
def Store.Holds (store : Store Key Value Score) (value : Value) : Prop :=
  (∃ key, value ∈ store.lists key) ∨ ∃ key score, (value, score) ∈ store.sorted key

theorem Store.not_holds_empty (value : Value) :
    ¬(Store.empty : Store Key Value Score).Holds value := by
  rintro (⟨key, member⟩ | ⟨key, score, member⟩)
  · exact List.not_mem_nil member
  · exact List.not_mem_nil member

variable [DecidableEq Key]

/-- Membership at some key after one key changed. -/
theorem exists_mem_update {Item : Type} (items : Key → List Item) (key : Key)
    (changed : List Item) (item : Item) :
    (∃ place, item ∈ Function.update items key changed place) ↔
      item ∈ changed ∨ ∃ place, place ≠ key ∧ item ∈ items place := by
  constructor
  · rintro ⟨place, member⟩
    by_cases same : place = key
    · rw [same, Function.update_self] at member
      exact .inl member
    · rw [Function.update_of_ne same] at member
      exact .inr ⟨place, same, member⟩
  · rintro (member | ⟨place, different, member⟩)
    · exact ⟨key, by rwa [Function.update_self]⟩
    · exact ⟨place, by rwa [Function.update_of_ne different]⟩

/-- Membership at some key, told apart by one key. -/
theorem exists_mem_iff {Item : Type} (items : Key → List Item) (key : Key) (item : Item) :
    (∃ place, item ∈ items place) ↔
      item ∈ items key ∨ ∃ place, place ≠ key ∧ item ∈ items place := by
  have same := exists_mem_update items key (items key) item
  rwa [Function.update_eq_self] at same

/-! ### Lists -/

/-- Push a value on the left end of a list. -/
def Store.lpush (store : Store Key Value Score) (key : Key) (value : Value) :
    Store Key Value Score :=
  { store with lists := Function.update store.lists key (value :: store.lists key) }

/-- Move the value on the right end of one list to the left end of another. -/
def Store.rpoplpush (store : Store Key Value Score) (source target : Key) :
    Option (Value × Store Key Value Score) :=
  match (store.lists source).getLast? with
  | none => none
  | some value =>
    let popped : Store Key Value Score :=
      { store with lists := Function.update store.lists source (store.lists source).dropLast }
    some (value, popped.lpush target value)

/-- Remove the first occurrence of a value from a list. -/
def Store.lrem [DecidableEq Value] (store : Store Key Value Score) (key : Key) (value : Value) :
    Store Key Value Score :=
  { store with lists := Function.update store.lists key ((store.lists key).erase value) }

theorem Store.holds_lpush (store : Store Key Value Score) (key : Key) (value other : Value) :
    (store.lpush key value).Holds other ↔ other = value ∨ store.Holds other := by
  unfold Store.Holds Store.lpush
  rw [exists_mem_update, exists_mem_iff store.lists key, List.mem_cons, or_assoc, or_assoc,
    or_assoc]

/-- The value moved was at the right end of the source list, and the store holds what it held. -/
theorem Store.rpoplpush_some {store next : Store Key Value Score} {source target : Key}
    {value : Value} (moved : store.rpoplpush source target = some (value, next)) :
    (store.lists source).getLast? = some value ∧
      ∀ other, next.Holds other ↔ store.Holds other := by
  unfold Store.rpoplpush at moved
  split at moved
  · cases moved
  · rename_i last found
    cases moved
    refine ⟨found, fun other => ?_⟩
    have split : store.lists source = (store.lists source).dropLast ++ [value] :=
      (List.dropLast_append_getLast? value found).symm
    have member : other ∈ store.lists source ↔
        other ∈ (store.lists source).dropLast ∨ other = value := by
      conv_lhs => rw [split]
      rw [List.mem_append, List.mem_singleton]
    rw [Store.holds_lpush]
    show (_ ∨ (∃ place, other ∈ Function.update store.lists source _ place) ∨
      ∃ place score, (other, score) ∈ store.sorted place) ↔ _
    rw [exists_mem_update, Store.Holds, exists_mem_iff store.lists source, member, ← or_assoc,
      ← or_assoc, or_comm (a := other = value)]

section Removal

variable [DecidableEq Value] (store : Store Key Value Score) (key : Key) (value : Value)

/-- A removal adds nothing. -/
theorem Store.holds_of_lrem {other : Value} (held : (store.lrem key value).Holds other) :
    store.Holds other := by
  rcases held with lists | sorted
  · rcases (exists_mem_update _ _ _ _).mp lists with erased | ⟨place, -, member⟩
    · exact .inl ⟨key, List.mem_of_mem_erase erased⟩
    · exact .inl ⟨place, member⟩
  · exact .inr sorted

/-- Nothing is removed where the value does not occur. -/
theorem Store.lrem_of_not_mem (absent : value ∉ store.lists key) :
    store.lrem key value = store := by
  unfold Store.lrem
  rw [List.erase_of_not_mem absent, Function.update_eq_self]

/-- A removal loses at most the value it names. -/
theorem Store.holds_lrem_of_ne {other : Value} (different : other ≠ value)
    (held : store.Holds other) : (store.lrem key value).Holds other := by
  rcases held with lists | sorted
  · refine .inl ((exists_mem_update _ _ _ _).mpr ?_)
    rw [List.mem_erase_of_ne different]
    exact (exists_mem_iff _ _ _).mp lists
  · exact .inr sorted

/-- Pushing a value of the store again after removing it keeps what the store holds. -/
theorem Store.holds_lpush_lrem (place : Key) (other : Value) (stored : store.Holds value) :
    ((store.lrem key value).lpush place value).Holds other ↔ store.Holds other := by
  rw [Store.holds_lpush]
  constructor
  · rintro (rfl | left)
    · exact stored
    · exact Store.holds_of_lrem store key value left
  · intro held
    by_cases same : other = value
    · exact .inl same
    · exact .inr (Store.holds_lrem_of_ne store key value same held)

/-- Removing a value from one list after pushing it on another one keeps it in the store. -/
theorem Store.holds_lrem_lpush {target other : Value} {place : Key} (elsewhere : place ≠ key)
    (held : store.Holds other) : ((store.lpush place target).lrem key target).Holds other := by
  by_cases same : other = target
  · refine .inl ⟨place, ?_⟩
    simp only [Store.lrem, Store.lpush, Function.update_of_ne elsewhere, Function.update_self, same]
    exact List.mem_cons_self
  · exact Store.holds_lrem_of_ne _ key target same
      ((store.holds_lpush place target other).mpr (.inr held))

end Removal

/-! ### Sorted sets -/

section Sorted

variable (before : Value × Score → Value × Score → Prop) [DecidableRel before]

/-- Add a value to a sorted set; a value that is in the set gets the new score. -/
def Store.zadd [DecidableEq Value] (store : Store Key Value Score) (key : Key) (value : Value)
    (score : Score) : Store Key Value Score :=
  { store with
    sorted := Function.update store.sorted key
      (((store.sorted key).filter fun entry => entry.1 ≠ value).orderedInsert before
        (value, score)) }

/-- Take the least entry of a sorted set. -/
def Store.zpopmin (store : Store Key Value Score) (key : Key) :
    Option ((Value × Score) × Store Key Value Score) :=
  match store.sorted key with
  | [] => none
  | entry :: rest => some (entry, { store with sorted := Function.update store.sorted key rest })

/-- Adding a value loses none: the value it adds may lose its old score only. -/
theorem Store.holds_zadd [DecidableEq Value] (store : Store Key Value Score) (key : Key)
    (value other : Value) (score : Score) :
    (store.zadd before key value score).Holds other ↔ other = value ∨ store.Holds other := by
  constructor
  · rintro (lists | ⟨place, rank, member⟩)
    · exact .inr (.inl lists)
    · rcases (exists_mem_update _ _ _ _).mp ⟨place, member⟩ with inserted | ⟨place, -, stored⟩
      · rcases (List.mem_orderedInsert before).mp inserted with same | filtered
        · exact .inl (Prod.mk.inj same).1
        · exact .inr (.inr ⟨key, rank, (List.mem_filter.mp filtered).1⟩)
      · exact .inr (.inr ⟨place, rank, stored⟩)
  · have added : (value, score) ∈ (store.zadd before key value score).sorted key := by
      simp only [Store.zadd, Function.update_self]
      exact (List.mem_orderedInsert before).mpr (.inl rfl)
    rintro (rfl | lists | ⟨place, rank, member⟩)
    · exact .inr ⟨key, score, added⟩
    · exact .inl lists
    · by_cases same : other = value
      · exact .inr ⟨key, score, same ▸ added⟩
      · refine .inr ?_
        have kept (stored : (other, rank) ∈ store.sorted key) :
            (other, rank) ∈ (store.sorted key).filter fun entry => entry.1 ≠ value :=
          List.mem_filter.mpr ⟨stored, decide_eq_true same⟩
        obtain ⟨place, found⟩ := (exists_mem_update store.sorted key _ (other, rank)).mpr
          (((exists_mem_iff store.sorted key _).mp ⟨place, member⟩).imp_left fun stored =>
            (List.mem_orderedInsert before).mpr (.inr (kept stored)))
        exact ⟨place, rank, found⟩

/-- The entry popped was in the sorted set, and the store holds the rest of what it held. -/
theorem Store.zpopmin_some {store next : Store Key Value Score} {key : Key} {value : Value}
    {score : Score} (popped : store.zpopmin key = some ((value, score), next)) (other : Value) :
    store.Holds other ↔ other = value ∨ next.Holds other := by
  unfold Store.zpopmin at popped
  split at popped
  · cases popped
  · rename_i rest listed
    cases popped
    constructor
    · rintro (lists | ⟨place, rank, member⟩)
      · exact .inr (.inl lists)
      · rcases (exists_mem_iff store.sorted key _).mp ⟨place, member⟩ with stored | elsewhere
        · rw [listed] at stored
          rcases List.mem_cons.mp stored with same | remaining
          · exact .inl (Prod.mk.inj same).1
          · obtain ⟨place, found⟩ :=
              (exists_mem_update store.sorted key rest _).mpr (.inl remaining)
            exact .inr (.inr ⟨place, rank, found⟩)
        · obtain ⟨place, found⟩ := (exists_mem_update store.sorted key rest _).mpr (.inr elsewhere)
          exact .inr (.inr ⟨place, rank, found⟩)
    · rintro (rfl | lists | ⟨place, rank, member⟩)
      · exact .inr ⟨key, score, listed ▸ List.mem_cons_self⟩
      · exact .inl lists
      · obtain ⟨place, found⟩ := (exists_mem_iff store.sorted key _).mpr
          (((exists_mem_update store.sorted key rest _).mp ⟨place, member⟩).imp_left
            fun remaining => listed ▸ List.mem_cons_of_mem _ remaining)
        exact .inr ⟨place, rank, found⟩

end Sorted

/-! ### Occurrences -/

/-- A place of a store: a list or a sorted set. -/
inductive Place (Key : Type) where
  | list (key : Key)
  | sorted (key : Key)
  deriving DecidableEq

/-- How often a value occurs at a place. -/
def Store.occurs [DecidableEq Value] (store : Store Key Value Score) (value : Value) :
    Place Key → Nat
  | .list key => (store.lists key).count value
  | .sorted key => (store.sorted key).countP fun entry => entry.1 = value

section Occurrences

variable [DecidableEq Value] (store : Store Key Value Score)

omit [DecidableEq Key] in
/-- What a store holds occurs at some place. -/
theorem Store.holds_iff_occurs (value : Value) :
    store.Holds value ↔ ∃ place, 0 < store.occurs value place := by
  constructor
  · rintro (⟨key, member⟩ | ⟨key, score, member⟩)
    · exact ⟨.list key, List.count_pos_iff.mpr member⟩
    · exact ⟨.sorted key, List.countP_pos_iff.mpr ⟨(value, score), member, decide_eq_true rfl⟩⟩
  · rintro ⟨key | key, positive⟩
    · exact .inl ⟨key, List.count_pos_iff.mp positive⟩
    · obtain ⟨⟨found, score⟩, member, same⟩ := List.countP_pos_iff.mp positive
      obtain rfl : found = value := of_decide_eq_true same
      exact .inr ⟨key, score, member⟩

omit [DecidableEq Key] in
theorem Store.mem_lists_iff (key : Key) (value : Value) :
    value ∈ store.lists key ↔ 0 < store.occurs value (.list key) :=
  List.count_pos_iff.symm

theorem Store.occurs_lpush (key : Key) (pushed value : Value) (place : Place Key) :
    (store.lpush key pushed).occurs value place =
      store.occurs value place + if place = .list key ∧ pushed = value then 1 else 0 := by
  cases place with
  | list other =>
    by_cases same : other = key
    · subst same
      simp [Store.occurs, Store.lpush, List.count_cons]
    · simp [Store.occurs, Store.lpush, same]
  | sorted other => simp [Store.occurs, Store.lpush]

theorem Store.occurs_lrem (key : Key) (removed value : Value) (place : Place Key) :
    (store.lrem key removed).occurs value place =
      store.occurs value place - if place = .list key ∧ removed = value then 1 else 0 := by
  cases place with
  | list other =>
    by_cases same : other = key
    · subst same
      simp [Store.occurs, Store.lrem, List.count_erase]
    · simp [Store.occurs, Store.lrem, same]
  | sorted other => simp [Store.occurs, Store.lrem]

theorem Store.occurs_zpopmin {store next : Store Key Value Score} {key : Key} {popped : Value}
    {score : Score} (least : store.zpopmin key = some ((popped, score), next)) (value : Value)
    (place : Place Key) :
    store.occurs value place =
      next.occurs value place + if place = .sorted key ∧ popped = value then 1 else 0 := by
  unfold Store.zpopmin at least
  split at least
  · cases least
  · rename_i rest listed
    cases least
    cases place with
    | list other => simp [Store.occurs]
    | sorted other =>
      by_cases same : other = key
      · subst same
        simp [Store.occurs, listed, List.countP_cons]
      · simp [Store.occurs, same]

theorem Store.occurs_zadd (before : Value × Score → Value × Score → Prop) [DecidableRel before]
    (key : Key) (added value : Value) (score : Score) (place : Place Key) :
    (store.zadd before key added score).occurs value place =
      if place = .sorted key ∧ added = value then 1 else store.occurs value place := by
  cases place with
  | list other => simp [Store.occurs, Store.zadd]
  | sorted other =>
    by_cases same : other = key
    · subst same
      simp only [Store.occurs, Store.zadd, Function.update_self]
      rw [(List.perm_orderedInsert before _ _).countP_eq, List.countP_cons, List.countP_filter]
      by_cases equal : added = value
      · subst equal
        simp
      · simp [equal]
        refine List.countP_congr fun entry _ => ?_
        simp
        rintro rfl
        exact fun e => equal e.symm
    · simp [Store.occurs, Store.zadd, same]

theorem Store.occurs_rpoplpush {store next : Store Key Value Score} {source target : Key}
    {moved : Value} (popped : store.rpoplpush source target = some (moved, next)) (value : Value)
    (place : Place Key) :
    next.occurs value place + (if place = .list source ∧ moved = value then 1 else 0) =
      store.occurs value place + if place = .list target ∧ moved = value then 1 else 0 := by
  unfold Store.rpoplpush at popped
  split at popped
  · cases popped
  · rename_i last found
    cases popped
    rw [Store.occurs_lpush]
    cases place with
    | list other =>
      by_cases same : other = source
      · subst same
        have split : store.lists other = (store.lists other).dropLast ++ [moved] :=
          (List.dropLast_append_getLast? moved found).symm
        have counted : (store.lists other).count value =
            (store.lists other).dropLast.count value + if moved = value then 1 else 0 := by
          conv_lhs => rw [split]
          rw [List.count_append, List.count_singleton]
          simp
        simp only [Store.occurs, Function.update_self, true_and, counted]
        omega
      · simp [Store.occurs, same]
    | sorted other => simp [Store.occurs]

end Occurrences

end ListStore
