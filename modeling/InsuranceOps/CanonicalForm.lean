/-
This file proves that `canonical_json` is canonical. A JSON value as such holds
its members in no order. Sorting the entries of every object gives a normal
form: `canonical_json` prints a payload as `json.dumps` prints its normal form,
and two payloads have one normal form just when they are the same value. As the
text of a value whose floats are doubles can be read in one way only, two such
payloads have the same canonical text just when they are the same value.
-/

import InsuranceOps.JsonText

namespace InsuranceOps

open UniqueReading

/-! ### Values as such -/

/-- A JSON value as such: the members of an object stand in no order. -/
inductive JsonValue where
  | null
  | bool (value : Bool)
  | int (value : Int)
  | float (value : ℚ)
  | negativeZero
  | string (value : String)
  | array (items : List JsonValue)
  | object (members : String → Option JsonValue)

mutual

/-- The value as such. -/
def Json.denote : Json → JsonValue
  | .null => .null
  | .bool value => .bool value
  | .int value => .int value
  | .float value => .float value
  | .negativeZero => .negativeZero
  | .string value => .string value
  | .array items => .array (denoteItems items)
  | .object entries => .object (denoteEntries entries)

/-- The values of a list as such. -/
def denoteItems : List Json → List JsonValue
  | [] => []
  | item :: rest => item.denote :: denoteItems rest

/-- The value as such under a key. -/
def denoteEntries : List (String × Json) → String → Option JsonValue
  | [], _ => none
  | (key, value) :: rest, wanted =>
    if key = wanted then some value.denote else denoteEntries rest wanted

end

/-! ### Normal forms -/

/-- Entries in the order `sort_keys` prints them. -/
def byKey {Value : Type} (first second : String × Value) : Prop := first.1 ≤ second.1

instance {Value : Type} : DecidableRel (@byKey Value) :=
  fun first second => inferInstanceAs (Decidable (first.1 ≤ second.1))

mutual

/-- The value with the entries of every object sorted by key. -/
def Json.normal : Json → Json
  | .array items => .array (normalItems items)
  | .object entries => .object ((normalEntries entries).insertionSort byKey)
  | value => value

/-- The normal forms of a list of values. -/
def normalItems : List Json → List Json
  | [] => []
  | item :: rest => item.normal :: normalItems rest

/-- The entries with the normal forms of their values. -/
def normalEntries : List (String × Json) → List (String × Json)
  | [] => []
  | (key, value) :: rest => (key, value.normal) :: normalEntries rest

end

theorem normalItems_eq (items : List Json) : normalItems items = items.map Json.normal := by
  induction items with
  | nil => rfl
  | cons item rest inductionHypothesis => rw [normalItems, inductionHypothesis, List.map_cons]

/-- One entry with the normal form of its value. -/
def normalEntry (entry : String × Json) : String × Json := (entry.1, entry.2.normal)

theorem normalEntries_eq (entries : JsonObject) :
    normalEntries entries = entries.map normalEntry := by
  induction entries with
  | nil => rfl
  | cons entry rest inductionHypothesis =>
    obtain ⟨key, value⟩ := entry
    rw [normalEntries, inductionHypothesis, List.map_cons]
    rfl

theorem Json.normal_array (items : List Json) :
    (Json.array items).normal = .array (items.map Json.normal) := by
  rw [Json.normal, normalItems_eq]

theorem Json.normal_object (entries : JsonObject) :
    (Json.object entries).normal =
      .object ((entries.map normalEntry).insertionSort byKey) := by
  rw [Json.normal, normalEntries_eq]

/-- One entry with the canonical text of its value. -/
def canonicalEntry (entry : String × Json) : String × Text := (entry.1, entry.2.canonical)

theorem canonicalItems_eq (items : List Json) :
    canonicalItems items = items.map Json.canonical := by
  induction items with
  | nil => rfl
  | cons item rest inductionHypothesis => rw [canonicalItems, inductionHypothesis, List.map_cons]

theorem canonicalEntries_eq (entries : JsonObject) :
    canonicalEntries entries = entries.map canonicalEntry := by
  induction entries with
  | nil => rfl
  | cons entry rest inductionHypothesis =>
    obtain ⟨key, value⟩ := entry
    rw [canonicalEntries, inductionHypothesis, List.map_cons]
    rfl

/-- The canonical text of a value is the text of its normal form. -/
theorem Json.canonical_eq (value : Json) : value.canonical = value.normal.dumps := by
  induction value using Json.inductionOn with
  | null => rfl
  | bool value => cases value <;> rfl
  | int value => rfl
  | float value => rfl
  | negativeZero => rfl
  | string value => rfl
  | array items inductionHypothesis =>
    have texts : items.map Json.canonical = (items.map Json.normal).map Json.dumps := by
      rw [List.map_map]
      exact List.map_congr_left inductionHypothesis
    rw [Json.normal_array, Json.canonical, Json.dumps, canonicalItems_eq, dumpsItems_eq, texts]
  | object entries inductionHypothesis =>
    have texts : entries.map canonicalEntry =
        (entries.map normalEntry).map fun entry => (entry.1, entry.2.dumps) := by
      rw [List.map_map]
      exact List.map_congr_left fun entry member =>
        Prod.ext rfl (inductionHypothesis entry member)
    -- Sorting looks at keys only, so the texts may be printed before or after it.
    have sorted := List.map_insertionSort byKey byKey
      (fun entry : String × Json => (entry.1, entry.2.dumps)) (entries.map normalEntry)
      fun _ _ _ _ => Iff.rfl
    rw [Json.normal_object, Json.canonical, Json.dumps, canonicalEntries_eq, dumpsEntries_eq, texts]
    refine congrArg (fun parts => Char.ofNat 123 :: commaSeparated parts ++ [Char.ofNat 125]) ?_
    calc ((((entries.map normalEntry).map fun entry => (entry.1, entry.2.dumps)).insertionSort
            fun first second => first.1 ≤ second.1).map
            fun entry => quoted entry.1 ++ ':' :: entry.2)
        = ((((entries.map normalEntry).insertionSort byKey).map
            fun entry => (entry.1, entry.2.dumps)).map
            fun entry => quoted entry.1 ++ ':' :: entry.2) :=
          congrArg (List.map _) sorted.symm
      _ = ((entries.map normalEntry).insertionSort byKey).map entryText := by
          rw [List.map_map]
          rfl

/-- Sorting entries changes no float. -/
theorem Json.normal_isDouble (value : Json) (double : value.everywhere Json.isDouble = true) :
    value.normal.everywhere Json.isDouble = true := by
  induction value using Json.inductionOn with
  | array items inductionHypothesis =>
    obtain ⟨-, inItems⟩ := (Json.everywhere_array _ _).mp double
    rw [Json.normal_array, Json.everywhere_array]
    refine ⟨rfl, fun normal member => ?_⟩
    obtain ⟨item, found, rfl⟩ := List.mem_map.mp member
    exact inductionHypothesis item found (inItems item found)
  | object entries inductionHypothesis =>
    obtain ⟨-, inEntries⟩ := (Json.everywhere_object _ _).mp double
    rw [Json.normal_object, Json.everywhere_object]
    refine ⟨rfl, fun normal member => ?_⟩
    obtain ⟨entry, found, rfl⟩ := List.mem_map.mp ((List.mem_insertionSort byKey).mp member)
    exact inductionHypothesis entry found (inEntries entry found)
  | _ => exact double

/-! ### Normal forms and values as such -/

theorem denoteItems_eq (items : List Json) : denoteItems items = items.map Json.denote := by
  induction items with
  | nil => rfl
  | cons item rest inductionHypothesis => rw [denoteItems, inductionHypothesis, List.map_cons]

/-- What an object with distinct keys holds under a key is the value of the entry with that key. -/
theorem denoteEntries_eq_some {entries : JsonObject} (distinct : (entries.map Prod.fst).Nodup)
    {key : String} {member : JsonValue} :
    denoteEntries entries key = some member ↔
      ∃ value, (key, value) ∈ entries ∧ value.denote = member := by
  induction entries with
  | nil => simp [denoteEntries]
  | cons entry rest inductionHypothesis =>
    obtain ⟨first, value⟩ := entry
    obtain ⟨absent, others⟩ := List.nodup_cons.mp distinct
    rw [denoteEntries]
    split
    · rename_i same
      subst same
      constructor
      · exact fun found => ⟨value, List.mem_cons_self, Option.some.inj found⟩
      · rintro ⟨other, stored, rfl⟩
        rcases List.mem_cons.mp stored with same | later
        · rw [(Prod.mk.inj same).2]
        · exact absurd (List.mem_map.mpr ⟨_, later, rfl⟩) absent
    · rename_i different
      rw [inductionHypothesis others]
      refine exists_congr fun other => and_congr_left fun _ => ?_
      rw [List.mem_cons, Prod.mk.injEq, or_iff_right fun both => different both.1.symm]

/-- Objects hold the same values when their entries stand for the same members. -/
theorem denoteEntries_congr {first second : JsonObject}
    (firstDistinct : (first.map Prod.fst).Nodup) (secondDistinct : (second.map Prod.fst).Nodup)
    (same : ∀ key member, (∃ value, (key, value) ∈ first ∧ value.denote = member) ↔
      ∃ value, (key, value) ∈ second ∧ value.denote = member) :
    denoteEntries first = denoteEntries second := by
  funext key
  refine Option.ext fun member => ?_
  rw [denoteEntries_eq_some firstDistinct, denoteEntries_eq_some secondDistinct, same]

/-- Sorting and normalizing the entries of an object keep its keys. -/
theorem normalEntry_keys (entries : JsonObject) :
    (((entries.map normalEntry).insertionSort byKey).map Prod.fst).Perm
      (entries.map Prod.fst) := by
  refine ((List.perm_insertionSort byKey _).map Prod.fst).trans (List.Perm.of_eq ?_)
  rw [List.map_map]
  rfl

/-- A normal form is the same value. -/
theorem Json.denote_normal (value : Json) (distinct : value.everywhere Json.distinctKeys = true) :
    value.normal.denote = value.denote := by
  induction value using Json.inductionOn with
  | array items inductionHypothesis =>
    obtain ⟨-, inItems⟩ := (Json.everywhere_array _ _).mp distinct
    rw [Json.normal_array, Json.denote, Json.denote, denoteItems_eq, denoteItems_eq, List.map_map]
    exact congrArg _ (List.map_congr_left fun item member =>
      inductionHypothesis item member (inItems item member))
  | object entries inductionHypothesis =>
    obtain ⟨here, inEntries⟩ := (Json.everywhere_object _ _).mp distinct
    have keys : (entries.map Prod.fst).Nodup := of_decide_eq_true here
    rw [Json.normal_object, Json.denote, Json.denote]
    refine congrArg _ (denoteEntries_congr ((normalEntry_keys entries).nodup_iff.mpr keys) keys
      fun key member => ⟨?_, ?_⟩)
    · rintro ⟨normal, stored, rfl⟩
      obtain ⟨entry, found, same⟩ := List.mem_map.mp ((List.mem_insertionSort byKey).mp stored)
      obtain ⟨rfl, rfl⟩ := Prod.mk.inj same
      exact ⟨entry.2, found, (inductionHypothesis entry found (inEntries entry found)).symm⟩
    · rintro ⟨value, stored, rfl⟩
      exact ⟨value.normal, (List.mem_insertionSort byKey).mpr (List.mem_map.mpr ⟨_, stored, rfl⟩),
        inductionHypothesis _ stored (inEntries _ stored)⟩
  | _ => rfl

instance {Value : Type} : Std.Total (@byKey Value) :=
  ⟨fun first second => String.le_total first.1 second.1⟩

instance {Value : Type} : IsTrans (String × Value) byKey :=
  ⟨fun _ _ _ => String.le_trans⟩

/-- Two lists of entries with distinct keys and the same entries have one sorted form. -/
theorem insertionSort_byKey_eq {first second : JsonObject}
    (firstDistinct : (first.map Prod.fst).Nodup) (secondDistinct : (second.map Prod.fst).Nodup)
    (same : ∀ entry, entry ∈ first ↔ entry ∈ second) :
    first.insertionSort byKey = second.insertionSort byKey := by
  refine List.Perm.eq_of_pairwise ?_ (List.pairwise_insertionSort byKey _)
    (List.pairwise_insertionSort byKey _) ?_
  · intro entry other member found before after
    refine List.inj_on_of_nodup_map secondDistinct ((same entry).mp ?_) ?_
      (String.le_antisymm before after)
    · exact (List.mem_insertionSort byKey).mp member
    · exact (List.mem_insertionSort byKey).mp found
  · refine (List.perm_insertionSort byKey _).trans (List.Perm.trans ?_
      (List.perm_insertionSort byKey _).symm)
    exact (List.perm_ext_iff_of_nodup firstDistinct.of_map secondDistinct.of_map).mpr same

/-- Lists that agree item by item under one map agree under another that the first determines. -/
theorem map_eq_of_map_eq {Value First Second : Type} {determining : Value → First}
    {determined : Value → Second} {firsts seconds : List Value}
    (determines : ∀ first ∈ firsts, ∀ second ∈ seconds,
      determining first = determining second → determined first = determined second)
    (same : firsts.map determining = seconds.map determining) :
    firsts.map determined = seconds.map determined := by
  induction firsts generalizing seconds with
  | nil =>
    cases seconds with
    | nil => rfl
    | cons second rest => nomatch same
  | cons first rest inductionHypothesis =>
    cases seconds with
    | nil => nomatch same
    | cons second others =>
      rw [List.map_cons, List.map_cons, List.cons.injEq] at same ⊢
      refine ⟨determines first List.mem_cons_self second List.mem_cons_self same.1,
        inductionHypothesis (fun item member other found => ?_) same.2⟩
      exact determines item (List.mem_cons_of_mem _ member) other (List.mem_cons_of_mem _ found)

/-- Two payloads that are the same value have one normal form. -/
theorem Json.normal_eq_of_denote (first : Json) : ∀ second : Json,
    first.everywhere Json.distinctKeys = true → second.everywhere Json.distinctKeys = true →
      first.denote = second.denote → first.normal = second.normal := by
  induction first using Json.inductionOn with
  | array items inductionHypothesis =>
    intro second distinct otherDistinct same
    cases second with
    | array others =>
      have inItems := ((Json.everywhere_array _ _).mp distinct).2
      have inOthers := ((Json.everywhere_array _ _).mp otherDistinct).2
      have members : items.map Json.denote = others.map Json.denote := by
        rw [← denoteItems_eq, ← denoteItems_eq]
        exact JsonValue.array.inj same
      rw [Json.normal_array, Json.normal_array]
      exact congrArg _ (map_eq_of_map_eq (fun item member other found =>
        inductionHypothesis item member other (inItems item member) (inOthers other found)) members)
    | _ => nomatch same
  | object entries inductionHypothesis =>
    intro second distinct otherDistinct same
    cases second with
    | object others =>
      obtain ⟨here, inEntries⟩ := (Json.everywhere_object _ _).mp distinct
      obtain ⟨there, inOthers⟩ := (Json.everywhere_object _ _).mp otherDistinct
      have keys : (entries.map Prod.fst).Nodup := of_decide_eq_true here
      have otherKeys : (others.map Prod.fst).Nodup := of_decide_eq_true there
      have members : denoteEntries entries = denoteEntries others := JsonValue.object.inj same
      have carried (entry : String × Json) (stored : entry ∈ entries) :
          normalEntry entry ∈ others.map normalEntry := by
        have found := (denoteEntries_eq_some keys).mpr ⟨entry.2, stored, rfl⟩
        rw [members, denoteEntries_eq_some otherKeys] at found
        obtain ⟨value, found, values⟩ := found
        refine List.mem_map.mpr ⟨(entry.1, value), found, Prod.ext rfl ?_⟩
        exact (inductionHypothesis entry stored value (inEntries entry stored)
          (inOthers _ found) values.symm).symm
      have broughtBack (entry : String × Json) (stored : entry ∈ others) :
          normalEntry entry ∈ entries.map normalEntry := by
        have found := (denoteEntries_eq_some otherKeys).mpr ⟨entry.2, stored, rfl⟩
        rw [← members, denoteEntries_eq_some keys] at found
        obtain ⟨value, found, values⟩ := found
        refine List.mem_map.mpr ⟨(entry.1, value), found, Prod.ext rfl ?_⟩
        exact inductionHypothesis _ found entry.2 (inEntries _ found) (inOthers entry stored) values
      rw [Json.normal_object, Json.normal_object]
      refine congrArg _ (insertionSort_byKey_eq ?_ ?_ fun normal => ⟨?_, ?_⟩)
      · rwa [List.map_map]
      · rwa [List.map_map]
      · rintro member
        obtain ⟨entry, stored, rfl⟩ := List.mem_map.mp member
        exact carried entry stored
      · rintro member
        obtain ⟨entry, stored, rfl⟩ := List.mem_map.mp member
        exact broughtBack entry stored
    | _ => nomatch same
  | _ =>
    intro second _ _ same
    cases second <;> cases same
    rfl

/-! ### `canonical_json` is canonical -/

/-- Two values whose floats are doubles have one canonical text just when they are the same. -/
theorem Json.canonical_eq_iff {first second : Json}
    (firstDouble : first.everywhere Json.isDouble = true)
    (secondDouble : second.everywhere Json.isDouble = true)
    (firstDistinct : first.everywhere Json.distinctKeys = true)
    (secondDistinct : second.everywhere Json.distinctKeys = true) :
    first.canonical = second.canonical ↔ first.denote = second.denote := by
  rw [Json.canonical_eq, Json.canonical_eq]
  constructor
  · intro same
    have normal := (Json.dumps_splits _ _ (Json.normal_isDouble _ firstDouble)
      (Json.normal_isDouble _ secondDouble)).eq (outside_nil _) same
    rw [← Json.denote_normal _ firstDistinct, normal, Json.denote_normal _ secondDistinct]
  · intro same
    rw [Json.normal_eq_of_denote _ _ firstDistinct secondDistinct same]

/-- A payload without floats, whose objects hold no key twice. -/
structure FloatFreePayload where
  entries : JsonObject
  floatFree : (Json.object entries).everywhere Json.notFloat = true
  distinct : (Json.object entries).everywhere Json.distinctKeys = true

theorem Json.isDouble_of_notFloat (value : Json) (floatFree : value.notFloat = true) :
    value.isDouble = true := by
  cases value with
  | float value => nomatch floatFree
  | _ => rfl

/-- Two payloads without floats have one canonical text just when they are the same value, in
whatever order their keys were inserted at any level. A canonical text is the text of the normal
form, which can be read in one way only, and sorting the keys at each level does not change a value.
-/
theorem canonicalJson_eq_iff (first second : FloatFreePayload) :
    canonicalJson first.entries = canonicalJson second.entries ↔
      (Json.object first.entries).denote = (Json.object second.entries).denote :=
  Json.canonical_eq_iff
    (Json.everywhere_imp Json.isDouble_of_notFloat _ first.floatFree)
    (Json.everywhere_imp Json.isDouble_of_notFloat _ second.floatFree)
    first.distinct second.distinct

/-- A payload whose nested object holds two keys, and an object in an array one more. -/
def nestedPayload : FloatFreePayload where
  entries := [("run", .object [("state", .null), ("attempts", .array [.object [("n", .int 1),
    ("ok", .bool true)]])]), ("actor", .string "worker")]
  floatFree := by decide +kernel
  distinct := by decide +kernel

/-- The same payload with the keys of every object inserted the other way round. -/
def reinsertedPayload : FloatFreePayload where
  entries := [("actor", .string "worker"), ("run", .object [("attempts", .array [.object
    [("ok", .bool true), ("n", .int 1)]]), ("state", .null)])]
  floatFree := by decide +kernel
  distinct := by decide +kernel

/-- The same payload but for one value two levels down. -/
def retriedPayload : FloatFreePayload where
  entries := [("actor", .string "worker"), ("run", .object [("attempts", .array [.object
    [("ok", .bool true), ("n", .int 2)]]), ("state", .null)])]
  floatFree := by decide +kernel
  distinct := by decide +kernel

/-- The order of the keys does not show at any of the three levels, the value below does. -/
theorem canonicalJson_eq_nested :
    canonicalJson nestedPayload.entries = canonicalJson reinsertedPayload.entries ∧
      canonicalJson nestedPayload.entries ≠ canonicalJson retriedPayload.entries := by
  constructor
  · refine (canonicalJson_eq_iff nestedPayload reinsertedPayload).mpr ?_
    -- The two values are the same because they have one normal form.
    rw [← Json.denote_normal _ nestedPayload.distinct,
      ← Json.denote_normal _ reinsertedPayload.distinct]
    exact congrArg Json.denote (by decide +kernel)
  · intro same
    have values := (canonicalJson_eq_iff nestedPayload retriedPayload).mp same
    have runs : JsonValue.object _ = JsonValue.object _ :=
      Option.some.inj (congrFun (JsonValue.object.inj values) "run")
    have attempts : JsonValue.array [.object _] = JsonValue.array [.object _] :=
      Option.some.inj (congrFun (JsonValue.object.inj runs) "attempts")
    have counted := (List.cons.inj (JsonValue.array.inj attempts)).1
    have counts : (1 : Int) = 2 :=
      JsonValue.int.inj (Option.some.inj (congrFun (JsonValue.object.inj counted) "n"))
    exact absurd counts (by decide)

end InsuranceOps
