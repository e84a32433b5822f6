/-
This file models the redaction of log records. The processor replaces the values
stored under sensitive names at the top of an event dict and does not look into
the values it leaves. So a record reveals nothing just when none of the dicts
among these values has a sensitive name.
-/

import Mathlib.Data.List.Forall2
import Mathlib.Logic.Nontrivial.Basic

namespace InsuranceOps

/-! ### Event dicts -/

/-- A key of a dict: a name, or an object that is no string. -/
inductive LogKey (Object : Type) where
  | name (text : String)
  | other (object : Object)

/-- A value in an event dict: a dict, whose values may be any objects, a string, or another
object. -/
inductive LogValue (Object : Type) where
  | dict (entries : List (LogKey Object × Object))
  | string (text : String)
  | other (object : Object)

/-- An event dict, its entries in the order of insertion. -/
abbrev EventDict (Object : Type) := List (String × LogValue Object)

def redactedFields : List String := ["ssn", "social_security", "dob", "date_of_birth",
  "policy_number", "phone", "email", "address"]

/-- Whether `key.lower()` is one of the redacted fields. No other character than an ASCII letter has
one of the letters of these names as its lower case. -/
def isRedactedField (key : String) : Bool := key.map Char.toLower ∈ redactedFields

example : ["Policy_Number", "EMAIL", "e-mail"].map isRedactedField = [true, true, false] := by
  decide +kernel

variable {Object : Type}

def redactedValue : LogValue Object := .string "[REDACTED]"

/-- Structlog processor that replaces the values of sensitive fields. -/
def redactSensitiveFields (event : EventDict Object) : EventDict Object :=
  event.map fun entry => if isRedactedField entry.1 then (entry.1, redactedValue) else entry

/-! ### What may be seen -/

/-- Whether a key of a nested dict is a sensitive name. -/
def LogKey.isRedacted : LogKey Object → Bool
  | .name text => isRedactedField text
  | .other _ => false

/-- Two values that differ only in what a dict stores under sensitive names. -/
def LogValue.SameBelow : LogValue Object → LogValue Object → Prop
  | .dict first, .dict second => List.Forall₂
      (fun entry other => entry.1 = other.1 ∧ (entry.1.isRedacted = true ∨ entry.2 = other.2))
      first second
  | .string first, .string second => first = second
  | .other first, .other second => first = second
  | _, _ => False

/-- Two event dicts that differ only in values stored under sensitive names, at the top or in a dict
value one level below it. -/
def SameButSensitive (first second : EventDict Object) : Prop :=
  List.Forall₂ (fun entry other => entry.1 = other.1 ∧
    (isRedactedField entry.1 = true ∨ entry.2.SameBelow other.2)) first second

/-- Redaction of an event dict reveals nothing: it does not tell dicts apart that differ only in
sensitive values, and it leaves every other entry as it is. -/
def Noninterferent (event : EventDict Object) : Prop :=
  (∀ other, SameButSensitive event other →
    redactSensitiveFields event = redactSensitiveFields other) ∧
  List.Forall₂ (fun entry shown => isRedactedField entry.1 = true ∨ shown = entry) event
    (redactSensitiveFields event)

/-- No dict that is stored under another name than a sensitive one has a sensitive name. -/
def NothingNested (event : EventDict Object) : Prop :=
  ∀ entry ∈ event, isRedactedField entry.1 = false →
    ∀ entries, entry.2 = .dict entries → ∀ nested ∈ entries, nested.1.isRedacted = false

/-! ### When nothing is revealed -/

theorem LogValue.sameBelow_refl (value : LogValue Object) : value.SameBelow value := by
  cases value with
  | dict entries => exact List.forall₂_same.mpr fun entry _ => ⟨rfl, .inr rfl⟩
  | string text => exact rfl
  | other object => exact rfl

theorem sameButSensitive_refl (event : EventDict Object) : SameButSensitive event event :=
  List.forall₂_same.mpr fun entry _ => ⟨rfl, .inr entry.2.sameBelow_refl⟩

/-- A value without sensitive names differs from no other one in them alone. -/
theorem LogValue.eq_of_sameBelow {value other : LogValue Object}
    (plain : ∀ entries, value = .dict entries → ∀ nested ∈ entries, nested.1.isRedacted = false)
    (same : value.SameBelow other) : value = other := by
  cases value with
  | dict entries =>
    cases other with
    | dict others =>
      have equal := plain entries rfl
      refine congrArg LogValue.dict ?_
      have pairs : List.Forall₂ Eq entries others := by
        refine List.Forall₂.imp ?_ ((List.forall₂_and_left _ _).mpr ⟨equal, same⟩)
        rintro entry nested ⟨unredacted, key, sensitive | stored⟩
        · rw [unredacted] at sensitive
          cases sensitive
        · exact Prod.ext key stored
      rwa [List.forall₂_eq_eq_eq] at pairs
    | string text => cases same
    | other object => cases same
  | string text =>
    cases other with
    | string => exact congrArg LogValue.string same
    | dict entries => cases same
    | other object => cases same
  | other object =>
    cases other with
    | other => exact congrArg LogValue.other same
    | dict entries => cases same
    | string text => cases same

/-- Entries under other names than sensitive ones stay as they are. -/
theorem redact_leaves (event : EventDict Object) : List.Forall₂
    (fun entry shown => isRedactedField entry.1 = true ∨ shown = entry) event
    (redactSensitiveFields event) := by
  unfold redactSensitiveFields
  rw [List.forall₂_map_right_iff, List.forall₂_same]
  intro entry _
  split
  · exact .inl ‹_›
  · exact .inr rfl

/-- Dicts that differ only in sensitive values at the top become the same. -/
theorem redact_eq_of_nothingNested {event other : EventDict Object} (plain : NothingNested event)
    (same : SameButSensitive event other) :
    redactSensitiveFields event = redactSensitiveFields other := by
  unfold redactSensitiveFields
  rw [← List.forall₂_eq_eq_eq, List.forall₂_map_left_iff, List.forall₂_map_right_iff]
  refine List.Forall₂.imp ?_ ((List.forall₂_and_left _ _).mpr ⟨plain, same⟩)
  rintro entry shown ⟨unnested, key, stored⟩
  rw [← key]
  split
  · rfl
  · rename_i plainName
    refine Prod.ext key (LogValue.eq_of_sameBelow (unnested ?_) (stored.resolve_left plainName))
    exact Bool.eq_false_iff.mpr plainName

/-- A dict in which one sensitive value is another one. -/
theorem sameBelow_replaced (before after : List (LogKey Object × Object)) {key : LogKey Object}
    (sensitive : key.isRedacted = true) (value other : Object) :
    (LogValue.dict (before ++ (key, value) :: after)).SameBelow
      (.dict (before ++ (key, other) :: after)) := by
  have unchanged (entries : List (LogKey Object × Object)) : List.Forall₂
      (fun entry other => entry.1 = other.1 ∧ (entry.1.isRedacted = true ∨ entry.2 = other.2))
      entries entries := List.forall₂_same.mpr fun entry _ => ⟨rfl, .inr rfl⟩
  exact List.rel_append (unchanged before) (.cons ⟨rfl, .inl sensitive⟩ (unchanged after))

variable [Nontrivial Object]

/-- Redaction reveals nothing of an event dict exactly when no dict in it that is shown has a
sensitive name. A nested secret can be replaced by another one, which shows; without any, replacing
the sensitive values changes nothing that is shown. -/
theorem noninterferent_iff (event : EventDict Object) :
    Noninterferent event ↔ NothingNested event := by
  constructor
  · rintro ⟨hidden, -⟩ entry member shown entries stored nested below
    by_contra sensitive
    rw [Bool.not_eq_false] at sensitive
    obtain ⟨before, after, rfl⟩ := List.append_of_mem member
    obtain ⟨former, latter, rfl⟩ := List.append_of_mem below
    obtain ⟨name, value⟩ := entry
    obtain ⟨key, secret⟩ := nested
    cases stored
    -- The event with another secret is told apart by the entry itself.
    obtain ⟨other, different⟩ := exists_ne secret
    have same : SameButSensitive
        (before ++ (name, .dict (former ++ (key, secret) :: latter)) :: after)
        (before ++ (name, .dict (former ++ (key, other) :: latter)) :: after) :=
      List.rel_append (sameButSensitive_refl before)
        (.cons ⟨rfl, .inr (sameBelow_replaced former latter sensitive secret other)⟩
          (sameButSensitive_refl after))
    have equal := hidden _ same
    simp only [redactSensitiveFields, List.map_append, List.map_cons, List.append_cancel_left_eq,
      List.cons.injEq, and_true, shown, Bool.false_eq_true, if_false, Prod.mk.injEq, true_and,
      LogValue.dict.injEq] at equal
    exact different equal.symm
  · exact fun plain => ⟨fun _ => redact_eq_of_nothingNested plain, redact_leaves event⟩

/-- A record whose sensitive value stands at the top reveals nothing. -/
theorem noninterferent_sample : Noninterferent
    [("event", .other "task_failed"), ("email", .other "jane@example.com"),
      ("payload", .dict [(.name "task_id", "7")])] := by
  have : Nontrivial String := ⟨"", "7", by decide⟩
  refine (noninterferent_iff _).mpr fun entry member _ entries stored nested below => ?_
  simp only [List.mem_cons, List.not_mem_nil, or_false] at member
  rcases member with rfl | rfl | rfl
  · cases stored
  · cases stored
  · cases stored
    rw [List.mem_singleton.mp below]
    decide +kernel

/-- A record of a whole payload reveals the number in it. -/
theorem nested_number_shown : ¬Noninterferent
    [("event", .other "task_failed"), ("payload", .dict [(.name "ssn", "078-05-1120")])] := by
  rintro ⟨hidden, -⟩
  have sensitive : (LogKey.name "ssn" : LogKey String).isRedacted = true := by decide +kernel
  have same : SameButSensitive
      [("event", .other "task_failed"), ("payload", .dict [(.name "ssn", "078-05-1120")])]
      [("event", .other "task_failed"), ("payload", .dict [(.name "ssn", "219-09-9999")])] :=
    .cons ⟨rfl, .inr rfl⟩
      (.cons ⟨rfl, .inr (sameBelow_replaced [] [] sensitive _ _)⟩ .nil)
  have shown : isRedactedField "payload" = false := by decide +kernel
  have equal := hidden _ same
  simp only [redactSensitiveFields, List.map_cons, List.map_nil, shown, Bool.false_eq_true,
    if_false, List.cons.injEq, Prod.mk.injEq, LogValue.dict.injEq, and_true, true_and] at equal
  exact absurd equal (by decide)

end InsuranceOps
