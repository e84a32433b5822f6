/-
This file models actors and their strings. A string is split at its first two
colons only, so an identifier may hold colons and a subkind may not, and the
anonymous actor is printed without its other parts. Which actors are read back
from their strings, and which strings are printed back as they were accepted,
follows from these two.
-/

import InsuranceOps.Json
import InsuranceOps.Library.Splitting

namespace InsuranceOps

/-- `CANONICAL_KINDS`. -/
def canonicalKinds : List Text :=
  ["worker".toList, "api".toList, "user".toList, "api_key".toList, "anonymous".toList]

/-- `Actor`: only a canonical kind is accepted, and only the anonymous actor may go without a
subkind. -/
structure Actor where
  kind : Text
  subkind : Text
  id : Option Text
  canonical : kind ∈ canonicalKinds
  named : subkind = [] → kind = "anonymous".toList
deriving DecidableEq

/-- The `ValueError`s of actors, with the values in their messages. -/
inductive ActorError
  | invalidKind (kind : Text)
  | missingSubkind (kind : Text)
  | invalidFormat (raw : Text)
deriving DecidableEq

namespace Actor

/-- Kinds are looked up in lists by their equality. -/
local instance kindEquality : LawfulBEq Text := inferInstance

/-- `Actor(kind, subkind, id)` with the checks of `__post_init__`. -/
def make (kind subkind : Text) (id : Option Text) : Except ActorError Actor :=
  if canonical : kind ∈ canonicalKinds then
    if named : subkind = [] → kind = "anonymous".toList then
      .ok ⟨kind, subkind, id, canonical, named⟩
    else .error (.missingSubkind kind)
  else .error (.invalidKind kind)

/-- `str(actor)`. -/
def str (actor : Actor) : Text :=
  if actor.kind = "anonymous".toList then "anonymous".toList
  else match actor.id with
    | some id => actor.kind ++ ':' :: (actor.subkind ++ ':' :: id)
    | none => actor.kind ++ ':' :: actor.subkind

/-- `Actor.parse`. -/
def parse (raw : Text) : Except ActorError Actor :=
  if raw = "anonymous".toList then make "anonymous".toList [] none
  else match Splitting.split ':' 2 raw with
    | [kind, subkind] => make kind subkind none
    | [kind, subkind, id] => make kind subkind (some id)
    | _ => .error (.invalidFormat raw)

/-! ### Parsing by parts -/

theorem make_eq_ok {kind subkind : Text} {id : Option Text} {actor : Actor} :
    make kind subkind id = .ok actor ↔
      actor.kind = kind ∧ actor.subkind = subkind ∧ actor.id = id := by
  constructor
  · intro made
    unfold make at made
    split at made
    · split at made
      · injection made with same
        subst same
        exact ⟨rfl, rfl, rfl⟩
      · cases made
    · cases made
  · rintro ⟨rfl, rfl, rfl⟩
    rw [make, dif_pos actor.canonical, dif_pos actor.named]

theorem canonical_plain : ∀ kind ∈ canonicalKinds, ':' ∉ kind := by decide

/-- A text with a colon is not the literal `anonymous`. -/
theorem parse_split (kind rest : Text) :
    parse (kind ++ ':' :: rest) = match Splitting.split ':' 2 (kind ++ ':' :: rest) with
      | [kind, subkind] => make kind subkind none
      | [kind, subkind, id] => make kind subkind (some id)
      | _ => .error (.invalidFormat (kind ++ ':' :: rest)) := by
  refine if_neg fun same => ?_
  have member : ':' ∈ "anonymous".toList := same ▸ List.mem_append_cons_self
  exact absurd member (by decide)

theorem parse_pair {kind subkind : Text} (plain : ':' ∉ kind) (single : ':' ∉ subkind) :
    parse (kind ++ ':' :: subkind) = make kind subkind none := by
  rw [parse_split, Splitting.split_append plain, Splitting.split_of_not_mem single]

theorem parse_triple {kind subkind : Text} (plain : ':' ∉ kind) (single : ':' ∉ subkind)
    (id : Text) :
    parse (kind ++ ':' :: (subkind ++ ':' :: id)) = make kind subkind (some id) := by
  rw [parse_split, Splitting.split_append plain, Splitting.split_append single,
    Splitting.split]

/-- What an accepted string is made of. -/
theorem of_parse {raw : Text} {actor : Actor} (parsed : parse raw = .ok actor) :
    (raw = "anonymous".toList ∧ actor.kind = "anonymous".toList) ∨
      ':' ∉ actor.kind ∧ (actor.id = none ∧ raw = actor.kind ++ ':' :: actor.subkind ∨
        ∃ id, actor.id = some id ∧ raw = actor.kind ++ ':' :: (actor.subkind ++ ':' :: id)) := by
  by_cases literal : raw = "anonymous".toList
  · rw [parse, if_pos literal] at parsed
    exact .inl ⟨literal, (make_eq_ok.mp parsed).1⟩
  · right
    rcases Splitting.exists_split ':' raw with absent | ⟨kind, rest, plain, rfl⟩
    · rw [parse, if_neg literal, Splitting.split_of_not_mem absent] at parsed
      cases parsed
    rcases Splitting.exists_split ':' rest with single | ⟨subkind, id, single, rfl⟩
    · rw [parse_pair plain single] at parsed
      obtain ⟨rfl, rfl, none⟩ := make_eq_ok.mp parsed
      exact ⟨plain, .inl ⟨none, rfl⟩⟩
    · rw [parse_triple plain single] at parsed
      obtain ⟨rfl, rfl, some⟩ := make_eq_ok.mp parsed
      exact ⟨plain, .inr ⟨id, some, rfl⟩⟩

/-! ### Round trips -/

/-- The anonymous actor as `parse` makes it. -/
def IsAnonymous (actor : Actor) : Prop :=
  actor.kind = "anonymous".toList ∧ actor.subkind = [] ∧ actor.id = none

theorem parse_str_anonymous {actor : Actor} (anonymous : actor.kind = "anonymous".toList) :
    parse actor.str = .ok actor ↔ actor.IsAnonymous := by
  rw [str, if_pos anonymous, parse, if_pos rfl, make_eq_ok, IsAnonymous]

theorem str_none {actor : Actor} (named : actor.kind ≠ "anonymous".toList)
    (none : actor.id = none) : actor.str = actor.kind ++ ':' :: actor.subkind := by
  rw [str, if_neg named, none]

theorem str_some {actor : Actor} (named : actor.kind ≠ "anonymous".toList) {id : Text}
    (some : actor.id = some id) :
    actor.str = actor.kind ++ ':' :: (actor.subkind ++ ':' :: id) := by
  rw [str, if_neg named, some]

/-- A colon in the subkind ends the subkind that is read. -/
theorem parse_str_lead {actor : Actor} (named : actor.kind ≠ "anonymous".toList)
    {lead tail : Text} (single : ':' ∉ lead) (parts : actor.subkind = lead ++ ':' :: tail) :
    ∃ id, parse actor.str = make actor.kind lead (some id) := by
  have plain := canonical_plain _ actor.canonical
  cases id : actor.id with
  | none =>
    rw [str_none named id, parts]
    exact ⟨tail, parse_triple plain single tail⟩
  | some id' =>
    rw [str_some named id, parts, List.append_assoc, List.cons_append]
    exact ⟨_, parse_triple plain single _⟩

theorem parse_str_named {actor : Actor} (named : actor.kind ≠ "anonymous".toList) :
    parse actor.str = .ok actor ↔ ':' ∉ actor.subkind := by
  have plain := canonical_plain _ actor.canonical
  rcases Splitting.exists_split ':' actor.subkind with
    single | ⟨lead, tail, single, parts⟩
  · refine iff_of_true ?_ single
    cases id : actor.id with
    | none =>
      rw [str_none named id, parse_pair plain single]
      exact make_eq_ok.mpr ⟨rfl, rfl, id⟩
    | some id' =>
      rw [str_some named id, parse_triple plain single]
      exact make_eq_ok.mpr ⟨rfl, rfl, id⟩
  · refine iff_of_false (fun parsed => ?_) fun absent => absent (parts ▸ List.mem_append_cons_self)
    obtain ⟨id, read⟩ := parse_str_lead named single parts
    have shorter : actor.subkind = lead := (make_eq_ok.mp (read.symm.trans parsed)).2.1
    have longer := congrArg List.length (shorter.symm.trans parts)
    rw [List.length_append, List.length_cons] at longer
    omega

/-- The part of a string before its first colon. -/
def kindPart (raw : Text) : Text := raw.takeWhile (· ≠ ':')

theorem kindPart_append {kind : Text} (plain : ':' ∉ kind) (rest : Text) :
    kindPart (kind ++ ':' :: rest) = kind := by
  have apart : ∀ char ∈ kind, decide (char ≠ ':') = true :=
    fun char member => decide_eq_true fun same => plain (same ▸ member)
  rw [kindPart, List.takeWhile_append_of_pos apart, List.takeWhile_cons_of_neg (by decide),
    List.append_nil]

/-- Only strings of the anonymous actor that say more than `anonymous` are shortened. -/
theorem str_parse {raw : Text} {actor : Actor} (parsed : parse raw = .ok actor) :
    actor.str = raw ↔ kindPart raw = "anonymous".toList → raw = "anonymous".toList := by
  rcases of_parse parsed with ⟨rfl, anonymous⟩ | ⟨plain, shape⟩
  · exact iff_of_true (if_pos anonymous) fun _ => rfl
  have kind : kindPart raw = actor.kind := by
    rcases shape with ⟨-, rfl⟩ | ⟨id, -, rfl⟩ <;> exact kindPart_append plain _
  rw [kind]
  by_cases anonymous : actor.kind = "anonymous".toList
  · rw [str, if_pos anonymous]
    exact ⟨fun same _ => same.symm, fun literal => (literal anonymous).symm⟩
  · refine iff_of_true ?_ fun same => absurd same anonymous
    rcases shape with ⟨none, whole⟩ | ⟨id, some, whole⟩
    · rw [str_none anonymous none, whole]
    · rw [str_some anonymous some, whole]

/-- **Round trips of actors.** An actor is read back from its string if it is the plain anonymous
one, or another one whose subkind has no colon; an accepted string is printed back unless it says
more than `anonymous` about the anonymous actor, and that actor is always printed as the literal.
Parsing splits at the first two colons, and printing puts none there but these unless the subkind
has one. -/
theorem round_trips :
    (∀ actor : Actor, parse actor.str = .ok actor ↔
      actor.IsAnonymous ∨ actor.kind ≠ "anonymous".toList ∧ ':' ∉ actor.subkind) ∧
    (∀ raw actor, parse raw = .ok actor → (actor.str = raw ↔
      kindPart raw = "anonymous".toList → raw = "anonymous".toList)) ∧
    ∀ actor : Actor, actor.kind = "anonymous".toList → actor.str = "anonymous".toList := by
  refine ⟨fun actor => ?_, fun raw actor => str_parse,
    fun actor anonymous => if_pos anonymous⟩
  by_cases anonymous : actor.kind = "anonymous".toList
  · rw [parse_str_anonymous anonymous]
    exact ⟨.inl, fun either => either.resolve_right fun named => named.1 anonymous⟩
  · rw [parse_str_named anonymous]
    exact ⟨fun single => .inr ⟨anonymous, single⟩,
      fun either => (either.resolve_left fun plain => anonymous plain.1).2⟩

/-- A user whose subkind has a colon. -/
def colonUser : Actor where
  kind := "user".toList
  subkind := "a:b".toList
  id := none
  canonical := by decide
  named := by decide

/-- The colon of the subkind is read as the one before the identifier, and what follows
`anonymous` is not printed. -/
theorem colon_reread :
    (parse colonUser.str).map (fun actor => (actor.subkind, actor.id)) =
      .ok ("a".toList, some "b".toList) ∧
    parse colonUser.str ≠ .ok colonUser ∧
    (parse "anonymous:x".toList).map str = .ok "anonymous".toList := by
  decide

end Actor

end InsuranceOps
