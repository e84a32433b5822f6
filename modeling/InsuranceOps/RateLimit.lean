/-
This file models the rate limiter: a counter in Redis for each prefix of an API
key's identifier and each window, incremented by one command and given its
expiry by a second one, with the calls of all keys interleaved command by
command. The key of a counter holds twelve characters of the identifier. So two
API keys have budgets of their own just when their identifiers differ in these
characters.
-/

import InsuranceOps.Identifier
import InsuranceOps.Library.Noninterference
import Mathlib.Logic.Function.Basic

namespace InsuranceOps

open Noninterference

/-! ### Calls -/

/-- One call of `check_rate_limit`: the key it is made for, the window, the limit, and
`int(time.time())`. -/
structure RateCall where
  apiKeyId : UUID
  windowSeconds : Int
  maxRequests : Int
  now : Int

/-- What a call returns or raises: `(True, 0)`, `(False, retry_after)`, or the `ZeroDivisionError`
of a window of no seconds. -/
inductive RateAnswer where
  | allowed
  | denied (retryAfter : Int)
  | raised
  deriving DecidableEq

/-- `api_key_id[:12]`. -/
def keyPrefix (apiKeyId : UUID) : Text := apiKeyId.text.take 12

namespace RateCall

variable (call : RateCall)

/-- The start of the window the call falls in. -/
def windowStart : Int := call.now - call.now.fmod call.windowSeconds

/-- The key of the counter. -/
def key : Text :=
  "rate:api_key:".toList ++ keyPrefix call.apiKeyId ++ ':' :: (toString call.windowStart).toList

/-- The answer to the call that counted so many requests. -/
def answer (count : Nat) : RateAnswer :=
  if call.maxRequests < count then
    .denied (max (call.windowSeconds - (call.now - call.windowStart)) 1)
  else .allowed

end RateCall

/-! ### Commands -/

/-- A counter, and when it expires by the clock of the server. -/
structure Counter where
  count : Nat
  expiresAt : Option ℚ

/-- The counters, and the calls that have to set the expiry of the counter they began. -/
structure RateState where
  counters : Text → Option Counter
  expiring : Nat → Bool

/-- No counter exists and no call is under way. -/
def RateState.fresh : RateState := ⟨fun _ => none, fun _ => false⟩

/-- The command a call sends: `INCR`, and `EXPIRE` when it began the counter. -/
inductive RateCommand where
  | incr
  | expire
  deriving DecidableEq

/-- A command of one of the calls at a time of the server. -/
structure RateAction where
  call : Nat
  command : RateCommand
  time : ℚ

/-- The counter at a key, unless it has expired. -/
def RateState.live (state : RateState) (key : Text) (time : ℚ) : Option Counter :=
  (state.counters key).filter fun counter => counter.expiresAt.all (time < ·)

section Steps

variable (calls : Nat → RateCall) (rejects : ℚ → Int → Bool)

/-- `INCR`: a missing counter starts from nothing, a counter keeps its expiry. -/
def incr (state : RateState) (index : Nat) (time : ℚ) : RateState × Option (Nat × RateAnswer) :=
  let call := calls index
  if call.windowSeconds = 0 then (state, some (index, .raised))
  else
    let counter := match state.live call.key time with
      | some counter => { counter with count := counter.count + 1 }
      | none => ⟨1, none⟩
    ({ counters := Function.update state.counters call.key (some counter)
       expiring := Function.update state.expiring index (counter.count = 1) },
      if counter.count = 1 then none else some (index, call.answer counter.count))

/-- `EXPIRE` with one second more than the window: a time that is over removes the counter. A
rejected command raises, and the request is let through. -/
def expire (state : RateState) (index : Nat) (time : ℚ) : RateState × Option (Nat × RateAnswer) :=
  let call := calls index
  let ttl := call.windowSeconds + 1
  if !state.expiring index then (state, none)
  else if rejects time ttl then
    ({ state with expiring := Function.update state.expiring index false },
      some (index, .allowed))
  else
    let counter := (state.live call.key time).bind fun counter =>
      if 0 < ttl then some { counter with expiresAt := some (time + ttl) } else none
    ({ counters := Function.update state.counters call.key counter
       expiring := Function.update state.expiring index false },
      some (index, call.answer 1))

/-- One command of one call. -/
def rateStep (state : RateState) (action : RateAction) : RateState × Option (Nat × RateAnswer) :=
  match action.command with
  | .incr => incr calls state action.call action.time
  | .expire => expire calls rejects state action.call action.time

/-- The answers the calls of one API key get. -/
def answersOf (apiKeyId : UUID) (history : List RateAction) : List (Nat × RateAnswer) :=
  answers (rateStep calls rejects) (fun action => (calls action.call).apiKeyId = apiKeyId)
    .fresh history

/-- The history with all calls of one API key removed. -/
def without (apiKeyId : UUID) (history : List RateAction) : List RateAction :=
  history.filter fun action => !decide ((calls action.call).apiKeyId = apiKeyId)

end Steps

/-! ### Keys of counters -/

theorem UUID.text_length (id : UUID) : id.text.length = 36 := by
  have digits : id.hex.length = 32 := by
    rw [UUID.hex, List.length_map, Positional.digits_length]
  simp only [UUID.text, List.length_append, List.length_cons, List.length_take, List.length_drop,
    digits]
  decide

theorem keyPrefix_length (apiKeyId : UUID) : (keyPrefix apiKeyId).length = 12 := by
  have long : 12 ≤ apiKeyId.text.length := by
    rw [UUID.text_length]
    decide
  exact List.length_take_of_le long

/-- Calls that share a counter share the prefix of their identifiers. -/
theorem keyPrefix_eq_of_key {first second : RateCall} (same : first.key = second.key) :
    keyPrefix first.apiKeyId = keyPrefix second.apiKeyId := by
  unfold RateCall.key at same
  rw [List.append_assoc, List.append_assoc] at same
  exact List.append_inj_left (List.append_cancel_left same)
    (by rw [keyPrefix_length, keyPrefix_length])

/-! ### What one command reads and writes -/

section Frame

variable {calls : Nat → RateCall} {rejects : ℚ → Int → Bool}

/-- A command writes no counter but its call's. -/
theorem rateStep_counters_of_ne (state : RateState) (action : RateAction) {key : Text}
    (other : key ≠ (calls action.call).key) :
    (rateStep calls rejects state action).1.counters key = state.counters key := by
  unfold rateStep
  split
  · unfold incr
    simp only []
    split
    · rfl
    · exact Function.update_of_ne other _ _
  · unfold expire
    simp only []
    split
    · rfl
    · split
      · rfl
      · exact Function.update_of_ne other _ _

/-- A command says nothing about the other calls under way. -/
theorem rateStep_expiring_of_ne (state : RateState) (action : RateAction) {index : Nat}
    (other : index ≠ action.call) :
    (rateStep calls rejects state action).1.expiring index = state.expiring index := by
  unfold rateStep
  split
  · unfold incr
    simp only []
    split
    · rfl
    · exact Function.update_of_ne other _ _
  · unfold expire
    simp only []
    split
    · rfl
    · split <;> exact Function.update_of_ne other _ _

variable (rejects)

/-- A command reads its call's counter and whether its call has begun it, and nothing else. -/
theorem rateStep_congr {first second : RateState} (action : RateAction)
    (counters : first.counters (calls action.call).key = second.counters (calls action.call).key)
    (expiring : first.expiring action.call = second.expiring action.call) :
    (rateStep calls rejects first action).2 = (rateStep calls rejects second action).2 ∧
      (rateStep calls rejects first action).1.counters (calls action.call).key =
        (rateStep calls rejects second action).1.counters (calls action.call).key ∧
      (rateStep calls rejects first action).1.expiring action.call =
        (rateStep calls rejects second action).1.expiring action.call := by
  have live : first.live (calls action.call).key action.time =
      second.live (calls action.call).key action.time := by
    unfold RateState.live
    rw [counters]
  unfold rateStep
  split
  · unfold incr
    simp only [live]
    split
    · exact ⟨rfl, counters, expiring⟩
    · exact ⟨rfl, by simp only [Function.update_self], by simp only [Function.update_self]⟩
  · unfold expire
    simp only [live, expiring]
    split
    · exact ⟨rfl, counters, expiring⟩
    · split
      · exact ⟨rfl, counters, by simp only [Function.update_self]⟩
      · exact ⟨rfl, by simp only [Function.update_self], by simp only [Function.update_self]⟩

end Frame

section First

variable (calls : Nat → RateCall) (state : RateState) (index : Nat) (time : ℚ)

/-- A call that finds no counter begins one, and answers after it set the expiry. -/
theorem incr_begins (window : (calls index).windowSeconds ≠ 0)
    (absent : state.live (calls index).key time = none) :
    incr calls state index time =
      (⟨Function.update state.counters (calls index).key (some ⟨1, none⟩),
        Function.update state.expiring index true⟩, none) := by
  unfold incr
  simp only [if_neg window, absent, decide_true, if_true]

/-- A call that finds a counter answers by it. -/
theorem incr_counts (window : (calls index).windowSeconds ≠ 0) {counter : Counter}
    (found : state.live (calls index).key time = some counter) (some : counter.count ≠ 0) :
    (incr calls state index time).2 = .some (index, (calls index).answer (counter.count + 1)) := by
  unfold incr
  simp only [if_neg window, found, Nat.add_eq_right, if_neg some]

end First

/-! ### Budgets -/

/-- Two states agree on the counters of a prefix and on the calls that share it. -/
structure SameBudget (calls : Nat → RateCall) (shared : Text) (first second : RateState) :
    Prop where
  counters : ∀ call : RateCall, keyPrefix call.apiKeyId = shared →
    first.counters call.key = second.counters call.key
  expiring : ∀ index, keyPrefix (calls index).apiKeyId = shared →
    first.expiring index = second.expiring index

section Budgets

variable {calls : Nat → RateCall} {rejects : ℚ → Int → Bool} {shared : Text}

/-- A call with another prefix changes nothing the budget is made of. -/
theorem SameBudget.hides {first second : RateState} {action : RateAction}
    (other : keyPrefix (calls action.call).apiKeyId ≠ shared)
    (same : SameBudget calls shared first second) :
    SameBudget calls shared (rateStep calls rejects first action).1 second where
  counters call within := by
    refine (rateStep_counters_of_ne first action fun equal => other ?_).trans
      (same.counters call within)
    rw [← keyPrefix_eq_of_key equal, within]
  expiring index within := by
    refine (rateStep_expiring_of_ne first action ?_).trans (same.expiring index within)
    rintro rfl
    exact other within

/-- A call acts alike on states that agree on the budget. -/
theorem SameBudget.keeps {first second : RateState} (action : RateAction)
    (same : SameBudget calls shared first second) :
    SameBudget calls shared (rateStep calls rejects first action).1
      (rateStep calls rejects second action).1 := by
  by_cases within : keyPrefix (calls action.call).apiKeyId = shared
  · obtain ⟨-, counters, expiring⟩ := rateStep_congr rejects action
      (same.counters _ within) (same.expiring _ within)
    constructor
    · intro call shares
      by_cases equal : call.key = (calls action.call).key
      · rw [equal, counters]
      · rw [rateStep_counters_of_ne first action equal, rateStep_counters_of_ne second action equal,
          same.counters call shares]
    · intro index shares
      by_cases equal : index = action.call
      · rw [equal, expiring]
      · rw [rateStep_expiring_of_ne first action equal, rateStep_expiring_of_ne second action equal,
          same.expiring index shares]
  · have symmetric {left right : RateState} (agree : SameBudget calls shared left right) :
        SameBudget calls shared right left :=
      ⟨fun call shares => (agree.counters call shares).symm,
        fun index shares => (agree.expiring index shares).symm⟩
    exact (symmetric ((symmetric (same.hides within)).hides within))

/-- Calls with another prefix cannot be seen. -/
theorem budget_unwinding {first second : UUID} (different : keyPrefix first ≠ keyPrefix second) :
    Unwinding (rateStep calls rejects) (fun action => (calls action.call).apiKeyId = first)
      (fun action => (calls action.call).apiKeyId = second)
      (SameBudget calls (keyPrefix first)) where
  visible action seen := by
    have owner : (calls action.call).apiKeyId = first := of_decide_eq_true seen
    refine decide_eq_false ?_
    rw [owner]
    rintro rfl
    exact different rfl
  hides _ _ action secret same := by
    have owner : (calls action.call).apiKeyId = second := of_decide_eq_true secret
    exact same.hides (by rw [owner]; exact different.symm)
  keeps _ _ action _ same := same.keeps action
  agrees _ _ action seen same := by
    have owner : (calls action.call).apiKeyId = first := of_decide_eq_true seen
    exact (rateStep_congr _ action (same.counters _ (by rw [owner]))
      (same.expiring _ (by rw [owner]))).1

end Budgets

/-- A call of the second key and then one of the first, in one window with room for one request. -/
def sharedWindow (first second : UUID) (index : Nat) : RateCall where
  apiKeyId := if index = 0 then second else first
  windowSeconds := 60
  maxRequests := 1
  now := 0

/-- Each call counts, and then the second one sets the expiry of the counter if it began it. -/
def sharedHistory : List RateAction := [⟨0, .incr, 0⟩, ⟨1, .incr, 0⟩, ⟨1, .expire, 0⟩]

theorem sharedWindow_key {first second : UUID} (same : keyPrefix first = keyPrefix second)
    (index : Nat) : (sharedWindow first second index).key = (sharedWindow first second 0).key := by
  unfold RateCall.key sharedWindow
  split
  · rfl
  · simp only [same]
    rfl

theorem sharedWindow_seconds (first second : UUID) (index : Nat) :
    (sharedWindow first second index).windowSeconds ≠ 0 := show (60 : Int) ≠ 0 by decide

theorem sharedWindow_answer (first second : UUID) (index count : Nat) :
    (sharedWindow first second index).answer count =
      if 1 < count then .denied 60 else .allowed := by
  have room : ((1 : Int) < count) = (1 < count) := by rw [eq_iff_iff]; omega
  simp only [RateCall.answer, sharedWindow, room]
  rfl

/-- With the other call the request of the first key is the second one of the window. -/
theorem answersOf_shared (rejects : ℚ → Int → Bool) {first second : UUID}
    (same : keyPrefix first = keyPrefix second) :
    (1, .denied 60) ∈ answersOf (sharedWindow first second) rejects first sharedHistory := by
  have began := incr_begins (sharedWindow first second) .fresh 0 0 (sharedWindow_seconds _ _ 0) rfl
  have found : RateState.live (incr (sharedWindow first second) .fresh 0 0).1
      (sharedWindow first second 1).key 0 = some ⟨1, none⟩ := by
    have key := sharedWindow_key same 1
    rw [began]
    simp only [RateState.live, key, Function.update_self]
    rfl
  have counted := incr_counts (sharedWindow first second) _ 1 0 (sharedWindow_seconds _ _ 1) found
    (by decide)
  have owner : (sharedWindow first second 1).apiKeyId = first := rfl
  refine List.mem_append_right _ (List.mem_append_left _ ?_)
  simp only [owner, decide_true, if_true, rateStep]
  rw [counted, sharedWindow_answer]
  exact List.mem_singleton.mpr rfl

/-- Without the other call the request of the first key is let through. -/
theorem answersOf_alone (rejects : ℚ → Int → Bool) (first second : UUID) :
    ∀ answer ∈ answersOf (sharedWindow first second) rejects first
      (without (sharedWindow first second) second sharedHistory), answer = (1, .allowed) := by
  have owner : (sharedWindow first second 1).apiKeyId = first := rfl
  have hidden : (sharedWindow first second 0).apiKeyId = second := rfl
  by_cases equal : first = second
  · subst equal
    have nothing : without (sharedWindow first first) first sharedHistory = [] := by
      simp only [without, sharedHistory, List.filter_cons, owner, hidden, decide_true,
        Bool.not_true, Bool.false_eq_true, if_false, List.filter_nil]
    rw [nothing]
    exact fun _ member => absurd member List.not_mem_nil
  · have kept : without (sharedWindow first second) second sharedHistory =
        [⟨1, .incr, 0⟩, ⟨1, .expire, 0⟩] := by
      simp only [without, sharedHistory, List.filter_cons, owner, hidden, equal, decide_true,
        decide_false]
      rfl
    have began := incr_begins (sharedWindow first second) .fresh 1 0 (sharedWindow_seconds _ _ 1)
      rfl
    intro answer member
    rw [kept, answersOf, answers, answers, answers, List.append_nil] at member
    simp only [owner, decide_true, if_true, rateStep, began, expire, Function.update_self,
      Bool.not_true, Bool.false_eq_true, if_false, Option.toList_none, List.nil_append] at member
    split at member
    · exact List.mem_singleton.mp member
    · rw [sharedWindow_answer] at member
      exact List.mem_singleton.mp member

/-- Two API keys have budgets of their own just when their identifiers differ in the first twelve
characters: in every history of calls the answers the first one gets are the same with all calls of
the second one removed. A counter is named after these characters, so the calls of a key with others
touch other counters; with the same ones, two calls share a budget of one. -/
theorem budgets_isolated_iff (rejects : ℚ → Int → Bool) (first second : UUID) :
    (∀ (calls : Nat → RateCall) (history : List RateAction),
      answersOf calls rejects first history =
        answersOf calls rejects first (without calls second history)) ↔
      keyPrefix first ≠ keyPrefix second := by
  constructor
  · intro isolated same
    have shared := answersOf_shared rejects same
    rw [isolated] at shared
    exact absurd (answersOf_alone rejects first second _ shared) (by decide)
  · intro different calls history
    exact (budget_unwinding different).answers_purged ⟨fun _ _ => rfl, fun _ _ => rfl⟩ history

/-- Two identifiers that differ in the last digit only share their budget: the one request of the
first key is denied because of the one of the second key. -/
theorem budget_shared :
    let first : UUID := 0x11111111111141111111111111111111
    let second : UUID := 0x11111111111141111111111111111112
    first ≠ second ∧
      answersOf (sharedWindow first second) (fun _ _ => false) first sharedHistory =
        [(1, .denied 60)] ∧
      answersOf (sharedWindow first second) (fun _ _ => false) first
        (without (sharedWindow first second) second sharedHistory) = [(1, .allowed)] := by
  decide +kernel

end InsuranceOps
