/-
This file bounds what the rate limiter lets through. The commands of the calls
of one API key interleave in any order; a counter that is begun inside a window
stands until the window is over, whenever its expiry is set. So the requests of
a window are counted in the order of their first commands, as many as the limit
are allowed, and a refused one can be made again in the window that follows.
-/

import InsuranceOps.RateLimit
import Mathlib.Data.List.Induction
import Mathlib.Data.List.Nodup
import Mathlib.Tactic.Linarith

namespace InsuranceOps

/-! ### Runs -/

/-- Redis takes every expiry. -/
def acceptsAll : ℚ → Int → Bool := fun _ _ => false

variable (calls : Nat → RateCall)

/-- One more command after what was run and answered. -/
def rateNext (reached : RateState × List (Nat × RateAnswer)) (action : RateAction) :
    RateState × List (Nat × RateAnswer) :=
  let (state, answer) := rateStep calls acceptsAll reached.1 action
  (state, reached.2 ++ answer.toList)

/-- The state a history leads to, and the answers on the way. -/
def rateRun (history : List RateAction) : RateState × List (Nat × RateAnswer) :=
  history.foldl (rateNext calls) (.fresh, [])

theorem rateRun_append_singleton (history : List RateAction) (action : RateAction) :
    rateRun calls (history ++ [action]) = rateNext calls (rateRun calls history) action := by
  unfold rateRun
  rw [List.foldl_append, List.foldl_cons, List.foldl_nil]

/-- Whether an action is the `INCR` of a call that falls in a window. -/
def countsIn (windowStart : Int) (action : RateAction) : Bool :=
  action.command = .incr ∧ (calls action.call).windowStart = windowStart

/-- The calls of a window, in the order of their `INCR`. -/
def windowCalls (windowStart : Int) (history : List RateAction) : List Nat :=
  (history.filter (countsIn calls windowStart)).map RateAction.call

/-- A history of calls of one API key with one window and one limit, by one clock: each call counts
at most once, in the window its clock reading falls in. -/
structure OneKey (apiKeyId : UUID) (windowSeconds maxRequests : Int) (history : List RateAction) :
    Prop where
  own : ∀ action ∈ history, (calls action.call).apiKeyId = apiKeyId ∧
    (calls action.call).windowSeconds = windowSeconds ∧
      (calls action.call).maxRequests = maxRequests
  once : ((history.filter fun action => action.command = .incr).map RateAction.call).Nodup
  ordered : history.Pairwise fun first second => first.time ≤ second.time
  inWindow : ∀ action ∈ history, action.command = .incr →
    (calls action.call).windowStart ≤ action.time ∧
      action.time < (calls action.call).windowStart + windowSeconds

/-- The answer a call gets that so many calls of its window precede: the first ones are allowed, a
later one is told after how many seconds a call falls in the window that follows. -/
def RankedAnswer (call : RateCall) (rank : Nat) (answer : RateAnswer) : Prop :=
  if (rank : Int) < call.maxRequests then answer = .allowed
  else ∃ retryAfter, answer = .denied retryAfter ∧ 1 ≤ retryAfter ∧
    retryAfter ≤ call.windowSeconds ∧
      ∀ later : RateCall, later.windowSeconds = call.windowSeconds →
        later.now = call.now + retryAfter →
          later.windowStart = call.windowStart + call.windowSeconds

/-- In each window exactly the first calls are allowed, as many as the limit: every answer is that
of the rank of its call, every call has an answer unless it still has to set the expiry, and the
counter of a window stands at the number of its calls for as long as the window lasts. -/
structure Capped (apiKeyId : UUID) (windowSeconds : Int) (history : List RateAction) : Prop where
  ranked : ∀ index answer, (index, answer) ∈ (rateRun calls history).2 →
    index ∈ windowCalls calls (calls index).windowStart history ∧
      ∀ rank, (windowCalls calls (calls index).windowStart history)[rank]? = some index →
        RankedAnswer (calls index) rank answer
  answered : ∀ index, index ∈ windowCalls calls (calls index).windowStart history →
    (rateRun calls history).1.expiring index = true ∨
      ∃ answer, (index, answer) ∈ (rateRun calls history).2
  counted : ∀ before, before <+: history → ∀ call : RateCall, call.apiKeyId = apiKeyId →
    call.windowSeconds = windowSeconds → ∀ time : ℚ, time < call.windowStart + windowSeconds →
      ((rateRun calls before).1.live call.key time).elim 0 Counter.count =
        (windowCalls calls call.windowStart before).length

/-! ### Windows -/

theorem windowCalls_append_singleton (windowStart : Int) (history : List RateAction)
    (action : RateAction) :
    windowCalls calls windowStart (history ++ [action]) = windowCalls calls windowStart history ++
      if countsIn calls windowStart action then [action.call] else [] := by
  unfold windowCalls
  rw [List.filter_append, List.map_append]
  by_cases counts : countsIn calls windowStart action = true
  · rw [List.filter_cons_of_pos counts, if_pos counts]
    rfl
  · rw [List.filter_cons_of_neg counts, if_neg counts]
    rfl

variable {calls}

theorem mem_windowCalls {windowStart : Int} {history : List RateAction} {index : Nat} :
    index ∈ windowCalls calls windowStart history ↔ ∃ action ∈ history, action.call = index ∧
      action.command = .incr ∧ (calls index).windowStart = windowStart := by
  unfold windowCalls countsIn
  rw [List.mem_map]
  simp only [List.mem_filter, decide_eq_true_eq]
  constructor
  · rintro ⟨action, ⟨member, command, start⟩, rfl⟩
    exact ⟨action, member, rfl, command, start⟩
  · rintro ⟨action, member, rfl, command, start⟩
    exact ⟨action, ⟨member, command, start⟩, rfl⟩

/-- Where a call falls within its window. -/
theorem RateCall.offset {call : RateCall} (window : 1 ≤ call.windowSeconds) :
    call.windowStart ≤ call.now ∧ call.now < call.windowStart + call.windowSeconds := by
  have low := Int.fmod_nonneg_of_pos call.now (show 0 < call.windowSeconds by omega)
  have high := Int.fmod_lt_of_pos call.now (show 0 < call.windowSeconds by omega)
  unfold RateCall.windowStart
  omega

/-- A refused call that is made again as many seconds later as it was told falls in the window that
follows. -/
theorem RateCall.windowStart_later {call later : RateCall}
    (sameLength : later.windowSeconds = call.windowSeconds)
    (next : later.now = call.now + (call.windowSeconds - (call.now - call.windowStart))) :
    later.windowStart = call.windowStart + call.windowSeconds := by
  have parts := Int.fmod_add_mul_fdiv call.now call.windowSeconds
  have start : later.now = call.windowSeconds * (call.now.fdiv call.windowSeconds + 1) := by
    rw [next, Int.mul_add, Int.mul_one]
    unfold RateCall.windowStart
    omega
  have aligned : later.now.fmod later.windowSeconds = 0 := by
    rw [sameLength, start, Int.mul_fmod_right]
  unfold RateCall.windowStart at next ⊢
  rw [aligned]
  omega

/-- A call answers by its rank. -/
theorem RateCall.answer_ranked {call : RateCall} (window : 1 ≤ call.windowSeconds) (rank : Nat) :
    RankedAnswer call rank (call.answer (rank + 1)) := by
  obtain ⟨low, high⟩ := call.offset window
  unfold RankedAnswer RateCall.answer
  by_cases room : (rank : Int) < call.maxRequests
  · rw [if_pos room, if_neg (by omega)]
  · rw [if_neg room, if_pos (by omega)]
    refine ⟨_, rfl, Int.le_max_right _ _, by omega, fun later sameLength next => ?_⟩
    rw [Int.max_eq_left (by omega)] at next
    exact RateCall.windowStart_later sameLength next

/-! ### Keys of windows -/

/-- The text of a whole number says which one it is. -/
theorem toString_toList_injective {first second : Int}
    (same : (toString first).toList = (toString second).toList) : first = second := by
  have natural (value : Nat) : (toString (value : Int)).toList = Nat.toDigits 10 value := by
    show (Nat.repr value).toList = _
    rw [Nat.repr_eq_ofList_toDigits, String.toList_ofList]
  have negative (value : Nat) :
      (toString (Int.negSucc value)).toList = '-' :: Nat.toDigits 10 (value + 1) := by
    show ("-" ++ Nat.repr (value + 1)).toList = _
    rw [String.toList_append, Nat.repr_eq_ofList_toDigits, String.toList_ofList,
      List.singleton_append, String.toList_ofList]
  have digits {left right : Nat} (same : Nat.toDigits 10 left = Nat.toDigits 10 right) :
      left = right := by
    rw [← Nat.ofDigitChars_ten_toDigits (n := left), same, Nat.ofDigitChars_ten_toDigits]
  have unsigned (value : Nat) (rest : Text) : Nat.toDigits 10 value ≠ '-' :: rest := by
    intro signed
    have digit := Nat.isDigit_of_mem_toDigits (by decide) (by decide)
      (signed ▸ List.mem_cons_self : '-' ∈ Nat.toDigits 10 value)
    cases digit
  cases first with
  | ofNat first =>
    cases second with
    | ofNat second => exact congrArg Int.ofNat (digits (by rwa [← natural, ← natural]))
    | negSucc second =>
      rw [negative] at same
      exact absurd ((natural first).symm.trans same) (unsigned _ _)
  | negSucc first =>
    cases second with
    | ofNat second =>
      rw [negative] at same
      exact absurd ((natural second).symm.trans same.symm) (unsigned _ _)
    | negSucc second =>
      rw [negative, negative, List.cons.injEq] at same
      have value := digits same.2
      rw [Nat.succ.inj value]

/-- Calls of one API key in different windows have different counters. -/
theorem RateCall.windowStart_eq_of_key {first second : RateCall} (same : first.key = second.key) :
    first.windowStart = second.windowStart := by
  unfold RateCall.key at same
  have behind := List.append_inj_right same (by
    rw [List.length_append, List.length_append, keyPrefix_length, keyPrefix_length])
  exact toString_toList_injective (List.cons.inj behind).2

/-! ### Commands -/

section Commands

variable {state : RateState} {index : Nat} {time : ℚ}

/-- A call that finds a counter adds to it. -/
theorem incr_found (window : (calls index).windowSeconds ≠ 0) {counter : Counter}
    (found : state.live (calls index).key time = some counter) (some : counter.count ≠ 0) :
    incr calls state index time =
      (⟨Function.update state.counters (calls index).key
          (.some { counter with count := counter.count + 1 }),
        Function.update state.expiring index false⟩,
        .some (index, (calls index).answer (counter.count + 1))) := by
  unfold incr
  simp only [if_neg window, found, Nat.add_eq_right, some, decide_false, if_false]

theorem expire_idle (idle : state.expiring index = false) :
    expire calls acceptsAll state index time = (state, none) := by
  unfold expire
  simp only [idle, Bool.not_false, if_true]

/-- A call that has to set the expiry sets it and answers. -/
theorem expire_found (window : 1 ≤ (calls index).windowSeconds)
    (expiring : state.expiring index = true) {counter : Counter}
    (found : state.live (calls index).key time = some counter) :
    expire calls acceptsAll state index time =
      (⟨Function.update state.counters (calls index).key
          (.some { counter with
            expiresAt := some (time + ((calls index).windowSeconds + 1 : Int)) }),
        Function.update state.expiring index false⟩,
        .some (index, (calls index).answer 1)) := by
  have positive : 0 < (calls index).windowSeconds + 1 := by omega
  unfold expire
  simp only [expiring, Bool.not_true, Bool.false_eq_true, if_false, acceptsAll, found,
    Option.bind_some,
    if_pos positive]

end Commands

/-! ### The count of a window -/

section Invariant

variable (calls) (apiKeyId : UUID) (windowSeconds : Int)

/-- The counter of a window is at the number of its calls, and expires after the window if it
does. -/
structure CounterStandsAt (counter : Option Counter) (windowStart : Int) (number : Nat) : Prop where
  count : counter.elim 0 Counter.count = number
  positive : ∀ standing, counter = some standing → standing.count ≠ 0
  lasting : ∀ standing expiry, counter = some standing → standing.expiresAt = some expiry →
    (windowStart + windowSeconds : Int) ≤ expiry

/-- What holds after a history of calls of one API key: every counter stands at the number of calls
of its window; a call that still has to set an expiry was the first of its window; every answer is
that of the rank of its call; and the other calls have their answers. -/
structure Counting (history : List RateAction)
    (reached : RateState × List (Nat × RateAnswer)) : Prop where
  standing : ∀ call : RateCall, call.apiKeyId = apiKeyId → call.windowSeconds = windowSeconds →
    CounterStandsAt windowSeconds (reached.1.counters call.key) call.windowStart
      (windowCalls calls call.windowStart history).length
  pending : ∀ index, reached.1.expiring index = true →
    (windowCalls calls (calls index).windowStart history).head? = some index ∧
      ∃ counter, reached.1.counters (calls index).key = some counter ∧ counter.expiresAt = none
  ranked : ∀ index answer, (index, answer) ∈ reached.2 →
    ∃ rank, (windowCalls calls (calls index).windowStart history)[rank]? = some index ∧
      answer = (calls index).answer (rank + 1)
  answered : ∀ index, index ∈ windowCalls calls (calls index).windowStart history →
    reached.1.expiring index = true ∨ ∃ answer, (index, answer) ∈ reached.2

end Invariant

/-- Within its window a counter is alive. -/
theorem CounterStandsAt.live {windowSeconds windowStart : Int} {number : Nat} {state : RateState}
    {key : Text}
    (stands : CounterStandsAt windowSeconds (state.counters key) windowStart number) {time : ℚ}
    (inside : time < (windowStart + windowSeconds : Int)) :
    state.live key time = state.counters key := by
  unfold RateState.live
  cases found : state.counters key with
  | none => rfl
  | some counter =>
    rw [Option.filter_some, if_pos]
    cases expires : counter.expiresAt with
    | none => rfl
    | some expiry => exact decide_eq_true (lt_of_lt_of_le inside (stands.lasting _ _ found expires))

/-- A command that counts a call adds one to the counter and keeps its expiry; the call answers
unless it is the first. -/
theorem incr_effect {windowSeconds : Int} {number : Nat} {state : RateState} {index : Nat}
    {time : ℚ}
    (window : (calls index).windowSeconds ≠ 0)
    (stands : CounterStandsAt windowSeconds (state.counters (calls index).key)
      (calls index).windowStart number)
    (inside : time < ((calls index).windowStart + windowSeconds : Int)) :
    ∃ counter : Counter, counter.count = number + 1 ∧
      counter.expiresAt = (state.counters (calls index).key).bind Counter.expiresAt ∧
      incr calls state index time =
        (⟨Function.update state.counters (calls index).key (some counter),
          Function.update state.expiring index (number = 0)⟩,
          if number = 0 then none else some (index, (calls index).answer (number + 1))) := by
  have live := stands.live inside
  have count := stands.count
  cases found : state.counters (calls index).key with
  | none =>
    rw [found] at live count
    rw [Option.elim_none] at count
    subst count
    exact ⟨⟨1, none⟩, rfl, rfl, incr_begins calls state index time window live⟩
  | some counter =>
    have positive := stands.positive counter found
    rw [found] at live count
    rw [Option.elim_some] at count
    subst count
    refine ⟨{ counter with count := counter.count + 1 }, rfl, rfl, ?_⟩
    rw [incr_found window live positive, if_neg positive, decide_eq_false positive]

theorem CounterStandsAt.zero {windowSeconds windowStart : Int} {counter : Option Counter}
    (stands : CounterStandsAt windowSeconds counter windowStart 0) : counter = none := by
  cases counter with
  | none => rfl
  | some standing => exact absurd stands.count (stands.positive standing rfl)

section Steps

variable {apiKeyId : UUID} {windowSeconds : Int} {history : List RateAction}
  {reached after : RateState × List (Nat × RateAnswer)} {action : RateAction}

/-- A call adds itself to its window. -/
theorem windowCalls_of_incr (command : action.command = .incr) :
    windowCalls calls (calls action.call).windowStart (history ++ [action]) =
      windowCalls calls (calls action.call).windowStart history ++ [action.call] := by
  rw [windowCalls_append_singleton, if_pos (by simp [countsIn, command])]

/-- A call adds itself to no other window. -/
theorem windowCalls_of_ne (command : action.command = .incr) {windowStart : Int}
    (other : windowStart ≠ (calls action.call).windowStart) :
    windowCalls calls windowStart (history ++ [action]) =
      windowCalls calls windowStart history := by
  rw [windowCalls_append_singleton, if_neg (by simp [countsIn, command, other.symm]),
    List.append_nil]

/-- A command that sets an expiry adds no call to any window. -/
theorem windowCalls_of_expire (command : action.command = .expire) (windowStart : Int) :
    windowCalls calls windowStart (history ++ [action]) =
      windowCalls calls windowStart history := by
  rw [windowCalls_append_singleton, if_neg (by simp [countsIn, command]), List.append_nil]

/-- The keys of one API key and window length tell the windows apart. -/
theorem Counting.standing_update
    (counting : Counting calls apiKeyId windowSeconds history reached) {call : Nat}
    (own : (calls call).apiKeyId = apiKeyId) {standing : Counter} {windows : Int → List Nat}
    (others : ∀ windowStart, windowStart ≠ (calls call).windowStart →
      windows windowStart = windowCalls calls windowStart history)
    (stands : CounterStandsAt windowSeconds (some standing) (calls call).windowStart
      (windows (calls call).windowStart).length)
    (other : RateCall) (otherOwn : other.apiKeyId = apiKeyId)
    (otherLength : other.windowSeconds = windowSeconds) :
    CounterStandsAt windowSeconds
      (Function.update reached.1.counters (calls call).key (some standing) other.key)
      other.windowStart (windows other.windowStart).length := by
  by_cases same : other.windowStart = (calls call).windowStart
  · have key : other.key = (calls call).key := by
      unfold RateCall.key
      rw [same, otherOwn, own]
    rw [key, Function.update_self, same]
    exact stands
  · rw [others _ same,
      Function.update_of_ne fun key => same (RateCall.windowStart_eq_of_key key)]
    exact counting.standing other otherOwn otherLength

variable (calls) in
/-- A call has counted itself: its counter is one up and keeps its expiry, and the call answers
unless it has to set the expiry, being the first of its window. -/
structure Counted (history : List RateAction) (call : Nat) (counter : Counter)
    (reached after : RateState × List (Nat × RateAnswer)) : Prop where
  count : counter.count = (windowCalls calls (calls call).windowStart history).length + 1
  expiresAt : counter.expiresAt = (reached.1.counters (calls call).key).bind Counter.expiresAt
  counters : after.1.counters =
    Function.update reached.1.counters (calls call).key (some counter)
  expiring : after.1.expiring = Function.update reached.1.expiring call
    ((windowCalls calls (calls call).windowStart history).length = 0)
  answers : after.2 = reached.2 ++
    (if (windowCalls calls (calls call).windowStart history).length = 0 then none
      else some (call, (calls call).answer
        ((windowCalls calls (calls call).windowStart history).length + 1))).toList

theorem Counting.counted (window : 1 ≤ windowSeconds)
    (counting : Counting calls apiKeyId windowSeconds history reached)
    (command : action.command = .incr) (own : (calls action.call).apiKeyId = apiKeyId)
    (length : (calls action.call).windowSeconds = windowSeconds)
    (inside : action.time < ((calls action.call).windowStart + windowSeconds : Int)) :
    ∃ counter, Counted calls history action.call counter reached
      (rateNext calls reached action) := by
  obtain ⟨counter, count, expiresAt, effect⟩ :=
    incr_effect (by omega) (counting.standing _ own length) inside
  refine ⟨counter, count, expiresAt, ?_, ?_, ?_⟩ <;>
    simp only [rateNext, rateStep, command, effect]

section Counted

variable {counter : Counter}
  (counting : Counting calls apiKeyId windowSeconds history reached)
  (counted : Counted calls history action.call counter reached after)

include counting counted

/-- The counter stands at the number of calls, this one included. -/
theorem Counted.stands (own : (calls action.call).apiKeyId = apiKeyId)
    (length : (calls action.call).windowSeconds = windowSeconds) :
    CounterStandsAt windowSeconds (some counter) (calls action.call).windowStart
      ((windowCalls calls (calls action.call).windowStart history).length + 1) where
  count := counted.count
  positive := by
    rintro _ ⟨⟩
    rw [counted.count]
    exact Nat.succ_ne_zero _
  lasting := by
    rintro _ expiry ⟨⟩ expires
    rw [counted.expiresAt, Option.bind_eq_some_iff] at expires
    obtain ⟨old, found, oldExpires⟩ := expires
    exact (counting.standing _ own length).lasting old expiry found oldExpires

/-- The first call of a window finds no counter, so its own has no expiry yet; the counter of a
window whose first call still has to set the expiry keeps having none. -/
theorem Counted.pending (own : (calls action.call).apiKeyId = apiKeyId)
    (length : (calls action.call).windowSeconds = windowSeconds) (command : action.command = .incr)
    (index : Nat) (expiring : after.1.expiring index = true) :
    (windowCalls calls (calls index).windowStart (history ++ [action])).head? = some index ∧
      ∃ standing, after.1.counters (calls index).key = some standing ∧
        standing.expiresAt = none := by
  rw [counted.expiring] at expiring
  rw [counted.counters]
  by_cases same : index = action.call
  · subst same
    rw [Function.update_self, decide_eq_true_eq] at expiring
    have stands := counting.standing _ own length
    rw [expiring] at stands
    rw [windowCalls_of_incr command, List.length_eq_zero_iff.mp expiring, Function.update_self]
    exact ⟨rfl, counter, rfl, by rw [counted.expiresAt, stands.zero]; rfl⟩
  · rw [Function.update_of_ne same] at expiring
    obtain ⟨first, old, found, unset⟩ := counting.pending index expiring
    refine ⟨?_, ?_⟩
    · rw [windowCalls_append_singleton, List.head?_append, first]
      rfl
    · by_cases key : (calls index).key = (calls action.call).key
      · rw [key, Function.update_self]
        rw [key] at found
        exact ⟨counter, rfl, by rw [counted.expiresAt, found]; exact unset⟩
      · rw [Function.update_of_ne key]
        exact ⟨old, found, unset⟩

/-- The call answers by its rank, the number of calls before it in its window. -/
theorem Counted.ranked (command : action.command = .incr) (index : Nat) (answer : RateAnswer)
    (given : (index, answer) ∈ after.2) :
    ∃ rank, (windowCalls calls (calls index).windowStart (history ++ [action]))[rank]? =
        some index ∧ answer = (calls index).answer (rank + 1) := by
  rw [counted.answers] at given
  rcases List.mem_append.mp given with before | now
  · obtain ⟨rank, ranked, same⟩ := counting.ranked index answer before
    obtain ⟨bound, -⟩ := List.getElem?_eq_some_iff.mp ranked
    refine ⟨rank, ?_, same⟩
    rw [windowCalls_append_singleton, List.getElem?_append_left bound]
    exact ranked
  · split at now
    · cases now
    · rw [Option.toList_some, List.mem_singleton] at now
      cases now
      refine ⟨_, ?_, rfl⟩
      rw [windowCalls_of_incr command, List.getElem?_concat_length]

/-- The call has its answer unless it has to set the expiry. -/
theorem Counted.answered (index : Nat)
    (listed : index ∈ windowCalls calls (calls index).windowStart (history ++ [action])) :
    after.1.expiring index = true ∨ ∃ answer, (index, answer) ∈ after.2 := by
  rw [counted.expiring, counted.answers]
  by_cases same : index = action.call
  · subst same
    rw [Function.update_self]
    split
    · rename_i zero
      exact .inl (decide_eq_true zero)
    · exact .inr ⟨_, List.mem_append_right _ (List.mem_singleton_self _)⟩
  · rw [Function.update_of_ne same]
    have before : index ∈ windowCalls calls (calls index).windowStart history := by
      rw [windowCalls_append_singleton] at listed
      refine (List.mem_append.mp listed).resolve_right fun added => same ?_
      split at added
      · exact List.mem_singleton.mp added
      · cases added
    refine (counting.answered index before).imp_right ?_
    rintro ⟨answer, given⟩
    exact ⟨answer, List.mem_append_left _ given⟩

end Counted

/-- A call counts itself in its window. -/
theorem Counting.incr (window : 1 ≤ windowSeconds)
    (counting : Counting calls apiKeyId windowSeconds history reached)
    (command : action.command = .incr) (own : (calls action.call).apiKeyId = apiKeyId)
    (length : (calls action.call).windowSeconds = windowSeconds)
    (inside : action.time < ((calls action.call).windowStart + windowSeconds : Int)) :
    Counting calls apiKeyId windowSeconds (history ++ [action])
      (rateNext calls reached action) := by
  obtain ⟨counter, counted⟩ := counting.counted window command own length inside
  refine ⟨?_, counted.pending counting own length command, counted.ranked counting command,
    counted.answered counting⟩
  intro call callOwn callLength
  rw [counted.counters]
  refine counting.standing_update own (fun windowStart => windowCalls_of_ne command) ?_ call
    callOwn callLength
  rw [windowCalls_of_incr command, List.length_append]
  exact counted.stands counting own length

variable (calls) in
/-- The first call of a window has set the expiry of its counter, which lasts for the window, and
has answered. -/
structure Renewed (windowSeconds : Int) (call : Nat) (counter renewed : Counter)
    (reached after : RateState × List (Nat × RateAnswer)) : Prop where
  found : reached.1.counters (calls call).key = some counter
  count : renewed.count = counter.count
  lasting : ∀ expiry, renewed.expiresAt = some expiry →
    ((calls call).windowStart + windowSeconds : Int) ≤ expiry
  counters : after.1.counters =
    Function.update reached.1.counters (calls call).key (some renewed)
  expiring : after.1.expiring = Function.update reached.1.expiring call false
  answers : after.2 = reached.2 ++ [(call, (calls call).answer 1)]

theorem Counting.renewed (window : 1 ≤ windowSeconds)
    (counting : Counting calls apiKeyId windowSeconds history reached)
    (command : action.command = .expire)
    (length : (calls action.call).windowSeconds = windowSeconds)
    (expiring : reached.1.expiring action.call = true)
    (begun : ((calls action.call).windowStart : ℚ) ≤ action.time) :
    ∃ counter renewed, Renewed calls windowSeconds action.call counter renewed reached
      (rateNext calls reached action) := by
  obtain ⟨-, counter, found, unset⟩ := counting.pending action.call expiring
  have live : reached.1.live (calls action.call).key action.time = some counter := by
    unfold RateState.live
    rw [found, Option.filter_some, if_pos (by rw [unset]; rfl)]
  have effect := expire_found (by omega) expiring live
  refine ⟨counter, { counter with
    expiresAt := some (action.time + ((calls action.call).windowSeconds + 1 : Int)) }, found, rfl,
    ?_, ?_, ?_, ?_⟩
  · intro expiry expires
    cases expires
    rw [length]
    push_cast
    linarith
  · simp only [rateNext, rateStep, command, effect]
  · simp only [rateNext, rateStep, command, effect]
  · simp only [rateNext, rateStep, command, effect, Option.toList_some]

section Renewed

variable {counter renewed : Counter}
  (counting : Counting calls apiKeyId windowSeconds history reached)
  (renews : Renewed calls windowSeconds action.call counter renewed reached after)

include counting renews

/-- The counter stands where it stood. -/
theorem Renewed.stands (own : (calls action.call).apiKeyId = apiKeyId)
    (length : (calls action.call).windowSeconds = windowSeconds) :
    CounterStandsAt windowSeconds (some renewed) (calls action.call).windowStart
      (windowCalls calls (calls action.call).windowStart history).length := by
  have stands := counting.standing _ own length
  rw [renews.found] at stands
  refine ⟨renews.count.trans stands.count, ?_, ?_⟩
  · rintro _ ⟨⟩
    rw [renews.count]
    exact stands.positive counter rfl
  · rintro _ expiry ⟨⟩ expires
    exact renews.lasting expiry expires

/-- The other calls that have to set an expiry are the first of other windows. -/
theorem Renewed.pending
    (first : (windowCalls calls (calls action.call).windowStart history).head? =
      some action.call) (index : Nat) (pending : after.1.expiring index = true) :
    (windowCalls calls (calls index).windowStart history).head? = some index ∧
      ∃ standing, after.1.counters (calls index).key = some standing ∧
        standing.expiresAt = none := by
  rw [renews.expiring] at pending
  rw [renews.counters]
  by_cases same : index = action.call
  · rw [same, Function.update_self] at pending
    cases pending
  · rw [Function.update_of_ne same] at pending
    obtain ⟨otherFirst, other⟩ := counting.pending index pending
    have key : (calls index).key ≠ (calls action.call).key := fun key => by
      rw [RateCall.windowStart_eq_of_key key, first] at otherFirst
      exact same (Option.some.inj otherFirst).symm
    rw [Function.update_of_ne key]
    exact ⟨otherFirst, other⟩

/-- The call answers as the first of its window. -/
theorem Renewed.ranked
    (first : (windowCalls calls (calls action.call).windowStart history).head? =
      some action.call) (index : Nat) (answer : RateAnswer)
    (given : (index, answer) ∈ after.2) :
    ∃ rank, (windowCalls calls (calls index).windowStart history)[rank]? = some index ∧
      answer = (calls index).answer (rank + 1) := by
  rw [renews.answers] at given
  rcases List.mem_append.mp given with before | now
  · exact counting.ranked index answer before
  · cases List.mem_singleton.mp now
    exact ⟨0, List.head?_eq_getElem?.symm.trans first, rfl⟩

/-- The call that had to set the expiry has its answer. -/
theorem Renewed.answered (index : Nat)
    (listed : index ∈ windowCalls calls (calls index).windowStart history) :
    after.1.expiring index = true ∨ ∃ answer, (index, answer) ∈ after.2 := by
  rw [renews.expiring, renews.answers]
  by_cases same : index = action.call
  · rw [same]
    exact .inr ⟨_, List.mem_append_right _ (List.mem_singleton_self _)⟩
  · rw [Function.update_of_ne same]
    refine (counting.answered index listed).imp_right ?_
    rintro ⟨answer, given⟩
    exact ⟨answer, List.mem_append_left _ given⟩

end Renewed

/-- A command that sets an expiry changes no count. -/
theorem Counting.expire (window : 1 ≤ windowSeconds)
    (counting : Counting calls apiKeyId windowSeconds history reached)
    (command : action.command = .expire) (own : (calls action.call).apiKeyId = apiKeyId)
    (length : (calls action.call).windowSeconds = windowSeconds)
    (begun : reached.1.expiring action.call = true →
      ((calls action.call).windowStart : ℚ) ≤ action.time) :
    Counting calls apiKeyId windowSeconds (history ++ [action])
      (rateNext calls reached action) := by
  have unchanged (windowStart : Int) :
      windowCalls calls windowStart (history ++ [action]) =
        windowCalls calls windowStart history :=
    windowCalls_of_expire command windowStart
  suffices Counting calls apiKeyId windowSeconds history (rateNext calls reached action) by
    obtain ⟨standing, pending, ranked, answered⟩ := this
    constructor <;> simp only [unchanged] <;> assumption
  cases expiring : reached.1.expiring action.call with
  | false =>
    have next : rateNext calls reached action = reached := by
      unfold rateNext rateStep
      simp only [command, expire_idle expiring]
      exact Prod.ext rfl (List.append_nil _)
    rwa [next]
  | true =>
    obtain ⟨first, -⟩ := counting.pending action.call expiring
    obtain ⟨counter, renewed, renews⟩ :=
      counting.renewed window command length expiring (begun expiring)
    refine ⟨?_, renews.pending counting first, renews.ranked counting first,
      renews.answered counting⟩
    rw [renews.counters]
    exact counting.standing_update own (fun _ _ => rfl) (renews.stands counting own length)

end Steps

/-! ### Histories -/

theorem OneKey.initial {apiKeyId : UUID} {windowSeconds maxRequests : Int}
    {before history : List RateAction}
    (oneKey : OneKey calls apiKeyId windowSeconds maxRequests history)
    (start : before <+: history) :
    OneKey calls apiKeyId windowSeconds maxRequests before where
  own action member := oneKey.own action (start.subset member)
  once := oneKey.once.sublist ((start.sublist.filter _).map _)
  ordered := oneKey.ordered.sublist start.sublist
  inWindow action member := oneKey.inWindow action (start.subset member)

/-- No call counts twice in a window. -/
theorem OneKey.windowCalls_nodup {apiKeyId : UUID} {windowSeconds maxRequests : Int}
    {history : List RateAction}
    (oneKey : OneKey calls apiKeyId windowSeconds maxRequests history) (windowStart : Int) :
    (windowCalls calls windowStart history).Nodup := by
  refine oneKey.once.sublist (List.Sublist.map _ (List.monotone_filter_right _ ?_))
  intro action counts
  have both := of_decide_eq_true counts
  exact decide_eq_true both.1

/-- After every history of calls of one API key the counters stand at the numbers of calls. -/
theorem OneKey.counting {apiKeyId : UUID} {windowSeconds maxRequests : Int}
    {history : List RateAction} (window : 1 ≤ windowSeconds)
    (oneKey : OneKey calls apiKeyId windowSeconds maxRequests history) :
    Counting calls apiKeyId windowSeconds history (rateRun calls history) := by
  induction history using List.reverseRecOn with
  | nil =>
    exact {
      standing := fun _ _ _ => ⟨rfl, nofun, nofun⟩
      pending := nofun
      ranked := nofun
      answered := nofun }
  | append_singleton history action inductionHypothesis =>
    have counting := inductionHypothesis (oneKey.initial (List.prefix_append history [action]))
    have last : action ∈ history ++ [action] :=
      List.mem_append_right _ (List.mem_singleton_self action)
    obtain ⟨own, length, -⟩ := oneKey.own action last
    rw [rateRun_append_singleton]
    cases command : action.command with
    | incr =>
      refine counting.incr window command own length ?_
      exact_mod_cast (oneKey.inWindow action last command).2
    | expire =>
      refine counting.expire window command own length fun expiring => ?_
      -- The call that has to set the expiry counted itself before, inside its window.
      obtain ⟨first, -⟩ := counting.pending action.call expiring
      obtain ⟨begins, member, same, begun, -⟩ := mem_windowCalls.mp (List.mem_of_head? first)
      have inside := oneKey.inWindow begins (List.mem_append_left _ member) begun
      have later := (List.pairwise_append.mp oneKey.ordered).2.2 begins member action
        (List.mem_singleton_self action)
      rw [same] at inside
      exact inside.1.trans later

/-- In each window exactly the first calls are allowed, as many as the limit, the counter is never
reset, and a refused call falls in the next window when it is made again as it was told. The answer
of a call is that of its rank among the first commands of its window: the counter stands at their
number, whenever the expiry is set. -/
theorem rate_capped {apiKeyId : UUID} {windowSeconds maxRequests : Int} {history : List RateAction}
    (window : 1 ≤ windowSeconds)
    (oneKey : OneKey calls apiKeyId windowSeconds maxRequests history) :
    Capped calls apiKeyId windowSeconds history where
  ranked index answer given := by
    have counting := oneKey.counting window
    obtain ⟨rank, ranked, rfl⟩ := counting.ranked index answer given
    refine ⟨List.mem_of_getElem? ranked, fun other otherRanked => ?_⟩
    obtain ⟨bound, -⟩ := List.getElem?_eq_some_iff.mp ranked
    have sameRank : rank = other :=
      (List.getElem?_inj bound (oneKey.windowCalls_nodup _)).mp (ranked.trans otherRanked.symm)
    obtain ⟨action, member, rfl, -⟩ := mem_windowCalls.mp (List.mem_of_getElem? ranked)
    rw [← sameRank]
    refine RateCall.answer_ranked ?_ rank
    rw [(oneKey.own action member).2.1]
    exact window
  answered := (oneKey.counting window).answered
  counted before start call own length time inside := by
    have stands := ((oneKey.initial start).counting window).standing call own length
    rw [stands.live (by exact_mod_cast inside)]
    exact stands.count

/-- Two calls at the ends of one minute and one at the start of the next, with room for one
request. -/
def minuteCalls (index : Nat) : RateCall where
  apiKeyId := 0x11111111111141111111111111111111
  windowSeconds := 60
  maxRequests := 1
  now := if index = 0 then 0 else if index = 1 then 59 else 60

/-- The expiry of the first counter is set when its window is over. -/
def minuteHistory : List RateAction :=
  [⟨0, .incr, 0⟩, ⟨1, .incr, 59⟩, ⟨2, .incr, 60⟩, ⟨0, .expire, 60⟩, ⟨2, .expire, 61⟩]

example :
    (rateRun minuteCalls minuteHistory).2 = [(1, .denied 1), (0, .allowed), (2, .allowed)] := by
  decide +kernel

theorem minute_capped :
    Capped minuteCalls 0x11111111111141111111111111111111 60 minuteHistory := by
  have oneKey : OneKey minuteCalls 0x11111111111141111111111111111111 60 1 minuteHistory := {
    own := fun _ _ => ⟨rfl, rfl, rfl⟩
    once := by decide
    ordered := by decide +kernel
    inWindow := by decide +kernel }
  exact rate_capped (by decide) oneKey

end InsuranceOps
