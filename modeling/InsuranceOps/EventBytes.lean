/-
This file asks how far the hashed bytes of an audit event determine it. The
parts stand one behind another without separators. The identifiers have a fixed
length, the text of a payload ends at the last closing brace and begins at the
brace that matches it, and behind it stand the time and the previous hash. So
equal bytes leave open where the actor ends and the event type begins, and
whether the last bytes of an event that opens its run are a previous hash.
-/

import InsuranceOps.Audit
import InsuranceOps.CanonicalForm
import InsuranceOps.Library.Brackets

namespace InsuranceOps

open UniqueReading Brackets

/-! ### The brackets of JSON text -/

/-- Quotation marks, escapes and brackets of JSON text. -/
def jsonMarks : Marks Char where
  quote := quotationMark
  escape := backslash
  opening char := char = '[' || char = Char.ofNat 123
  closing char := char = ']' || char = Char.ofNat 125
  letter char := char = quotationMark || char = backslash || char = 'n' || char = 'r' ||
    char = 't' || char = 'f' || char = 'b' || char = 'u'
  escape_ne_quote := by decide
  opening_quote := by decide
  closing_quote := by decide
  opening_escape := by decide
  closing_escape := by decide
  closing_opening char opens := by
    simp only [Bool.or_eq_true, decide_eq_true_eq] at opens
    rcases opens with rfl | rfl <;> decide

theorem unmarked_numeral {char : Char} (written : numeral char = true) :
    Unmarked jsonMarks char := by
  have different {mark : Char} (other : numeral mark = false) : char ≠ mark := by
    rintro rfl
    exact absurd written (by rw [other]; decide)
  refine ⟨different (by decide), different (by decide), ?_, ?_⟩
  · exact Bool.or_eq_false_iff.mpr
      ⟨decide_eq_false (different (by decide)), decide_eq_false (different (by decide))⟩
  · exact Bool.or_eq_false_iff.mpr
      ⟨decide_eq_false (different (by decide)), decide_eq_false (different (by decide))⟩

theorem hexDigit_unmarked (number : Nat) :
    hexDigit (number % 16) ≠ quotationMark ∧ hexDigit (number % 16) ≠ backslash := by
  have all : ∀ digit : Fin 16, hexDigit digit ≠ quotationMark ∧ hexDigit digit ≠ backslash := by
    decide
  exact all ⟨number % 16, Nat.mod_lt _ (by decide)⟩

theorem unicodeEscape_quotable (code : Nat) : Quotable jsonMarks (unicodeEscape code) := by
  have opened : Quotable jsonMarks [backslash, 'u'] := quotable_escape (by decide)
  refine opened.append (quotable_plain ?_)
  simp only [List.forall_mem_cons]
  exact ⟨hexDigit_unmarked _, hexDigit_unmarked _, hexDigit_unmarked _, hexDigit_unmarked _,
    fun _ member => absurd member List.not_mem_nil⟩

/-- The escape of a character closes no quotation. -/
theorem escapeChar_quotable (char : Char) : Quotable jsonMarks (escapeChar char) := by
  unfold escapeChar
  simp only []
  split_ifs with quote slash
  all_goals first
    | exact quotable_escape (by decide)
    | exact unicodeEscape_quotable _
    | exact (unicodeEscape_quotable _).append (unicodeEscape_quotable _)
    | skip
  refine quotable_plain fun other member => ?_
  obtain rfl := List.mem_singleton.mp member
  exact ⟨fun equal => quote (by rw [equal]; rfl), fun equal => slash (by rw [equal]; rfl)⟩

theorem quoted_balanced (value : String) : Balanced jsonMarks (quoted value) := by
  have quotable : Quotable jsonMarks (value.toList.flatMap escapeChar) :=
    quotable_flatMap fun char _ => escapeChar_quotable char
  exact quotable.quoted

theorem comma_unmarked : Unmarked jsonMarks ',' := by
  refine ⟨?_, ?_, ?_, ?_⟩ <;> decide

theorem separated_balanced : ∀ texts : List Text, (∀ text ∈ texts, Balanced jsonMarks text) →
    Balanced jsonMarks (separated ',' texts)
  | [], _ => balanced_nil
  | [text], each => each text List.mem_cons_self
  | text :: next :: more, each => by
    have comma : Balanced jsonMarks [','] := balanced_unmarked fun char member => by
      rw [List.mem_singleton.mp member]
      exact comma_unmarked
    rw [separated_cons _ _ (List.cons_ne_nil _ _)]
    exact (each text List.mem_cons_self).append (comma.append (separated_balanced (next :: more)
      fun other member => each other (List.mem_cons_of_mem _ member)))

theorem constant_balanced {text : Text}
    (unmarked : (text.all fun char => char ∉ [quotationMark, backslash, '[', ']', Char.ofNat 123,
      Char.ofNat 125]) = true) : Balanced jsonMarks text := by
  refine balanced_unmarked fun char member => ?_
  have other := of_decide_eq_true (List.all_eq_true.mp unmarked char member)
  simp only [List.mem_cons, List.not_mem_nil, or_false, not_or] at other
  obtain ⟨notQuote, notEscape, notOpening, notClosing, notLeft, notRight⟩ := other
  exact ⟨notQuote, notEscape,
    Bool.or_eq_false_iff.mpr ⟨decide_eq_false notOpening, decide_eq_false notLeft⟩,
    Bool.or_eq_false_iff.mpr ⟨decide_eq_false notClosing, decide_eq_false notRight⟩⟩

theorem entryText_balanced {entry : String × Json} (balanced : Balanced jsonMarks entry.2.dumps) :
    Balanced jsonMarks (entryText entry) := by
  have colon : Balanced jsonMarks [':'] := constant_balanced (by decide)
  exact (quoted_balanced entry.1).append (colon.append balanced)

/-- The text of a value closes the brackets it opens. -/
theorem Json.dumps_balanced (value : Json) : Balanced jsonMarks value.dumps := by
  induction value using Json.inductionOn with
  | null => exact constant_balanced (by decide)
  | bool value => cases value <;> exact constant_balanced (by decide)
  | int value =>
    exact balanced_unmarked fun _ member => unmarked_numeral (intText_numeral member)
  | float value =>
    exact balanced_unmarked fun _ member => unmarked_numeral (floatText_numeral value _ member)
  | negativeZero => exact constant_balanced (by decide)
  | string value => exact quoted_balanced value
  | array items inductionHypothesis =>
    rw [Json.dumps, commaSeparated_eq, dumpsItems_eq]
    refine (separated_balanced _ fun text member => ?_).bracketed rfl rfl
    obtain ⟨item, stored, rfl⟩ := List.mem_map.mp member
    exact inductionHypothesis item stored
  | object entries inductionHypothesis =>
    rw [Json.dumps, commaSeparated_eq, dumpsEntries_eq]
    refine (separated_balanced _ fun text member => ?_).bracketed rfl rfl
    obtain ⟨entry, stored, rfl⟩ := List.mem_map.mp member
    exact entryText_balanced (inductionHypothesis entry stored)

/-- A canonical payload stands between two braces. -/
theorem canonicalJson_braces (payload : JsonObject) : ∃ body, Balanced jsonMarks body ∧
    canonicalJson payload = Char.ofNat 123 :: body ++ [Char.ofNat 125] := by
  rw [canonicalJson, Json.canonical_eq, Json.normal_object, Json.dumps, commaSeparated_eq,
    dumpsEntries_eq]
  refine ⟨_, separated_balanced _ fun text member => ?_, rfl⟩
  obtain ⟨entry, -, rfl⟩ := List.mem_map.mp member
  exact entryText_balanced entry.2.dumps_balanced

/-- Names, payload and time of an event are found in their texts, but for the place where the
names end. -/
theorem canonicalJson_inj {names others : Text} {payload other : JsonObject} {time moment : Text}
    (timeUnbraced : Char.ofNat 125 ∉ time) (momentUnbraced : Char.ofNat 125 ∉ moment)
    (same : names ++ canonicalJson payload ++ time = others ++ canonicalJson other ++ moment) :
    names = others ∧ canonicalJson payload = canonicalJson other ∧ time = moment := by
  obtain ⟨body, balanced, text⟩ := canonicalJson_braces payload
  obtain ⟨otherBody, otherBalanced, otherText⟩ := canonicalJson_braces other
  -- Read backwards, the time ends at the first brace.
  have backwards := congrArg List.reverse same
  rw [text, otherText] at backwards
  simp only [List.reverse_append, List.reverse_cons, List.append_assoc, List.nil_append,
    List.cons_append] at backwards
  have ends (tail : Text) :
      Outside (fun char => char ≠ Char.ofNat 125) (Char.ofNat 125 :: tail) := by
    refine outside_cons ?_ tail
    exact not_not_intro rfl
  have unbraced {text : Text} (absent : Char.ofNat 125 ∉ text) :
      ∀ char ∈ text.reverse, char ≠ Char.ofNat 125 := by
    rintro _ member rfl
    exact absent (List.mem_reverse.mp member)
  obtain ⟨times, rest⟩ := append_inj_of_class (unbraced timeUnbraced) (unbraced momentUnbraced)
    (ends _) (ends _) backwards
  have forwards := congrArg List.reverse (List.cons.inj rest).2
  simp only [List.reverse_append, List.reverse_cons, List.append_assoc, List.nil_append,
    List.cons_append, List.reverse_reverse] at forwards
  obtain ⟨rfl, rfl⟩ := open_end_inj balanced otherBalanced (by decide) (by decide) (by decide)
    (by decide) forwards
  exact ⟨rfl, by rw [text, otherText], List.reverse_inj.mp times⟩

/-! ### Aware datetimes -/

/-- The number of days of a month. -/
def daysInMonth (year month : Nat) : Nat :=
  if month = 2 then
    if year % 4 = 0 ∧ (year % 100 ≠ 0 ∨ year % 400 = 0) then 29 else 28
  else if month = 4 ∨ month = 6 ∨ month = 9 ∨ month = 11 then 30
  else 31

/-- `datetime` with an offset from UTC in microseconds. -/
structure AwareDatetime where
  year : Nat
  month : Nat
  day : Nat
  hour : Nat
  minute : Nat
  second : Nat
  microsecond : Nat
  offset : Int
  dateValid : 1 ≤ year ∧ year ≤ 9999 ∧ 1 ≤ month ∧ month ≤ 12 ∧ 1 ≤ day ∧
    day ≤ daysInMonth year month
  timeValid : hour < 24 ∧ minute < 60 ∧ second < 60 ∧ microsecond < 1000000
  offsetValid : offset.natAbs < 86400000000

/-- The text of an offset: seconds and microseconds only where they are not zero. -/
def offsetText (offset : Int) : Text :=
  let micros := offset.natAbs
  let seconds := micros / 1000000 % 60
  let fraction := micros % 1000000
  (if offset < 0 then '-' else '+') :: padded 2 (micros / 3600000000) ++
    ':' :: padded 2 (micros / 60000000 % 60) ++
    (if seconds = 0 ∧ fraction = 0 then []
      else ':' :: padded 2 seconds ++ if fraction = 0 then [] else '.' :: padded 6 fraction)

/-- The text of a date, a time of day and an offset. -/
def isoText (year month day hour minute second microsecond : Nat) (offset : Int) : Text :=
  padded 4 year ++ '-' :: padded 2 month ++ '-' :: padded 2 day ++
    'T' :: padded 2 hour ++ ':' :: padded 2 minute ++ ':' :: padded 2 second ++
    (if microsecond = 0 then [] else '.' :: padded 6 microsecond) ++ offsetText offset

/-- `datetime.isoformat()` of an aware datetime. -/
def AwareDatetime.isoformat (time : AwareDatetime) : Text :=
  isoText time.year time.month time.day time.hour time.minute time.second time.microsecond
    time.offset

/-- A UTC datetime prints the offset zero. -/
theorem isoformat_eq_isoText (time : Timestamp) :
    ∃ year month day hour minute second microsecond,
      isoformat time = isoText year month day hour minute second microsecond 0 :=
  ⟨_, _, _, _, _, _, _, rfl⟩

theorem padded_length {width value : Nat} (positive : 0 < width) (fits : value < 10 ^ width) :
    (padded width value).length = width := by
  have short : (decimal value).length ≤ width :=
    (Nat.length_toDigits_le_iff (by decide) positive).mpr fits
  rw [padded, List.length_append, List.length_replicate]
  omega

/-- The characters of the texts of datetimes. -/
def clockChar (char : Char) : Bool :=
  char.isDigit || char = '-' || char = '+' || char = ':' || char = '.' || char = 'T'

theorem padded_clockChar (width value : Nat) : ∀ char ∈ padded width value, clockChar char = true :=
  fun char member => by simp [clockChar, padded_isDigit member]

theorem offsetText_clockChar (offset : Int) :
    ∀ char ∈ offsetText offset, clockChar char = true := by
  unfold offsetText
  simp only [List.forall_mem_append, List.cons_append, List.forall_mem_cons]
  refine ⟨by split <;> rfl, ⟨padded_clockChar _ _, rfl, padded_clockChar _ _⟩, ?_⟩
  split
  · exact fun _ member => absurd member List.not_mem_nil
  · simp only [List.forall_mem_append, List.forall_mem_cons]
    refine ⟨rfl, padded_clockChar _ _, ?_⟩
    split
    · exact fun _ member => absurd member List.not_mem_nil
    · exact List.forall_mem_cons.mpr ⟨rfl, padded_clockChar _ _⟩

theorem isoText_clockChar (year month day hour minute second microsecond : Nat) (offset : Int) :
    ∀ char ∈ isoText year month day hour minute second microsecond offset,
      clockChar char = true := by
  unfold isoText
  simp only [List.forall_mem_append, List.forall_mem_cons]
  refine ⟨⟨⟨⟨⟨⟨⟨padded_clockChar _ _, rfl, padded_clockChar _ _⟩, rfl, padded_clockChar _ _⟩, rfl,
    padded_clockChar _ _⟩, rfl, padded_clockChar _ _⟩, rfl, padded_clockChar _ _⟩, ?_⟩,
    offsetText_clockChar offset⟩
  split
  · exact fun _ member => absurd member List.not_mem_nil
  · exact List.forall_mem_cons.mpr ⟨rfl, padded_clockChar _ _⟩

theorem isoText_unbraced (year month day hour minute second microsecond : Nat) (offset : Int) :
    Char.ofNat 125 ∉ isoText year month day hour minute second microsecond offset :=
  fun member => absurd (isoText_clockChar _ _ _ _ _ _ _ _ _ member) (by decide)

theorem clockChar_ascii {char : Char} (clock : clockChar char = true) : char.val ≤ 127 := by
  simp only [clockChar, Bool.or_eq_true, decide_eq_true_eq, Char.isDigit, Bool.and_eq_true] at clock
  rcases clock with ((((digit | rfl) | rfl) | rfl) | rfl) | rfl
  · exact UInt32.le_trans digit.2 (by decide)
  all_goals decide

/-- Each character of the text of a datetime is one byte. -/
theorem utf8_length_clockChar {text : Text} (clock : ∀ char ∈ text, clockChar char = true) :
    (utf8 text).length = text.length := by
  induction text with
  | nil => rfl
  | cons char rest inductionHypothesis =>
    have one : (String.utf8EncodeChar char).length = 1 := by
      rw [String.length_utf8EncodeChar, Char.utf8Size_eq_one_iff]
      exact clockChar_ascii (clock char List.mem_cons_self)
    rw [utf8, List.flatMap_cons, List.length_append, one, List.length_cons, Nat.add_comm]
    exact congrArg (· + 1) (inductionHypothesis fun other member =>
      clock other (List.mem_cons_of_mem _ member))

/-- The text of a datetime is no shorter than date, time and offset without fractions. -/
theorem isoText_length (year month day hour minute second microsecond : Nat) (offset : Int) :
    25 ≤ (isoText year month day hour minute second microsecond offset).length := by
  unfold isoText offsetText
  have four := le_padded_length 4 year
  have two := le_padded_length 2
  simp only [List.length_append, List.length_cons]
  have := two month
  have := two day
  have := two hour
  have := two minute
  have := two second
  have := two (offset.natAbs / 3600000000)
  have := two (offset.natAbs / 60000000 % 60)
  omega

theorem daysInMonth_le (year month : Nat) : daysInMonth year month ≤ 31 := by
  unfold daysInMonth
  split_ifs <;> omega

/-- The text of a datetime exceeds a hash by at most ten bytes. -/
theorem AwareDatetime.isoformat_length_le (time : AwareDatetime) : time.isoformat.length ≤ 42 := by
  obtain ⟨-, years, -, months, -, days⟩ := time.dateValid
  obtain ⟨hours, minutes, seconds, microseconds⟩ := time.timeValid
  have offsets := time.offsetValid
  have monthDays := daysInMonth_le time.year time.month
  have two {value : Nat} (fits : value < 100) : (padded 2 value).length = 2 :=
    padded_length (by decide) fits
  have six {value : Nat} (fits : value < 1000000) : (padded 6 value).length = 6 :=
    padded_length (by decide) fits
  have offset : (offsetText time.offset).length ≤ 16 := by
    have hour : time.offset.natAbs / 3600000000 < 100 := by omega
    have minute : time.offset.natAbs / 60000000 % 60 < 100 := by omega
    have second : time.offset.natAbs / 1000000 % 60 < 100 := by omega
    have fraction : time.offset.natAbs % 1000000 < 1000000 := by omega
    unfold offsetText
    simp only [List.length_append, List.length_cons, two hour, two minute]
    split_ifs <;> simp [two second, six fraction]
  have year : (padded 4 time.year).length = 4 := padded_length (by decide) (by omega)
  unfold isoformat isoText
  simp only [List.length_append, List.length_cons, year, two (show time.month < 100 by omega),
    two (show time.day < 100 by omega), two (show time.hour < 100 by omega),
    two (show time.minute < 100 by omega), two (show time.second < 100 by omega)]
  split_ifs
  · simp only [List.length_nil]
    omega
  · simp only [List.length_cons, six microseconds]
    omega

theorem AwareDatetime.isoformat_clockChar (time : AwareDatetime) :
    ∀ char ∈ time.isoformat, clockChar char = true := isoText_clockChar _ _ _ _ _ _ _ _

theorem AwareDatetime.isoformat_unbraced (time : AwareDatetime) :
    Char.ofNat 125 ∉ time.isoformat := isoText_unbraced _ _ _ _ _ _ _ _

theorem AwareDatetime.le_isoformat_length (time : AwareDatetime) : 25 ≤ time.isoformat.length :=
  isoText_length _ _ _ _ _ _ _ _

/-! ### The hashed bytes -/

theorem utf8_append (first second : Text) : utf8 (first ++ second) = utf8 first ++ utf8 second :=
  List.flatMap_append

/-- Bytes that open with the identifiers of an event and its run. -/
theorem identifiers_inj {firstId secondId firstRun secondRun : UUID} {first second : List UInt8}
    (same : firstId.bytes ++ firstRun.bytes ++ first =
      secondId.bytes ++ secondRun.bytes ++ second) :
    firstId = secondId ∧ firstRun = secondRun ∧ first = second := by
  obtain ⟨identifiers, rest⟩ := List.append_inj same (by simp)
  obtain ⟨ids, runs⟩ := List.append_inj identifiers (by simp)
  exact ⟨UUID.bytes_injective ids, UUID.bytes_injective runs, rest⟩

/-- Two stored events with the same hashed bytes and equally long previous hashes have the same
content, but for the place where the actor ends. -/
theorem AuditEventModel.hashedBytes_determine {first second : AuditEventModel}
    (same : first.hashedBytes = second.hashedBytes)
    (sizes : (first.prevEventHash.getD []).length = (second.prevEventHash.getD []).length) :
    first.auditEventId = second.auditEventId ∧ first.workflowRunId = second.workflowRunId ∧
      first.actor ++ first.eventType = second.actor ++ second.eventType ∧
      canonicalJson first.payload = canonicalJson second.payload ∧
      isoformat first.occurredAt = isoformat second.occurredAt ∧
      first.prevEventHash.getD [] = second.prevEventHash.getD [] := by
  have unbraced (time : Timestamp) : Char.ofNat 125 ∉ isoformat time := by
    obtain ⟨_, _, _, _, _, _, _, text⟩ := isoformat_eq_isoText time
    rw [text]
    exact isoText_unbraced _ _ _ _ _ _ _ _
  have regrouped (event : AuditEventModel) : event.hashedBytes =
      event.auditEventId.bytes ++ event.workflowRunId.bytes ++
        (utf8 (event.actor.toList ++ event.eventType.toList ++ canonicalJson event.payload ++
          isoformat event.occurredAt) ++ event.prevEventHash.getD []) := by
    simp only [hashedBytes, InsuranceOps.hashedBytes, utf8_append, List.append_assoc]
  rw [regrouped, regrouped] at same
  obtain ⟨identifiers, runs, rest⟩ := identifiers_inj same
  obtain ⟨texts, hashes⟩ := List.append_inj' rest sizes
  obtain ⟨names, payload, occurredAt⟩ := canonicalJson_inj (unbraced _) (unbraced _)
    (utf8_injective texts)
  refine ⟨identifiers, runs, String.toList_inj.mp ?_, payload, occurredAt, hashes⟩
  rw [String.toList_append, String.toList_append, names]

/-- The arguments of one `compute_event_hash` call; a previous hash has 32 bytes. -/
structure HashedEvent where
  auditEventId : UUID
  workflowRunId : UUID
  actor : String
  eventType : String
  payload : JsonObject
  occurredAt : AwareDatetime
  prevEventHash : Option { hash : Digest // hash.length = 32 }

namespace HashedEvent

/-- The bytes of the previous hash, none for an event without one. -/
def prevBytes (event : HashedEvent) : List UInt8 :=
  match event.prevEventHash with
  | some hash => hash.val
  | none => []

/-- The bytes `compute_event_hash` feeds to SHA-256. -/
def bytes (event : HashedEvent) : List UInt8 :=
  event.auditEventId.bytes ++ event.workflowRunId.bytes ++ utf8 event.actor.toList ++
    utf8 event.eventType.toList ++ utf8 (canonicalJson event.payload) ++
    utf8 event.occurredAt.isoformat ++ event.prevBytes

/-- What the hashed bytes hold between the identifiers and the previous hash. -/
def text (event : HashedEvent) : Text :=
  event.actor.toList ++ event.eventType.toList ++ canonicalJson event.payload ++
    event.occurredAt.isoformat

theorem bytes_eq (event : HashedEvent) :
    event.bytes = event.auditEventId.bytes ++ event.workflowRunId.bytes ++
      (utf8 event.text ++ event.prevBytes) := by
  simp only [bytes, text, utf8_append, List.append_assoc]

/-- Two events have one content but for the place where the actor ends. -/
structure SameContent (first second : HashedEvent) : Prop where
  names : first.actor ++ first.eventType = second.actor ++ second.eventType
  payload : canonicalJson first.payload = canonicalJson second.payload
  occurredAt : first.occurredAt.isoformat = second.occurredAt.isoformat
  prevEventHash : first.prevEventHash = second.prevEventHash

/-- The first event has no previous hash, its time is shorter than a hash, and the second event has
a previous hash. -/
def ShortOpening (first second : HashedEvent) : Prop :=
  first.prevEventHash = none ∧ first.occurredAt.isoformat.length < 32 ∧
    second.prevEventHash ≠ none

theorem sameContent_of_text {first second : HashedEvent} (same : first.text = second.text)
    (hashes : first.prevEventHash = second.prevEventHash) : SameContent first second := by
  obtain ⟨names, payload, occurredAt⟩ := canonicalJson_inj first.occurredAt.isoformat_unbraced
    second.occurredAt.isoformat_unbraced same
  refine ⟨String.toList_inj.mp ?_, payload, occurredAt, hashes⟩
  rw [String.toList_append, String.toList_append, names]

/-- A time as long as a hash leaves no room for a hash at the end of the bytes. -/
theorem no_hash_behind {first second : HashedEvent} {hash : List UInt8} (size : hash.length = 32)
    (long : 32 ≤ first.occurredAt.isoformat.length) :
    utf8 first.text ≠ utf8 second.text ++ hash := by
  intro same
  -- Cut the last 32 characters off the time.
  obtain ⟨front, back, cut, backSize⟩ : ∃ front back,
      first.occurredAt.isoformat = front ++ back ∧ back.length = 32 :=
    ⟨_, _, (List.take_append_drop (first.occurredAt.isoformat.length - 32) _).symm, by
      rw [List.length_drop]
      omega⟩
  have clock := first.occurredAt.isoformat_clockChar
  rw [cut, List.forall_mem_append] at clock
  rw [text, cut, ← List.append_assoc, utf8_append _ back] at same
  obtain ⟨texts, -⟩ := List.append_inj' same (by
    rw [utf8_length_clockChar clock.2, backSize, size])
  obtain ⟨-, -, times⟩ := canonicalJson_inj
    (fun member => absurd (clock.1 _ member) (by decide)) second.occurredAt.isoformat_unbraced
    (utf8_injective texts)
  have lengths := congrArg List.length cut
  have upper := first.occurredAt.isoformat_length_le
  have lower := second.occurredAt.le_isoformat_length
  rw [← times] at lower
  rw [List.length_append, backSize] at lengths
  omega

/-- Events with the same hashed bytes have the same identifiers, and their contents are the same but
for the place where the actor ends, unless one has no previous hash and a time shorter than one, and
the other has a previous hash. Identifiers have a fixed length, and the last closing brace and its
match bound the payload; behind it stand the time and the previous hash. -/
theorem bytes_determine (first second : HashedEvent) (same : first.bytes = second.bytes) :
    first.auditEventId = second.auditEventId ∧ first.workflowRunId = second.workflowRunId ∧
      (SameContent first second ∨ ShortOpening first second ∨ ShortOpening second first) := by
  rw [bytes_eq, bytes_eq] at same
  obtain ⟨identifiers, runs, rest⟩ := identifiers_inj same
  refine ⟨identifiers, runs, ?_⟩
  cases firstHash : first.prevEventHash with
  | none =>
    cases secondHash : second.prevEventHash with
    | none =>
      rw [prevBytes, prevBytes, firstHash, secondHash, List.append_nil, List.append_nil] at rest
      exact .inl (sameContent_of_text (utf8_injective rest) (by rw [firstHash, secondHash]))
    | some hash =>
      rw [prevBytes, prevBytes, firstHash, secondHash, List.append_nil] at rest
      refine .inr (.inl ⟨firstHash, ?_, by rw [secondHash]; exact Option.some_ne_none hash⟩)
      by_contra long
      exact no_hash_behind hash.property (not_lt.mp long) rest
  | some hash =>
    cases secondHash : second.prevEventHash with
    | none =>
      rw [prevBytes, prevBytes, firstHash, secondHash, List.append_nil] at rest
      refine .inr (.inr ⟨secondHash, ?_, by rw [firstHash]; exact Option.some_ne_none hash⟩)
      by_contra long
      exact no_hash_behind hash.property (not_lt.mp long) rest.symm
    | some other =>
      rw [prevBytes, prevBytes, firstHash, secondHash] at rest
      obtain ⟨texts, hashes⟩ := List.append_inj' rest (by rw [hash.property, other.property])
      refine .inl (sameContent_of_text (utf8_injective texts) ?_)
      rw [firstHash, secondHash, Subtype.ext hashes]

/-! ### Two ways to read the bytes -/

/-- A datetime of whole seconds in UTC. -/
def morning : AwareDatetime where
  year := 2025
  month := 1
  day := 15
  hour := 10
  minute := 0
  second := 0
  microsecond := 0
  offset := 0
  dateValid := by decide
  timeValid := by decide
  offsetValid := by decide

/-- An event of an actor whose name ends early. -/
def shortActor : HashedEvent where
  auditEventId := 1
  workflowRunId := 2
  actor := "worker"
  eventType := ":orchestrator.started"
  payload := []
  occurredAt := morning
  prevEventHash := none

/-- The same event with the end of the actor's name moved. -/
def longActor : HashedEvent :=
  { shortActor with actor := "worker:orchestrator", eventType := ".started" }

/-- An event without a previous hash whose payload quotes another event. -/
def quotingOpening : HashedEvent :=
  { shortActor with
    payload := [("k", .string "\x7b\x7d2025-01-15T10:00:00+00:00abcde")] }

/-- The event it quotes, with the rest of the bytes as its previous hash. -/
def quotedEvent : HashedEvent where
  auditEventId := 1
  workflowRunId := 2
  actor := "worker"
  eventType := ":orchestrator.started\x7b\"k\":\""
  payload := []
  occurredAt := morning
  prevEventHash := some ⟨utf8 ("abcde\"\x7d" ++ "2025-01-15T10:00:00+00:00").toList, by decide⟩

/-- Equal bytes leave open where the actor ends, and whether the bytes end in a previous hash. -/
theorem bytes_ambiguous :
    (shortActor.bytes = longActor.bytes ∧ shortActor.actor ≠ longActor.actor) ∧
      quotingOpening.bytes = quotedEvent.bytes ∧
      quotingOpening.eventType ≠ quotedEvent.eventType ∧
      canonicalJson quotingOpening.payload ≠ canonicalJson quotedEvent.payload ∧
      quotingOpening.prevEventHash ≠ quotedEvent.prevEventHash := by
  decide +kernel

/-- What the equal bytes of the two events with a moved name determine. -/
theorem bytes_determine_moved :
    shortActor.auditEventId = longActor.auditEventId ∧
      shortActor.workflowRunId = longActor.workflowRunId ∧
      (SameContent shortActor longActor ∨ ShortOpening shortActor longActor ∨
        ShortOpening longActor shortActor) :=
  bytes_determine shortActor longActor (by decide +kernel)

end HashedEvent

end InsuranceOps
