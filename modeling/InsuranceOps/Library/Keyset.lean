/-
This file develops pagination by a key. A client asks for a page of the rows
beyond a cursor, in the order of their keys, and asks on with the cursor that
comes with the page until none comes. The cursor stands for the last row of the
page, so the next page begins behind all rows with its key. A table that grows
at its end only, by rows with new keys, is read without gaps; a fixed table is
read without gaps exactly when no page ends between two rows with one key.
-/

import Mathlib.Data.List.Sort
import Mathlib.Order.Lattice

namespace Keyset

variable {Row Cursor : Type*}

/-! ### The client -/

/-- How far a client has come: it asks with a cursor and has read some rows, or the request with
some number brought the last page, or a request was refused. -/
inductive Progress (Row Cursor : Type*) where
  | asking (cursor : Option Cursor) (read : List Row)
  | ended (last : Nat) (read : List Row)
  | failed

section Follow

variable (ask : Nat → Option Cursor → Option (List Row × Option Cursor))

/-- What a client has read after so many requests: each is answered by a page and the next
cursor. -/
def follow : Nat → Progress Row Cursor
  | 0 => .asking none []
  | requests + 1 => match follow requests with
    | .asking cursor read => match ask requests cursor with
      | some (page, some next) => .asking (some next) (read ++ page)
      | some (page, none) => .ended requests (read ++ page)
      | none => .failed
    | done => done

variable {ask}

/-- A client that has read the last page asks no more. -/
theorem follow_ended_add {requests last : Nat} {read : List Row}
    (ended : follow ask requests = .ended last read) (more : Nat) :
    follow ask (requests + more) = .ended last read := by
  induction more with
  | zero => exact ended
  | succ more inductionHypothesis => rw [← Nat.add_assoc, follow, inductionHypothesis]

end Follow

/-- What a client has read, as each row is shown. -/
def Progress.map {Shown : Type*} (shown : Row → Shown) : Progress Row Cursor → Progress Shown Cursor
  | .asking cursor read => .asking cursor (read.map shown)
  | .ended last read => .ended last (read.map shown)
  | .failed => .failed

/-- A client that is shown the rows reads what the rows are shown as. -/
theorem follow_map {Shown : Type*} (shown : Row → Shown)
    {ask : Nat → Option Cursor → Option (List Row × Option Cursor)}
    {askShown : Nat → Option Cursor → Option (List Shown × Option Cursor)}
    (shows : ∀ request cursor, askShown request cursor =
      (ask request cursor).map fun answer => (answer.1.map shown, answer.2)) (requests : Nat) :
    follow askShown requests = (follow ask requests).map shown := by
  induction requests with
  | zero => rfl
  | succ requests inductionHypothesis =>
    rw [follow, follow, inductionHypothesis]
    cases follow ask requests with
    | asking cursor read =>
      rw [Progress.map]
      dsimp only
      rw [shows]
      match ask requests cursor with
      | some (page, some next) => simp only [Option.map_some, Progress.map, List.map_append]
      | some (page, none) => simp only [Option.map_some, Progress.map, List.map_append]
      | none => rfl
    | ended last read => rfl
    | failed => rfl

/-! ### Pages -/

/-- The page that is cut from the rows found, one more than the page holds, and the cursor of its
last row if there are more. -/
def cut (text : Row → Cursor) (limit : Nat) (found : List Row) : List Row × Option Cursor :=
  if limit < found.length then (found.take limit, (found.take limit).getLast?.map text)
  else (found, none)

/-- One row more than the page holds tells whether there are more. -/
theorem cut_take (text : Row → Cursor) (limit : Nat) (found : List Row) :
    cut text limit (found.take (limit + 1)) = cut text limit found := by
  unfold cut
  rw [List.length_take, List.take_take, Nat.min_eq_left (Nat.le_succ limit)]
  by_cases more : limit < found.length
  · rw [if_pos (by omega), if_pos more]
  · rw [if_neg (by omega), if_neg more, List.take_of_length_le (by omega)]

section Keys

variable {Key : Type*} [LinearOrder Key] (key : Row → Key)

/-- The rows behind the last one that was read. -/
def beyond (last : Option Row) (rows : List Row) : List Row :=
  rows.filter fun row => last.all fun last => key last < key row

/-- The rows are in the order of their keys. -/
def Ordered (rows : List Row) : Prop := rows.Pairwise fun first second => key first ≤ key second

/-- Every request with the cursor of a row is answered by a page of the rows beyond it, in order. -/
structure Serves (ask : Nat → Option Cursor → Option (List Row × Option Cursor))
    (table : Nat → List Row) (text : Row → Cursor) (limit : Nat → Nat) : Prop where
  positive : ∀ request, 1 ≤ limit request
  answers : ∀ request last, (∀ row, last = some row → row ∈ table request) →
    ∃ found, found.Perm (beyond key last (table request)) ∧ Ordered key found ∧
      ask request (last.map text) = some (cut text (limit request) found)

/-- A table grows at its end, by rows with greater keys. -/
def Grows (table : Nat → List Row) : Prop :=
  ∀ request, ∃ new, table (request + 1) = table request ++ new ∧
    ∀ old ∈ table request, ∀ row ∈ new, key old < key row

/-! ### Rows that were read and rows that remain -/

/-- Rows fall into those that were read, in order, and those that remain, with greater keys. -/
structure Split (rows read rest : List Row) : Prop where
  perm : (read ++ rest).Perm rows
  ordered : Ordered key read
  apart : ∀ row ∈ read, ∀ later ∈ rest, key row < key later

variable {key}

/-- In ordered rows no key is greater than that of the last row. -/
theorem Ordered.le_getLast {rows : List Row} (ordered : Ordered key rows) {last : Row}
    (ends : rows.getLast? = some last) : ∀ row ∈ rows, key row ≤ key last := by
  obtain ⟨initial, rfl⟩ := List.getLast?_eq_some_iff.mp ends
  intro row member
  rcases List.mem_append.mp member with before | same
  · exact (List.pairwise_append.mp ordered).2.2 row before last (List.mem_singleton_self last)
  · rw [List.mem_singleton.mp same]

/-- Ordered rows are those of a table in the order of increasing keys. -/
theorem Ordered.eq_of_perm {rows sorted : List Row} (ordered : Ordered key sorted)
    (perm : sorted.Perm rows)
    (increasing : rows.Pairwise fun first second => key first < key second) :
    sorted = rows := by
  have different : sorted.Pairwise fun first second => key first ≠ key second :=
    (perm.pairwise_iff fun different => different.symm).mpr (increasing.imp fun less => less.ne)
  have strictly : sorted.Pairwise fun first second => key first < key second :=
    List.pairwise_and_iff.mpr ⟨ordered, different⟩ |>.imp fun both => lt_of_le_of_ne both.1 both.2
  exact perm.eq_of_pairwise (fun _ _ _ _ less greater => absurd (less.trans greater) (lt_irrefl _))
    strictly increasing

/-- What is beyond the last row that was read is what remains. -/
theorem Split.beyond_perm {rows read rest : List Row} (split : Split key rows read rest) :
    (beyond key read.getLast? rows).Perm rest := by
  refine (split.perm.symm.filter _).trans ?_
  rw [List.filter_append]
  cases ends : read.getLast? with
  | none =>
    rw [List.getLast?_eq_none_iff.mp ends, List.filter_nil, List.nil_append]
    exact List.Perm.of_eq (List.filter_eq_self.mpr fun _ _ => rfl)
  | some last =>
    have taken : ∀ row ∈ read, ¬(some last).all (fun last => key last < key row) = true := by
      intro row member
      rw [Option.all_some, decide_eq_true_eq, not_lt]
      exact split.ordered.le_getLast ends row member
    have remaining : ∀ row ∈ rest, (some last).all (fun last => key last < key row) = true := by
      intro row member
      exact decide_eq_true (split.apart last (List.mem_of_getLast? ends) row member)
    rw [List.filter_eq_nil_iff.mpr taken, List.nil_append, List.filter_eq_self.mpr remaining]

/-- What was read and what remains, in order, are ordered together. -/
theorem Split.ordered_append {rows read rest found : List Row} (split : Split key rows read rest)
    (perm : found.Perm rest) (ordered : Ordered key found) : Ordered key (read ++ found) :=
  List.pairwise_append.mpr ⟨split.ordered, ordered, fun row member later remaining =>
    (split.apart row member later (perm.subset remaining)).le⟩

/-- The next rows in order move from what remains to what was read. -/
theorem Split.extend {rows read rest next others : List Row} (split : Split key rows read rest)
    (found : (next ++ others).Perm rest) (ordered : Ordered key next)
    (apart : ∀ row ∈ next, ∀ later ∈ others, key row < key later) :
    Split key rows (read ++ next) others where
  perm := by
    rw [List.append_assoc]
    exact (List.Perm.append_left read found).trans split.perm
  ordered := List.pairwise_append.mpr ⟨split.ordered, ordered, fun row member later found' =>
    (split.apart row member later (found.subset (List.mem_append_left _ found'))).le⟩
  apart := by
    intro row member later remaining
    rcases List.mem_append.mp member with before | now
    · exact split.apart row before later (found.subset (List.mem_append_right _ remaining))
    · exact apart row now later remaining

/-- What remains of a table that grows is what remained and what is new. -/
theorem Split.grow {table : Nat → List Row} (grows : Grows key table) {request : Nat}
    {read rest : List Row} (split : Split key (table request) read rest) :
    ∃ more, Split key (table (request + 1)) read more := by
  obtain ⟨new, next, later⟩ := grows request
  refine ⟨rest ++ new, ?_, split.ordered, fun row member other found => ?_⟩
  · rw [next, ← List.append_assoc]
    exact split.perm.append_right new
  · rcases List.mem_append.mp found with old | added
    · exact split.apart row member other old
    · exact later row (split.perm.subset (List.mem_append_left rest member)) other added

/-! ### One request -/

section Request

variable {ask : Nat → Option Cursor → Option (List Row × Option Cursor)} {table : Nat → List Row}
  {text : Row → Cursor} {limit : Nat → Nat}

/-- What one more request does where the cursor is that of the last row read. -/
theorem follow_next (serves : Serves key ask table text limit) {request : Nat} {last : Option Row}
    {read : List Row} (stored : ∀ row, last = some row → row ∈ table request)
    (asking : follow ask request = .asking (last.map text) read) :
    ∃ found, found.Perm (beyond key last (table request)) ∧ Ordered key found ∧
      ((found.length ≤ limit request ∧
          follow ask (request + 1) = .ended request (read ++ found)) ∨
        limit request < found.length ∧ ∃ row, (found.take (limit request)).getLast? = some row ∧
          follow ask (request + 1) =
            .asking (some (text row)) (read ++ found.take (limit request))) := by
  obtain ⟨found, perm, ordered, answer⟩ := serves.answers request last stored
  refine ⟨found, perm, ordered, ?_⟩
  rw [follow, asking]
  dsimp only
  rw [answer, cut]
  by_cases more : limit request < found.length
  · have positive := serves.positive request
    have some : found.take (limit request) ≠ [] := by
      rw [ne_eq, List.take_eq_nil_iff, ← List.length_eq_zero_iff]
      omega
    refine .inr ⟨more, _, List.getLast?_eq_some_getLast some, ?_⟩
    rw [if_pos more, List.getLast?_eq_some_getLast some]
    rfl
  · rw [if_neg more]
    exact .inl ⟨Nat.le_of_not_lt more, rfl⟩

variable (key ask text) in
/-- The client asks with the cursor of the last row it has read, and what it has read are the first
rows of the table. -/
structure Asking (rows : List Row) (request : Nat) (read rest : List Row) : Prop where
  asking : follow ask request = .asking (read.getLast?.map text) read
  split : Split key rows read rest

/-- One more request reads the first rows that remain. -/
theorem Asking.next (serves : Serves key ask table text limit) {request : Nat}
    {read rest : List Row} (now : Asking key ask text (table request) request read rest) :
    (rest.length ≤ limit request ∧ ∃ all, follow ask (request + 1) = .ended request all ∧
        all.Perm (table request) ∧ Ordered key all) ∨
      limit request < rest.length ∧ ∃ page others, (page ++ others).Perm rest ∧
        Ordered key (page ++ others) ∧ page.length = limit request ∧
        follow ask (request + 1) = .asking ((read ++ page).getLast?.map text) (read ++ page) := by
  have stored (row : Row) (last : read.getLast? = some row) : row ∈ table request :=
    now.split.perm.subset (List.mem_append_left rest (List.mem_of_getLast? last))
  obtain ⟨found, perm, ordered, ⟨few, ended⟩ | ⟨more, row, last, asking⟩⟩ :=
    follow_next serves stored now.asking
  · have whole := perm.trans now.split.beyond_perm
    rw [whole.length_eq] at few
    have behind : (found ++ []).Perm rest := by rwa [List.append_nil]
    have all := now.split.extend behind ordered fun _ _ _ none => absurd none List.not_mem_nil
    exact .inl ⟨few, _, ended, by simpa only [List.append_nil] using all.perm, all.ordered⟩
  · have whole := perm.trans now.split.beyond_perm
    have length : (found.take (limit request)).length = limit request :=
      List.length_take_of_le more.le
    rw [whole.length_eq] at more
    refine .inr ⟨more, found.take (limit request), found.drop (limit request), ?_, ?_, length, ?_⟩
    · rwa [List.take_append_drop]
    · rwa [List.take_append_drop]
    · rw [asking, List.getLast?_append, last]
      rfl

/-! ### Tables that grow -/

/-- A client of a growing table whose rows have different keys is asking, with a row read in each
request, or it has read the table of its last request. -/
theorem follow_distinct (serves : Serves key ask table text limit) (grows : Grows key table)
    (distinct : ∀ request, (table request).Pairwise fun first second => key first ≠ key second)
    (request : Nat) :
    (∃ read rest, Asking key ask text (table request) request read rest ∧ request ≤ read.length) ∨
      ∃ last < request, ∃ all, follow ask request = .ended last all ∧ all.Perm (table last) ∧
        Ordered key all := by
  induction request with
  | zero =>
    refine .inl ⟨[], table 0, ⟨rfl, ?_⟩, Nat.le_refl 0⟩
    exact ⟨List.Perm.refl _, List.Pairwise.nil, fun _ none => absurd none List.not_mem_nil⟩
  | succ request inductionHypothesis =>
    rcases inductionHypothesis with ⟨read, rest, now, progress⟩ | ⟨last, before, all, ended, whole⟩
    · rcases now.next serves with
        ⟨-, all, ended, whole⟩ | ⟨-, page, others, found, ordered, length, asking⟩
      · exact .inr ⟨request, Nat.lt_succ_self request, all, ended, whole⟩
      · -- Ordered rows with different keys have increasing keys, so no page ends between equals.
        have different : (page ++ others).Pairwise fun first second => key first ≠ key second := by
          have all := (now.split.perm.pairwise_iff fun different => different.symm).mpr
            (distinct request)
          exact (found.pairwise_iff fun different => different.symm).mpr
            (List.pairwise_append.mp all).2.1
        have apart : ∀ row ∈ page, ∀ later ∈ others, key row < key later :=
          fun row member later behind =>
            lt_of_le_of_ne ((List.pairwise_append.mp ordered).2.2 row member later behind)
              ((List.pairwise_append.mp different).2.2 row member later behind)
        obtain ⟨more, split⟩ := (now.split.extend found (List.pairwise_append.mp ordered).1
          apart).grow grows
        have positive := serves.positive request
        refine .inl ⟨read ++ page, more, ⟨asking, split⟩, ?_⟩
        rw [List.length_append, length]
        omega
    · refine .inr ⟨last, Nat.lt_succ_of_lt before, all, ?_, whole⟩
      exact follow_ended_add ended 1

/-- No request is refused. -/
theorem follow_ne_failed (serves : Serves key ask table text limit) (grows : Grows key table)
    (distinct : ∀ request, (table request).Pairwise fun first second => key first ≠ key second)
    (request : Nat) : follow ask request ≠ .failed := by
  rcases follow_distinct serves grows distinct request with
    ⟨read, rest, now, -⟩ | ⟨_, _, _, ended, -⟩
  · rw [now.asking]
    exact nofun
  · rw [ended]
    exact nofun

/-- The last request has read its table. -/
theorem follow_complete (serves : Serves key ask table text limit) (grows : Grows key table)
    (distinct : ∀ request, (table request).Pairwise fun first second => key first ≠ key second)
    {request last : Nat} {read : List Row} (ended : follow ask request = .ended last read) :
    read.Perm (table last) ∧ Ordered key read := by
  rcases follow_distinct serves grows distinct request with
    ⟨_, _, now, -⟩ | ⟨last', _, all, otherEnded, whole⟩
  · rw [now.asking] at ended
    cases ended
  · rw [otherEnded] at ended
    cases ended
    exact whole

/-- The client ends if the table stops growing. -/
theorem follow_ends (serves : Serves key ask table text limit) (grows : Grows key table)
    (distinct : ∀ request, (table request).Pairwise fun first second => key first ≠ key second)
    {final : Nat} (still : ∀ request, final ≤ request → table request = table final) :
    ∃ request last read, follow ask request = .ended last read := by
  rcases follow_distinct serves grows distinct (final + (table final).length + 1) with
    ⟨read, rest, now, progress⟩ | ⟨last, _, read, ended, -⟩
  · have length := now.split.perm.length_eq
    rw [still _ (by omega), List.length_append] at length
    omega
  · exact ⟨_, last, read, ended⟩

end Request

/-! ### Fixed tables -/

section Fixed

variable (key) in
/-- The keys of some rows, in order. -/
def keys (rows : List Row) : List Key := (rows.map key).insertionSort (· ≤ ·)

variable (key) in
/-- The rows in front of a place in the order of the keys and the rows behind it have different
keys. -/
def Untied (rows : List Row) (place : Nat) : Prop :=
  (keys key rows)[place - 1]? ≠ (keys key rows)[place]?

/-- Ordered rows have the keys in order. -/
theorem Ordered.map_eq_keys {rows sorted : List Row} (ordered : Ordered key sorted)
    (perm : sorted.Perm rows) : sorted.map key = keys key rows := by
  refine List.Perm.eq_of_pairwise (fun _ _ _ _ => le_antisymm) (List.pairwise_map.mpr ordered)
    (List.pairwise_insertionSort _ _) ?_
  exact (perm.map key).trans (List.perm_insertionSort _ _).symm

/-- A place is untied exactly when all rows in front of it have smaller keys than the rows behind
it. -/
theorem untied_iff {rows front back : List Row} (ordered : Ordered key (front ++ back))
    (perm : (front ++ back).Perm rows) (before : front ≠ []) (behind : back ≠ []) :
    Untied key rows front.length ↔ ∀ row ∈ front, ∀ later ∈ back, key row < key later := by
  obtain ⟨initial, last, rfl⟩ := (List.eq_nil_or_concat front).resolve_left before
  obtain ⟨first, others, rfl⟩ := List.exists_cons_of_ne_nil behind
  rw [List.concat_eq_append] at ordered perm ⊢
  obtain ⟨frontOrdered, backOrdered, across⟩ := List.pairwise_append.mp ordered
  have lastMember : last ∈ initial ++ [last] :=
    List.mem_append_right _ (List.mem_singleton_self last)
  have borders : Untied key rows (initial ++ [last]).length ↔ key last ≠ key first := by
    have length : (initial ++ [last]).length = initial.length + 1 := List.length_append
    have split : ((initial ++ [last]) ++ first :: others).map key =
        initial.map key ++ key last :: key first :: others.map key := by
      simp only [List.map_append, List.map_cons, List.append_assoc, List.cons_append,
        List.nil_append]
    have lastPlace : initial.length = (initial.map key).length := (List.length_map key).symm
    unfold Untied
    rw [← ordered.map_eq_keys perm, length, Nat.add_sub_cancel, split, lastPlace,
      List.getElem?_append_right (Nat.le_refl _), List.getElem?_append_right (Nat.le_succ _),
      Nat.succ_sub (Nat.le_refl _), Nat.sub_self]
    exact not_congr Option.some_inj
  rw [borders]
  constructor
  · intro different row member later remaining
    have upper : key row ≤ key last :=
      Ordered.le_getLast frontOrdered List.getLast?_concat row member
    have border : key last < key first :=
      lt_of_le_of_ne (across last lastMember first List.mem_cons_self) different
    have lower : key first ≤ key later := by
      rcases List.mem_cons.mp remaining with rfl | other
      · exact le_refl _
      · exact (List.pairwise_cons.mp backOrdered).1 later other
    exact (upper.trans_lt border).trans_le lower
  · exact fun apart => (apart last lastMember first List.mem_cons_self).ne

variable {ask : Nat → Option Cursor → Option (List Row × Option Cursor)} {rows : List Row}
  {text : Row → Cursor} {size : Nat}

/-- While no page has ended between two rows with one key, a client of a fixed table is asking with
full pages read, or it has read the table. -/
theorem follow_untied (serves : Serves key ask (fun _ => rows) text fun _ => size) (request : Nat)
    (untied : ∀ page, 0 < page → page ≤ request → page * size < rows.length →
      Untied key rows (page * size)) :
    (∃ read rest, Asking key ask text rows request read rest ∧ read.length = request * size ∧
        (request = 0 ∨ request * size < rows.length)) ∨
      (rows.length ≤ request * size ∧
        ∃ last all, follow ask request = .ended last all ∧ all.Perm rows ∧ Ordered key all) := by
  induction request with
  | zero =>
    refine .inl ⟨[], rows, ⟨rfl, ?_⟩, (Nat.zero_mul size).symm, .inl rfl⟩
    exact ⟨List.Perm.refl _, List.Pairwise.nil, fun _ none => absurd none List.not_mem_nil⟩
  | succ request inductionHypothesis =>
    have positive := serves.positive request
    have product : (request + 1) * size = request * size + size := Nat.succ_mul request size
    rcases inductionHypothesis
      fun page some before => untied page some (Nat.le_succ_of_le before) with
      ⟨read, rest, now, length, -⟩ | ⟨enough, last, all, ended, whole⟩
    · have total := now.split.perm.length_eq
      rw [List.length_append, length] at total
      rcases now.next serves with
        ⟨few, all, ended, whole⟩ | ⟨more, page, others, found, ordered, pageLength, asking⟩
      · exact .inr ⟨by omega, request, all, ended, whole⟩
      · have allOrdered := now.split.ordered_append found ordered
        have allPerm := (List.Perm.append_left read found).trans now.split.perm
        rw [← List.append_assoc] at allOrdered allPerm
        have place : (read ++ page).length = (request + 1) * size := by
          rw [List.length_append, length, pageLength, product]
        have otherLength := found.length_eq
        rw [List.length_append, pageLength] at otherLength
        have inside : (request + 1) * size < rows.length := by omega
        have before : read ++ page ≠ [] := List.ne_nil_of_length_pos (by omega)
        have behind : others ≠ [] := List.ne_nil_of_length_pos (by omega)
        have border := untied (request + 1) (Nat.succ_pos request) (Nat.le_refl _) inside
        rw [← place] at border
        refine .inl ⟨read ++ page, others, ⟨asking, allPerm, ?_, ?_⟩, place, .inr inside⟩
        · exact (List.pairwise_append.mp allOrdered).1
        · exact (untied_iff allOrdered allPerm before behind).mp border
    · exact .inr ⟨by omega, last, all, follow_ended_add ended 1, whole⟩

/-- A client never reads a row whose key is at most that of its cursor. -/
theorem follow_skips (serves : Serves key ask (fun _ => rows) text fun _ => size) {request : Nat}
    {last : Row} {read : List Row} (stored : last ∈ rows)
    (asking : follow ask request = .asking (some (text last)) read) (more : Nat) :
    (∃ later all, follow ask (request + more) = .asking (some (text later)) all ∧ later ∈ rows ∧
        key last ≤ key later ∧ all.countP (key · ≤ key last) = read.countP (key · ≤ key last)) ∨
      ∃ final all, follow ask (request + more) = .ended final all ∧
        all.countP (key · ≤ key last) = read.countP (key · ≤ key last) := by
  induction more with
  | zero => exact .inl ⟨last, read, asking, stored, le_refl _, rfl⟩
  | succ more inductionHypothesis =>
    rcases inductionHypothesis with
      ⟨later, all, asking, stored, behind, count⟩ | ⟨final, all, ended, count⟩
    · have known (row : Row) (same : some later = some row) : row ∈ rows :=
        Option.some.inj same ▸ stored
      obtain ⟨found, perm, -, step⟩ := follow_next serves known asking
      have beyond : ∀ row ∈ found, key last < key row := fun row member =>
        behind.trans_lt (of_decide_eq_true (List.mem_filter.mp (perm.subset member)).2)
      have none {page : List Row} (taken : page ⊆ found) : page.countP (key · ≤ key last) = 0 :=
        List.countP_eq_zero.mpr fun row member low =>
          absurd (of_decide_eq_true low) (not_le_of_gt (beyond row (taken member)))
      rcases step with ⟨-, ended⟩ | ⟨-, row, ends, next⟩
      · refine .inr ⟨_, _, ended, ?_⟩
        rw [List.countP_append, none (List.Subset.refl found), count, Nat.add_zero]
      · have inPage := List.mem_of_mem_take (List.mem_of_getLast? ends)
        have inRows : row ∈ rows := (List.mem_filter.mp (perm.subset inPage)).1
        refine .inl ⟨row, _, next, inRows, (beyond row inPage).le, ?_⟩
        rw [List.countP_append, none (List.take_subset _ found), count, Nat.add_zero]
    · exact .inr ⟨final, all, follow_ended_add ended 1, count⟩

/-- Where a page ends between two rows with one key, the client does not read every row. -/
theorem hides_tied (serves : Serves key ask (fun _ => rows) text fun _ => size)
    {request final last : Nat} {read rest page others all : List Row}
    (now : Asking key ask text rows request read rest) (found : (page ++ others).Perm rest)
    (ordered : Ordered key (page ++ others)) (some : 0 < page.length) (more : 0 < others.length)
    (tied : ¬Untied key rows (read ++ page).length)
    (asking : follow ask (request + 1) =
      .asking ((read ++ page).getLast?.map text) (read ++ page))
    (ended : follow ask final = .ended last all) : ¬all.Perm rows := by
  intro whole
  have allOrdered := now.split.ordered_append found ordered
  have allPerm := (List.Perm.append_left read found).trans now.split.perm
  rw [← List.append_assoc] at allOrdered allPerm
  have before : read ++ page ≠ [] := List.ne_nil_of_length_pos (by rw [List.length_append]; omega)
  obtain ⟨row, taken, later, remaining, same⟩ : ∃ row ∈ read ++ page, ∃ later ∈ others,
      key later ≤ key row := by
    by_contra apart
    push Not at apart
    exact tied ((untied_iff allOrdered allPerm before (List.ne_nil_of_length_pos more)).mpr apart)
  obtain ⟨greatest, ends⟩ := Option.ne_none_iff_exists'.mp
    (fun none => before (List.getLast?_eq_none_iff.mp none))
  rw [ends] at asking
  have greatestMember := List.mem_of_getLast? ends
  have upper : key row ≤ key greatest :=
    Ordered.le_getLast (List.pairwise_append.mp allOrdered).1 ends row taken
  have unread : 0 < others.countP (key · ≤ key greatest) :=
    List.countP_pos_iff.mpr ⟨later, remaining, decide_eq_true (same.trans upper)⟩
  have total := allPerm.countP_eq (key · ≤ key greatest)
  rw [List.countP_append] at total
  have stored := allPerm.subset (List.mem_append_left others greatestMember)
  have sameTotal := whole.countP_eq (key · ≤ key greatest)
  have still := follow_ended_add ended (request + 1)
  rw [Nat.add_comm] at still
  rcases follow_skips serves stored asking final with ⟨_, _, other, -⟩ | ⟨_, _, other, count⟩
  · rw [still] at other
    cases other
  · rw [still] at other
    cases other
    omega

/-- A client of a fixed table reads every row once exactly when no page ends between two rows with
one key. -/
theorem reads_all_iff (serves : Serves key ask (fun _ => rows) text fun _ => size) :
    (∃ request last read, follow ask request = .ended last read ∧ read.Perm rows) ↔
      ∀ page, 0 < page → page * size < rows.length → Untied key rows (page * size) := by
  have positive := serves.positive 0
  constructor
  · rintro ⟨request, last, read, ended, whole⟩ page
    -- The first page that ends between two rows with one key hides the second of them for good.
    induction page using Nat.strong_induction_on with
    | _ page inductionHypothesis =>
      intro some inside
      by_contra tied
      obtain ⟨previous, rfl⟩ := Nat.exists_eq_add_one_of_ne_zero some.ne'
      have product : (previous + 1) * size = previous * size + size := Nat.succ_mul previous size
      rcases follow_untied serves previous fun other positive before =>
          inductionHypothesis other (Nat.lt_succ_of_le before) positive with
        ⟨front, rest, now, length, -⟩ | ⟨enough, -⟩
      · have total := now.split.perm.length_eq
        rw [List.length_append, length] at total
        rcases now.next serves with
          ⟨few, -⟩ | ⟨more, next, others, found, ordered, nextLength, asking⟩
        · omega
        · have otherLength := found.length_eq
          rw [List.length_append] at otherLength
          exact hides_tied serves now found ordered (by omega) (by omega)
            (by rwa [List.length_append, length, nextLength, ← product]) asking ended whole
      · omega
  · intro untied
    rcases follow_untied serves (rows.length + 1) fun page some _ => untied page some with
      ⟨read, rest, now, length, none | inside⟩ | ⟨-, last, all, ended, whole, -⟩
    · cases none
    · have := Nat.le_mul_of_pos_right (rows.length + 1) positive
      omega
    · exact ⟨_, last, all, ended, whole⟩

end Fixed

end Keys

end Keyset
