/-
This file models concurrent calls of the local payload store for one content
hash: any number of writes, each opening the temporary file, writing it chunk by
chunk, closing it and renaming it over the payload, and any number of reads. The
temporary file is named after the hash alone, so the writes share it. Where none
is opened while another one is under way, all of them succeed and every read
after the first gets the data; where one is, some call raises.
-/

import InsuranceOps.Json
import InsuranceOps.Library.Files
import InsuranceOps.Library.Transition

namespace InsuranceOps

open Files

namespace LocalPayloadStore

/-! ### Paths -/

/-- `_content_hash_to_ref`: `content_hash.hex()`. -/
def contentHashToRef (contentHash : Vector UInt8 32) : Text :=
  contentHash.toList.flatMap fun byte => [hexDigit (byte.toNat / 16), hexDigit (byte.toNat % 16)]

/-- `_ref_to_path`. -/
def refToPath (basePath payloadRef : Text) : Text := basePath ++ '/' :: payloadRef

/-- `path.with_suffix(".tmp")` of a path whose last part has no dot. -/
def tmpPath (path : Text) : Text := path ++ ".tmp".toList

theorem tmpPath_ne (path : Text) : tmpPath path ≠ path := fun same => by
  have longer := congrArg List.length same
  rw [tmpPath, List.length_append] at longer
  exact absurd longer (Nat.ne_of_gt (Nat.lt_add_of_pos_right (by decide)))

/-! ### Calls -/

/-- Where a call of `write` is: before the open, in `write_bytes` with the inode it has opened and
what it has written, before the rename, in the handler of its failure, or at its end. -/
inductive WriteCall where
  | waiting
  | writing (inode offset : Nat)
  | closed
  | failing
  | unlinking
  | returned
  | raised
  deriving DecidableEq

/-- Where a call of `read` is: before the open, in `read_bytes` with what it has received, or at its
end. -/
inductive ReadCall where
  | waiting
  | reading (inode : Nat) (received : List UInt8)
  | returned (data : List UInt8)
  | notFound
  deriving DecidableEq

/-- The system calls of a write; a chunk has one byte more than the number says, or what is left. -/
inductive WriteAction where
  | openTmp
  | writeChunk (count : Nat)
  | close
  | replace
  | exists
  | unlink
  deriving DecidableEq

/-- The system calls of a read. -/
inductive ReadAction where
  | openFile
  | readChunk (count : Nat)
  deriving DecidableEq

section Calls

variable (path : Text) (data : List UInt8)

/-- One system call of a write. -/
def writeStep (disk : Disk Text) : WriteCall → WriteAction → Disk Text × WriteCall
  | .waiting, .openTmp =>
    let (disk, inode) := disk.openTruncated (tmpPath path)
    (disk, .writing inode 0)
  | .writing inode offset, .writeChunk count =>
    let chunk := (data.drop offset).take (count + 1)
    (disk.writeAt inode offset chunk, .writing inode (offset + chunk.length))
  | .writing inode offset, .close =>
    (disk, if data.length ≤ offset then .closed else .writing inode offset)
  | .closed, .replace =>
    match disk.rename (tmpPath path) path with
    | some disk => (disk, .returned)
    | none => (disk, .failing)
  | .failing, .exists => (disk, if (disk.names (tmpPath path)).isSome then .unlinking else .raised)
  | .unlinking, .unlink => ((disk.unlink (tmpPath path)).getD disk, .raised)
  | call, _ => (disk, call)

/-- One system call of a read; at the end of the file it gets nothing. -/
def readStep (disk : Disk Text) : ReadCall → ReadAction → ReadCall
  | .waiting, .openFile =>
    match disk.names path with
    | some inode => .reading inode []
    | none => .notFound
  | .reading inode received, .readChunk count =>
    let chunk := disk.readAt inode received.length (count + 1)
    if chunk = [] then .returned received else .reading inode (received ++ chunk)
  | call, _ => call

end Calls

/-- The file system and the calls in the processes. -/
structure State where
  disk : Disk Text
  writes : List WriteCall
  reads : List ReadCall

/-- A system call of one of the writes or reads. -/
inductive Event where
  | write (index : Nat) (action : WriteAction)
  | read (index : Nat) (action : ReadAction)
  deriving DecidableEq

section Runs

variable (path : Text) (data : List UInt8)

def step (state : State) : Event → State
  | .write index action =>
    match state.writes[index]? with
    | some call =>
      let (disk, call) := writeStep path data state.disk call action
      { state with disk := disk, writes := state.writes.set index call }
    | none => state
  | .read index action =>
    match state.reads[index]? with
    | some call =>
      { state with reads := state.reads.set index (readStep path state.disk call action) }
    | none => state

variable {path data} {state : State} {index : Nat}

theorem step_write {call : WriteCall} (here : state.writes[index]? = some call)
    (action : WriteAction) : step path data state (.write index action) = { state with
      disk := (writeStep path data state.disk call action).1
      writes := state.writes.set index (writeStep path data state.disk call action).2 } := by
  simp only [step, here]

theorem step_write_none (none : state.writes[index]? = none) (action : WriteAction) :
    step path data state (.write index action) = state := by
  simp only [step, none]

theorem step_read {call : ReadCall} (here : state.reads[index]? = some call)
    (action : ReadAction) : step path data state (.read index action) = { state with
      reads := state.reads.set index (readStep path state.disk call action) } := by
  simp only [step, here]

theorem step_read_none (none : state.reads[index]? = none) (action : ReadAction) :
    step path data state (.read index action) = state := by
  simp only [step, none]

variable (path data)

/-- The state after a run. -/
def run (start : State) (events : List Event) : State :=
  Transition.run (step path data) start events

end Runs

/-- A write that has opened the temporary file and has not ended. -/
def WriteCall.underWay : WriteCall → Bool
  | .writing _ _ | .closed | .failing | .unlinking => true
  | .waiting | .returned | .raised => false

/-- A write whose rename has failed. -/
def WriteCall.failed : WriteCall → Bool
  | .failing | .unlinking | .raised => true
  | .waiting | .writing _ _ | .closed | .returned => false

/-- A write is opened only while no other one is under way. -/
def OpensAlone (state : State) : Event → Prop
  | .write index .openTmp => state.writes[index]? = some .waiting →
      ∀ call ∈ state.writes, call.underWay = false
  | _ => True

instance (state : State) (event : Event) : Decidable (OpensAlone state event) :=
  match event with
  | .write index .openTmp => inferInstanceAs (Decidable (state.writes[index]? = some .waiting →
      ∀ call ∈ state.writes, call.underWay = false))
  | .write _ (.writeChunk _) | .write _ .close | .write _ .replace | .write _ .exists
  | .write _ .unlink | .read _ _ => .isTrue trivial

section Claims

variable (path : Text) (data : List UInt8)

/-- No call has begun; the payload is missing or has the data, and a temporary file that may have
been left is not the payload. -/
structure Fresh (start : State) : Prop where
  writes : ∀ call ∈ start.writes, call = .waiting
  reads : ∀ call ∈ start.reads, call = .waiting
  allocated : start.disk.Allocated
  stored : ∀ inode, start.disk.names path = some inode →
    start.disk.contents inode = data ∧ start.disk.names (tmpPath path) ≠ some inode

/-- No write has failed, and a read that began after the first write had returned finds the payload
and returns exactly the data. -/
structure Safe (start : State) (events : List Event) : Prop where
  writes : ∀ call ∈ (run path data start events).writes, call.failed = false
  reads : ∀ (before after : List Event) (reader : Nat), events = before ++ after →
    WriteCall.returned ∈ (run path data start before).writes →
    (run path data start before).reads[reader]? = some ReadCall.waiting →
    (run path data start events).reads[reader]? ≠ some ReadCall.notFound ∧
    ∀ bytes, (run path data start events).reads[reader]? = some (ReadCall.returned bytes) →
      bytes = data

/-! ### What holds while writes are opened alone -/

/-- A file that has all the data and is not the temporary one. -/
structure Published (disk : Disk Text) (inode : Nat) : Prop where
  used : inode < disk.next
  apart : disk.names (tmpPath path) ≠ some inode
  whole : disk.contents inode = data

structure SoundDisk (disk : Disk Text) : Prop where
  allocated : disk.Allocated
  published : ∀ inode, disk.names path = some inode → Published path data disk inode

/-- The temporary file has what a write has written so far, and the payload is there once a write
has returned. -/
def WriteFits (disk : Disk Text) : WriteCall → Prop
  | .waiting => True
  | .writing inode offset => disk.names (tmpPath path) = some inode ∧
      disk.contents inode = data.take offset ∧ offset ≤ data.length
  | .closed => ∃ inode, disk.names (tmpPath path) = some inode ∧ disk.contents inode = data
  | .returned => (disk.names path).isSome
  | .failing | .unlinking | .raised => False

/-- A read has opened a file with all the data and received its beginning. -/
def ReadFits (disk : Disk Text) : ReadCall → Prop
  | .waiting | .notFound => True
  | .reading inode received => Published path data disk inode ∧ received <+: data
  | .returned bytes => bytes = data

/-- What a system call leaves: published files stay published, and a payload stays there. -/
structure Leaves (before after : Disk Text) : Prop where
  published : ∀ inode, Published path data before inode → Published path data after inode
  stored : (before.names path).isSome → (after.names path).isSome

end Claims

section Steps

variable {path : Text} {data : List UInt8} {disk : Disk Text}

theorem Leaves.refl : Leaves path data disk disk := ⟨fun _ => id, id⟩

theorem openTmp_leaves :
    Leaves path data disk (disk.openTruncated (tmpPath path)).1 where
  published inode published := by
    obtain ⟨used, apart, same⟩ := Disk.openTruncated_of_ne published.used published.apart
    refine ⟨used, ?_, same.trans published.whole⟩
    rw [Disk.openTruncated_names_self]
    exact fun equal => apart (Option.some.inj equal)
  stored := by rw [Disk.openTruncated_names_of_ne (tmpPath_ne path).symm]; exact id

theorem openTmp_sound (sound : SoundDisk path data disk) :
    SoundDisk path data (disk.openTruncated (tmpPath path)).1 where
  allocated := Disk.openTruncated_allocated sound.allocated
  published inode stored := by
    rw [Disk.openTruncated_names_of_ne (tmpPath_ne path).symm] at stored
    exact openTmp_leaves.published inode (sound.published inode stored)

theorem writeChunk_leaves {inode : Nat} (own : disk.names (tmpPath path) = some inode)
    (offset : Nat) (chunk : List UInt8) :
    Leaves path data disk (disk.writeAt inode offset chunk) where
  published other published := by
    have different : other ≠ inode := fun same => published.apart (same ▸ own)
    exact ⟨published.used, published.apart,
      (Disk.writeAt_contents_of_ne disk different offset chunk).trans published.whole⟩
  stored := id

theorem replace_leaves (inode : Nat) :
    Leaves path data disk { disk with
      names := Function.update (Function.update disk.names (tmpPath path) none) path
        (some inode) } where
  published other published := by
    refine ⟨published.used, ?_, published.whole⟩
    dsimp only
    rw [Function.update_of_ne (tmpPath_ne path), Function.update_self]
    exact nofun
  stored _ := by
    dsimp only
    rw [Function.update_self]
    rfl

/-- The renamed file is the published one. -/
theorem replace_sound {inode : Nat} (sound : SoundDisk path data disk)
    (own : disk.names (tmpPath path) = some inode) (whole : disk.contents inode = data) :
    SoundDisk path data { disk with
      names := Function.update (Function.update disk.names (tmpPath path) none) path
        (some inode) } where
  allocated name other refers := by
    dsimp only at refers ⊢
    by_cases target : name = path
    · subst target
      rw [Function.update_self] at refers
      cases refers
      exact sound.allocated _ inode own
    · rw [Function.update_of_ne target] at refers
      by_cases tmp : name = tmpPath path
      · subst tmp
        rw [Function.update_self] at refers
        cases refers
      · rw [Function.update_of_ne tmp] at refers
        exact sound.allocated name other refers
  published other stored := by
    dsimp only at stored
    rw [Function.update_self] at stored
    cases stored
    refine ⟨sound.allocated _ inode own, ?_, whole⟩
    dsimp only
    rw [Function.update_of_ne (tmpPath_ne path), Function.update_self]
    exact nofun

/-- One system call of a write keeps the file system sound and the write fitting. -/
theorem writeStep_sound {call : WriteCall} (sound : SoundDisk path data disk)
    (fits : WriteFits path data disk call) (action : WriteAction) :
    SoundDisk path data (writeStep path data disk call action).1 ∧
      Leaves path data disk (writeStep path data disk call action).1 ∧
      WriteFits path data (writeStep path data disk call action).1
        (writeStep path data disk call action).2 := by
  have idle : SoundDisk path data disk ∧ Leaves path data disk disk ∧
      WriteFits path data disk call := ⟨sound, .refl, fits⟩
  unfold writeStep
  split
  · exact ⟨openTmp_sound sound, openTmp_leaves, Disk.openTruncated_names_self,
      Disk.openTruncated_contents_self, Nat.zero_le _⟩
  · rename_i inode offset count
    obtain ⟨own, written, within⟩ := fits
    have leaves : Leaves path data disk _ :=
      writeChunk_leaves own offset ((data.drop offset).take (count + 1))
    refine ⟨⟨sound.allocated, fun other stored => leaves.published other
      (sound.published other stored)⟩, leaves, own, ?_, ?_⟩
    · rw [Disk.writeAt_contents_self, written, overwrite_take within]
    · have left : ((data.drop offset).take (count + 1)).length ≤ data.length - offset := by
        rw [List.length_take, List.length_drop]
        exact Nat.min_le_right _ _
      omega
  · rename_i inode offset
    obtain ⟨own, written, within⟩ := fits
    refine ⟨sound, .refl, ?_⟩
    dsimp only
    split
    · rename_i all
      exact ⟨inode, own, written.trans (List.take_of_length_le all)⟩
    · exact ⟨own, written, within⟩
  · obtain ⟨inode, own, whole⟩ := fits
    rw [Disk.rename_eq_some own]
    refine ⟨replace_sound sound own whole, replace_leaves inode, ?_⟩
    unfold WriteFits
    dsimp only
    rw [Function.update_self]
    rfl
  · exact fits.elim
  · exact fits.elim
  · exact idle

/-- Only a call under way, or one that opens the temporary file, changes anything. -/
theorem writeStep_idle {call : WriteCall} {action : WriteAction} (idle : call.underWay = false)
    (unopened : ¬(call = .waiting ∧ action = .openTmp)) :
    writeStep path data disk call action = (disk, call) := by
  cases call <;> cases action <;> first | exact absurd ⟨rfl, rfl⟩ unopened | rfl | cases idle

theorem WriteFits.leaves {after : Disk Text} {call : WriteCall}
    (fits : WriteFits path data disk call) (idle : call.underWay = false)
    (leaves : Leaves path data disk after) : WriteFits path data after call := by
  cases call with
  | waiting => exact trivial
  | returned => exact leaves.stored fits
  | raised => exact fits
  | writing | closed | failing | unlinking => cases idle

theorem ReadFits.leaves {after : Disk Text} {call : ReadCall} (fits : ReadFits path data disk call)
    (leaves : Leaves path data disk after) : ReadFits path data after call := by
  cases call with
  | waiting | notFound | returned => exact fits
  | reading inode received => exact ⟨leaves.published inode fits.1, fits.2⟩

/-- One system call of a read keeps it fitting. -/
theorem readStep_fits {call : ReadCall} (sound : SoundDisk path data disk)
    (fits : ReadFits path data disk call) (action : ReadAction) :
    ReadFits path data disk (readStep path disk call action) := by
  unfold readStep
  split
  · split
    · rename_i inode stored
      exact ⟨sound.published inode stored, List.nil_prefix⟩
    · exact trivial
  · rename_i inode received count
    obtain ⟨published, rest, whole⟩ := fits
    have chunk : disk.readAt inode received.length (count + 1) = rest.take (count + 1) := by
      rw [Disk.readAt, published.whole, ← whole, List.drop_left]
    dsimp only
    rw [chunk]
    split
    · rename_i none
      have ended : rest = [] := by simpa using none
      exact (List.append_nil received).symm.trans (ended ▸ whole)
    · refine ⟨published, rest.drop (count + 1), ?_⟩
      rw [List.append_assoc, List.take_append_drop, whole]
  · exact fits

end Steps

section States

variable (path : Text) (data : List UInt8)

/-- What holds of every state while writes are opened alone. -/
structure Sound (state : State) : Prop where
  disk : SoundDisk path data state.disk
  writes : ∀ (index : Nat) call, state.writes[index]? = some call →
    WriteFits path data state.disk call
  single : ∀ (index other : Nat) first second, state.writes[index]? = some first →
    state.writes[other]? = some second → first.underWay = true → second.underWay = true →
      index = other
  reads : ∀ (index : Nat) call, state.reads[index]? = some call → ReadFits path data state.disk call

end States

section Invariant

variable {path : Text} {data : List UInt8} {state : State}

/-- A system call of a write, where no other write is under way. -/
theorem sound_write (sound : Sound path data state) {index : Nat} {call : WriteCall}
    (here : state.writes[index]? = some call) (action : WriteAction)
    (alone : ∀ other second, other ≠ index → state.writes[other]? = some second →
      second.underWay = false) :
    Sound path data { state with
      disk := (writeStep path data state.disk call action).1
      writes := state.writes.set index (writeStep path data state.disk call action).2 } := by
  obtain ⟨disk, leaves, fits⟩ := writeStep_sound sound.disk (sound.writes index call here) action
  have within : index < state.writes.length := (List.getElem?_eq_some_iff.mp here).1
  have elsewhere {other : Nat} (different : other ≠ index) (new : WriteCall) :
      (state.writes.set index new)[other]? = state.writes[other]? :=
    List.getElem?_set_ne different.symm
  refine ⟨disk, fun other second found => ?_, fun first second left right leftFound rightFound
    leftWay rightWay => ?_,
    fun reader read found => (sound.reads reader read found).leaves leaves⟩
  · by_cases same : other = index
    · subst same
      rw [List.getElem?_set_self within] at found
      cases found
      exact fits
    · rw [elsewhere same] at found
      exact (sound.writes other second found).leaves (alone other second same found) leaves
  · have only {other : Nat} {second : WriteCall} (found : (state.writes.set index
        (writeStep path data state.disk call action).2)[other]? = some second)
        (way : second.underWay = true) : other = index := by
      by_contra different
      rw [elsewhere different] at found
      rw [alone other second different found] at way
      cases way
    rw [only leftFound leftWay, only rightFound rightWay]

/-- The other writes rest while one that is under way goes on, and while one is opened alone. -/
theorem alone_of_acts (sound : Sound path data state) {index : Nat} {call : WriteCall}
    (here : state.writes[index]? = some call) {action : WriteAction}
    (acts : call.underWay = true ∨ call = .waiting ∧ action = .openTmp)
    (opens : OpensAlone state (.write index action)) (other : Nat) (second : WriteCall)
    (different : other ≠ index) (found : state.writes[other]? = some second) :
    second.underWay = false := by
  rcases acts with way | ⟨rfl, rfl⟩
  · by_contra both
    rw [Bool.not_eq_false] at both
    exact different (sound.single other index second call found here both way)
  · exact opens here second (List.mem_of_getElem? found)

theorem set_same {Item : Type} {items : List Item} {index : Nat} {item : Item}
    (here : items[index]? = some item) : items.set index item = items := by
  obtain ⟨within, rfl⟩ := List.getElem?_eq_some_iff.mp here
  exact List.set_getElem_self within

theorem step_sound (sound : Sound path data state) {event : Event}
    (opens : OpensAlone state event) : Sound path data (step path data state event) := by
  cases event with
  | write index action =>
    cases here : state.writes[index]? with
    | none =>
      rw [step_write_none here]
      exact sound
    | some call =>
      rw [step_write here]
      by_cases acts : call.underWay = true ∨ call = .waiting ∧ action = .openTmp
      · exact sound_write sound here action (alone_of_acts sound here acts opens)
      · obtain ⟨rests, unopened⟩ := not_or.mp acts
        rw [writeStep_idle (Bool.eq_false_iff.mpr rests) unopened, set_same here]
        exact sound
  | read index action =>
    cases here : state.reads[index]? with
    | none =>
      rw [step_read_none here]
      exact sound
    | some call =>
      rw [step_read here]
      refine ⟨sound.disk, sound.writes, sound.single, fun other read found => ?_⟩
      by_cases same : other = index
      · subst same
        have within : other < state.reads.length := (List.getElem?_eq_some_iff.mp here).1
        rw [List.getElem?_set_self within] at found
        cases found
        exact readStep_fits sound.disk (sound.reads other call here) action
      · rw [List.getElem?_set_ne (Ne.symm same)] at found
        exact sound.reads other read found

theorem Fresh.sound (fresh : Fresh path data state) : Sound path data state where
  disk := ⟨fresh.allocated, fun inode stored => ⟨fresh.allocated _ inode stored,
    (fresh.stored inode stored).2, (fresh.stored inode stored).1⟩⟩
  writes index call found := by
    rw [fresh.writes call (List.mem_of_getElem? found)]
    exact trivial
  single index other first second found _ way _ := by
    rw [fresh.writes first (List.mem_of_getElem? found)] at way
    cases way
  reads index call found := by
    rw [fresh.reads call (List.mem_of_getElem? found)]
    exact trivial

theorem run_sound {start : State} (sound : Sound path data start) {events : List Event}
    (alone : Transition.Along (step path data) OpensAlone start events) :
    Sound path data (run path data start events) :=
  Transition.run_invariant _ (Sound path data) (fun _ _ sound opens => step_sound sound opens) start
    sound events alone

/-! ### What the calls give -/

theorem step_stored (sound : Sound path data state) (event : Event)
    (stored : (state.disk.names path).isSome) :
    ((step path data state event).disk.names path).isSome := by
  cases event with
  | write index action =>
    cases here : state.writes[index]? with
    | none =>
      rw [step_write_none here]
      exact stored
    | some call =>
      rw [step_write here]
      exact (writeStep_sound sound.disk (sound.writes index call here) action).2.1.stored stored
  | read index action =>
    cases here : state.reads[index]? with
    | none =>
      rw [step_read_none here]
      exact stored
    | some call =>
      rw [step_read here]
      exact stored

/-- Where the payload is there, no read misses it. -/
theorem step_found (stored : (state.disk.names path).isSome) {reader : Nat} (event : Event)
    (found : state.reads[reader]? ≠ some ReadCall.notFound) :
    (step path data state event).reads[reader]? ≠ some ReadCall.notFound := by
  cases event with
  | write index action =>
    cases here : state.writes[index]? with
    | none =>
      rw [step_write_none here]
      exact found
    | some call =>
      rw [step_write here]
      exact found
  | read index action =>
    cases here : state.reads[index]? with
    | none =>
      rw [step_read_none here]
      exact found
    | some call =>
      rw [step_read here]
      intro missed
      dsimp only at missed
      by_cases same : reader = index
      · subst same
        have within : reader < state.reads.length := (List.getElem?_eq_some_iff.mp here).1
        rw [List.getElem?_set_self within] at missed
        obtain ⟨inode, stored⟩ := Option.isSome_iff_exists.mp stored
        have earlier : call = .notFound := by
          have outcome := Option.some.inj missed
          unfold readStep at outcome
          rw [stored] at outcome
          split at outcome
          · cases outcome
          · dsimp only at outcome
            split at outcome <;> cases outcome
          · exact outcome
        exact found (earlier ▸ here)
      · rw [List.getElem?_set_ne (Ne.symm same)] at missed
        exact found missed

theorem safe_of_sound {start : State} (sound : Sound path data start) {events : List Event}
    (alone : Transition.Along (step path data) OpensAlone start events) :
    Safe path data start events where
  writes call member := by
    obtain ⟨index, found⟩ := List.getElem?_of_mem member
    have fits := (run_sound sound alone).writes index call found
    cases call with
    | waiting | writing | closed | returned => rfl
    | failing | unlinking | raised => exact fits.elim
  reads before after reader split returned waiting := by
    subst split
    obtain ⟨aloneBefore, aloneAfter⟩ := (Transition.along_append _ _ _ _ _).mp alone
    have middle := run_sound sound aloneBefore
    obtain ⟨index, found⟩ := List.getElem?_of_mem returned
    have stored := middle.writes index .returned found
    -- From here on the payload is there, so the read opens it.
    have later := Transition.run_invariant (step path data) (fun state => Sound path data state ∧
        (state.disk.names path).isSome ∧ state.reads[reader]? ≠ some ReadCall.notFound)
      (fun state event holds opens => ⟨step_sound holds.1 opens,
        step_stored holds.1 event holds.2.1, step_found holds.2.1 event holds.2.2⟩)
      _ ⟨middle, stored, waiting ▸ nofun⟩ after aloneAfter
    rw [run, Transition.run_append]
    exact ⟨later.2.2, fun bytes found => later.1.reads reader (.returned bytes) found⟩

/-! ### What follows where a write is opened beside another -/

/-- A write that is to rename the temporary file. -/
def WriteCall.needsTmp : WriteCall → Bool
  | .writing _ _ | .closed => true
  | .waiting | .failing | .unlinking | .returned | .raised => false

/-- The number of temporary files, none or one. -/
def tmpFiles (path : Text) (disk : Disk Text) : Nat :=
  (disk.names (tmpPath path)).isSome.toNat

/-- A write has failed, or more writes need a temporary file than there are. -/
def Crowded (path : Text) (state : State) : Prop :=
  (∃ call ∈ state.writes, call.failed = true) ∨
    tmpFiles path state.disk < state.writes.countP WriteCall.needsTmp

theorem tmpFiles_le (path : Text) (disk : Disk Text) : tmpFiles path disk ≤ 1 := Bool.toNat_le _

/-- A call that does not fail takes away no more than it has brought. -/
theorem writeStep_tmpFiles (path : Text) (data : List UInt8) (disk : Disk Text)
    (call : WriteCall) (action : WriteAction) :
    (writeStep path data disk call action).2.failed = true ∨
      tmpFiles path (writeStep path data disk call action).1 +
          call.needsTmp.toNat ≤
        tmpFiles path disk + (writeStep path data disk call action).2.needsTmp.toNat := by
  unfold writeStep
  split
  · right
    have one := tmpFiles_le path (disk.openTruncated (tmpPath path)).1
    exact one.trans (Nat.le_add_left _ _)
  · exact .inr (le_refl _)
  · rename_i inode offset
    right
    have either : (if data.length ≤ offset then WriteCall.closed
        else .writing inode offset).needsTmp = true := by
      split <;> rfl
    dsimp only
    rw [either]
    exact le_refl _
  · cases stored : disk.names (tmpPath path) with
    | none =>
      rw [Disk.rename_eq_none stored]
      exact .inl rfl
    | some inode =>
      right
      have here : tmpFiles path disk = 1 := by rw [tmpFiles, stored]; rfl
      rw [Disk.rename_eq_some stored]
      have gone : tmpFiles path { disk with
          names := Function.update (Function.update disk.names (tmpPath path) none) path
            (some inode) } = 0 := by
        unfold tmpFiles
        dsimp only
        rw [Function.update_of_ne (tmpPath_ne path), Function.update_self]
        rfl
      dsimp only
      rw [gone, here]
      exact le_refl _
  · left
    dsimp only
    split <;> rfl
  · exact .inl rfl
  · exact .inr (le_refl _)

/-- A failed write stays failed. -/
theorem writeStep_failed {call : WriteCall} (failed : call.failed = true) (disk : Disk Text)
    (action : WriteAction) : (writeStep path data disk call action).2.failed = true := by
  cases call with
  | waiting | writing | closed | returned => cases failed
  | failing =>
    cases action with
    | «exists» =>
      unfold writeStep
      dsimp only
      split <;> rfl
    | openTmp | writeChunk | close | replace | unlink => rfl
  | unlinking => cases action <;> rfl
  | raised => rfl

theorem needsTmp_set {index : Nat} {call : WriteCall} (here : state.writes[index]? = some call)
    (new : WriteCall) :
    (state.writes.set index new).countP WriteCall.needsTmp + call.needsTmp.toNat =
      state.writes.countP WriteCall.needsTmp + new.needsTmp.toNat := by
  obtain ⟨within, rfl⟩ := List.getElem?_eq_some_iff.mp here
  have number (call : WriteCall) : (if call.needsTmp then 1 else 0) = call.needsTmp.toNat := by
    cases call.needsTmp <;> rfl
  have counted : state.writes[index].needsTmp.toNat ≤ state.writes.countP WriteCall.needsTmp := by
    cases needs : state.writes[index].needsTmp with
    | true => exact List.countP_pos_iff.mpr ⟨_, List.getElem_mem within, needs⟩
    | false => exact Nat.zero_le _
  rw [List.countP_set within, number, number]
  omega

theorem step_crowded (crowded : Crowded path state) (event : Event) :
    Crowded path (step path data state event) := by
  cases event with
  | read index action =>
    cases here : state.reads[index]? with
    | none =>
      rw [step_read_none here]
      exact crowded
    | some call =>
      rw [step_read here]
      exact crowded
  | write index action =>
    cases here : state.writes[index]? with
    | none =>
      rw [step_write_none here]
      exact crowded
    | some call =>
      rw [step_write here]
      have within : index < state.writes.length := (List.getElem?_eq_some_iff.mp here).1
      rcases crowded with ⟨other, member, failed⟩ | fewer
      · left
        obtain ⟨place, found⟩ := List.getElem?_of_mem member
        by_cases same : place = index
        · subst same
          cases here.symm.trans found
          exact ⟨_, List.mem_of_getElem? (List.getElem?_set_self within),
            writeStep_failed failed state.disk action⟩
        · refine ⟨other, List.mem_of_getElem? (i := place) ?_, failed⟩
          rw [List.getElem?_set_ne (Ne.symm same)]
          exact found
      · rcases writeStep_tmpFiles path data state.disk call action with failed | balance
        · exact .inl ⟨_, List.mem_of_getElem? (List.getElem?_set_self within), failed⟩
        · right
          have counts := needsTmp_set here (writeStep path data state.disk call action).2
          show tmpFiles path (writeStep path data state.disk call action).1 <
            (state.writes.set index _).countP _
          omega

/-- A write opened while another one is under way crowds the temporary file. -/
theorem crowded_of_not_alone {event : Event} (beside : ¬OpensAlone state event) :
    Crowded path (step path data state event) := by
  unfold OpensAlone at beside
  split at beside
  · rename_i index
    simp only [not_forall, Bool.not_eq_false] at beside
    obtain ⟨here, other, member, way⟩ := beside
    have within : index < state.writes.length := (List.getElem?_eq_some_iff.mp here).1
    rw [step_write here]
    by_cases failed : other.failed = true
    · left
      obtain ⟨place, found⟩ := List.getElem?_of_mem member
      have different : place ≠ index := by
        rintro rfl
        cases here.symm.trans found
        cases way
      refine ⟨other, List.mem_of_getElem? (i := place) ?_, failed⟩
      rw [List.getElem?_set_ne different.symm]
      exact found
    · right
      have needs : other.needsTmp = true := by
        cases other <;> first | exact absurd rfl failed | rfl | cases way
      have before : 0 < state.writes.countP WriteCall.needsTmp :=
        List.countP_pos_iff.mpr ⟨other, member, needs⟩
      have counts := needsTmp_set here (writeStep path data state.disk .waiting .openTmp).2
      have one : (writeStep path data state.disk .waiting .openTmp).2.needsTmp.toNat = 1 := rfl
      have none : WriteCall.waiting.needsTmp.toNat = 0 := rfl
      have files := tmpFiles_le path (writeStep path data state.disk .waiting .openTmp).1
      show tmpFiles path (writeStep path data state.disk .waiting .openTmp).1 <
        (state.writes.set index _).countP _
      omega
  · exact absurd trivial beside

/-- Either all writes of a run are opened alone, or it ends crowded. -/
theorem alone_or_crowded (start : State) (events : List Event) :
    Transition.Along (step path data) OpensAlone start events ∨
      Crowded path (run path data start events) := by
  induction events generalizing start with
  | nil => exact .inl trivial
  | cons event rest inductionHypothesis =>
    by_cases alone : OpensAlone start event
    · exact (inductionHypothesis (step path data start event)).imp_left fun later => ⟨alone, later⟩
    · exact .inr (Transition.run_invariant_always _ (Crowded path)
        (fun _ event crowded => step_crowded crowded event) _ (crowded_of_not_alone alone) rest)

/-- Once all writes have ended, one of a crowded run has raised. -/
theorem raised_of_crowded (crowded : Crowded path state)
    (ended : ∀ call ∈ state.writes, call = .returned ∨ call = .raised) :
    ∃ call ∈ state.writes, call.failed = true := by
  refine crowded.resolve_right fun fewer => ?_
  have none : state.writes.countP WriteCall.needsTmp = 0 := List.countP_eq_zero.mpr
    fun call member needs => by
      rcases ended call member with rfl | rfl <;> cases needs
  rw [none] at fewer
  exact Nat.not_lt_zero _ fewer

end Invariant

/-- The path of the payload with a content hash. -/
def payloadPath (basePath : Text) (contentHash : Vector UInt8 32) : Text :=
  refToPath basePath (contentHashToRef contentHash)

/-- **Concurrent writes of one payload.** In every run in which writes are opened alone, no write
fails and every read that begins after a first return gets exactly the data; and a run in which all
writes have ended is like that only if they were opened alone. Alone, a write has the temporary file
from its opening to its renaming; of two that overlap one renames the file away from the other,
which raises. -/
theorem opened_alone (basePath : Text) (contentHash : Vector UInt8 32) (data : List UInt8)
    {start : State} (fresh : Fresh (payloadPath basePath contentHash) data start) :
    (∀ events, Transition.Along (step (payloadPath basePath contentHash) data) OpensAlone start
        events → Safe (payloadPath basePath contentHash) data start events) ∧
    ∀ events, (∀ call ∈ (run (payloadPath basePath contentHash) data start events).writes,
        call = .returned ∨ call = .raised) →
      (Safe (payloadPath basePath contentHash) data start events ↔
        Transition.Along (step (payloadPath basePath contentHash) data) OpensAlone start
          events) := by
  refine ⟨fun events => safe_of_sound fresh.sound, fun events ended => ⟨fun safe => ?_,
    safe_of_sound fresh.sound⟩⟩
  refine (alone_or_crowded start events).resolve_right fun crowded => ?_
  obtain ⟨call, member, failed⟩ := raised_of_crowded crowded ended
  rw [safe.writes call member] at failed
  cases failed

/-- An empty store, before two writes and a read. -/
def twoWrites : State where
  disk := { names := fun _ => none, contents := fun _ => [], next := 0 }
  writes := [.waiting, .waiting]
  reads := [.waiting]

theorem twoWrites_fresh (path : Text) (data : List UInt8) : Fresh path data twoWrites where
  writes := by decide
  reads := by decide
  allocated _ _ refers := nomatch refers
  stored _ refers := nomatch refers

/-- The system calls of a write of a few bytes. -/
def wholeWrite (index : Nat) : List Event :=
  [.openTmp, .writeChunk 7, .close, .replace].map (.write index)

/-- One write after the other, and a read. -/
theorem one_after_the_other : Safe (payloadPath [] (Vector.replicate 32 0)) [1, 2] twoWrites
    (wholeWrite 0 ++ [.read 0 .openFile] ++ wholeWrite 1 ++ [.read 0 (.readChunk 7)]) := by
  refine (opened_alone [] (Vector.replicate 32 0) [1, 2] (twoWrites_fresh _ _)).1 _ ?_
  decide

/-- The second write opens the file that the first one has just written, so the first one publishes
an empty payload; it is read as the document, and the second write raises. -/
def overlapping : List Event :=
  [.write 0 .openTmp, .write 0 (.writeChunk 7), .write 0 .close, .write 1 .openTmp,
    .write 0 .replace, .read 0 .openFile, .read 0 (.readChunk 7), .write 1 (.writeChunk 7),
    .write 1 .close, .write 1 .replace, .write 1 .exists]

theorem overlapping_unsafe :
    (run (payloadPath [] (Vector.replicate 32 0)) [1, 2] twoWrites overlapping).writes =
      [.returned, .raised] ∧
    (run (payloadPath [] (Vector.replicate 32 0)) [1, 2] twoWrites overlapping).reads =
      [.returned []] ∧
    ¬Safe (payloadPath [] (Vector.replicate 32 0)) [1, 2] twoWrites overlapping := by
  have writes : (run (payloadPath [] (Vector.replicate 32 0)) [1, 2] twoWrites overlapping).writes =
      [.returned, .raised] := by decide
  refine ⟨writes, by decide, fun safe => ?_⟩
  have raised : WriteCall.raised ∈
      (run (payloadPath [] (Vector.replicate 32 0)) [1, 2] twoWrites overlapping).writes := by
    rw [writes]
    decide
  exact absurd (safe.writes .raised raised) (by decide)

end LocalPayloadStore

end InsuranceOps
