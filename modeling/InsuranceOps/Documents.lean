/-
This file models the document routes over the local payload store and the table
of documents: any number of ingestions and downloads, interleaved at the system
calls of the store and the statements of the database, of which each may die at
any point. An ingestion stores the payload before it inserts the row, under a
name that is the hash of the payload, so a row in the table always has its
payload; two rows of one hash share it. The commit and the answer of an upload
are steps of their own: a row may be stored and never answered for.
-/

import InsuranceOps.Identifier
import InsuranceOps.Library.Table
import InsuranceOps.PayloadStore
import InsuranceOps.Routes

namespace InsuranceOps

open Files Relational LocalPayloadStore

/-! ### Rows -/

/-- A row of `documents`. -/
structure StoredDocument where
  documentId : UUID
  contentHash : Vector UInt8 32
  contentType : String
  sizeBytes : Nat
  payloadRef : Text
  ingestedAt : Timestamp
  ingestedBy : String
  apiKeyId : UUID

/-- A document has one row. -/
abbrev documentKeys : List (UniqueKey StoredDocument String) :=
  [{ name := "documents_pkey", Key := UUID, key := StoredDocument.documentId }]

/-- A character of `[a-z0-9.+-]`. -/
def contentTypeChar (char : Char) : Bool :=
  ('a' ≤ char && char ≤ 'z') || char.isDigit || char = '.' || char = '+' || char = '-'

/-- The texts that match `^[a-z0-9.+-]+/[a-z0-9.+-]+$`. -/
def isContentType (text : Text) : Bool :=
  let main := text.takeWhile contentTypeChar
  match text.drop main.length with
  | '/' :: subtype => !main.isEmpty && !subtype.isEmpty && subtype.all contentTypeChar
  | _ => false

/-- `DocumentRepository.create`; the error is the constraint that refuses the row. The checks of
the length of the hash and of the size hold by their types. -/
def createDocument (table : Table documentKeys) (row : StoredDocument) :
    Except String (Table documentKeys) :=
  if isContentType row.contentType.toList then table.insert row
  else .error "ck_documents_content_type_format"

/-! ### Requests -/

/-- An upload: its file, the identifier and the time it is given, and who sends it. -/
structure IngestRequest where
  content : List UInt8
  contentType : Option String
  documentId : UUID
  now : Timestamp
  principal : ApiKeyPrincipal

/-- A download: the document it asks for, and who sends it. -/
structure DownloadRequest where
  documentId : UUID
  principal : ApiKeyPrincipal

/-- `hashlib.sha256(content).digest()`. -/
def sha256 (content : List UInt8) : Vector UInt8 32 :=
  ⟨(Sha256.digest content).toArray, Sha256.digest_length content⟩

namespace IngestRequest

variable (request : IngestRequest)

def contentHash : Vector UInt8 32 := sha256 request.content

/-- `file.content_type or "application/octet-stream"`. -/
def effectiveType : String :=
  match request.contentType with
  | some given => if given = "" then "application/octet-stream" else given
  | none => "application/octet-stream"

/-- The row of an upload, under the key of its sender. -/
def row (apiKeyId : UUID) : StoredDocument where
  documentId := request.documentId
  contentHash := request.contentHash
  contentType := request.effectiveType
  sizeBytes := request.content.length
  payloadRef := contentHashToRef request.contentHash
  ingestedAt := request.now
  ingestedBy := request.principal.actorString
  apiKeyId := apiKeyId

end IngestRequest

/-- Where an ingestion is: not yet admitted, refused, in `payload_store.write`, behind the search
for duplicates, behind the flush of its row, behind its commit, dead behind its commit, or dead
without one. -/
inductive IngestPhase where
  | received
  | forbidden
  | storing (call : WriteCall)
  | checked (isDuplicate : Bool)
  | flushed (isDuplicate : Bool)
  | committed (isDuplicate : Bool)
  | lost
  | raised

/-- Where a download is: not yet looked up, refused, without a row, or in `payload_store.read`. -/
inductive DownloadPhase where
  | received
  | forbidden
  | missing
  | serving (row : StoredDocument) (call : ReadCall)

/-- The file system, the committed rows, the requests, which are numbered, and the `is_duplicate` of
the uploads that were answered. -/
structure DocumentState where
  disk : Disk Text
  rows : Table documentKeys
  ingests : Nat → IngestPhase
  downloads : Nat → DownloadPhase
  answers : Nat → Option Bool

namespace DocumentState

variable (state : DocumentState) (index : Nat)

def setIngest (phase : IngestPhase) : DocumentState :=
  { state with ingests := Function.update state.ingests index phase }

def setDownload (phase : DownloadPhase) : DocumentState :=
  { state with downloads := Function.update state.downloads index phase }

def setAnswer (isDuplicate : Bool) : DocumentState :=
  { state with answers := Function.update state.answers index (some isDuplicate) }

end DocumentState

/-- What a request does next. An ingestion may also fail in a system call, or die. The session
commits before or after the answer is sent, as the version of FastAPI has it. -/
inductive DocumentEvent where
  | letIn (index : Nat)
  | store (index : Nat) (action : WriteAction)
  | fail (index : Nat)
  | search (index : Nat)
  | flush (index : Nat)
  | commit (index : Nat)
  | answer (index : Nat)
  | die (index : Nat)
  | lookUp (index : Nat)
  | download (index : Nat) (action : ReadAction)

/-- The roles that may upload and download. -/
def documentRoles : List String := ["operator", "supervisor"]

section Steps

variable (basePath : Text) (ingests : Nat → IngestRequest) (downloads : Nat → DownloadRequest)

/-- `get_by_content_hash` finds a committed row. -/
def hasContentHash (table : Table documentKeys) (contentHash : Vector UInt8 32) : Bool :=
  table.rows.any fun row => row.contentHash = contentHash

/-- Insert the row of an upload. -/
def insertDocument (table : Table documentKeys) (request : IngestRequest) :
    Option (Table documentKeys) :=
  (uuidOfText request.principal.apiKeyId.toList).bind fun apiKeyId =>
    (createDocument table (request.row apiKeyId)).toOption

/-- What a download finds when it looks its document up. -/
def lookUpDocument (table : Table documentKeys) (request : DownloadRequest) : DownloadPhase :=
  if request.principal.role ∈ documentRoles then
    match table.rows.find? fun row => row.documentId = request.documentId with
    | some row => .serving row .waiting
    | none => .missing
  else .forbidden

/-- One step of one request. -/
def documentStep (state : DocumentState) : DocumentEvent → DocumentState
  | .letIn index =>
    match state.ingests index with
    | .received =>
      if (ingests index).principal.role ∈ documentRoles then
        state.setIngest index (.storing .waiting)
      else state.setIngest index .forbidden
    | _ => state
  | .store index action =>
    match state.ingests index with
    | .storing call =>
      let path := payloadPath basePath (ingests index).contentHash
      let (disk, call) := writeStep path (ingests index).content state.disk call action
      { state with disk := disk }.setIngest index (.storing call)
    | _ => state
  | .fail index =>
    match state.ingests index with
    | .storing .waiting | .storing (.writing _ _) | .storing .closed =>
      state.setIngest index (.storing .failing)
    | _ => state
  | .search index =>
    match state.ingests index with
    | .storing .returned =>
      state.setIngest index
        (.checked (hasContentHash state.rows (ingests index).contentHash))
    | _ => state
  | .flush index =>
    match state.ingests index with
    | .checked isDuplicate =>
      match insertDocument state.rows (ingests index) with
      | some _ => state.setIngest index (.flushed isDuplicate)
      | none => state.setIngest index .raised
    | _ => state
  | .commit index =>
    match state.ingests index with
    | .flushed isDuplicate =>
      match insertDocument state.rows (ingests index) with
      | some rows => { state with rows := rows }.setIngest index (.committed isDuplicate)
      | none => state.setIngest index .raised
    | _ => state
  | .answer index =>
    match state.ingests index with
    | .flushed isDuplicate | .committed isDuplicate => state.setAnswer index isDuplicate
    | _ => state
  | .die index =>
    match state.ingests index with
    | .storing _ | .checked _ | .flushed _ => state.setIngest index .raised
    | .committed _ => state.setIngest index .lost
    | _ => state
  | .lookUp index =>
    match state.downloads index with
    | .received => state.setDownload index (lookUpDocument state.rows (downloads index))
    | _ => state
  | .download index action =>
    match state.downloads index with
    | .serving row call =>
      state.setDownload index
        (.serving row (readStep (refToPath basePath row.payloadRef) state.disk call action))
    | _ => state

end Steps

/-- No file, no row and no request yet. -/
def DocumentState.empty : DocumentState where
  disk := { names := fun _ => none, contents := fun _ => [], next := 0 }
  rows := .empty
  ingests := fun _ => .received
  downloads := fun _ => .received
  answers := fun _ => none

/-! ### Paths -/

section Paths

variable {basePath : Text}

theorem contentHashToRef_injective {first second : Vector UInt8 32}
    (same : contentHashToRef first = contentHashToRef second) : first = second := by
  have digits (byte other : UInt8)
      (high : hexDigit (byte.toNat / 16) = hexDigit (other.toNat / 16))
      (low : hexDigit (byte.toNat % 16) = hexDigit (other.toNat % 16)) : byte = other := by
    have quotient (byte : UInt8) : byte.toNat / 16 < 16 :=
      Nat.div_lt_of_lt_mul byte.toNat_lt
    have sameHigh := congrArg hexValue high
    rw [hexValue_hexDigit (quotient byte), hexValue_hexDigit (quotient other)] at sameHigh
    have sameLow := congrArg hexValue low
    rw [hexValue_hexDigit (Nat.mod_lt _ (by decide)),
      hexValue_hexDigit (Nat.mod_lt _ (by decide))] at sameLow
    have whole := congrArg₂ (fun high low => 16 * high + low) (Option.some.inj sameHigh)
      (Option.some.inj sameLow)
    simp only [Nat.div_add_mod] at whole
    exact UInt8.toNat_inj.mp whole
  have bytes (left right : List UInt8)
      (equal : left.flatMap (fun byte => [hexDigit (byte.toNat / 16), hexDigit (byte.toNat % 16)]) =
        right.flatMap fun byte => [hexDigit (byte.toNat / 16), hexDigit (byte.toNat % 16)]) :
      left = right := by
    induction left generalizing right with
    | nil =>
      cases right with
      | nil => rfl
      | cons byte rest => cases equal
    | cons byte rest inductionHypothesis =>
      cases right with
      | nil => cases equal
      | cons other others =>
        simp only [List.flatMap_cons, List.cons_append, List.nil_append, List.cons.injEq] at equal
        rw [digits byte other equal.1 equal.2.1, inductionHypothesis others equal.2.2]
  exact Vector.toList_inj.mp (bytes _ _ same)

theorem contentHashToRef_length (contentHash : Vector UInt8 32) :
    (contentHashToRef contentHash).length = 64 := by
  simp [contentHashToRef, List.length_flatMap]

theorem payloadPath_injective {first second : Vector UInt8 32}
    (same : payloadPath basePath first = payloadPath basePath second) : first = second := by
  have refs := List.append_cancel_left same
  exact contentHashToRef_injective (List.cons.inj refs).2

theorem tmpPath_injective {first second : Text} (same : tmpPath first = tmpPath second) :
    first = second :=
  List.append_cancel_right same

/-- A temporary file of the store is not a payload of it. -/
theorem tmpPath_ne_payloadPath (first second : Vector UInt8 32) :
    tmpPath (payloadPath basePath first) ≠ payloadPath basePath second := fun same => by
  have lengths := congrArg List.length same
  simp only [tmpPath, payloadPath, refToPath, List.length_append, List.length_cons,
    contentHashToRef_length] at lengths
  exact absurd lengths (Nat.ne_of_gt (Nat.lt_add_of_pos_right (by decide)))

end Paths

/-! ### One system call of a write among others -/

/-- Names refer to inodes in use, each to its own. -/
structure SoundNames (disk : Disk Text) : Prop where
  allocated : disk.Allocated
  apart : disk.Apart

/-- What a write has left in the file system so far. -/
def Wrote (path : Text) (data : List UInt8) (disk : Disk Text) : WriteCall → Prop
  | .writing inode offset => disk.names (tmpPath path) = some inode ∧
      disk.contents inode = data.take offset ∧ offset ≤ data.length
  | .closed => ∃ inode, disk.names (tmpPath path) = some inode ∧ disk.contents inode = data
  | .returned => (disk.names path).isSome
  | .waiting | .failing | .unlinking | .raised => True

/-- Only the payload and its temporary file were touched, the payload by no more than a rename. -/
structure Touches (path : Text) (before after : Disk Text) : Prop where
  used : before.next ≤ after.next
  others : ∀ name, name ≠ path → name ≠ tmpPath path → after.names name = before.names name
  contents : ∀ inode, inode < before.next → before.names (tmpPath path) ≠ some inode →
    after.contents inode = before.contents inode
  tmp : ∀ inode, inode < before.next → before.names (tmpPath path) ≠ some inode →
    after.names (tmpPath path) ≠ some inode
  stored : (before.names path).isSome → (after.names path).isSome

/-- A touched payload is the old one or has the data. -/
def Publishes (path : Text) (data : List UInt8) (before after : Disk Text) : Prop :=
  ∀ inode, after.names path = some inode →
    before.names path = some inode ∨ after.contents inode = data

section Call

variable {path : Text} {data : List UInt8} {disk : Disk Text}

theorem Touches.refl (path : Text) (disk : Disk Text) : Touches path disk disk :=
  ⟨le_rfl, fun _ _ _ => rfl, fun _ _ _ => rfl, fun _ _ different => different, id⟩

theorem Publishes.refl (path : Text) (data : List UInt8) (disk : Disk Text) :
    Publishes path data disk disk := fun _ => .inl

theorem openTmp_touches : Touches path disk (disk.openTruncated (tmpPath path)).1 where
  used := by
    unfold Disk.openTruncated
    split
    · exact le_rfl
    · exact Nat.le_succ _
  others name _ different := Disk.openTruncated_names_of_ne different
  contents inode used different := (Disk.openTruncated_of_ne used different).2.2
  tmp inode used different := by
    rw [Disk.openTruncated_names_self]
    exact fun same => (Disk.openTruncated_of_ne used different).2.1 (Option.some.inj same)
  stored := by
    rw [Disk.openTruncated_names_of_ne (tmpPath_ne path).symm]
    exact id

theorem replace_touches {inode : Nat} : Touches path disk { disk with
    names := Function.update (Function.update disk.names (tmpPath path) none) path
      (some inode) } where
  used := le_rfl
  others name notPath notTmp := by
    dsimp only
    rw [Function.update_of_ne notPath, Function.update_of_ne notTmp]
  contents _ _ _ := rfl
  tmp other _ _ := by
    dsimp only
    rw [Function.update_of_ne (tmpPath_ne path), Function.update_self]
    exact nofun
  stored _ := by
    dsimp only
    rw [Function.update_self]
    rfl

theorem unlink_touches : Touches path disk { disk with
    names := Function.update disk.names (tmpPath path) none } where
  used := le_rfl
  others name _ notTmp := Function.update_of_ne notTmp _ _
  contents _ _ _ := rfl
  tmp other _ _ := by
    dsimp only
    rw [Function.update_self]
    exact nofun
  stored := by
    dsimp only
    rw [Function.update_of_ne (tmpPath_ne path).symm]
    exact id

theorem replace_names (sound : SoundNames disk) {inode : Nat}
    (own : disk.names (tmpPath path) = some inode) : SoundNames { disk with
      names := Function.update (Function.update disk.names (tmpPath path) none) path
        (some inode) } where
  allocated name other refers := by
    dsimp only at refers ⊢
    by_cases target : name = path
    · rw [target, Function.update_self] at refers
      cases refers
      exact sound.allocated _ inode own
    · rw [Function.update_of_ne target] at refers
      by_cases source : name = tmpPath path
      · rw [source, Function.update_self] at refers
        cases refers
      · rw [Function.update_of_ne source] at refers
        exact sound.allocated name other refers
  apart := Disk.rename_apart sound.apart own

theorem unlink_names (sound : SoundNames disk) : SoundNames { disk with
    names := Function.update disk.names (tmpPath path) none } where
  allocated name other refers := by
    dsimp only at refers ⊢
    by_cases source : name = tmpPath path
    · rw [source, Function.update_self] at refers
      cases refers
    · rw [Function.update_of_ne source] at refers
      exact sound.allocated name other refers
  apart := Disk.apart_update_none sound.apart _

/-- What one system call of a write does. -/
theorem writeStep_touches {call : WriteCall} (sound : SoundNames disk)
    (wrote : Wrote path data disk call) (action : WriteAction) :
    SoundNames (writeStep path data disk call action).1 ∧
      Touches path disk (writeStep path data disk call action).1 ∧
      Publishes path data disk (writeStep path data disk call action).1 ∧
      Wrote path data (writeStep path data disk call action).1
        (writeStep path data disk call action).2 := by
  unfold writeStep
  split
  · refine ⟨⟨Disk.openTruncated_allocated sound.allocated,
      Disk.openTruncated_apart sound.apart sound.allocated⟩, openTmp_touches,
      fun inode stored => ?_, Disk.openTruncated_names_self, Disk.openTruncated_contents_self,
      Nat.zero_le _⟩
    rw [Disk.openTruncated_names_of_ne (tmpPath_ne path).symm] at stored
    exact .inl stored
  · rename_i inode offset count
    obtain ⟨own, written, within⟩ := wrote
    refine ⟨⟨sound.allocated, sound.apart⟩, ⟨le_rfl, fun _ _ _ => rfl, fun other _ different => ?_,
      fun _ _ different => different, id⟩, fun _ => .inl, own, ?_, ?_⟩
    · exact Disk.writeAt_contents_of_ne disk (fun same : other = inode =>
        different (same.symm ▸ own)) offset _
    · rw [Disk.writeAt_contents_self, written, overwrite_take within]
    · have left : ((data.drop offset).take (count + 1)).length ≤ data.length - offset := by
        rw [List.length_take, List.length_drop]
        exact Nat.min_le_right _ _
      omega
  · rename_i inode offset
    obtain ⟨own, written, within⟩ := wrote
    refine ⟨sound, .refl path disk, .refl path data disk, ?_⟩
    dsimp only
    split
    · rename_i all
      exact ⟨inode, own, written.trans (List.take_of_length_le all)⟩
    · exact ⟨own, written, within⟩
  · obtain ⟨inode, own, whole⟩ := wrote
    rw [Disk.rename_eq_some own]
    refine ⟨replace_names sound own, replace_touches, fun other stored => ?_, ?_⟩
    · dsimp only at stored ⊢
      rw [Function.update_self] at stored
      cases stored
      exact .inr whole
    · unfold Wrote
      dsimp only
      rw [Function.update_self]
      rfl
  · refine ⟨sound, .refl path disk, .refl path data disk, ?_⟩
    dsimp only
    split <;> exact trivial
  · cases present : disk.names (tmpPath path) with
    | none =>
      rw [Disk.unlink, present]
      exact ⟨sound, .refl path disk, .refl path data disk, trivial⟩
    | some inode =>
      rw [Disk.unlink, present]
      refine ⟨unlink_names sound, unlink_touches, fun other stored => .inl ?_, trivial⟩
      rw [Option.map_some, Option.getD_some] at stored
      dsimp only at stored
      rwa [Function.update_of_ne (tmpPath_ne path).symm] at stored
  · exact ⟨sound, .refl path disk, .refl path data disk, wrote⟩

/-- What another write has left stays, where the paths have nothing in common. -/
theorem Wrote.touched {after : Disk Text} {other : Text} {content : List UInt8} {call : WriteCall}
    (sound : SoundNames disk) (wrote : Wrote other content disk call)
    (touches : Touches path disk after) (files : other ≠ path) (file : other ≠ tmpPath path)
    (tmp : tmpPath other ≠ path) : Wrote other content after call := by
  have tmps : tmpPath other ≠ tmpPath path := fun same => files (tmpPath_injective same)
  have kept {inode : Nat} (own : disk.names (tmpPath other) = some inode) :
      after.contents inode = disk.contents inode :=
    touches.contents inode (sound.allocated _ inode own) fun same =>
      tmps (sound.apart _ _ inode own same)
  cases call with
  | writing inode offset =>
    obtain ⟨own, written, within⟩ := wrote
    exact ⟨(touches.others _ tmp tmps).trans own, (kept own).trans written, within⟩
  | closed =>
    obtain ⟨inode, own, whole⟩ := wrote
    exact ⟨inode, (touches.others _ tmp tmps).trans own, (kept own).trans whole⟩
  | returned =>
    show (after.names other).isSome
    rw [touches.others other files file]
    exact wrote
  | waiting | failing | unlinking | raised => exact trivial

/-- What another write of the same payload has left stays, when it is not under way. -/
theorem Wrote.touched_same {after : Disk Text} {content : List UInt8} {call : WriteCall}
    (wrote : Wrote path content disk call) (touches : Touches path disk after)
    (rests : call.underWay = false) : Wrote path content after call := by
  cases call with
  | returned => exact touches.stored wrote
  | waiting | raised => exact trivial
  | writing | closed | failing | unlinking => cases rests

end Call

/-! ### What holds while the writes of one payload are opened alone -/

/-- An ingestion that was admitted. -/
def IngestPhase.admitted : IngestPhase → Bool
  | .received | .forbidden => false
  | .storing _ | .checked _ | .flushed _ | .committed _ | .lost | .raised => true

/-- An ingestion whose payload was stored. -/
def IngestPhase.hasStored : IngestPhase → Bool
  | .storing call => call = .returned
  | .checked _ | .flushed _ | .committed _ | .lost => true
  | .received | .forbidden | .raised => false

/-- An ingestion whose row was committed. -/
def IngestPhase.hasCommitted : IngestPhase → Bool
  | .committed _ | .lost => true
  | .received | .forbidden | .storing _ | .checked _ | .flushed _ | .raised => false

theorem IngestPhase.hasStored_of_committed {phase : IngestPhase}
    (committed : phase.hasCommitted = true) : phase.hasStored = true := by
  cases phase with
  | committed _ | lost => rfl
  | received | forbidden | storing _ | checked _ | flushed _ | raised => cases committed

/-- An ingestion that found a row with its hash. -/
def IngestPhase.foundDuplicate : IngestPhase → Bool
  | .checked isDuplicate | .flushed isDuplicate | .committed isDuplicate => isDuplicate
  | .received | .forbidden | .storing _ | .lost | .raised => false

/-- An ingestion that has opened the temporary file and has not ended its write. -/
def IngestPhase.underWay : IngestPhase → Bool
  | .storing call => call.underWay
  | .received | .forbidden | .checked _ | .flushed _ | .committed _ | .lost | .raised => false

section Invariant

variable (basePath : Text) (ingests : Nat → IngestRequest) (downloads : Nat → DownloadRequest)

/-- The bytes are those of an admitted upload with the hash. -/
def Uploaded (phases : Nat → IngestPhase) (contentHash : Vector UInt8 32) (bytes : List UInt8) :
    Prop :=
  ∃ index, (phases index).admitted = true ∧ (ingests index).contentHash = contentHash ∧
    bytes = (ingests index).content

/-- A read has opened a file that no write touches any more and received its beginning. -/
def ReadSound (phases : Nat → IngestPhase) (disk : Disk Text) (contentHash : Vector UInt8 32) :
    ReadCall → Prop
  | .waiting => True
  | .reading inode received => inode < disk.next ∧
      (∀ other, disk.names (tmpPath (payloadPath basePath other)) ≠ some inode) ∧
      Uploaded ingests phases contentHash (disk.contents inode) ∧ received <+: disk.contents inode
  | .returned bytes => Uploaded ingests phases contentHash bytes
  | .notFound => False

/-- The other ingestions of the payload of one rest. -/
def OthersRest (phases : Nat → IngestPhase) (index : Nat) : Prop :=
  ∀ other, other ≠ index → (ingests other).contentHash = (ingests index).contentHash →
    (phases other).underWay = false

/-- A write is begun only while no other one of the same payload is under way. -/
def BegunAlone (state : DocumentState) : DocumentEvent → Prop
  | .store index .openTmp | .fail index =>
    state.ingests index = .storing .waiting → OthersRest ingests state.ingests index
  | _ => True

/-- Another upload of the same payload was committed. -/
def CommittedBefore (phases : Nat → IngestPhase) (index : Nat) : Prop :=
  ∃ other, other ≠ index ∧ (phases other).hasCommitted = true ∧
    (ingests other).contentHash = (ingests index).contentHash

structure SoundDocuments (state : DocumentState) : Prop where
  names : SoundNames state.disk
  payloads : ∀ contentHash inode,
    state.disk.names (payloadPath basePath contentHash) = some inode →
      Uploaded ingests state.ingests contentHash (state.disk.contents inode)
  writes : ∀ index call, state.ingests index = .storing call →
    Wrote (payloadPath basePath (ingests index).contentHash) (ingests index).content state.disk call
  single : ∀ index, (state.ingests index).underWay = true → OthersRest ingests state.ingests index
  stored : ∀ index, (state.ingests index).hasStored = true →
    (state.disk.names (payloadPath basePath (ingests index).contentHash)).isSome
  rows : ∀ row ∈ state.rows.rows, ∃ index apiKeyId,
    (state.ingests index).hasCommitted = true ∧ row = (ingests index).row apiKeyId
  kept : ∀ index, (state.ingests index).hasCommitted = true →
    ∃ apiKeyId, (ingests index).row apiKeyId ∈ state.rows.rows
  duplicates : ∀ index, (state.ingests index).foundDuplicate = true →
    CommittedBefore ingests state.ingests index
  answers : ∀ index, state.answers index = some true →
    CommittedBefore ingests state.ingests index
  serving : ∀ index row call, state.downloads index = .serving row call →
    row ∈ state.rows.rows ∧ row.documentId = (downloads index).documentId ∧
      ReadSound basePath ingests state.ingests state.disk row.contentHash call

end Invariant

section Moves

variable {basePath : Text} {ingests : Nat → IngestRequest} {downloads : Nat → DownloadRequest}
  {state : DocumentState} {index : Nat} {phase : IngestPhase}

/-- An ingestion that moves on stays admitted and committed. -/
structure Advances (before after : IngestPhase) : Prop where
  admitted : before.admitted = true → after.admitted = true
  committed : before.hasCommitted = true → after.hasCommitted = true

theorem Uploaded.advances {phases : Nat → IngestPhase} {contentHash : Vector UInt8 32}
    {bytes : List UInt8} (uploaded : Uploaded ingests phases contentHash bytes)
    (advances : Advances (phases index) phase) :
    Uploaded ingests (Function.update phases index phase) contentHash bytes := by
  obtain ⟨source, admitted, same, content⟩ := uploaded
  refine ⟨source, ?_, same, content⟩
  by_cases isIndex : source = index
  · rw [isIndex, Function.update_self]
    exact advances.admitted (isIndex ▸ admitted)
  · rwa [Function.update_of_ne isIndex]

theorem ReadSound.advances {phases : Nat → IngestPhase} {disk : Disk Text}
    {contentHash : Vector UInt8 32} {call : ReadCall} {after : Disk Text}
    (reads : ReadSound basePath ingests phases disk contentHash call)
    (advances : Advances (phases index) phase)
    (touches : Touches (payloadPath basePath (ingests index).contentHash) disk after) :
    ReadSound basePath ingests (Function.update phases index phase) after contentHash call := by
  cases call with
  | waiting => exact trivial
  | notFound => exact reads
  | returned bytes => exact Uploaded.advances reads advances
  | reading inode received =>
    obtain ⟨used, published, uploaded, front⟩ := reads
    have kept := touches.contents inode used (published (ingests index).contentHash)
    refine ⟨Nat.lt_of_lt_of_le used touches.used, fun other => ?_, ?_, ?_⟩
    · by_cases same : other = (ingests index).contentHash
      · rw [same]
        exact touches.tmp inode used (published _)
      · rw [touches.others _ (tmpPath_ne_payloadPath other _)
          fun tmps => same (payloadPath_injective (tmpPath_injective tmps))]
        exact published other
    · rw [kept]
      exact uploaded.advances advances
    · rwa [kept]

theorem Advances.hasCommitted {phases : Nat → IngestPhase} {other : Nat}
    (advances : Advances (phases index) phase) (committed : (phases other).hasCommitted = true) :
    (Function.update phases index phase other).hasCommitted = true := by
  by_cases same : other = index
  · rw [same, Function.update_self]
    exact advances.committed (same ▸ committed)
  · rwa [Function.update_of_ne same]

theorem CommittedBefore.advances {phases : Nat → IngestPhase} {place : Nat}
    (before : CommittedBefore ingests phases place) (advances : Advances (phases index) phase) :
    CommittedBefore ingests (Function.update phases index phase) place := by
  obtain ⟨other, different, committed, same⟩ := before
  exact ⟨other, different, advances.hasCommitted committed, same⟩

/-- One ingestion moves on, which may touch the files of its payload while the others of that
payload rest, and may add its row. -/
structure IngestMove (basePath : Text) (ingests : Nat → IngestRequest) (state : DocumentState)
    (index : Nat) (phase : IngestPhase) (disk : Disk Text) (rows : Table documentKeys) :
    Prop where
  advances : Advances (state.ingests index) phase
  names : SoundNames disk
  touches : Touches (payloadPath basePath (ingests index).contentHash) state.disk disk
  publishes : Publishes (payloadPath basePath (ingests index).contentHash)
    (ingests index).content state.disk disk
  rests : disk = state.disk ∧ phase.underWay = false ∨
    phase.admitted = true ∧ OthersRest ingests state.ingests index
  wrote : ∀ call, phase = .storing call →
    Wrote (payloadPath basePath (ingests index).contentHash) (ingests index).content disk call
  stored : phase.hasStored = true →
    (disk.names (payloadPath basePath (ingests index).contentHash)).isSome
  added : rows = state.rows ∧
      (phase.hasCommitted = true → (state.ingests index).hasCommitted = true) ∨
    ∃ apiKeyId, phase.hasCommitted = true ∧
      rows.rows = state.rows.rows ++ [(ingests index).row apiKeyId]
  found : phase.foundDuplicate = true → CommittedBefore ingests state.ingests index

namespace IngestMove

variable {disk : Disk Text} {rows : Table documentKeys}
  (move : IngestMove basePath ingests state index phase disk rows)
  (sound : SoundDocuments basePath ingests downloads state)

include move

theorem rows_subset {row : StoredDocument} (member : row ∈ state.rows.rows) :
    row ∈ rows.rows := by
  rcases move.added with ⟨same, -⟩ | ⟨_, -, appended⟩
  · exact same ▸ member
  · exact appended ▸ List.mem_append_left _ member

/-- The ingestion is alone with its payload while its write is under way. -/
theorem alone (way : phase.underWay = true) : OthersRest ingests state.ingests index := by
  rcases move.rests with ⟨-, resting⟩ | ⟨-, rests⟩
  · rw [resting] at way
    cases way
  · exact rests

include sound

/-- A payload that was touched is the old one or the one of the ingestion. -/
theorem payloads (contentHash : Vector UInt8 32) (inode : Nat)
    (named : disk.names (payloadPath basePath contentHash) = some inode) :
    Uploaded ingests (Function.update state.ingests index phase) contentHash
      (disk.contents inode) := by
  have keeps (before : state.disk.names (payloadPath basePath contentHash) = some inode) :
      Uploaded ingests (Function.update state.ingests index phase) contentHash
        (disk.contents inode) := by
    rw [move.touches.contents inode (sound.names.allocated _ inode before) fun same =>
      tmpPath_ne_payloadPath _ _ (sound.names.apart _ _ inode same before)]
    exact (sound.payloads contentHash inode before).advances move.advances
  by_cases same : contentHash = (ingests index).contentHash
  · subst same
    rcases move.publishes inode named with before | whole
    · exact keeps before
    · rcases move.rests with ⟨unchanged, -⟩ | ⟨admitted, -⟩
      · exact keeps (unchanged ▸ named)
      · have moved : Function.update state.ingests index phase index = phase :=
          Function.update_self index phase state.ingests
        exact ⟨index, (congrArg IngestPhase.admitted moved).trans admitted, rfl, whole⟩
  · refine keeps ?_
    rw [← move.touches.others _ (fun paths => same (payloadPath_injective paths))
      (tmpPath_ne_payloadPath _ _).symm]
    exact named

/-- The other writes keep what they left: their files are others, or they rest. -/
theorem writes (other : Nat) (call : WriteCall)
    (storing : Function.update state.ingests index phase other = .storing call) :
    Wrote (payloadPath basePath (ingests other).contentHash) (ingests other).content disk call := by
  by_cases same : other = index
  · subst same
    rw [Function.update_self] at storing
    exact move.wrote call storing
  · rw [Function.update_of_ne same] at storing
    have left := sound.writes other call storing
    rcases move.rests with ⟨unchanged, -⟩ | ⟨-, rests⟩
    · rw [unchanged]
      exact left
    · by_cases hashes : (ingests other).contentHash = (ingests index).contentHash
      · rw [hashes] at left ⊢
        refine left.touched_same move.touches ?_
        have resting := rests other same hashes
        rwa [storing] at resting
      · exact left.touched sound.names move.touches
          (fun paths => hashes (payloadPath_injective paths))
          (tmpPath_ne_payloadPath _ _).symm (tmpPath_ne_payloadPath _ _)

theorem single (first : Nat)
    (way : (Function.update state.ingests index phase first).underWay = true) :
    OthersRest ingests (Function.update state.ingests index phase) first := by
  intro other different hashes
  by_cases isFirst : first = index
  · subst isFirst
    rw [Function.update_self] at way
    rw [Function.update_of_ne different]
    exact move.alone way other different hashes
  · rw [Function.update_of_ne isFirst] at way
    by_cases isOther : other = index
    · subst isOther
      rw [Function.update_self, Bool.eq_false_iff]
      intro phaseWay
      rw [move.alone phaseWay first isFirst hashes.symm] at way
      cases way
    · rw [Function.update_of_ne isOther]
      exact sound.single first way other different hashes

theorem payload_stored (other : Nat)
    (has : (Function.update state.ingests index phase other).hasStored = true) :
    (disk.names (payloadPath basePath (ingests other).contentHash)).isSome := by
  by_cases same : other = index
  · subst same
    rw [Function.update_self] at has
    exact move.stored has
  · rw [Function.update_of_ne same] at has
    have before := sound.stored other has
    by_cases hashes : (ingests other).contentHash = (ingests index).contentHash
    · rw [hashes] at before ⊢
      exact move.touches.stored before
    · rw [move.touches.others _ (fun paths => hashes (payloadPath_injective paths))
        (tmpPath_ne_payloadPath _ _).symm]
      exact before

theorem committed_of_row (row : StoredDocument) (member : row ∈ rows.rows) :
    ∃ place apiKeyId, (Function.update state.ingests index phase place).hasCommitted = true ∧
      row = (ingests place).row apiKeyId := by
  have before (stored : row ∈ state.rows.rows) : ∃ place apiKeyId,
      (Function.update state.ingests index phase place).hasCommitted = true ∧
        row = (ingests place).row apiKeyId := by
    obtain ⟨place, apiKeyId, committed, same⟩ := sound.rows row stored
    exact ⟨place, apiKeyId, move.advances.hasCommitted committed, same⟩
  rcases move.added with ⟨same, -⟩ | ⟨apiKeyId, committed, appended⟩
  · exact before (same ▸ member)
  · rw [appended] at member
    rcases List.mem_append.mp member with stored | new
    · exact before stored
    · refine ⟨index, apiKeyId, ?_, List.mem_singleton.mp new⟩
      rw [Function.update_self]
      exact committed

theorem row_of_committed (place : Nat)
    (committed : (Function.update state.ingests index phase place).hasCommitted = true) :
    ∃ apiKeyId, (ingests place).row apiKeyId ∈ rows.rows := by
  have before (was : (state.ingests place).hasCommitted = true) :
      ∃ apiKeyId, (ingests place).row apiKeyId ∈ rows.rows :=
    (sound.kept place was).imp fun _ => move.rows_subset
  by_cases same : place = index
  · subst same
    rw [Function.update_self] at committed
    rcases move.added with ⟨-, already⟩ | ⟨apiKeyId, -, appended⟩
    · exact before (already committed)
    · exact ⟨apiKeyId, appended ▸ List.mem_append_right _ List.mem_cons_self⟩
  · rw [Function.update_of_ne same] at committed
    exact before committed

theorem duplicates (place : Nat)
    (found : (Function.update state.ingests index phase place).foundDuplicate = true) :
    CommittedBefore ingests (Function.update state.ingests index phase) place := by
  refine CommittedBefore.advances ?_ move.advances
  by_cases same : place = index
  · subst same
    rw [Function.update_self] at found
    exact move.found found
  · rw [Function.update_of_ne same] at found
    exact sound.duplicates place found

/-- What holds still holds after the move. -/
theorem soundDocuments : SoundDocuments basePath ingests downloads
    ({ state with disk := disk, rows := rows }.setIngest index phase) where
  names := move.names
  payloads := move.payloads sound
  writes := move.writes sound
  single := move.single sound
  stored := move.payload_stored sound
  rows := move.committed_of_row sound
  kept := move.row_of_committed sound
  duplicates := move.duplicates sound
  answers place answered := (sound.answers place answered).advances move.advances
  serving reader row call serves := by
    obtain ⟨member, asked, reads⟩ := sound.serving reader row call serves
    exact ⟨move.rows_subset member, asked, reads.advances move.advances move.touches⟩

end IngestMove

/-- Only the phase of an ingestion changes. -/
theorem SoundDocuments.setPhase (sound : SoundDocuments basePath ingests downloads state)
    (advances : Advances (state.ingests index) phase)
    (rests : phase.underWay = false ∨
      phase.admitted = true ∧ OthersRest ingests state.ingests index)
    (wrote : ∀ call, phase = .storing call →
      Wrote (payloadPath basePath (ingests index).contentHash) (ingests index).content
        state.disk call)
    (stored : phase.hasStored = true → (state.ingests index).hasStored = true)
    (committed : phase.hasCommitted = true → (state.ingests index).hasCommitted = true)
    (found : phase.foundDuplicate = true → CommittedBefore ingests state.ingests index) :
    SoundDocuments basePath ingests downloads (state.setIngest index phase) :=
  IngestMove.soundDocuments
    { advances, names := sound.names, touches := .refl _ _, publishes := .refl _ _ _,
      rests := rests.imp_left fun rest => ⟨rfl, rest⟩, wrote,
      stored := fun has => sound.stored index (stored has), added := .inl ⟨rfl, committed⟩,
      found } sound

/-- One download moves on. -/
theorem SoundDocuments.setDownload (sound : SoundDocuments basePath ingests downloads state)
    {served : DownloadPhase}
    (serves : ∀ row call, served = .serving row call → row ∈ state.rows.rows ∧
      row.documentId = (downloads index).documentId ∧
      ReadSound basePath ingests state.ingests state.disk row.contentHash call) :
    SoundDocuments basePath ingests downloads (state.setDownload index served) := by
  refine { sound with serving := fun reader row call serving => ?_ }
  replace serving : Function.update state.downloads index served reader = .serving row call :=
    serving
  by_cases same : reader = index
  · subst same
    rw [Function.update_self] at serving
    exact serves row call serving
  · rw [Function.update_of_ne same] at serving
    exact sound.serving reader row call serving

end Moves

/-! ### Runs -/

section Runs

variable {basePath : Text} {ingests : Nat → IngestRequest} {downloads : Nat → DownloadRequest}
  {state : DocumentState}

theorem insertDocument_some {table rows : Table documentKeys} {request : IngestRequest}
    (committed : insertDocument table request = some rows) :
    ∃ apiKeyId, rows.rows = table.rows ++ [request.row apiKeyId] ∧
      isContentType request.effectiveType.toList = true := by
  obtain ⟨apiKeyId, -, inserted⟩ := Option.bind_eq_some_iff.mp committed
  unfold createDocument at inserted
  split at inserted
  · rename_i formed
    cases stored : table.insert (request.row apiKeyId) with
    | error violated =>
      rw [stored] at inserted
      cases inserted
    | ok next =>
      rw [stored] at inserted
      cases inserted
      exact ⟨apiKeyId, (Table.insert_ok stored).1, formed⟩
  · cases inserted

/-- What a lookup serves is a stored row of the document. -/
theorem lookUpDocument_serving {table : Table documentKeys} {request : DownloadRequest}
    {row : StoredDocument} {call : ReadCall}
    (serves : lookUpDocument table request = .serving row call) :
    row ∈ table.rows ∧ row.documentId = request.documentId ∧ call = .waiting := by
  unfold lookUpDocument at serves
  split at serves
  · split at serves
    · rename_i found
      cases serves
      have named := List.find?_some found
      exact ⟨List.mem_of_find?_eq_some found, of_decide_eq_true named, rfl⟩
    · cases serves
  · cases serves

/-- An ingestion that is not committed moves on to a phase behind its admission. -/
theorem Advances.of_admitted {before after : IngestPhase}
    (uncommitted : before.hasCommitted = false)
    (admitted : after.admitted = true) : Advances before after :=
  ⟨fun _ => admitted, fun committed => absurd (uncommitted.symm.trans committed) Bool.false_ne_true⟩

theorem SoundDocuments.letIn (sound : SoundDocuments basePath ingests downloads state) {index : Nat}
    (here : state.ingests index = .received) {phase : IngestPhase}
    (moves : phase = .storing .waiting ∨ phase = .forbidden) :
    SoundDocuments basePath ingests downloads (state.setIngest index phase) := by
  have advances : Advances (state.ingests index) phase := by
    rw [here]
    exact ⟨fun admitted => absurd admitted Bool.false_ne_true,
      fun committed => absurd committed Bool.false_ne_true⟩
  rcases moves with rfl | rfl
  · refine sound.setPhase advances (.inl rfl) (fun call same => ?_) nofun nofun nofun
    cases same
    exact trivial
  · exact sound.setPhase advances (.inl rfl) nofun nofun nofun nofun

/-- One system call of a write. -/
theorem SoundDocuments.store (sound : SoundDocuments basePath ingests downloads state) {index : Nat}
    {call : WriteCall} (here : state.ingests index = .storing call) {action : WriteAction}
    (alone : BegunAlone ingests state (.store index action)) :
    SoundDocuments basePath ingests downloads
      ({ state with
         disk := (writeStep (payloadPath basePath (ingests index).contentHash)
           (ingests index).content state.disk call action).1 }.setIngest index
        (.storing (writeStep (payloadPath basePath (ingests index).contentHash)
          (ingests index).content state.disk call action).2)) := by
  have wrote := sound.writes index call here
  have advances (next : WriteCall) : Advances (state.ingests index) (.storing next) := by
    rw [here]
    exact .of_admitted rfl rfl
  by_cases acts : call.underWay = true ∨ call = .waiting ∧ action = .openTmp
  · have rests : OthersRest ingests state.ingests index := by
      rcases acts with way | ⟨rfl, rfl⟩
      · refine sound.single index ?_
        rw [here]
        exact way
      · exact alone here
    obtain ⟨names, touches, publishes, left⟩ := writeStep_touches sound.names wrote action
    refine IngestMove.soundDocuments
      { advances := advances _, names, touches, publishes, rests := .inr ⟨rfl, rests⟩,
        wrote := fun next same => ?_, stored := fun has => ?_, added := .inl ⟨rfl, nofun⟩,
        found := nofun } sound
    · cases same
      exact left
    · have returned := of_decide_eq_true has
      rw [returned] at left
      exact left
  · obtain ⟨idle, unopened⟩ := not_or.mp acts
    rw [writeStep_idle (Bool.eq_false_iff.mpr idle) unopened]
    refine sound.setPhase (advances call) (.inl (Bool.eq_false_iff.mpr idle)) (fun next same => ?_)
      (fun has => here ▸ has) nofun nofun
    cases same
    exact wrote

theorem SoundDocuments.fail (sound : SoundDocuments basePath ingests downloads state) {index : Nat}
    {call : WriteCall} (here : state.ingests index = .storing call)
    (alone : BegunAlone ingests state (.fail index))
    (fails : call = .waiting ∨ call.underWay = true) :
    SoundDocuments basePath ingests downloads (state.setIngest index (.storing .failing)) := by
  have rests : OthersRest ingests state.ingests index := by
    rcases fails with rfl | way
    · exact alone here
    · refine sound.single index ?_
      rw [here]
      exact way
  refine sound.setPhase ?_ (.inr ⟨rfl, rests⟩) (fun next same => ?_) nofun nofun nofun
  · rw [here]
    exact .of_admitted rfl rfl
  · cases same
    exact trivial

theorem SoundDocuments.search (sound : SoundDocuments basePath ingests downloads state)
    {index : Nat} (here : state.ingests index = .storing .returned) :
    SoundDocuments basePath ingests downloads (state.setIngest index
      (.checked (hasContentHash state.rows (ingests index).contentHash))) := by
  refine sound.setPhase ?_ (.inl rfl) nofun (fun _ => here ▸ rfl) nofun fun found => ?_
  · rw [here]
    exact .of_admitted rfl rfl
  · obtain ⟨row, stored, same⟩ := List.any_eq_true.mp found
    obtain ⟨other, apiKeyId, committed, rfl⟩ := sound.rows row stored
    refine ⟨other, fun equal => ?_, committed, of_decide_eq_true same⟩
    rw [equal, here] at committed
    cases committed

/-- What an ingestion found stays found while it is flushed. -/
theorem SoundDocuments.flush (sound : SoundDocuments basePath ingests downloads state)
    {index : Nat} {isDuplicate : Bool} (here : state.ingests index = .checked isDuplicate) :
    SoundDocuments basePath ingests downloads (state.setIngest index (.flushed isDuplicate)) := by
  refine sound.setPhase ?_ (.inl rfl) nofun (fun _ => here ▸ rfl) nofun
    fun found => sound.duplicates index (here ▸ found)
  rw [here]
  exact .of_admitted rfl rfl

theorem SoundDocuments.commit (sound : SoundDocuments basePath ingests downloads state)
    {index : Nat} {isDuplicate : Bool} (here : state.ingests index = .flushed isDuplicate)
    {rows : Table documentKeys}
    (inserted : insertDocument state.rows (ingests index) = some rows) :
    SoundDocuments basePath ingests downloads
      ({ state with rows := rows }.setIngest index (.committed isDuplicate)) := by
  obtain ⟨apiKeyId, appended, -⟩ := insertDocument_some inserted
  refine IngestMove.soundDocuments
    { advances := ?_, names := sound.names, touches := .refl _ _, publishes := .refl _ _ _,
      rests := .inl ⟨rfl, rfl⟩, wrote := nofun,
      stored := fun _ => sound.stored index (here ▸ rfl),
      added := .inr ⟨apiKeyId, rfl, appended⟩,
      found := fun found => sound.duplicates index (here ▸ found) } sound
  rw [here]
  exact .of_admitted rfl rfl

/-- An answer says what the search found. -/
theorem SoundDocuments.answer (sound : SoundDocuments basePath ingests downloads state)
    {index : Nat} {isDuplicate : Bool}
    (found : isDuplicate = true → (state.ingests index).foundDuplicate = true) :
    SoundDocuments basePath ingests downloads (state.setAnswer index isDuplicate) := by
  refine { sound with answers := fun place answered => ?_ }
  replace answered : Function.update state.answers index (some isDuplicate) place = some true :=
    answered
  by_cases same : place = index
  · subst same
    rw [Function.update_self] at answered
    exact sound.duplicates place (found (Option.some.inj answered))
  · rw [Function.update_of_ne same] at answered
    exact sound.answers place answered

/-- An admitted ingestion dies without a commit. -/
theorem SoundDocuments.raise (sound : SoundDocuments basePath ingests downloads state) {index : Nat}
    (uncommitted : (state.ingests index).hasCommitted = false) :
    SoundDocuments basePath ingests downloads (state.setIngest index .raised) :=
  sound.setPhase (.of_admitted uncommitted rfl) (.inl rfl) nofun nofun nofun nofun

/-- An ingestion that dies behind its commit leaves its row. -/
theorem SoundDocuments.lose (sound : SoundDocuments basePath ingests downloads state) {index : Nat}
    {isDuplicate : Bool} (here : state.ingests index = .committed isDuplicate) :
    SoundDocuments basePath ingests downloads (state.setIngest index .lost) :=
  sound.setPhase ⟨fun _ => rfl, fun _ => rfl⟩ (.inl rfl) nofun (fun _ => here ▸ rfl)
    (fun _ => here ▸ rfl) nofun

/-- A stored row has its payload. -/
theorem SoundDocuments.payload_stored (sound : SoundDocuments basePath ingests downloads state)
    {row : StoredDocument} (stored : row ∈ state.rows.rows) :
    refToPath basePath row.payloadRef = payloadPath basePath row.contentHash ∧
      (state.disk.names (payloadPath basePath row.contentHash)).isSome := by
  obtain ⟨index, apiKeyId, committed, rfl⟩ := sound.rows row stored
  exact ⟨rfl, sound.stored index (IngestPhase.hasStored_of_committed committed)⟩

/-- One system call of a read. -/
theorem SoundDocuments.readStep (sound : SoundDocuments basePath ingests downloads state)
    {row : StoredDocument} (stored : row ∈ state.rows.rows) {call : ReadCall}
    (reads : ReadSound basePath ingests state.ingests state.disk row.contentHash call)
    (action : ReadAction) : ReadSound basePath ingests state.ingests state.disk row.contentHash
      (LocalPayloadStore.readStep (refToPath basePath row.payloadRef) state.disk call action) := by
  obtain ⟨path, present⟩ := sound.payload_stored stored
  rw [path]
  unfold LocalPayloadStore.readStep
  split
  · obtain ⟨inode, named⟩ := Option.isSome_iff_exists.mp present
    rw [named]
    exact ⟨sound.names.allocated _ inode named, fun other tmp =>
      tmpPath_ne_payloadPath _ _ (sound.names.apart _ _ inode tmp named),
      sound.payloads _ inode named, List.nil_prefix⟩
  · rename_i inode received count
    obtain ⟨used, published, uploaded, rest, whole⟩ := reads
    have chunk : state.disk.readAt inode received.length (count + 1) = rest.take (count + 1) := by
      rw [Disk.readAt, ← whole, List.drop_left]
    dsimp only
    rw [chunk]
    split
    · rename_i none
      have ended : rest = [] := by simpa using none
      rw [ended, List.append_nil] at whole
      exact whole ▸ uploaded
    · refine ⟨used, published, uploaded, rest.drop (count + 1), ?_⟩
      rw [List.append_assoc, List.take_append_drop, whole]
  · exact reads

/-- One step keeps what holds. -/
theorem SoundDocuments.step (sound : SoundDocuments basePath ingests downloads state)
    {event : DocumentEvent} (alone : BegunAlone ingests state event) :
    SoundDocuments basePath ingests downloads
      (documentStep basePath ingests downloads state event) := by
  cases event with
  | letIn index =>
    simp only [documentStep]
    split
    · rename_i here
      split
      · exact sound.letIn here (.inl rfl)
      · exact sound.letIn here (.inr rfl)
    · exact sound
  | store index action =>
    simp only [documentStep]
    split
    · rename_i here
      exact sound.store here alone
    · exact sound
  | fail index =>
    simp only [documentStep]
    split
    · rename_i here
      exact sound.fail here alone (.inl rfl)
    · rename_i here
      exact sound.fail here alone (.inr rfl)
    · rename_i here
      exact sound.fail here alone (.inr rfl)
    · exact sound
  | search index =>
    simp only [documentStep]
    split
    · rename_i here
      exact sound.search here
    · exact sound
  | flush index =>
    simp only [documentStep]
    split
    · rename_i here
      split
      · exact sound.flush here
      · exact sound.raise (here ▸ rfl)
    · exact sound
  | commit index =>
    simp only [documentStep]
    split
    · rename_i here
      split
      · rename_i inserted
        exact sound.commit here inserted
      · exact sound.raise (here ▸ rfl)
    · exact sound
  | answer index =>
    simp only [documentStep]
    split
    · rename_i here
      exact sound.answer fun found => here ▸ found
    · rename_i here
      exact sound.answer fun found => here ▸ found
    · exact sound
  | die index =>
    simp only [documentStep]
    split
    · rename_i here
      exact sound.raise (here ▸ rfl)
    · rename_i here
      exact sound.raise (here ▸ rfl)
    · rename_i here
      exact sound.raise (here ▸ rfl)
    · rename_i here
      exact sound.lose here
    · exact sound
  | lookUp index =>
    simp only [documentStep]
    split
    · refine sound.setDownload fun row call serves => ?_
      obtain ⟨stored, asked, rfl⟩ := lookUpDocument_serving serves
      exact ⟨stored, asked, trivial⟩
    · exact sound
  | download index action =>
    simp only [documentStep]
    split
    · rename_i row call here
      obtain ⟨stored, asked, reads⟩ := sound.serving index row call here
      refine sound.setDownload fun served next same => ?_
      cases same
      exact ⟨stored, asked, sound.readStep stored reads action⟩
    · exact sound

theorem SoundDocuments.run {events : List DocumentEvent}
    (alone : Transition.Along (documentStep basePath ingests downloads) (BegunAlone ingests) .empty
      events) :
    SoundDocuments basePath ingests downloads
      (Transition.run (documentStep basePath ingests downloads) .empty events) := by
  refine Transition.run_invariant _ (SoundDocuments basePath ingests downloads)
    (fun _ _ sound alone => sound.step alone) _ ?_ events alone
  exact {
    names := ⟨fun _ _ refers => (nomatch refers), fun _ _ _ refers => (nomatch refers)⟩
    payloads := fun _ _ refers => nomatch refers
    writes := fun _ _ storing => nomatch storing
    single := fun _ way => nomatch way
    stored := fun _ has => nomatch has
    rows := fun _ member => nomatch member
    kept := fun _ committed => nomatch committed
    duplicates := fun _ found => nomatch found
    answers := fun _ answered => nomatch answered
    serving := fun _ _ _ serves => nomatch serves }

/-- Uploads and downloads interleave at single system calls, an ingestion may fail or die anywhere,
also between its commit and its answer, and the writes of one payload are begun alone. Then the rows
are those of the uploads that committed; every lookup of a stored document serves its row, no
download misses the payload, and each returns the bytes of an admitted upload that hashes to the
row's hash; and an upload is answered as a duplicate only when another one of its hash committed.
A payload is renamed into its place before the row is inserted, and no write opens it again. -/
theorem documents_readable (basePath : Text) (ingests : Nat → IngestRequest)
    (downloads : Nat → DownloadRequest) (events : List DocumentEvent)
    (alone : Transition.Along (documentStep basePath ingests downloads) (BegunAlone ingests) .empty
      events) :
    let reached := Transition.run (documentStep basePath ingests downloads) .empty events
    (∀ row ∈ reached.rows.rows, ∃ index apiKeyId,
      (reached.ingests index).hasCommitted = true ∧ row = (ingests index).row apiKeyId) ∧
    (∀ index, (reached.ingests index).hasCommitted = true →
      ∃ apiKeyId, (ingests index).row apiKeyId ∈ reached.rows.rows) ∧
    (∀ row ∈ reached.rows.rows, ∀ request : DownloadRequest,
      request.documentId = row.documentId → request.principal.role ∈ documentRoles →
        lookUpDocument reached.rows request = .serving row .waiting) ∧
    (∀ reader row call, reached.downloads reader = .serving row call →
      row ∈ reached.rows.rows ∧ row.documentId = (downloads reader).documentId ∧
      call ≠ .notFound ∧
      ∀ bytes, call = .returned bytes → sha256 bytes = row.contentHash ∧
        ∃ index, (reached.ingests index).admitted = true ∧ bytes = (ingests index).content) ∧
    ∀ index, reached.answers index = some true → CommittedBefore ingests reached.ingests index := by
  intro reached
  have sound : SoundDocuments basePath ingests downloads reached := .run alone
  refine ⟨sound.rows, sound.kept, fun row stored request asked admitted => ?_,
    fun reader row call serves => ?_, sound.answers⟩
  · have distinct := reached.rows.distinct _ List.mem_cons_self
    have found := find?_of_mem StoredDocument.documentId distinct stored
    rw [← asked] at found
    rw [lookUpDocument, if_pos admitted, found]
  · obtain ⟨stored, asked, reads⟩ := sound.serving reader row call serves
    refine ⟨stored, asked, fun missed => ?_, fun bytes returned => ?_⟩
    · rw [missed] at reads
      exact reads
    · rw [returned] at reads
      obtain ⟨index, admitted, hashes, same⟩ := reads
      exact ⟨same ▸ hashes, index, admitted, same⟩

end Runs

/-! ### An upload that is lost and its duplicate -/

/-- The upload an event is a step of. -/
def DocumentEvent.upload : DocumentEvent → Option Nat
  | .letIn index | .store index _ | .fail index | .search index | .flush index | .commit index
  | .answer index | .die index => some index
  | .lookUp _ | .download _ _ => none

section Frame

variable {basePath : Text} {ingests : Nat → IngestRequest} {downloads : Nat → DownloadRequest}

/-- An event leaves the other uploads where they are. -/
theorem documentStep_of_ne {state : DocumentState} {event : DocumentEvent} {other : Nat}
    (apart : event.upload ≠ some other) :
    (documentStep basePath ingests downloads state event).ingests other =
      state.ingests other := by
  have moved {index : Nat} (ne : some index ≠ some other) (phase : IngestPhase) :
      Function.update state.ingests index phase other = state.ingests other :=
    Function.update_of_ne (fun same => ne (congrArg some same.symm)) _ _
  cases event with
  | lookUp index | download index action =>
    simp only [documentStep]
    split <;> rfl
  | letIn index | store index action | fail index | search index | flush index | commit index
  | answer index | die index =>
    -- every branch sets the phase of the upload itself or nothing
    simp only [documentStep]
    repeat' split
    all_goals first | exact moved apart _ | rfl

/-- An upload that no event is a step of has not begun. -/
theorem received_of_apart (events : List DocumentEvent) {other : Nat}
    (apart : ∀ event ∈ events, event.upload ≠ some other) (state : DocumentState) :
    (Transition.run (documentStep basePath ingests downloads) state events).ingests other =
      state.ingests other := by
  induction events generalizing state with
  | nil => rfl
  | cons event rest inductionHypothesis =>
    exact (inductionHypothesis (fun later member => apart later (List.mem_cons_of_mem _ member))
      _).trans (documentStep_of_ne (apart event List.mem_cons_self))

end Frame

/-- Uploads of the same two bytes by an operator. -/
def twoBytes (index : Nat) : IngestRequest where
  content := [1, 2]
  contentType := none
  documentId := index
  now := 0
  principal := ⟨"00000000-0000-0000-0000-000000000001", "operator", "label"⟩

/-- A download of the first of them. -/
def firstDownload : DownloadRequest := ⟨0, ⟨"key", "operator", "label"⟩⟩

/-- The first upload commits and dies before it is answered; the second one is let in, and the first
document is opened. -/
def lostUpload : List DocumentEvent := [.letIn 0, .store 0 .openTmp, .store 0 (.writeChunk 7),
  .store 0 .close, .store 0 .replace, .search 0, .flush 0, .commit 0, .die 0, .letIn 1, .lookUp 0,
  .download 0 .openFile]

/-- The write of the second upload runs while the first document is read. -/
def duplicateUpload : List DocumentEvent := [.store 1 .openTmp, .download 0 (.readChunk 0),
  .store 1 (.writeChunk 7), .store 1 .close, .store 1 .replace, .download 0 (.readChunk 7),
  .search 1, .flush 1, .answer 1, .commit 1, .download 0 (.readChunk 7)]

/-- What a download has received in the end. -/
def DownloadPhase.bytes : DownloadPhase → Option (List UInt8)
  | .serving _ (.returned bytes) => some bytes
  | _ => none

/-- The writes of the two uploads are begun one after the other. -/
theorem twoBytes_begunAlone : Transition.Along
    (documentStep [] twoBytes fun _ => firstDownload) (BegunAlone twoBytes) .empty
      (lostUpload ++ duplicateUpload) := by
  have idle (events : List DocumentEvent) {other : Nat}
      (apart : ∀ event ∈ events, event.upload ≠ some other) :
      ((Transition.run (documentStep [] twoBytes fun _ => firstDownload) .empty
        events).ingests other).underWay = false := by
    rw [received_of_apart events apart]
    rfl
  refine (Transition.along_append _ _ _ _ _).mpr ⟨⟨trivial, fun _ other different _ => ?_, trivial,
    trivial, trivial, trivial, trivial, trivial, trivial, trivial, trivial, trivial, trivial⟩,
    fun _ other different _ => ?_, trivial, trivial, trivial, trivial, trivial, trivial, trivial,
    trivial, trivial, trivial, trivial⟩
  · refine idle [.letIn 0] fun event member same => different ?_
    rw [List.mem_singleton.mp member] at same
    exact (Option.some.inj same).symm
  · by_cases first : other = 0
    · subst first
      decide +kernel
    · have names : ∀ event ∈ lostUpload, event.upload ∈ [some 0, some 1, none] := by decide
      refine idle lostUpload fun event member same => ?_
      have named := names event member
      rw [same] at named
      rcases other with _ | _ | other
      · exact first rfl
      · exact different rfl
      · simp at named

/-- What the two uploads and the download leave. -/
def afterDuplicate : DocumentState :=
  Transition.run (documentStep [] twoBytes fun _ => firstDownload) .empty
    (lostUpload ++ duplicateUpload)

/-- Both rows are stored, the first upload was not answered, the second one is a duplicate of it,
and the download gets the two bytes. -/
theorem documents_readable_lost :
    afterDuplicate.rows.rows.map (fun row => row.documentId) = [0, 1] ∧
    afterDuplicate.answers 0 = none ∧ afterDuplicate.answers 1 = some true ∧
    (afterDuplicate.downloads 0).bytes = some [1, 2] ∧
    (∀ row ∈ afterDuplicate.rows.rows, ∃ index apiKeyId,
      (afterDuplicate.ingests index).hasCommitted = true ∧ row = (twoBytes index).row apiKeyId) ∧
    (∀ row ∈ afterDuplicate.rows.rows, ∀ request : DownloadRequest,
      request.documentId = row.documentId → request.principal.role ∈ documentRoles →
        lookUpDocument afterDuplicate.rows request = .serving row .waiting) ∧
    CommittedBefore twoBytes afterDuplicate.ingests 1 := by
  have readable := documents_readable [] twoBytes (fun _ => firstDownload)
    (lostUpload ++ duplicateUpload) twoBytes_begunAlone
  rw [← afterDuplicate] at readable
  obtain ⟨rows, -, lookups, -, answers⟩ := readable
  have answered : afterDuplicate.answers 1 = some true := by decide +kernel
  exact ⟨by decide +kernel, by decide +kernel, answered, by decide +kernel, rows, lookups,
    answers 1 answered⟩

end InsuranceOps
