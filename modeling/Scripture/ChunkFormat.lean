import Scripture.Model

set_option autoImplicit false

/- Encoding of the immutable chunk: header, index, frames, trailer. -/
namespace Scripture

open ByteFormat

def headerMagic : Bytes := [0x53, 0x43, 0x52, 0x43]
def trailerMagic : Bytes := [0x53, 0x43, 0x52, 0x45]
def majorVersion : UInt8 := 1
def minorVersion : UInt8 := 0

def headerLen : Nat := 4 + 1 + 1 + 16 + 16 + 8 + 16 + 4 + 4 + 4 + 4 + 4 + 8 + 4
def indexEntryFixedLen : Nat := 16 + 8 + 4 + 4 + 4 + 4 + 4
def submissionRefLen : Nat := 16 + 4 + 8 + 4 + 4
def trailerLen : Nat := 4 + 4 + 4

def stringTag : UInt8 := 1
def i64Tag : UInt8 := 2
def boolTag : UInt8 := 3

/-- One producer submission, and exactly which records of its frame it produced. -/
structure SubmissionRef where
  producerId : ProducerId
  producerEpoch : UInt32
  sequence : UInt64
  firstRecord : UInt32
  recordCount : UInt32
  deriving DecidableEq

/-- `(producer, epoch, sequence)`: what a retry must repeat to be a retry. -/
abbrev Identity := ProducerId × UInt32 × UInt64

def SubmissionRef.identity (submission : SubmissionRef) : Identity :=
  (submission.producerId, submission.producerEpoch, submission.sequence)

structure FrameRef where
  journalId : JournalId
  baseOffset : RecordOffset
  recordCount : UInt32
  frameOffset : UInt32
  frameLen : UInt32
  frameCrc : UInt32
  submissions : List SubmissionRef
  deriving DecidableEq

/-- The offsets a submission received, for the original receipt of a deduplicated retry. -/
def FrameRef.offsetsFor (frame : FrameRef) (producerId : ProducerId) (producerEpoch : UInt32)
    (sequence : UInt64) : Option (RecordOffset × UInt32) :=
  (frame.submissions.find? fun submission =>
    submission.producerId = producerId ∧ submission.producerEpoch = producerEpoch ∧
      submission.sequence = sequence).bind fun submission =>
    (frame.baseOffset.checkedAdd submission.firstRecord.toNat).map fun first =>
      (first, submission.recordCount)

structure Frame where
  journalId : JournalId
  baseOffset : RecordOffset
  records : List Record
  submissions : List SubmissionRef
  deriving DecidableEq

structure ChunkHeader where
  chunkId : ChunkId
  cohortId : CohortId
  generation : UInt64
  writerId : WriterId
  createdAtMicros : UInt64
  deriving DecidableEq

structure Chunk where
  header : ChunkHeader
  frames : List Frame
  deriving DecidableEq

structure SealedChunk where
  chunkId : ChunkId
  digest : ChunkDigest
  bytes : Bytes
  deriving DecidableEq

inductive ChunkError where
  | truncated
  | invalidMagic
  | unsupportedMajor (major : UInt8)
  | unsupportedMinor (minor : UInt8)
  | corruptIndex
  | corruptFrame (journal : JournalId)
  | nonCanonicalIndex
  | invalidFrameRegions
  | unsupportedAttributeType (tag : UInt8)
  | invalidUtf8
  | invalidBool (value : UInt8)
  | nonCanonicalAttributes
  | emptyChunk
  | oversized
  | offsetOverflow
  | trailingBytes
  | invalidSubmissionSpans
  | duplicateSubmissionIdentity
  | coPackingForbidden (frames : Nat)
  deriving DecidableEq

def ChunkDigest.of [Digests] (bytes : Bytes) : ChunkDigest := ⟨Digests.blake3 bytes⟩

def u32Len (value : Nat) : Except ChunkError UInt32 :=
  if value < 2 ^ 32 then .ok (UInt32.ofNat value) else .error .oversized

def putLenBytes (value : Bytes) : Except ChunkError Bytes := do
  let length ← u32Len value.length
  return putU32 length ++ value

def encodeAttribute (entry : String × AttributeValue) : Except ChunkError Bytes := do
  let key ← putLenBytes (utf8 entry.1)
  match entry.2 with
  | .string text =>
      let value ← putLenBytes (utf8 text)
      return key ++ ([stringTag] ++ value)
  | .i64 number => return key ++ ([i64Tag] ++ (putU32 8 ++ putU64 number.toUInt64))
  | .bool flag => return key ++ ([boolTag] ++ (putU32 1 ++ [if flag then 1 else 0]))

def encodeAttributes : List (String × AttributeValue) → Except ChunkError Bytes
  | [] => return []
  | entry :: rest => do
      let first ← encodeAttribute entry
      let remaining ← encodeAttributes rest
      return first ++ remaining

def encodeRecord (record : Record) : Except ChunkError Bytes := do
  let count ← u32Len record.attributes.entries.length
  let attributes ← encodeAttributes record.attributes.entries
  let payload ← putLenBytes record.payload
  return putU32 count ++ (attributes ++ payload)

def encodeRecords : List Record → Except ChunkError Bytes
  | [] => return []
  | record :: rest => do
      let first ← encodeRecord record
      let remaining ← encodeRecords rest
      return first ++ remaining

/-- One frame's records. The bytes depend only on the records. -/
def encodeFrameRecords (records : List Record) : Except ChunkError Bytes := do
  let count ← u32Len records.length
  let body ← encodeRecords records
  return putU32 count ++ body

/-- Running index and frame lengths of `encoded_chunk_len`. -/
def encodedLengths : List Frame → Nat → Nat → Except ChunkError (Nat × Nat)
  | [], indexLen, framesLen => return (indexLen, framesLen)
  | frame :: rest, indexLen, framesLen => do
      let some spans := Usize.checkedMul frame.submissions.length submissionRefLen
        | throw .oversized
      let some fixed := Usize.checkedAdd indexLen indexEntryFixedLen | throw .oversized
      let some indexLen := Usize.checkedAdd fixed spans | throw .oversized
      let body ← encodeFrameRecords frame.records
      let some framesLen := Usize.checkedAdd framesLen body.length | throw .oversized
      encodedLengths rest indexLen framesLen

/-- The exact encoded size of a chunk with these frames. -/
def encodedChunkLen (frames : List Frame) : Except ChunkError Nat := do
  let (indexLen, framesLen) ← encodedLengths frames 0 0
  let some withIndex := Usize.checkedAdd headerLen indexLen | throw .oversized
  let some withFrames := Usize.checkedAdd withIndex framesLen | throw .oversized
  let some total := Usize.checkedAdd withFrames trailerLen | throw .oversized
  return total

/-- The loop of `validate_submission_tiling`: identities seen so far and the next record. -/
def tilingLoop : List SubmissionRef → List Identity → Nat → Except ChunkError Nat
  | [], _, cursor => return cursor
  | submission :: rest, identities, cursor =>
      if submission.identity ∈ identities then throw .duplicateSubmissionIdentity
      else if submission.recordCount = 0 ∨ submission.firstRecord.toNat ≠ cursor then
        throw .invalidSubmissionSpans
      else
        match Usize.checkedAdd cursor submission.recordCount.toNat with
        | none => throw .oversized
        | some next => tilingLoop rest (submission.identity :: identities) next

/-- The submissions tile `[0, record_count)` in order, without gaps or overlaps. -/
def validateSubmissionTiling (submissions : List SubmissionRef) (recordCount : Nat) :
    Except ChunkError Unit := do
  let cursor ← tilingLoop submissions [] 0
  if cursor ≠ recordCount then throw .invalidSubmissionSpans

/-- The sort key of the canonical order. -/
def frameLe (left right : Frame) : Bool :=
  left.journalId.value < right.journalId.value ∨
    (left.journalId.value = right.journalId.value ∧
      left.baseOffset.toNat ≤ right.baseOffset.toNat)

def repeatsJournal : List Frame → Bool
  | first :: second :: rest =>
      first.journalId = second.journalId || repeatsJournal (second :: rest)
  | _ => false

def validateFrames : List Frame → Except ChunkError Unit
  | [] => return ()
  | frame :: rest => do
      validateSubmissionTiling frame.submissions frame.records.length
      let some _ := frame.baseOffset.checkedAdd frame.records.length | throw .offsetOverflow
      validateFrames rest

def encodeBodies : List Frame → Except ChunkError (List Bytes)
  | [] => return []
  | frame :: rest => do
      let body ← encodeFrameRecords frame.records
      let bodies ← encodeBodies rest
      return body :: bodies

def encodeSubmissionRef (submission : SubmissionRef) : Bytes :=
  submission.producerId.bytes.val ++ (putU32 submission.producerEpoch ++
    (putU64 submission.sequence ++ (putU32 submission.firstRecord ++
      putU32 submission.recordCount)))

/-- One index entry, as read back by a decoder. -/
def frameRefOf [Digests] (frame : Frame) (body : Bytes) (cursor : Nat) : FrameRef where
  journalId := frame.journalId
  baseOffset := frame.baseOffset
  recordCount := UInt32.ofNat frame.records.length
  frameOffset := UInt32.ofNat cursor
  frameLen := UInt32.ofNat body.length
  frameCrc := Digests.crc32c body
  submissions := frame.submissions

def encodeFrameRef (entry : FrameRef) : Bytes :=
  entry.journalId.bytes.val ++ (putU64 entry.baseOffset.get ++ (putU32 entry.recordCount ++
    (putU32 entry.frameOffset ++ (putU32 entry.frameLen ++ (putU32 entry.frameCrc ++
      (putU32 (UInt32.ofNat entry.submissions.length) ++
        entry.submissions.flatMap encodeSubmissionRef))))))

/-- The index loop of `seal_chunk`: its bytes and the cursor after the last frame. -/
def encodeIndex [Digests] : List Frame → List Bytes → Nat → Except ChunkError (Bytes × Nat)
  | frame :: frames, body :: bodies, cursor => do
      let _ ← u32Len frame.records.length
      let _ ← u32Len cursor
      let _ ← u32Len body.length
      let _ ← u32Len frame.submissions.length
      let entry := encodeFrameRef (frameRefOf frame body cursor)
      let some next := Usize.checkedAdd cursor body.length | throw .oversized
      let (rest, last) ← encodeIndex frames bodies next
      return (entry ++ rest, last)
  | _, _, cursor => return ([], cursor)

def indexLenOf (frames : List Frame) : Nat :=
  (frames.map fun frame => indexEntryFixedLen + frame.submissions.length * submissionRefLen).sum

/-- The header fields that locate the index and the frames. -/
structure ChunkLayout where
  indexOffset : UInt32
  indexLen : UInt32
  framesOffset : UInt32
  framesLen : UInt32
  frameCount : UInt32
  indexCrc : UInt32
  deriving DecidableEq

def encodeHeader (header : ChunkHeader) (layout : ChunkLayout) : Bytes :=
  headerMagic ++ ([majorVersion] ++ ([minorVersion] ++ (header.chunkId.bytes.val ++
    (header.cohortId.bytes.val ++ (putU64 header.generation ++ (header.writerId.bytes.val ++
      (putU32 layout.indexOffset ++ (putU32 layout.indexLen ++ (putU32 layout.framesOffset ++
        (putU32 layout.framesLen ++ (putU32 layout.frameCount ++
          (putU64 header.createdAtMicros ++ putU32 layout.indexCrc))))))))))))

def encodeTrailer (indexOffset indexLen : UInt32) : Bytes :=
  putU32 indexOffset ++ (putU32 indexLen ++ trailerMagic)

/-- Seals frames into immutable chunk bytes. -/
def sealChunk [Digests] (header : ChunkHeader) (frames : List Frame) :
    Except ChunkError SealedChunk := do
  if frames.isEmpty then throw .emptyChunk
  let frames := frames.mergeSort frameLe
  if repeatsJournal frames then throw .nonCanonicalIndex
  validateFrames frames
  let bodies ← encodeBodies frames
  let indexLen := indexLenOf frames
  let some framesOffset := Usize.checkedAdd headerLen indexLen | throw .oversized
  let (index, cursor) ← encodeIndex frames bodies framesOffset
  let framesLen := cursor - framesOffset
  let layout : ChunkLayout := {
    indexOffset := ← u32Len headerLen
    indexLen := ← u32Len indexLen
    framesOffset := ← u32Len framesOffset
    framesLen := ← u32Len framesLen
    frameCount := ← u32Len frames.length
    indexCrc := Digests.crc32c index }
  let bytes := encodeHeader header layout ++ (index ++ (bodies.flatten ++
    encodeTrailer layout.indexOffset layout.indexLen))
  return { chunkId := header.chunkId, digest := ChunkDigest.of bytes, bytes }

/-- Seals a chunk for one journal: the only sealing path of the driver. -/
def sealSingleFrameChunk [Digests] (header : ChunkHeader) (frames : List Frame) :
    Except ChunkError SealedChunk :=
  if frames.length ≠ 1 then .error (.coPackingForbidden frames.length)
  else sealChunk header frames

end Scripture
