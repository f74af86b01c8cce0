import Scripture.DataRef

set_option autoImplicit false

/- The writer that owns offset allocation for one journal, and the recovery that rebuilds it from
a bounded suffix of the log. The log kernel is a list of payloads: an append that returns `ok`
returns the slot where its payload can be read, and an append that fails may or may not have
written. -/
namespace Scripture

open ByteFormat ByteFormat.Reader

structure ChunkAppendAck where
  slot : Nat
  chunkId : ChunkId
  firstOffset : RecordOffset
  nextOffset : RecordOffset
  recordCount : UInt32
  deriving DecidableEq

inductive ChunkLogError where
  | supersededRangeOutsideLog (firstOffset : Nat) (recordCount : UInt32) (nextOffset : Nat)
  | holylog (reason : String)
  | chunk (error : ChunkError)
  | dataRef (error : DataRefError)
  | dataRefRecordCountMismatch (expected actual : UInt32)
  | dataRefChunkIdMismatch
  | dataRefChunkDigestMismatch
  | blobStore (reason : String)
  | dataRefBlobMissing (key : String)
  | dataRefRecoveryRequiresBlobStore
  | cohortMismatch
  | generationMismatch (expected actual : UInt64)
  | futureChunkGeneration (active actual : UInt64)
  | recoveredGenerationRegression (previous actual : UInt64)
  | journalFrameMismatch (journal : JournalId)
  | offsetDiscontinuity (expected actual : UInt64)
  | recoveredOffsetDiscontinuity (expected actual : UInt64)
  | poisoned
  | sealedMetadataMismatch
  deriving DecidableEq

/-- What the kernel answers to one append, and whether the payload reached the log. -/
inductive KernelReply where
  | ok
  | notWritten (reason : String)
  | written (reason : String)
  deriving DecidableEq

structure ChunkLogWriter where
  journalId : JournalId
  cohortId : CohortId
  generation : UInt64
  log : List Bytes
  nextOffset : RecordOffset
  poisoned : Bool
  deriving DecidableEq

/-- `?` on a codec result inside a chunk-log function. -/
def liftChunk {α : Type} (result : Except ChunkError α) : Except ChunkLogError α :=
  result.mapError .chunk

def liftDataRef {α : Type} (result : Except DataRefError α) : Except ChunkLogError α :=
  result.mapError .dataRef

namespace ChunkLogWriter

/-- The sole frame of an index, if it is for this journal. -/
def soleFrame (journal : JournalId) (frames : List FrameRef) : Except ChunkLogError FrameRef :=
  match frames with
  | [frame] =>
      if frame.journalId ≠ journal then throw (.journalFrameMismatch journal) else return frame
  | _ => throw (.journalFrameMismatch journal)

/-- The checks every appending operation makes on a sealed chunk: its carrier agrees with its
bytes, and its cohort, generation, journal and base offset are the writer's. -/
def checkChunk [Digests] (writer : ChunkLogWriter) (expected : RecordOffset)
    (chunk : SealedChunk) : Except ChunkLogError FrameRef := do
  let index ← liftChunk (decodeIndex chunk.bytes)
  if index.header.chunkId ≠ chunk.chunkId ∨ ChunkDigest.of chunk.bytes ≠ chunk.digest then
    throw .sealedMetadataMismatch
  if index.header.cohortId ≠ writer.cohortId then throw .cohortMismatch
  if index.header.generation ≠ writer.generation then
    throw (.generationMismatch writer.generation index.header.generation)
  let frame ← soleFrame writer.journalId index.frames
  if frame.baseOffset ≠ expected then
    throw (.offsetDiscontinuity expected.get frame.baseOffset.get)
  return frame

/-- The offset after a frame. -/
def frameEnd (frame : FrameRef) : Except ChunkLogError RecordOffset :=
  match frame.baseOffset.checkedAdd frame.recordCount.toNat with
  | some next => return next
  | none => throw (.chunk .offsetOverflow)

/-- A pointer must name exactly the chunk being appended. -/
def checkPointer (frame : FrameRef) (chunk : SealedChunk) (pointer : DataRef) :
    Except ChunkLogError Unit := do
  if pointer.recordCount ≠ frame.recordCount then
    throw (.dataRefRecordCountMismatch frame.recordCount pointer.recordCount)
  if pointer.chunkId ≠ chunk.chunkId then throw .dataRefChunkIdMismatch
  if pointer.chunkDigest ≠ chunk.digest then throw .dataRefChunkDigestMismatch

/-- Issues the kernel append. The writer is poisoned before the await and healed only by `ok`. -/
def issue (writer : ChunkLogWriter) (payload : Bytes) (next : RecordOffset)
    (ack : Nat → ChunkAppendAck) (reply : KernelReply) :
    Except ChunkLogError ChunkAppendAck × ChunkLogWriter :=
  match reply with
  | .ok => (.ok (ack writer.log.length),
      { writer with log := writer.log ++ [payload], nextOffset := next, poisoned := false })
  | .notWritten reason => (.error (.holylog reason), { writer with poisoned := true })
  | .written reason => (.error (.holylog reason),
      { writer with log := writer.log ++ [payload], poisoned := true })

/-- What one appending operation asks of the kernel once its checks have passed. -/
structure Plan where
  payload : Bytes
  chunkId : ChunkId
  firstOffset : RecordOffset
  nextOffset : RecordOffset
  recordCount : UInt32
  /-- The offset the writer continues from. -/
  advance : RecordOffset

def Plan.ack (plan : Plan) (slot : Nat) : ChunkAppendAck :=
  ⟨slot, plan.chunkId, plan.firstOffset, plan.nextOffset, plan.recordCount⟩

/-- A failed check returns before the kernel is reached and leaves the writer as it was. -/
def run (writer : ChunkLogWriter) (plan : Except ChunkLogError Plan) (reply : KernelReply) :
    Except ChunkLogError ChunkAppendAck × ChunkLogWriter :=
  match plan with
  | .error error => (.error error, writer)
  | .ok plan => writer.issue plan.payload plan.advance plan.ack reply

def planAppend [Digests] (writer : ChunkLogWriter) (chunk : SealedChunk) :
    Except ChunkLogError Plan := do
  if writer.poisoned then throw .poisoned
  let frame ← writer.checkChunk writer.nextOffset chunk
  let next ← frameEnd frame
  return ⟨chunk.bytes, chunk.chunkId, frame.baseOffset, next, frame.recordCount, next⟩

/-- Appends exactly one sealed frame for this writer's journal. -/
def append [Digests] (writer : ChunkLogWriter) (chunk : SealedChunk) (reply : KernelReply) :
    Except ChunkLogError ChunkAppendAck × ChunkLogWriter :=
  writer.run (writer.planAppend chunk) reply

def planDataRef [Digests] (writer : ChunkLogWriter) (chunk : SealedChunk) (pointer : DataRef) :
    Except ChunkLogError Plan := do
  if writer.poisoned then throw .poisoned
  liftDataRef pointer.validate
  let frame ← writer.checkChunk writer.nextOffset chunk
  checkPointer frame chunk pointer
  let next ← frameEnd frame
  let payload ← liftDataRef (encodeDataRef pointer)
  return ⟨payload, chunk.chunkId, frame.baseOffset, next, frame.recordCount, next⟩

/-- Appends a pointer at an already sealed chunk instead of the chunk's bytes. -/
def appendDataRef [Digests] (writer : ChunkLogWriter) (chunk : SealedChunk) (pointer : DataRef)
    (reply : KernelReply) : Except ChunkLogError ChunkAppendAck × ChunkLogWriter :=
  writer.run (writer.planDataRef chunk pointer) reply

/-- The item loop of `append_reference_batch`: the dense offset and the record total so far. -/
def checkItems [Digests] (writer : ChunkLogWriter) :
    List (SealedChunk × DataRef) → RecordOffset → UInt32 →
      Except ChunkLogError (RecordOffset × UInt32)
  | [], expected, total => return (expected, total)
  | (chunk, pointer) :: rest, expected, total => do
      liftDataRef pointer.validate
      let frame ← writer.checkChunk expected chunk
      checkPointer frame chunk pointer
      let next ← frameEnd frame
      if 2 ^ 32 ≤ total.toNat + frame.recordCount.toNat then throw (.chunk .offsetOverflow)
      checkItems writer rest next (total + frame.recordCount)

def planReferenceBatch [Digests] (writer : ChunkLogWriter) (items : List (SealedChunk × DataRef)) :
    Except ChunkLogError Plan := do
  if writer.poisoned then throw .poisoned
  match items with
  | [] => throw (.dataRef .emptyBatch)
  | (first, _) :: _ => do
      let (next, total) ← writer.checkItems items writer.nextOffset 0
      let payload ← liftDataRef (encodeReferenceBatch (items.map Prod.snd))
      return ⟨payload, first.chunkId, writer.nextOffset, next, total, next⟩

/-- Appends several pointers in one log entry; together they continue the dense offset. -/
def appendReferenceBatch [Digests] (writer : ChunkLogWriter)
    (items : List (SealedChunk × DataRef)) (reply : KernelReply) :
    Except ChunkLogError ChunkAppendAck × ChunkLogWriter :=
  writer.run (writer.planReferenceBatch items) reply

def planSuperseding (writer : ChunkLogWriter) (pointer : DataRef) (superseded : RecordOffset) :
    Except ChunkLogError Plan := do
  if writer.poisoned then throw .poisoned
  liftDataRef pointer.validate
  let stop := superseded.toNat + pointer.recordCount.toNat
  if 2 ^ 64 ≤ stop then throw (.chunk .offsetOverflow)
  if writer.nextOffset.toNat < stop then
    throw (.supersededRangeOutsideLog superseded.toNat pointer.recordCount writer.nextOffset.toNat)
  let payload ← liftDataRef (encodeDataRef pointer)
  return ⟨payload, pointer.chunkId, superseded, writer.nextOffset, pointer.recordCount,
    writer.nextOffset⟩

end ChunkLogWriter

/-- Objects by key. -/
abbrev BlobStore := String → Option Bytes

def fetchDataRefChunkBytes [Digests] (store : Option BlobStore) (pointer : DataRef) :
    Except ChunkLogError Bytes := do
  let some store := store | throw .dataRefRecoveryRequiresBlobStore
  let some blob := store pointer.blobKey | throw (.dataRefBlobMissing pointer.blobKey)
  if ChunkDigest.of blob ≠ pointer.blobDigest then throw (.dataRef .blobDigestMismatch)
  let start := pointer.offset.toNat
  let stop := start + pointer.length.toNat
  if 2 ^ 64 ≤ stop then throw (.dataRef .rangeOverflow)
  let some range := slice blob start stop
    | throw (.blobStore s!"dataref range {start}..{stop} outside blob {pointer.blobKey}")
  liftDataRef (pointer.verifyChunkBytes range)
  return range

def fetchAll [Digests] (store : Option BlobStore) :
    List DataRef → Except ChunkLogError (List Bytes)
  | [] => return []
  | pointer :: rest => do
      let bytes ← fetchDataRefChunkBytes store pointer
      let others ← fetchAll store rest
      return bytes :: others

/-- The chunks one log entry stands for. -/
def resolvePayload [Digests] (store : Option BlobStore) (payload : Bytes) :
    Except ChunkLogError (List Bytes) := do
  match ← liftDataRef (decodeLogPayload payload) with
  | .inlineChunk bytes => return [bytes]
  | .dataRef pointer => fetchAll store [pointer]
  | .referenceBatch pointers => fetchAll store pointers

structure RecoveredChunk where
  slot : Nat
  chunkId : ChunkId
  digest : ChunkDigest
  generation : UInt64
  firstOffset : RecordOffset
  recordCount : UInt32
  frame : FrameRef
  submissionDigests : List (FixedBytes 32)
  deriving DecidableEq

/-- Which chunk generations a recovery accepts: its own, or any up to the active one as long as
they never go back. -/
inductive GenerationPolicy where
  | exact (expected : UInt64)
  | atMost (active : UInt64)

/-- The generation to compare the next chunk with. -/
def GenerationPolicy.check (policy : GenerationPolicy) (previous : Option UInt64)
    (actual : UInt64) : Except ChunkLogError (Option UInt64) :=
  match policy with
  | .exact expected =>
      if actual ≠ expected then throw (.generationMismatch expected actual) else return previous
  | .atMost active =>
      if active < actual then throw (.futureChunkGeneration active actual)
      else match previous with
        | some before =>
            if actual < before then throw (.recoveredGenerationRegression before actual)
            else return some actual
        | none => return some actual

/-- The records one submission of a frame produced. -/
def submissionRecords (records : List Record) (submission : SubmissionRef) :
    Option (List Record) :=
  let start := submission.firstRecord.toNat
  let stop := start + submission.recordCount.toNat
  if stop ≤ records.length then some ((records.drop start).take (stop - start)) else none

def digestSubmissions [Digests] (journal : JournalId) (records : List Record) :
    List SubmissionRef → Except ChunkLogError (List (FixedBytes 32))
  | [] => return []
  | submission :: rest => do
      let some slice := submissionRecords records submission
        | throw (.journalFrameMismatch journal)
      let digests ← digestSubmissions journal records rest
      return canonicalRecordsDigest slice :: digests

def recoverChunk [Digests] (journal : JournalId) (cohort : CohortId) (policy : GenerationPolicy)
    (previous : Option UInt64) (slot : Nat) (bytes : Bytes) :
    Except ChunkLogError (RecoveredChunk × Option UInt64) := do
  let index ← liftChunk (decodeIndex bytes)
  let decoded ← liftChunk (decodeChunk bytes)
  if index.header.cohortId ≠ cohort then throw .cohortMismatch
  let previous ← policy.check previous index.header.generation
  let frame ← ChunkLogWriter.soleFrame journal index.frames
  match decoded.frames with
  | [decodedFrame] => do
      let submissionDigests ← digestSubmissions journal decodedFrame.records frame.submissions
      return ({
        slot, chunkId := index.header.chunkId, digest := ChunkDigest.of bytes
        generation := index.header.generation, firstOffset := frame.baseOffset
        recordCount := frame.recordCount, frame, submissionDigests }, previous)
  | _ => throw (.journalFrameMismatch journal)

def recoverChunks [Digests] (journal : JournalId) (cohort : CohortId) (policy : GenerationPolicy)
    (slot : Nat) :
    Option UInt64 → List Bytes → Except ChunkLogError (List RecoveredChunk × Option UInt64)
  | previous, [] => return ([], previous)
  | previous, bytes :: rest => do
      let (chunk, previous) ← recoverChunk journal cohort policy previous slot bytes
      let (others, previous) ← recoverChunks journal cohort policy slot previous rest
      return (chunk :: others, previous)

/-- The slot loop of `recover_from_log`. -/
def recoverSlots [Digests] (journal : JournalId) (cohort : CohortId) (policy : GenerationPolicy)
    (store : Option BlobStore) :
    Nat → Option UInt64 → List Bytes → Except ChunkLogError (List RecoveredChunk)
  | _, _, [] => return []
  | slot, previous, payload :: rest => do
      let sets ← resolvePayload store payload
      let (chunks, previous) ← recoverChunks journal cohort policy slot previous sets
      let others ← recoverSlots journal cohort policy store (slot + 1) previous rest
      return chunks ++ others

/-- The chunks of a recovered suffix continue one another without gaps. -/
def denseTail : List RecoveredChunk → RecordOffset → Except ChunkLogError RecordOffset
  | [], next => return next
  | chunk :: rest, next =>
      if chunk.firstOffset ≠ next then
        throw (.recoveredOffsetDiscontinuity next.get chunk.firstOffset.get)
      else match next.checkedAdd chunk.recordCount.toNat with
        | none => throw (.chunk .offsetOverflow)
        | some next => denseTail rest next

/-- A bound on the suffix is positive: `RecoveryBound::new` refuses zero. -/
abbrev RecoveryBound := { slots : Nat // slots ≠ 0 }

/-- Rebuilds the writer and the durable suffix of at most `bound` slots. -/
def recoverFromLog [Digests] (journal : JournalId) (cohort : CohortId) (generation : UInt64)
    (log : List Bytes) (bound : RecoveryBound) (policy : GenerationPolicy)
    (store : Option BlobStore) : Except ChunkLogError (ChunkLogWriter × List RecoveredChunk) := do
  let start := log.length - bound.val
  let chunks ← recoverSlots journal cohort policy store start none (log.drop start)
  let first := match chunks with
    | [] => RecordOffset.ofNat 0
    | chunk :: _ => chunk.firstOffset
  let nextOffset ← denseTail chunks first
  return (⟨journal, cohort, generation, log, nextOffset, false⟩, chunks)

/-- Recovery of a single-generation log. -/
def ChunkLogWriter.recover [Digests] (journal : JournalId) (cohort : CohortId)
    (generation : UInt64) (log : List Bytes) (bound : RecoveryBound) (store : Option BlobStore) :
    Except ChunkLogError (ChunkLogWriter × List RecoveredChunk) :=
  recoverFromLog journal cohort generation log bound (.exact generation) store

end Scripture
