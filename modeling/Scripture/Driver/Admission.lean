import Scripture.Driver.State

set_option autoImplicit false

/- Producer admission: size, epoch and sequence rules, the dedup window, reservation and parked
work; and sealing, which admission triggers. A synchronous stretch of the code takes no time, so
the clock is read once. `seal_open` drains parked work when the codec refuses the chunk and the
drain admits it again: the drain is a parameter of what it calls, and is closed over the number
of parked submissions at the end. -/
namespace Scripture

open ByteFormat

namespace Actor

def oldestUncommittedAt (actor : Actor) : Option Duration :=
  let openStarted := match actor.openChunk with
    | some chunk => if chunk.placed.isEmpty then none else some chunk.startedAt
    | none => none
  let pendingSealed := match actor.pendingAppend with
    | some (.depthOne work) => some work.sealedAt
    | _ => none
  match openStarted, pendingSealed with
  | some a, some b => some (min a b)
  | some a, none => some a
  | none, some b => some b
  | none, none => none

def admissionAgeBlocked (actor : Actor) : Bool :=
  match actor.oldestUncommittedAt with
  | none => false
  | some oldest => actor.policy.maxUncommittedAge ≤ actor.now - oldest

def shouldBlockAdmission (actor : Actor) (encodedBytes : Nat) : Bool :=
  if actor.admissionAgeBlocked then true
  else if actor.policy.bytesAtRisk < Usize.saturatingAdd
      (Usize.saturatingAdd actor.openBytes actor.pendingBytes) encodedBytes then true
  else if actor.policy.maxBufferedBytes < Usize.saturatingAdd actor.openBytes encodedBytes then true
  else if actor.pendingAppend.isSome ∧
      actor.policy.maxChunkBytes < Usize.saturatingAdd actor.openBytes encodedBytes then true
  else false

/-- The placed submission a retry with this identity joins. -/
def findPlaced (placed : List PlacedSubmission) (identity : Identity) : Option PlacedSubmission :=
  placed.find? fun item => item.submission.identity = identity

def inDedupRange (actor : Actor) (submission : Submission) : Bool :=
  match actor.dedup submission.key with
  | some (highest, _) => submission.sequence ≤ highest
  | none => false

/-- Joins and replays consume no reservation. -/
def resolvesWithoutNewReservation (actor : Actor) (submission : Submission) : Bool :=
  actor.inDedupRange submission ||
    (findPlaced actor.openPlaced submission.identity).isSome ||
    (findPlaced actor.pendingPlaced submission.identity).isSome

def soloRecordChunkLen (actor : Actor) (record : Record) : Except DriverError Nat :=
  (encodedChunkLen [soloRecordFrame actor.journalId record]).mapError .codec

/-- The record loop of `validate_per_record_bytes`. -/
def checkRecords (actor : Actor) (empty : Nat) : List Record → Except DriverError Unit
  | [] => return ()
  | record :: rest => do
      let solo ← actor.soloRecordChunkLen record
      let contribution := solo - empty
      if actor.policy.maxRecordBytes < contribution then
        throw (.recordTooLarge contribution actor.policy.maxRecordBytes)
      checkRecords actor empty rest

def validatePerRecordBytes (actor : Actor) (submission : Submission) : Except DriverError Unit := do
  let empty ← actor.soloRecordChunkLen emptyRecord
  actor.checkRecords empty submission.records

/-- The chunk this submission would make alone. -/
def soloFrame (journal : JournalId) (submission : Submission) (count : UInt32) : Frame where
  journalId := journal
  baseOffset := .ofNat 0
  records := submission.records
  submissions := [⟨submission.producerId, submission.producerEpoch, submission.sequence, 0, count⟩]

/-- Conservative reservation: the size of the chunk this submission would make alone. -/
def submissionEncodedBytes (actor : Actor) (submission : Submission) : Except DriverError Nat := do
  let count ← (u32Len submission.records.length).mapError .codec
  (encodedChunkLen [soloFrame actor.journalId submission count]).mapError .codec

/-- Why a submission is refused, and the reason its ledger event names if it has one. -/
structure Refusal where
  event : Option RejectReason
  error : DriverError
  deriving DecidableEq

def identityConflict (submission : Submission) : DriverError :=
  .identityConflict submission.producerId submission.producerEpoch submission.sequence

/-- The checks on the submission alone; returns its reservation. -/
def checkSize (actor : Actor) (submission : Submission) : Except Refusal Nat := do
  if actor.poisoned then throw ⟨none, .poisoned⟩
  if submission.records.isEmpty then throw ⟨none, .emptySubmission⟩
  (actor.validatePerRecordBytes submission).mapError (⟨some .recordTooLarge, ·⟩)
  let encodedBytes ← (actor.submissionEncodedBytes submission).mapError (⟨none, ·⟩)
  if actor.policy.maxChunkRecords < submission.records.length ∨
      actor.policy.maxChunkBytes < encodedBytes then
    throw ⟨some .submissionTooLarge, .submissionTooLarge submission.records.length encodedBytes
      actor.policy.maxChunkRecords actor.policy.maxChunkBytes⟩
  return encodedBytes

/-- A producer's older incarnation is refused. -/
def checkEpoch (actor : Actor) (submission : Submission) : Except Refusal Unit :=
  match actor.knownProducers submission.producerId with
  | some highest =>
      if submission.producerEpoch < highest then
        throw ⟨some .fencedProducer, .fencedProducer highest submission.producerEpoch⟩
      else return ()
  | none => return ()

/-- A committed identity is answered from the window, or not at all. -/
def findReplay [Digests] (actor : Actor) (submission : Submission) :
    Except Refusal (Option DedupReceipt) :=
  match actor.dedup submission.key with
  | some (highest, window) =>
      if submission.sequence ≤ highest then
        match window submission.sequence with
        | some receipt =>
            if receipt.submissionDigest ≠ canonicalRecordsDigest submission.records then
              throw ⟨some .outOfSequence, identityConflict submission⟩
            else return some receipt
        | none => throw ⟨some .indeterminateProducer,
            .indeterminate submission.producerId submission.sequence⟩
      else return none
  | none => return none

/-- A retry of placed work must carry the same records. -/
def checkJoin [Digests] (placed : List PlacedSubmission) (submission : Submission) :
    Except Refusal Bool :=
  match findPlaced placed submission.identity with
  | some item =>
      if canonicalRecordsDigest item.submission.records ≠
          canonicalRecordsDigest submission.records then
        throw ⟨none, identityConflict submission⟩
      else return true
  | none => return false

/-- `saturating_add(1)` on a sequence. -/
def nextSequence (sequence : UInt64) : UInt64 :=
  UInt64.ofNat (min (sequence.toNat + 1) (2 ^ 64 - 1))

def expectedSequence (actor : Actor) (submission : Submission) : UInt64 :=
  let expected := match actor.admittedSeq submission.key with
    | some highest => nextSequence highest
    | none => match actor.dedup submission.key with
      | some (highest, _) => nextSequence highest
      | none => 0
  match actor.knownProducers submission.producerId with
  | none => 0
  | some highest => if highest < submission.producerEpoch then 0 else expected

def checkSequence (actor : Actor) (submission : Submission) : Except Refusal Unit :=
  let expected := actor.expectedSequence submission
  if submission.sequence ≠ expected then
    throw ⟨some .outOfSequence, .outOfSequence expected submission.sequence⟩
  else return ()

/-- What becomes of a submission that is not refused. -/
inductive Admission where
  | replay (receipt : DedupReceipt)
  | joinOpen
  | joinPending
  | park (encodedBytes : Nat)
  | place (encodedBytes : Nat)
  deriving DecidableEq

/-- The decisions of `admit`, in its order. -/
def decideAdmission [Digests] (actor : Actor) (submission : Submission) :
    Except Refusal Admission := do
  let encodedBytes ← actor.checkSize submission
  actor.checkEpoch submission
  match ← actor.findReplay submission with
  | some receipt => return .replay receipt
  | none =>
      if ← checkJoin actor.openPlaced submission then return .joinOpen
      else if ← checkJoin actor.pendingPlaced submission then return .joinPending
      else do
        actor.checkSequence submission
        return if actor.shouldBlockAdmission encodedBytes then .park encodedBytes
          else .place encodedBytes

/-- Where the next placed submission starts: behind the open chunk, or at the writer's offset. -/
def placeOffset (actor : Actor) : RecordOffset :=
  match actor.openPlaced.getLast? with
  | none => actor.writer.nextOffset
  | some last =>
      (last.firstOffset.checkedAdd last.submission.records.length).getD last.firstOffset

end Actor

/-- Adds a waiter to the first placed submission with this identity. -/
def joinWaiter (identity : Identity) (ticket : Nat) : List PlacedSubmission → List PlacedSubmission
  | [] => []
  | item :: rest =>
      if item.submission.identity = identity then
        { item with waiters := item.waiters ++ [ticket] } :: rest
      else item :: joinWaiter identity ticket rest

def OpenChunk.join (identity : Identity) (ticket : Nat) (chunk : OpenChunk) : OpenChunk :=
  { chunk with placed := joinWaiter identity ticket chunk.placed }

def PendingAppend.join (identity : Identity) (ticket : Nat) (pending : PendingAppend) :
    PendingAppend :=
  pending.withPlaced (joinWaiter identity ticket pending.placed)

/-- `u32::try_from(len).unwrap_or(u32::MAX)`. -/
def recordCountOf (submission : Submission) : UInt32 :=
  UInt32.ofNat (min submission.records.length (2 ^ 32 - 1))

def saturatingAddU32 (left right : UInt32) : UInt32 :=
  UInt32.ofNat (min (left.toNat + right.toNat) (2 ^ 32 - 1))

/-- The span loop of `seal_open`: the submission references and the next record. -/
def spansOf : List PlacedSubmission → UInt32 → List SubmissionRef × UInt32
  | [], firstRecord => ([], firstRecord)
  | item :: rest, firstRecord =>
      let count := recordCountOf item.submission
      let (spans, last) := spansOf rest (saturatingAddU32 firstRecord count)
      (⟨item.submission.producerId, item.submission.producerEpoch, item.submission.sequence,
        firstRecord, count⟩ :: spans, last)

/-- The frame a chunk of these submissions carries. -/
def frameOf (journal : JournalId) (baseOffset : RecordOffset) (placed : List PlacedSubmission) :
    Frame where
  journalId := journal
  baseOffset := baseOffset
  records := placedRecords placed
  submissions := (spansOf placed 0).1

/-- Eight counter bytes, then zeros. -/
def chunkIdOf (counter : UInt64) : ChunkId :=
  ⟨⟨putU64 counter ++ List.replicate 8 0, by simp⟩⟩

/-- `u64::try_from(now.as_micros()).unwrap_or(u64::MAX)`. -/
def createdAtMicros (now : Duration) : UInt64 := UInt64.ofNat (min (now / 1000) (2 ^ 64 - 1))

namespace Driver

/-- One result for every waiter of these submissions. -/
def resolve (driver : Driver) (placed : List PlacedSubmission)
    (result : PlacedSubmission → Except DriverError Receipt) : Driver :=
  { driver with sent := driver.sent ++ placed.flatMap fun item =>
      item.waiters.map fun ticket => .receipt ticket (result item) }

def refuse (driver : Driver) (submission : Submission) (ticket : Nat) (refusal : Actor.Refusal) :
    Driver :=
  let driver := match refusal.event with
    | some reason =>
        driver.event (.submissionRejected submission.producerId submission.sequence reason)
    | none => driver
  (driver.send (.admission ticket (.error refusal.error))).bumpRejected

/-- Answers a retry with the receipt of its first attempt. -/
def replay (driver : Driver) (submission : Submission) (ticket : Nat) (receipt : DedupReceipt) :
    Driver :=
  let nextOffset := (receipt.firstOffset.checkedAdd receipt.recordCount.toNat).getD
    receipt.firstOffset
  let driver := driver.event (.submissionDeduplicated submission.identity receipt.firstOffset)
  let driver := driver.event
    (.receiptReleased submission.identity receipt.firstOffset receipt.recordCount)
  let driver := { driver with metrics.dedupHits := bump driver.metrics.dedupHits }
  let driver := driver.send (.receipt ticket (.ok {
    level := .committed, journalId := driver.journalId, firstOffset := receipt.firstOffset
    nextOffset, chunkId := receipt.chunkId, slot := receipt.slot
    canonRevision := receipt.canonRevision, deduplicated := true }))
  driver.send (.admission ticket (.ok ()))

def joinOpen (driver : Driver) (submission : Submission) (ticket : Nat) : Driver :=
  { driver with
    openChunk := driver.openChunk.map (OpenChunk.join submission.identity ticket) }.send
    (.admission ticket (.ok ()))

def joinPending (driver : Driver) (submission : Submission) (ticket : Nat) : Driver :=
  { driver with
    pendingAppend := driver.pendingAppend.map (PendingAppend.join submission.identity ticket) }.send
    (.admission ticket (.ok ()))

def park (driver : Driver) (submission : Submission) (ticket : Nat) (encodedBytes : Nat) : Driver :=
  { driver with blocked := driver.blocked ++ [⟨submission, ticket, encodedBytes⟩] }

/-- The first part of `admit_ready`: the submission enters the open chunk. -/
def place (driver : Driver) (submission : Submission) (ticket : Nat) (encodedBytes : Nat) :
    Driver :=
  let placed : PlacedSubmission := ⟨submission, driver.placeOffset, encodedBytes, [ticket]⟩
  let reserved := driver.openBytes + driver.pendingBytes + encodedBytes
  let chunk := driver.openChunk.getD ⟨[], 0, driver.now⟩
  let driver := driver.record (.place driver.toActor placed)
  let driver := { driver with
    openChunk := some { chunk with
      placed := chunk.placed ++ [placed], encodedBytes := chunk.encodedBytes + encodedBytes }
    reservedBytes := reserved
    admittedSeq := Function.update driver.admittedSeq submission.key (some submission.sequence)
    knownProducers :=
      raiseEpoch driver.knownProducers submission.producerId submission.producerEpoch
    metrics.admitted := bump driver.metrics.admitted
    metrics.reservedBytes := reserved
    metrics.bytesAtRisk := driver.policy.bytesAtRisk }
  let driver := driver.event
    (.submissionAdmitted submission.identity (UInt32.ofNat submission.records.length))
  driver.send (.admission ticket (.ok ()))

/-- The codec refused the chunk: its waiters learn it, and parked work is looked at again. -/
def sealFailed (drain : Driver → Driver) (before : Actor) (driver : Driver) (chunk : OpenChunk)
    (chunkId : ChunkId) (error : ChunkError) : Driver :=
  let driver := driver.record (.sealOpen before chunkId (.error error))
  drain (driver.resolve chunk.placed fun _ => .error (.codec error)).publishReserved

/-- A sealed chunk or envelope becomes the pending work. -/
def sealDone (before : Actor) (driver : Driver) (chunk : OpenChunk) (chunkId : ChunkId)
    (bytes : Nat) (pending : PendingAppend) : Driver :=
  let driver := driver.record (.sealOpen before chunkId (.ok bytes))
  let driver := driver.event (.chunkSealed chunkId (spansOf chunk.placed 0).2 bytes)
  let driver := { driver with pendingAppend := some pending }.publishReserved
  { driver with
    metrics.inflightChunks := 1
    metrics.bytesAtRisk := driver.policy.bytesAtRisk }

def envelopeOf (driver : Driver) (chunkId : ChunkId) (frame : Frame) : PendingBlobEnvelope where
  verseKey := driver.blobVerseKey.getD "unknown"
  chunkId := chunkId
  baseOffset := frame.baseOffset
  journalId := driver.journalId
  cohortId := driver.cohortId
  records := frame.records
  submissions := frame.submissions

def sealOpen [Digests] (drain : Driver → Driver) (driver : Driver) : Driver :=
  match driver.openChunk with
  | none => driver
  | some chunk =>
      let before := driver.toActor
      let driver := { driver with openChunk := none }.clearAgeSleep
      match chunk.placed with
      | [] => driver
      | first :: _ =>
          let frame := frameOf driver.journalId first.firstOffset chunk.placed
          let chunkId := chunkIdOf driver.nextChunk
          let driver := { driver with nextChunk := driver.nextChunk + 1 }
          if driver.blobSink then
            match encodedChunkLen [frame] with
            | .error error => driver.sealFailed drain before chunk chunkId error
            | .ok bytes => driver.sealDone before chunk chunkId bytes
                (.blobSink (driver.envelopeOf chunkId frame) chunk.placed chunk.encodedBytes false)
          else
            match sealSingleFrameChunk ⟨chunkId, driver.cohortId, driver.generation,
                driver.writerId, createdAtMicros driver.now⟩ [frame] with
            | .error error => driver.sealFailed drain before chunk chunkId error
            | .ok sealed => driver.sealDone before chunk chunkId sealed.bytes.length
                (.depthOne ⟨sealed, chunk.placed, chunk.encodedBytes, driver.now⟩)

/-- Places the submission, and seals the chunk when it has reached a bound. -/
def admitReady [Digests] (drain : Driver → Driver) (driver : Driver) (submission : Submission)
    (ticket : Nat) (encodedBytes : Nat) : Driver :=
  let driver := driver.place submission ticket encodedBytes
  if driver.policy.maxChunkRecords ≤ (placedRecords driver.openPlaced).length ∨
      driver.policy.maxChunkBytes ≤ driver.openBytes then
    driver.clearAgeSleep.sealOpen drain
  else driver

/-- `admit`. -/
def admitSubmission [Digests] (drain : Driver → Driver) (driver : Driver) (submission : Submission)
    (ticket : Nat) : Driver :=
  match driver.decideAdmission submission with
  | .error refusal => driver.refuse submission ticket refusal
  | .ok (.replay receipt) => driver.replay submission ticket receipt
  | .ok .joinOpen => driver.joinOpen submission ticket
  | .ok .joinPending => driver.joinPending submission ticket
  | .ok (.park encodedBytes) => driver.park submission ticket encodedBytes
  | .ok (.place encodedBytes) => driver.admitReady drain submission ticket encodedBytes

/-- The loop of `drain_blocked`, for at most `fuel` parked submissions. -/
def drainFor [Digests] : Nat → Driver → Driver
  | 0, driver => driver
  | fuel + 1, driver =>
      match driver.blocked with
      | [] => driver
      | parked :: rest =>
          let popped := { driver with blocked := rest }
          if driver.poisoned then
            drainFor fuel (popped.send (.admission parked.ticket (.error .poisoned)))
          else if ¬ popped.resolvesWithoutNewReservation parked.submission ∧
              popped.shouldBlockAdmission parked.encodedBytes then driver
          else drainFor fuel
            (popped.admitSubmission (drainFor fuel) parked.submission parked.ticket)

def drainBlocked [Digests] (driver : Driver) : Driver := drainFor driver.blocked.length driver

end Driver

end Scripture
