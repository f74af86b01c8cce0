import Scripture.Driver.Policy

set_option autoImplicit false

/- What one driver owns. The two channels of a submission are named by a ticket, the position of
its command among all submissions the driver was offered; everything the driver sends is kept in
`sent`, and `history` keeps for each act of the driver the state it was taken in. The code reads
neither. -/
namespace Scripture

open ByteFormat

structure Submission where
  producerId : ProducerId
  producerEpoch : UInt32
  sequence : UInt64
  records : List Record
  deriving DecidableEq

def Submission.identity (submission : Submission) : Identity :=
  (submission.producerId, submission.producerEpoch, submission.sequence)

def Submission.key (submission : Submission) : ProducerId × UInt32 :=
  (submission.producerId, submission.producerEpoch)

inductive AckLevel where
  | accepted
  | replicated
  | journaled
  | committed
  deriving DecidableEq

structure Receipt where
  level : AckLevel
  journalId : JournalId
  firstOffset : RecordOffset
  nextOffset : RecordOffset
  chunkId : ChunkId
  slot : Nat
  canonRevision : UInt64
  deduplicated : Bool
  deriving DecidableEq

inductive DriverError where
  | outOfSequence (expected actual : UInt64)
  | fencedProducer (seenEpoch requestEpoch : UInt32)
  | identityConflict (producerId : ProducerId) (producerEpoch : UInt32) (sequence : UInt64)
  | indeterminate (producerId : ProducerId) (sequence : UInt64)
  | recordTooLarge (bytes max : Nat)
  | submissionTooLarge (records encodedBytes maxRecords maxBytes : Nat)
  | emptySubmission
  | uncertain (chunkId : ChunkId)
  | notWritten
  | poisoned
  | unavailable
  | policy (error : PolicyError)
  | codec (error : ChunkError)
  | log (error : ChunkLogError)
  | blobSinkBufferFull
  | invariant (reason : String)
  deriving DecidableEq

structure BlockedSubmission where
  submission : Submission
  ticket : Nat
  encodedBytes : Nat
  deriving DecidableEq

/-- An admitted submission. Its waiters are the tickets whose receipts it will answer. -/
structure PlacedSubmission where
  submission : Submission
  firstOffset : RecordOffset
  encodedBytes : Nat
  waiters : List Nat
  deriving DecidableEq

structure OpenChunk where
  placed : List PlacedSubmission
  encodedBytes : Nat
  startedAt : Duration
  deriving DecidableEq

structure SealedWork where
  chunk : SealedChunk
  placed : List PlacedSubmission
  encodedBytes : Nat
  sealedAt : Duration
  deriving DecidableEq

structure PendingBlobEnvelope where
  verseKey : String
  chunkId : ChunkId
  baseOffset : RecordOffset
  journalId : JournalId
  cohortId : CohortId
  records : List Record
  submissions : List SubmissionRef
  deriving DecidableEq

structure BlobSinkAppendItem where
  chunk : SealedChunk
  dataRef : DataRef
  deriving DecidableEq

/-- Depth-one append, or buffering in the shared sink. -/
inductive PendingAppend where
  | depthOne (work : SealedWork)
  | blobSink (envelope : PendingBlobEnvelope) (placed : List PlacedSubmission)
      (encodedBytes : Nat) (enqueued : Bool)
  deriving DecidableEq

namespace PendingAppend

def encodedBytes : PendingAppend → Nat
  | .depthOne work => work.encodedBytes
  | .blobSink _ _ encodedBytes _ => encodedBytes

def placed : PendingAppend → List PlacedSubmission
  | .depthOne work => work.placed
  | .blobSink _ placed _ _ => placed

def withPlaced (placed : List PlacedSubmission) : PendingAppend → PendingAppend
  | .depthOne work => .depthOne { work with placed }
  | .blobSink envelope _ encodedBytes enqueued => .blobSink envelope placed encodedBytes enqueued

end PendingAppend

structure DedupReceipt where
  firstOffset : RecordOffset
  recordCount : UInt32
  chunkId : ChunkId
  slot : Nat
  canonRevision : UInt64
  submissionDigest : FixedBytes 32
  deriving DecidableEq

/-- The highest committed sequence, then the receipt of each sequence. -/
abbrev DedupEntry := UInt64 × (UInt64 → Option DedupReceipt)
abbrev DedupWindow := ProducerId × UInt32 → Option DedupEntry

inductive RejectReason where
  | outOfSequence
  | fencedProducer
  | indeterminateProducer
  | recordTooLarge
  | submissionTooLarge
  deriving DecidableEq

inductive TerminalOutcome where
  | uncertain
  | notWritten
  deriving DecidableEq

inductive Event where
  | submissionAdmitted (identity : Identity) (records : UInt32)
  | submissionRejected (producerId : ProducerId) (sequence : UInt64) (reason : RejectReason)
  | submissionDeduplicated (identity : Identity) (firstOffset : RecordOffset)
  | chunkSealed (chunkId : ChunkId) (records : UInt32) (bytes : Nat)
  | appendIssued (chunkId : ChunkId)
  | appendAcknowledged (chunkId : ChunkId) (slot : Nat)
  | appendUncertain (chunkId : ChunkId)
  | receiptReleased (identity : Identity) (firstOffset : RecordOffset) (records : UInt32)
  | waiterFailed (identity : Identity) (outcome : TerminalOutcome)
  | ownerPoisoned
  deriving DecidableEq

inductive Effect where
  | chunkCommitted
  deriving DecidableEq

/-- Events and logical effects, in order. -/
structure Ledger where
  events : List Event
  effects : List Effect
  deriving DecidableEq

structure DriverMetrics where
  bytesAtRisk : Nat
  reservedBytes : Nat
  inflightChunks : Nat
  dedupHits : Nat
  admitted : Nat
  rejected : Nat
  committedChunks : Nat
  poisoned : Bool
  deriving DecidableEq

/-- A counter of the metrics: `saturating_add(1)` on 64 bits. -/
def bump (counter : Nat) : Nat := Usize.saturatingAdd counter 1

inductive Command where
  | submit (submission : Submission)
  | flush (responder : Nat)
  | blobSinkSeal (envelope : PendingBlobEnvelope) (responder : Nat)
  | blobSinkAppendRefs (items : List BlobSinkAppendItem) (responder : Nat)
  | blobSinkCommitted (chunkId : ChunkId) (ack : ChunkAppendAck) (responder : Nat)
  deriving DecidableEq

/-- The fields of the actor, with the clock it reads and the object store it puts to. -/
structure Actor where
  journalId : JournalId
  cohortId : CohortId
  writerId : WriterId
  generation : UInt64
  writer : ChunkLogWriter
  policy : ChunkPolicy
  now : Duration
  openChunk : Option OpenChunk
  pendingAppend : Option PendingAppend
  blocked : List BlockedSubmission
  dedup : DedupWindow
  admittedSeq : ProducerId × UInt32 → Option UInt64
  knownProducers : ProducerId → Option UInt32
  reservedBytes : Nat
  nextChunk : UInt64
  poisoned : Bool
  ledger : Ledger
  metrics : DriverMetrics
  ageSleep : Bool
  ageSleepDeadline : Option Duration
  /-- The key prefix of the staging blobs, when chunks are committed as pointers. -/
  datarefBlobs : Option String
  blobSink : Bool
  blobVerseKey : Option String
  store : BlobStore

/-- Everything a driver sends. -/
inductive Message where
  | admission (ticket : Nat) (reply : Except DriverError Unit)
  | receipt (ticket : Nat) (result : Except DriverError Receipt)
  | flush (responder : Nat) (reply : Except DriverError Unit)
  | blobSinkSeal (responder : Nat) (reply : Except DriverError SealedChunk)
  | blobSinkAppendRefs (responder : Nat) (reply : Except DriverError ChunkAppendAck)
  | blobSinkCommitted (responder : Nat) (reply : Except DriverError Unit)
  deriving DecidableEq

/-- The acts of a driver that its guarantees are about, each with the state it was taken in. -/
inductive Act where
  | place (before : Actor) (placed : PlacedSubmission)
  | sealOpen (before : Actor) (chunkId : ChunkId) (outcome : Except ChunkError Nat)
  | put (before : Actor) (key : String) (bytes : Bytes)
  | append (before : Actor) (work : SealedWork) (result : Except ChunkLogError ChunkAppendAck)
  | enqueue (before : Actor) (envelope : PendingBlobEnvelope)
  | appendRefs (before : Actor) (items : List BlobSinkAppendItem)
  | report (before : Actor) (chunkId : ChunkId) (ack : ChunkAppendAck)
  | close (before : Actor)

structure Driver extends Actor where
  offered : List Submission
  sent : List Message
  history : List Act
  exited : Bool

namespace Actor

def openBytes (actor : Actor) : Nat :=
  match actor.openChunk with
  | none => 0
  | some chunk => chunk.encodedBytes

def pendingBytes (actor : Actor) : Nat :=
  match actor.pendingAppend with
  | none => 0
  | some pending => pending.encodedBytes

def openPlaced (actor : Actor) : List PlacedSubmission :=
  match actor.openChunk with
  | none => []
  | some chunk => chunk.placed

def pendingPlaced (actor : Actor) : List PlacedSubmission :=
  match actor.pendingAppend with
  | none => []
  | some pending => pending.placed

end Actor

/-- The records of placed submissions, in order. -/
def placedRecords (placed : List PlacedSubmission) : List Record :=
  placed.flatMap fun item => item.submission.records

namespace Driver

def send (driver : Driver) (message : Message) : Driver :=
  { driver with sent := driver.sent ++ [message] }

def record (driver : Driver) (act : Act) : Driver :=
  { driver with history := driver.history ++ [act] }

def event (driver : Driver) (event : Event) : Driver :=
  { driver with ledger.events := driver.ledger.events ++ [event] }

def clearAgeSleep (driver : Driver) : Driver :=
  { driver with ageSleep := false, ageSleepDeadline := none }

def bumpRejected (driver : Driver) : Driver :=
  { driver with metrics.rejected := bump driver.metrics.rejected }

def publishReserved (driver : Driver) : Driver :=
  let reserved := driver.openBytes + driver.pendingBytes
  { driver with
    reservedBytes := reserved
    metrics.reservedBytes := reserved
    metrics.bytesAtRisk := driver.policy.bytesAtRisk }

end Driver

/-- The dedup entry after one more receipt. -/
def DedupWindow.insert (window : DedupWindow) (key : ProducerId × UInt32) (sequence : UInt64)
    (receipt : DedupReceipt) : DedupWindow :=
  let entry := (window key).getD (sequence, fun _ => none)
  Function.update window key
    (some (max entry.1 sequence, Function.update entry.2 sequence (some receipt)))

/-- The highest epoch seen of a producer. -/
def raiseEpoch (known : ProducerId → Option UInt32) (producer : ProducerId) (epoch : UInt32) :
    ProducerId → Option UInt32 :=
  Function.update known producer (some (match known producer with
    | none => epoch
    | some highest => max highest epoch))

/-- One submission of a recovered chunk enters the window and the admission tables. -/
def Actor.rebuildSubmission (actor : Actor) (chunk : RecoveredChunk) (submission : SubmissionRef)
    (digest : FixedBytes 32) : Actor :=
  let key := (submission.producerId, submission.producerEpoch)
  let first := match chunk.frame.offsetsFor submission.producerId submission.producerEpoch
      submission.sequence with
    | some (first, _) => first
    | none => chunk.firstOffset
  let dedup := actor.dedup.insert key submission.sequence
    ⟨first, submission.recordCount, chunk.chunkId, chunk.slot, chunk.generation, digest⟩
  { actor with
    dedup
    admittedSeq := Function.update actor.admittedSeq key ((dedup key).map Prod.fst)
    knownProducers :=
      raiseEpoch actor.knownProducers submission.producerId submission.producerEpoch }

def Actor.rebuildChunk (actor : Actor) (chunk : RecoveredChunk) : Actor :=
  (chunk.frame.submissions.zip chunk.submissionDigests).foldl
    (fun actor item => actor.rebuildSubmission chunk item.1 item.2) actor

/-- Rebuilds the dedup window from the recovered suffix. -/
def Actor.rebuildDedup (actor : Actor) (recovered : List RecoveredChunk) : Actor :=
  recovered.foldl Actor.rebuildChunk actor

/-- How a driver is mounted: everything `new` takes besides the writer and the suffix. -/
structure DriverConfig where
  journalId : JournalId
  cohortId : CohortId
  writerId : WriterId
  generation : UInt64
  policy : ChunkPolicy
  datarefBlobs : Option String
  blobSink : Bool
  blobVerseKey : Option String

/-- The actor `new` builds before it rebuilds the dedup window. -/
def DriverConfig.blank (config : DriverConfig) (writer : ChunkLogWriter) (store : BlobStore) :
    Actor where
  journalId := config.journalId
  cohortId := config.cohortId
  writerId := config.writerId
  generation := config.generation
  writer := writer
  policy := config.policy
  now := 0
  openChunk := none
  pendingAppend := none
  blocked := []
  dedup := fun _ => none
  admittedSeq := fun _ => none
  knownProducers := fun _ => none
  reservedBytes := 0
  nextChunk := 0
  poisoned := false
  ledger := ⟨[], []⟩
  metrics := {
    bytesAtRisk := config.policy.bytesAtRisk, reservedBytes := 0, inflightChunks := 0
    dedupHits := 0, admitted := 0, rejected := 0, committedChunks := 0, poisoned := false }
  ageSleep := false
  ageSleepDeadline := none
  datarefBlobs := config.datarefBlobs
  blobSink := config.blobSink
  blobVerseKey := config.blobVerseKey
  store := store

/-- Creates the actor over a recovered writer and its durable suffix. -/
def Driver.new (config : DriverConfig) (writer : ChunkLogWriter) (recovered : List RecoveredChunk)
    (store : BlobStore) : Except DriverError Driver := do
  (config.policy.validate).mapError .policy
  return {
    toActor := (config.blank writer store).rebuildDedup recovered
    offered := [], sent := [], history := [], exited := false }

end Scripture
