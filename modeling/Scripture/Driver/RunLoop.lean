import Scripture.Driver.Admission

set_option autoImplicit false

/- The command and timer loop, appends, and what follows them. One pass over the body of the loop
is one step; what the pass cannot choose comes in as its input: the clock at its start and after
each await, what the select returned, and the answers of the object store, the kernel and the
sink. -/
namespace Scripture

open ByteFormat

/-- What the object store answers to a verified put, and whether the object was created. -/
inductive PutReply where
  | ok
  | failed (created : Bool) (reason : String)

/-- What the shared sink answers to an enqueue; a failure comes with the text of its error. -/
inductive SinkReply where
  | ok
  | bufferFull
  | failed (message : String)

/-- What the select of a pass returned: `elapsed` is the age sleep. -/
inductive Arrival where
  | command (command : Command)
  | elapsed
  | closed

structure Pass where
  started : Duration
  arrival : Arrival
  woken : Duration
  put : PutReply
  kernel : KernelReply
  settled : Duration
  sink : SinkReply

/-- Two lower-case hex digits for each byte. -/
def ChunkDigest.display (digest : ChunkDigest) : String :=
  String.ofList (digest.bytes.val.flatMap fun byte =>
    [hexDigit (byte.toNat / 16), hexDigit (byte.toNat % 16)])

/-- An object is created only under a free key. -/
def BlobStore.create (store : BlobStore) (key : String) (bytes : Bytes) : BlobStore :=
  match store key with
  | some _ => store
  | none => Function.update store key (some bytes)

/-- Writes under the key, then reads the durable object back and compares its digest. -/
def putVerified [Digests] (store : BlobStore) (key : String) (bytes : Bytes)
    (digest : ChunkDigest) (reply : PutReply) : Except ChunkLogError Unit × BlobStore :=
  match reply with
  | .failed created reason =>
      (.error (.blobStore reason), if created then store.create key bytes else store)
  | .ok =>
      let stored := store.create key bytes
      if (stored key).map ChunkDigest.of ≠ some digest then
        (.error (.blobStore s!"blob digest verification failed for {key}"), stored)
      else (.ok (), stored)

/-- What is put and pointed at for one sealed chunk: the key and the pointer. -/
def stagingPointer [Digests] (journal : JournalId) (front : String) (chunk : SealedChunk) :
    Except ChunkLogError (String × DataRef) := do
  if isBlank front then throw (.blobStore "blob_prefix must be nonempty")
  let index ← liftChunk (decodeIndex chunk.bytes)
  match index.frames with
  | [frame] => do
      if 2 ^ 64 ≤ chunk.bytes.length then
        throw (.blobStore "sealed chunk length exceeds u64")
      let digest := ChunkDigest.of chunk.bytes
      let key := front ++ "/" ++ digest.display
      return (key, {
        blobKey := key, offset := 0, length := UInt64.ofNat chunk.bytes.length
        recordCount := frame.recordCount, chunkId := chunk.chunkId, chunkDigest := chunk.digest
        blobDigest := digest })
  | _ => throw (.journalFrameMismatch journal)

namespace Actor

def ageDeadline (actor : Actor) : Option Duration :=
  match actor.openChunk with
  | none => none
  | some chunk =>
      if chunk.placed.isEmpty then none
      else some (min (chunk.startedAt + actor.policy.maxChunkAge) Duration.max)

def ageDue (actor : Actor) : Bool :=
  match actor.openChunk with
  | none => false
  | some chunk =>
      ¬ chunk.placed.isEmpty ∧ actor.policy.maxChunkAge ≤ actor.now - chunk.startedAt

end Actor

namespace Driver

def atTime (driver : Driver) (now : Duration) : Driver := { driver with now }

def refreshAgeSleep (driver : Driver) : Driver :=
  let deadline := driver.ageDeadline
  if driver.ageSleepDeadline = deadline then
    { driver with ageSleep := driver.ageSleep || deadline.isSome }
  else { driver with ageSleep := deadline.isSome, ageSleepDeadline := deadline }

def poisonBlocked (driver : Driver) : Driver :=
  { driver with
    blocked := []
    sent := driver.sent ++ driver.blocked.map fun parked =>
      .admission parked.ticket (.error .poisoned) }

/-- The reply of a command that is refused as a whole. -/
def rejectCommand (driver : Driver) (command : Command) (error : DriverError) : Driver :=
  match command with
  | .submit submission => { driver with
      offered := driver.offered ++ [submission] }.send
        (.admission driver.offered.length (.error error))
  | .flush responder => driver.send (.flush responder (.error error))
  | .blobSinkSeal _ responder => driver.send (.blobSinkSeal responder (.error error))
  | .blobSinkAppendRefs _ responder => driver.send (.blobSinkAppendRefs responder (.error error))
  | .blobSinkCommitted _ _ responder => driver.send (.blobSinkCommitted responder (.error error))

def receiptFor (driver : Driver) (chunkId : ChunkId) (slot : Nat) (item : PlacedSubmission) :
    Receipt where
  level := .committed
  journalId := driver.journalId
  firstOffset := item.firstOffset
  nextOffset := (item.firstOffset.checkedAdd item.submission.records.length).getD item.firstOffset
  chunkId := chunkId
  slot := slot
  canonRevision := driver.generation
  deduplicated := false

/-- Releases the receipts of one placed submission and remembers it in the window. -/
def releaseOne [Digests] (chunkId : ChunkId) (slot : Nat) (driver : Driver)
    (item : PlacedSubmission) : Driver :=
  let records := UInt32.ofNat item.submission.records.length
  let driver := { driver with
    dedup := driver.dedup.insert item.submission.key item.submission.sequence
      ⟨item.firstOffset, records, chunkId, slot, driver.generation,
        canonicalRecordsDigest item.submission.records⟩ }
  let driver := driver.event (.receiptReleased item.submission.identity item.firstOffset records)
  driver.resolve [item] fun item => .ok (driver.receiptFor chunkId slot item)

def releaseReceiptsForPlaced [Digests] (driver : Driver) (placed : List PlacedSubmission)
    (chunkId : ChunkId) (ack : ChunkAppendAck) : Driver :=
  placed.foldl (releaseOne chunkId ack.slot) driver

/-- The bookkeeping of a commit, before parked work is looked at again. -/
def commitPlaced [Digests] (driver : Driver) (placed : List PlacedSubmission) (chunkId : ChunkId)
    (ack : ChunkAppendAck) : Driver :=
  let driver := driver.event (.appendAcknowledged chunkId ack.slot)
  let driver := { driver with ledger.effects := driver.ledger.effects ++ [Effect.chunkCommitted] }
  let driver := (driver.releaseReceiptsForPlaced placed chunkId ack).publishReserved
  { driver with
    metrics.inflightChunks := 0
    metrics.committedChunks := bump driver.metrics.committedChunks }

/-- The events and results of submissions that end without a receipt. -/
def failWaiters (driver : Driver) (placed : List PlacedSubmission) (outcome : TerminalOutcome)
    (error : DriverError) : Driver :=
  let failed := placed.map fun item => Event.waiterFailed item.submission.identity outcome
  { driver with ledger.events := driver.ledger.events ++ failed }.resolve placed
    fun _ => .error error

/-- An append without `ok` poisons the owner and answers everyone who waits. -/
def poison (driver : Driver) (work : SealedWork) : Driver :=
  let driver := driver.event (.appendUncertain work.chunk.chunkId)
  let driver := { driver.event .ownerPoisoned with poisoned := true }
  let driver := driver.failWaiters work.placed .uncertain (.uncertain work.chunk.chunkId)
  let driver := match driver.openChunk with
    | none => driver
    | some chunk =>
        ({ driver with openChunk := none }.clearAgeSleep).failWaiters chunk.placed .notWritten
          .notWritten
  let driver := driver.poisonBlocked
  { driver with
    reservedBytes := 0
    metrics.poisoned := true
    metrics.inflightChunks := 0
    metrics.reservedBytes := 0
    metrics.bytesAtRisk := driver.policy.bytesAtRisk }

def finishDepthOneAppend [Digests] (driver : Driver) (work : SealedWork)
    (result : Except ChunkLogError ChunkAppendAck) : Driver :=
  match result with
  | .ok ack => (driver.commitPlaced work.placed work.chunk.chunkId ack).drainBlocked
  | .error _ => driver.poison work

/-- Puts the chunk as a staging blob and appends a pointer at it. -/
def commitSealedAsDataRef [Digests] (driver : Driver) (front : String) (chunk : SealedChunk)
    (put : PutReply) (kernel : KernelReply) :
    Except ChunkLogError ChunkAppendAck × Driver :=
  match stagingPointer driver.writer.journalId front chunk with
  | .error error => (.error error, driver)
  | .ok (key, pointer) =>
      let driver := driver.record (.put driver.toActor key chunk.bytes)
      match putVerified driver.store key chunk.bytes (ChunkDigest.of chunk.bytes) put with
      | (.error error, store) => (.error error, { driver with store })
      | (.ok (), store) =>
          let (result, writer) := driver.writer.appendDataRef chunk pointer kernel
          (result, { driver with store, writer })

/-- The append of one sealed chunk, inline or as a pointer. -/
def appendSealed [Digests] (driver : Driver) (chunk : SealedChunk) (put : PutReply)
    (kernel : KernelReply) : Except ChunkLogError ChunkAppendAck × Driver :=
  match driver.datarefBlobs with
  | some front => driver.commitSealedAsDataRef front chunk put kernel
  | none =>
      let (result, writer) := driver.writer.append chunk kernel
      (result, { driver with writer })

def appendDepthOne [Digests] (driver : Driver) (pass : Pass) : Driver :=
  match driver.pendingAppend with
  | some (.depthOne work) =>
      let before := driver.toActor
      let driver := { driver with pendingAppend := none }.event (.appendIssued work.chunk.chunkId)
      let (result, driver) := driver.appendSealed work.chunk pass.put pass.kernel
      let driver := (driver.record (.append before work result)).atTime pass.settled
      driver.finishDepthOneAppend work result
  | _ => driver

def tryEnqueueBlobSink (driver : Driver) (reply : SinkReply) : Driver :=
  match driver.pendingAppend with
  | some (.blobSink envelope placed encodedBytes false) =>
      let driver := driver.event (.appendIssued envelope.chunkId)
      if ¬ driver.blobSink then { driver with exited := true }
      else match reply with
        | .ok => { driver with
            pendingAppend := some (.blobSink envelope placed encodedBytes true) }.record
              (.enqueue driver.toActor envelope)
        | .bufferFull => driver
        | .failed message =>
            let driver := { driver with pendingAppend := none }.resolve placed
              fun _ => .error (.invariant message)
            let driver := driver.publishReserved
            { driver with metrics.inflightChunks := 0 }
  | _ => driver

def sealEnvelope [Digests] (driver : Driver) (envelope : PendingBlobEnvelope) :
    Except DriverError SealedChunk :=
  (sealSingleFrameChunk ⟨envelope.chunkId, envelope.cohortId, driver.generation, driver.writerId,
    createdAtMicros driver.now⟩ [⟨envelope.journalId, envelope.baseOffset, envelope.records,
      envelope.submissions⟩]).mapError .codec

def appendBlobSinkRefs [Digests] (driver : Driver) (items : List BlobSinkAppendItem)
    (kernel : KernelReply) : Except DriverError ChunkAppendAck × Driver :=
  let driver := driver.record (.appendRefs driver.toActor items)
  match items with
  | [] => (.error (.invariant "append_blob_sink_refs requires at least one item"), driver)
  | [item] =>
      let (result, writer) := driver.writer.appendDataRef item.chunk item.dataRef kernel
      (result.mapError .log, { driver with writer })
  | items =>
      let (result, writer) := driver.writer.appendReferenceBatch
        (items.map fun item => (item.chunk, item.dataRef)) kernel
      (result.mapError .log, { driver with writer })

def finishBlobSinkCommitted [Digests] (driver : Driver) (chunkId : ChunkId)
    (ack : ChunkAppendAck) : Except DriverError Unit × Driver :=
  let taken := { driver with pendingAppend := none }.record (.report driver.toActor chunkId ack)
  match driver.pendingAppend with
  | some (.blobSink _ placed _ _) =>
      if ack.chunkId ≠ chunkId then
        (.error (.invariant "blob sink committed chunk_id mismatch"), taken)
      else (.ok (), (taken.commitPlaced placed chunkId ack).drainBlocked)
  | _ => (.error (.invariant "blob sink committed without pending work"), taken)

def handleCommand [Digests] (driver : Driver) (command : Command) (pass : Pass) : Driver :=
  match command with
  | .submit submission =>
      let taken := { driver with offered := driver.offered ++ [submission] }
      taken.admitSubmission drainBlocked submission driver.offered.length
  | .flush responder =>
      if driver.poisoned then driver.send (.flush responder (.error .poisoned))
      else
        let driver := if driver.openChunk.isSome then driver.clearAgeSleep.sealOpen drainBlocked
          else driver
        let driver := driver.appendDepthOne pass
        driver.send (.flush responder (if driver.poisoned then .error .poisoned else .ok ()))
  | .blobSinkSeal envelope responder =>
      driver.send (.blobSinkSeal responder (driver.sealEnvelope envelope))
  | .blobSinkAppendRefs items responder =>
      let (result, driver) := driver.appendBlobSinkRefs items pass.kernel
      (driver.atTime pass.settled).send (.blobSinkAppendRefs responder result)
  | .blobSinkCommitted chunkId ack responder =>
      let (result, driver) := driver.finishBlobSinkCommitted chunkId ack
      driver.send (.blobSinkCommitted responder result)

/-- All handles are gone: the remaining work is flushed once, and the actor returns. -/
def close [Digests] (driver : Driver) (pass : Pass) : Driver :=
  let driver := (driver.record (.close driver.toActor)).clearAgeSleep
  let driver := if driver.openChunk.isSome then driver.sealOpen drainBlocked else driver
  let driver := driver.appendDepthOne pass
  { driver with
    blocked := []
    sent := driver.sent ++ driver.blocked.map fun parked =>
      .admission parked.ticket (.error .unavailable)
    exited := true }

/-- The select of a pass, once nothing is due. -/
def await [Digests] (driver : Driver) (pass : Pass) : Driver :=
  let driver := driver.refreshAgeSleep
  match pass.arrival with
  | .command command => (driver.atTime pass.woken).handleCommand command pass
  | .elapsed =>
      if driver.ageSleep then
        let driver := { driver with ageSleep := false, ageSleepDeadline := none }.atTime pass.woken
        if driver.ageDue then driver.sealOpen drainBlocked else driver
      else driver
  | .closed => (driver.atTime pass.woken).close pass

/-- One pass over the body of the loop. -/
def iterate [Digests] (driver : Driver) (pass : Pass) : Driver :=
  if driver.exited then driver
  else
    let driver := driver.atTime pass.started
    if driver.poisoned then
      let driver := driver.poisonBlocked
      match pass.arrival with
      | .command command => driver.rejectCommand command .poisoned
      | .elapsed => driver
      | .closed => { driver with exited := true }
    else
      match driver.pendingAppend with
      | some (.depthOne _) => driver.appendDepthOne pass
      | some (.blobSink _ _ _ false) => (driver.tryEnqueueBlobSink pass.sink).atTime pass.settled
      | _ =>
          if driver.ageDue then driver.clearAgeSleep.sealOpen drainBlocked
          else driver.await pass

/-- A whole run, pass after pass. -/
def run [Digests] (driver : Driver) (passes : List Pass) : Driver := passes.foldl iterate driver

end Driver

end Scripture
