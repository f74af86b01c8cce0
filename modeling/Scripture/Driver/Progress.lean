import Scripture.Driver.Moves

set_option autoImplicit false

/- How a driver starts, and what it does when nothing stands in its way: the codec accepts the
chunk, the writer's checks pass and the kernel acknowledges. -/
namespace Scripture

open ByteFormat

/-- Rebuilding changes the window and the admission tables only. -/
theorem Actor.rebuildDedup_eq (actor : Actor) (recovered : List RecoveredChunk) :
    ∃ dedup admittedSeq knownProducers, actor.rebuildDedup recovered =
      { actor with dedup, admittedSeq, knownProducers } := by
  have submissions (items : List (SubmissionRef × FixedBytes 32)) (chunk : RecoveredChunk)
      (start : Actor) : ∃ dedup admittedSeq knownProducers,
        items.foldl (fun actor item => actor.rebuildSubmission chunk item.1 item.2) start =
          { start with dedup, admittedSeq, knownProducers } := by
    induction items generalizing start with
    | nil => exact ⟨_, _, _, rfl⟩
    | cons item rest ih => exact ih (start.rebuildSubmission chunk item.1 item.2)
  unfold Actor.rebuildDedup
  induction recovered generalizing actor with
  | nil => exact ⟨_, _, _, rfl⟩
  | cons chunk rest ih =>
      obtain ⟨dedup, admittedSeq, knownProducers, same⟩ :=
        submissions (chunk.frame.submissions.zip chunk.submissionDigests) chunk actor
      rw [List.foldl_cons, Actor.rebuildChunk, same]
      exact ih { actor with dedup, admittedSeq, knownProducers }

namespace Actor

theorem checkRecords_congr {left right : Actor} (journal : left.journalId = right.journalId)
    (policy : left.policy = right.policy) (empty : Nat) (records : List Record) :
    left.checkRecords empty records = right.checkRecords empty records := by
  induction records with
  | nil => rfl
  | cons record rest ih =>
      simp only [checkRecords, soloRecordChunkLen, journal, policy, ih]

/-- The size checks read the policy and the journal only. -/
theorem checkSize_congr (left right : Actor) (poisoned : left.poisoned = right.poisoned)
    (journal : left.journalId = right.journalId) (policy : left.policy = right.policy)
    (submission : Submission) : left.checkSize submission = right.checkSize submission := by
  unfold checkSize validatePerRecordBytes submissionEncodedBytes soloRecordChunkLen
  simp only [poisoned, journal, policy, checkRecords_congr journal policy]

/-- The reservation is the size of a chunk with this submission alone. -/
theorem Sized.frame {actor : Actor} {submission : Submission} {encodedBytes : Nat}
    (sized : actor.Sized submission encodedBytes) :
    ∃ body, encodeFrameRecords submission.records = .ok body ∧
      encodedBytes = soleChunkLen 1 body.length ∧ encodedBytes ≤ Usize.max := by
  have encoded := sized.encoded
  unfold submissionEncodedBytes at encoded
  obtain ⟨count, -, encoded⟩ := bind_eq_ok.mp encoded
  exact encodedChunkLen_eq_ok (mapError_eq_ok.mp encoded)

/-- Whether an admission is blocked depends on the open and the pending work and the clock. -/
theorem shouldBlockAdmission_congr (left right : Actor) (policy : left.policy = right.policy)
    (now : left.now = right.now) (opened : left.openChunk = right.openChunk)
    (pending : left.pendingAppend = right.pendingAppend) (encodedBytes : Nat) :
    left.shouldBlockAdmission encodedBytes = right.shouldBlockAdmission encodedBytes := by
  unfold shouldBlockAdmission admissionAgeBlocked oldestUncommittedAt openBytes pendingBytes
  rw [policy, now, opened, pending]

/-- The first submission of a producer no table knows. -/
theorem decideAdmission_newcomer [Digests] {actor : Actor} {submission : Submission}
    {encodedBytes : Nat} (size : actor.checkSize submission = .ok encodedBytes)
    (unknown : actor.knownProducers submission.producerId = none)
    (unseen : actor.dedup submission.key = none)
    (notOpen : findPlaced actor.openPlaced submission.identity = none)
    (notPending : findPlaced actor.pendingPlaced submission.identity = none)
    (first : submission.sequence = 0) :
    actor.decideAdmission submission = .ok (if actor.shouldBlockAdmission encodedBytes then
      .park encodedBytes else .place encodedBytes) := by
  have epoch : actor.checkEpoch submission = .ok () := by
    unfold checkEpoch
    rw [unknown]
    rfl
  have replay : actor.findReplay submission = .ok none := by
    unfold findReplay
    rw [unseen]
    rfl
  have join {placed : List PlacedSubmission}
      (absent : findPlaced placed submission.identity = none) :
      checkJoin placed submission = .ok false := by
    unfold checkJoin
    rw [absent]
    rfl
  have sequence : actor.checkSequence submission = .ok () := by
    have expected : actor.expectedSequence submission = 0 := by
      unfold expectedSequence
      rw [unknown]
    unfold checkSequence
    dsimp only
    rw [expected, first]
    rfl
  unfold decideAdmission
  simp only [size, epoch, replay, join notOpen, join notPending, sequence, Bind.bind, Except.bind]
  rfl

end Actor

namespace Driver

theorem new_eq_ok {config : DriverConfig} {writer : ChunkLogWriter}
    {recovered : List RecoveredChunk} {store : BlobStore} {driver : Driver}
    (mounted : Driver.new config writer recovered store = .ok driver) :
    config.policy.Valid ∧ driver = {
      toActor := (config.blank writer store).rebuildDedup recovered
      offered := [], sent := [], history := [], exited := false } := by
  unfold Driver.new at mounted
  obtain ⟨_, accepted, mounted⟩ := bind_eq_ok.mp mounted
  cases mounted
  exact ⟨ChunkPolicy.valid_of_validate (mapError_eq_ok.mp accepted), rfl⟩

theorem new_blank {config : DriverConfig} {writer : ChunkLogWriter}
    {recovered : List RecoveredChunk} {store : BlobStore} {driver : Driver}
    (mounted : Driver.new config writer recovered store = .ok driver) :
    ∃ dedup admittedSeq knownProducers, driver = {
      toActor := { config.blank writer store with dedup, admittedSeq, knownProducers }
      offered := [], sent := [], history := [], exited := false } := by
  obtain ⟨-, same⟩ := new_eq_ok mounted
  obtain ⟨dedup, admittedSeq, knownProducers, rebuilt⟩ :=
    (config.blank writer store).rebuildDedup_eq recovered
  exact ⟨dedup, admittedSeq, knownProducers, by rw [same, rebuilt]⟩

theorem soloItem_tiled {item : PlacedSubmission} (nonempty : item.submission.records ≠ [])
    (small : item.submission.records.length < 2 ^ 32) :
    validateSubmissionTiling (spansOf [item] 0).1 (placedRecords [item]).length = .ok () := by
  have positive := List.length_pos_iff.mpr nonempty
  have wide : 2 ^ 32 ≤ Usize.max := by decide
  have count : (recordCountOf item.submission).toNat = item.submission.records.length := by
    rw [recordCountOf_eq small, toNat_u32OfNat small]
  have counted : recordCountOf item.submission ≠ 0 := by
    intro zero
    rw [zero] at count
    simp at count
    omega
  have next := checkedAdd_of_le 0 item.submission.records.length (by omega)
  simp [spansOf, validateSubmissionTiling, tilingLoop, counted, count, next, placedRecords]
  rfl

/-- What a submission that is alone in its chunk is placed as. -/
def soloItem (driver : Driver) (submission : Submission) (ticket encodedBytes : Nat) :
    PlacedSubmission :=
  ⟨submission, driver.writer.nextOffset, encodedBytes, [ticket]⟩

/-- What a submission that fills a chunk alone leaves open, and how large its chunk will be. -/
theorem place_alone {driver : Driver} {submission : Submission} (ticket : Nat) {encodedBytes : Nat}
    (sized : driver.Sized submission encodedBytes) (closed : driver.openChunk = none) :
    (driver.place submission ticket encodedBytes).clearAgeSleep.openChunk =
        some ⟨[driver.soloItem submission ticket encodedBytes], encodedBytes, driver.now⟩ ∧
      placedRecords (driver.place submission ticket encodedBytes).openPlaced = submission.records ∧
      encodedChunkLen [frameOf driver.journalId driver.writer.nextOffset
        [driver.soloItem submission ticket encodedBytes]] = .ok encodedBytes := by
  have opened : (driver.place submission ticket encodedBytes).clearAgeSleep.openChunk =
      some ⟨[driver.soloItem submission ticket encodedBytes], encodedBytes, driver.now⟩ := by
    have offset : driver.placeOffset = driver.writer.nextOffset :=
      placeOffset_empty (by rw [Actor.openPlaced, closed])
    simp [place, clearAgeSleep, send, event, record, closed, soloItem, offset]
  have whole : placedRecords [driver.soloItem submission ticket encodedBytes] =
      submission.records :=
    placedRecords_singleton _
  refine ⟨opened, ?_, ?_⟩
  · have items : (driver.place submission ticket encodedBytes).openPlaced =
        [driver.soloItem submission ticket encodedBytes] := openPlaced_of_some opened
    rw [items, whole]
  · obtain ⟨body, encoded, length, bounded⟩ := sized.frame
    have body : encodeFrameRecords (placedRecords
        [driver.soloItem submission ticket encodedBytes]) = .ok body := by rw [whole, encoded]
    rw [encodedChunkLen_of_le body (length ▸ bounded)]
    exact congrArg Except.ok length.symm

/-- Nothing is due for an append or for the sink. -/
def Idle (driver : Driver) : Prop :=
  driver.pendingAppend = none ∨ ∃ envelope placed encodedBytes,
    driver.pendingAppend = some (.blobSink envelope placed encodedBytes true)

/-- The driver at another time, with another timer. -/
def awake (driver : Driver) (now : Duration) (ageSleep : Bool)
    (ageSleepDeadline : Option Duration) : Driver :=
  { driver with now, ageSleep, ageSleepDeadline }

theorem refreshAgeSleep_awake (driver : Driver) : ∃ ageSleep deadline,
    driver.refreshAgeSleep = driver.awake driver.now ageSleep deadline := by
  unfold refreshAgeSleep
  dsimp only
  split <;> exact ⟨_, _, rfl⟩

/-- What one pass comes to. -/
inductive Turn [Digests] (driver : Driver) (pass : Pass) : Driver → Prop where
  | atEnd (ended : driver.exited = true) : Turn driver pass driver
  | refuse (running : driver.exited = false) (poisoned : driver.poisoned = true)
      (command : Command) (arrived : pass.arrival = .command command) :
      Turn driver pass ((driver.atTime pass.started).poisonBlocked.rejectCommand command .poisoned)
  | linger (running : driver.exited = false) (poisoned : driver.poisoned = true) :
      Turn driver pass (driver.atTime pass.started).poisonBlocked
  | leave (running : driver.exited = false) (poisoned : driver.poisoned = true) :
      Turn driver pass { (driver.atTime pass.started).poisonBlocked with exited := true }
  | append (running : driver.exited = false) (alive : driver.poisoned = false) (work : SealedWork)
      (pending : driver.pendingAppend = some (.depthOne work)) :
      Turn driver pass ((driver.atTime pass.started).appendDepthOne pass)
  | enqueue (running : driver.exited = false) (alive : driver.poisoned = false)
      (envelope : PendingBlobEnvelope) (placed : List PlacedSubmission) (encodedBytes : Nat)
      (pending : driver.pendingAppend = some (.blobSink envelope placed encodedBytes false)) :
      Turn driver pass
        (((driver.atTime pass.started).tryEnqueueBlobSink pass.sink).atTime pass.settled)
  | rest (running : driver.exited = false) (alive : driver.poisoned = false) (idle : driver.Idle)
      (now : Duration) (ageSleep : Bool) (deadline : Option Duration) :
      Turn driver pass (driver.awake now ageSleep deadline)
  | sealDue (running : driver.exited = false) (alive : driver.poisoned = false) (idle : driver.Idle)
      (now : Duration) (ageSleep : Bool) (deadline : Option Duration) :
      Turn driver pass ((driver.awake now ageSleep deadline).sealOpen drainBlocked)
  | command (running : driver.exited = false) (alive : driver.poisoned = false)
      (idle : driver.Idle) (now : Duration) (ageSleep : Bool) (deadline : Option Duration)
      (command : Command) (arrived : pass.arrival = .command command) :
      Turn driver pass ((driver.awake now ageSleep deadline).handleCommand command pass)
  | close (running : driver.exited = false) (alive : driver.poisoned = false) (idle : driver.Idle)
      (now : Duration) (ageSleep : Bool) (deadline : Option Duration)
      (arrived : pass.arrival = .closed) :
      Turn driver pass ((driver.awake now ageSleep deadline).close pass)

section progress

variable [Digests] {driver : Driver}

theorem await_turn (driver : Driver) (pass : Pass) (running : driver.exited = false)
    (alive : driver.poisoned = false) (idle : driver.Idle) :
    Turn driver pass ((driver.atTime pass.started).await pass) := by
  obtain ⟨ageSleep, deadline, refreshed⟩ := refreshAgeSleep_awake (driver.atTime pass.started)
  unfold await
  dsimp only
  rw [refreshed]
  cases arrived : pass.arrival with
  | command command =>
      exact .command running alive idle pass.woken ageSleep deadline command arrived
  | closed => exact .close running alive idle pass.woken ageSleep deadline arrived
  | elapsed =>
      dsimp only
      split
      · split
        · exact .sealDue running alive idle pass.woken false none
        · exact .rest running alive idle pass.woken false none
      · exact .rest running alive idle pass.started ageSleep deadline

theorem iterate_turn (driver : Driver) (pass : Pass) : Turn driver pass (driver.iterate pass) := by
  unfold iterate
  cases running : driver.exited with
  | true => exact .atEnd running
  | false =>
      rw [if_neg Bool.false_ne_true]
      dsimp only
      cases alive : driver.poisoned with
      | true =>
          have poisoned : (driver.atTime pass.started).poisoned = true := alive
          rw [if_pos poisoned]
          cases arrived : pass.arrival with
          | command command => exact .refuse running alive command arrived
          | elapsed => exact .linger running alive
          | closed => exact .leave running alive
      | false =>
          have healthy : ¬ (driver.atTime pass.started).poisoned = true := by
            simp [atTime, alive]
          rw [if_neg healthy]
          have due (idle : driver.Idle) : Turn driver pass
              (if (driver.atTime pass.started).ageDue then
                (driver.atTime pass.started).clearAgeSleep.sealOpen drainBlocked
              else (driver.atTime pass.started).await pass) := by
            split
            · exact .sealDue running alive idle pass.started false none
            · exact await_turn driver pass running alive idle
          have pending : (driver.atTime pass.started).pendingAppend = driver.pendingAppend := rfl
          rw [pending]
          cases held : driver.pendingAppend with
          | none => exact due (Or.inl held)
          | some work =>
              cases work with
              | depthOne work => exact .append running alive work held
              | blobSink envelope placed encodedBytes enqueued =>
                  cases enqueued with
                  | false => exact .enqueue running alive envelope placed encodedBytes held
                  | true => exact due (Or.inr ⟨envelope, placed, encodedBytes, held⟩)

variable {pass : Pass} {submission : Submission} {encodedBytes : Nat}

/-- A command is handled in the pass that receives it, when no append or seal is due. -/
theorem iterate_command {command : Command} (running : driver.exited = false)
    (healthy : driver.poisoned = false)
    (idle : driver.pendingAppend = none ∨ ∃ envelope placed encodedBytes,
      driver.pendingAppend = some (.blobSink envelope placed encodedBytes true))
    (young : (driver.atTime pass.started).ageDue = false)
    (arrived : pass.arrival = .command command) :
    driver.iterate pass = (((driver.atTime pass.started).refreshAgeSleep).atTime
      pass.woken).handleCommand command pass := by
  have started : (driver.atTime pass.started).poisoned = false := healthy
  have pending : (driver.atTime pass.started).pendingAppend = driver.pendingAppend := rfl
  unfold iterate
  dsimp only
  rw [running, started, pending]
  rcases idle with none | ⟨envelope, placed, encodedBytes, enqueued⟩
  · rw [none]
    simp only [Bool.false_eq_true, ↓reduceIte, young, await, arrived]
  · rw [enqueued]
    simp only [Bool.false_eq_true, ↓reduceIte, young, await, arrived]

/-- The driver that looks at an offered submission. -/
def submitted (driver : Driver) (pass : Pass) (submission : Submission) : Driver :=
  { ((driver.atTime pass.started).refreshAgeSleep).atTime pass.woken with
    offered := driver.offered ++ [submission] }

theorem iterate_submit (running : driver.exited = false) (healthy : driver.poisoned = false)
    (idle : driver.pendingAppend = none ∨ ∃ envelope placed encodedBytes,
      driver.pendingAppend = some (.blobSink envelope placed encodedBytes true))
    (young : (driver.atTime pass.started).ageDue = false)
    (arrived : pass.arrival = .command (.submit submission)) :
    driver.iterate pass = Driver.admitSubmission drainBlocked (driver.submitted pass submission)
      submission driver.offered.length := by
  have same : (((driver.atTime pass.started).refreshAgeSleep).atTime pass.woken).offered =
      driver.offered := by
    dsimp only [refreshAgeSleep, atTime]
    split <;> rfl
  rw [iterate_command running healthy idle young arrived, handleCommand, same]
  rfl

theorem admit_sealed {drain : Driver → Driver} {ticket : Nat}
    (decision : driver.decideAdmission submission = .ok (.place encodedBytes))
    (full : driver.policy.maxChunkRecords ≤
        (placedRecords (driver.place submission ticket encodedBytes).openPlaced).length ∨
      driver.policy.maxChunkBytes ≤ (driver.place submission ticket encodedBytes).openBytes) :
    driver.admitSubmission drain submission ticket =
      (driver.place submission ticket encodedBytes).clearAgeSleep.sealOpen drain := by
  unfold admitSubmission
  rw [decision]
  exact if_pos full

/-- The driver that has taken parked submissions out of its queue. -/
def withParked (driver : Driver) (rest : List BlockedSubmission) : Driver :=
  { driver with blocked := rest }

theorem drainFor_admits {fuel : Nat} {parked : BlockedSubmission} {rest : List BlockedSubmission}
    (queue : driver.blocked = parked :: rest) (healthy : driver.poisoned = false)
    (room : driver.shouldBlockAdmission parked.encodedBytes = false) :
    driver.drainFor (fuel + 1) = ((driver.withParked rest).admitSubmission (drainFor fuel)
      parked.submission parked.ticket).drainFor fuel := by
  conv_lhs => unfold drainFor
  rw [queue]
  dsimp only
  rw [if_neg (by simp [healthy]), if_neg]
  · rfl
  · rintro ⟨-, blocked⟩
    exact Bool.false_ne_true (room.symm.trans blocked)

theorem sealOpen_sealed (drain : Driver → Driver) {chunk : OpenChunk} {first : PlacedSubmission}
    {rest : List PlacedSubmission} {size : Nat} (opened : driver.openChunk = some chunk)
    (filled : chunk.placed = first :: rest) (depthOne : driver.blobSink = false)
    (tiled : validateSubmissionTiling (spansOf chunk.placed 0).1
      (placedRecords chunk.placed).length = .ok ())
    (offsets : first.firstOffset.toNat + (placedRecords chunk.placed).length < 2 ^ 64)
    (sized : encodedChunkLen [driver.openFrame chunk first] = .ok size) (small : size < 2 ^ 32) :
    ∃ result, SealedFrom driver.sealHeader (driver.openFrame chunk first) result ∧
      driver.sealOpen drain = driver.takeOpen.sealDone driver.toActor chunk
        (chunkIdOf driver.nextChunk) result.bytes.length
        (.depthOne ⟨result, chunk.placed, chunk.encodedBytes, driver.now⟩) := by
  obtain ⟨result, success⟩ : ∃ result, sealSingleFrameChunk driver.sealHeader
      [driver.openFrame chunk first] = .ok result :=
    sealSingleFrameChunk_succeeds driver.sealHeader tiled offsets sized small
  refine ⟨result, sealSingleFrameChunk_eq_ok success, ?_⟩
  rw [sealOpen_filled drain opened filled, depthOne, success]
  rfl

/-- The driver after a submission was placed and sealed alone. -/
def filled (driver : Driver) (submission : Submission) (ticket encodedBytes : Nat)
    (result : SealedChunk) : Driver :=
  let placed := (driver.place submission ticket encodedBytes).clearAgeSleep
  let items := [driver.soloItem submission ticket encodedBytes]
  placed.takeOpen.sealDone placed.toActor ⟨items, encodedBytes, driver.now⟩
    (chunkIdOf driver.nextChunk) result.bytes.length
    (.depthOne ⟨result, items, encodedBytes, driver.now⟩)

/-- A submission that fills a chunk alone is placed and sealed, whatever is pending. -/
theorem admit_fills {drain : Driver → Driver} {ticket : Nat}
    (decision : driver.decideAdmission submission = .ok (.place encodedBytes))
    (depthOne : driver.blobSink = false) (closed : driver.openChunk = none)
    (full : driver.policy.maxChunkRecords ≤ submission.records.length)
    (offsets : driver.writer.nextOffset.toNat + submission.records.length < 2 ^ 64)
    (small : encodedBytes < 2 ^ 32) :
    ∃ result, SealedFrom driver.sealHeader (frameOf driver.journalId driver.writer.nextOffset
        [driver.soloItem submission ticket encodedBytes]) result ∧
      driver.admitSubmission drain submission ticket =
        driver.filled submission ticket encodedBytes result := by
  obtain ⟨sized, -, -⟩ := Actor.decideAdmission_eq_ok decision
  obtain ⟨opened, records, measured⟩ := place_alone ticket sized closed
  have whole : placedRecords [driver.soloItem submission ticket encodedBytes] =
      submission.records :=
    placedRecords_singleton _
  have reached : driver.policy.maxChunkRecords ≤
      (placedRecords (driver.place submission ticket encodedBytes).openPlaced).length := by
    rw [records]
    exact full
  obtain ⟨body, encoded, -, -⟩ := sized.frame
  have tiled : validateSubmissionTiling
      (spansOf [driver.soloItem submission ticket encodedBytes] 0).1
      (placedRecords [driver.soloItem submission ticket encodedBytes]).length = .ok () :=
    soloItem_tiled sized.nonempty (encodeFrameRecords_eq_ok encoded).1
  have ends : driver.writer.nextOffset.toNat +
      (placedRecords [driver.soloItem submission ticket encodedBytes]).length < 2 ^ 64 := by
    rw [whole]
    exact offsets
  rw [admit_sealed decision (Or.inl reached)]
  exact sealOpen_sealed drain opened rfl depthOne tiled ends measured small

/-- The driver after a submission was placed and sealed alone as an envelope. -/
def enclosed (driver : Driver) (submission : Submission) (ticket encodedBytes : Nat) : Driver :=
  let placed := (driver.place submission ticket encodedBytes).clearAgeSleep
  let items := [driver.soloItem submission ticket encodedBytes]
  placed.takeOpen.sealDone placed.toActor ⟨items, encodedBytes, driver.now⟩
    (chunkIdOf driver.nextChunk) encodedBytes
    (.blobSink (driver.envelopeOf (chunkIdOf driver.nextChunk)
      (frameOf driver.journalId driver.writer.nextOffset items)) items encodedBytes false)

/-- The drain seals the first submission of a new producer that fills a chunk alone, whatever is
pending. -/
theorem drainFor_fills {fuel : Nat} {parked : BlockedSubmission} {rest : List BlockedSubmission}
    (queue : driver.blocked = parked :: rest) (healthy : driver.poisoned = false)
    (depthOne : driver.blobSink = false) (closed : driver.openChunk = none)
    (size : driver.checkSize parked.submission = .ok parked.encodedBytes)
    (unknown : driver.knownProducers parked.submission.producerId = none)
    (unseen : driver.dedup parked.submission.key = none)
    (notPending : Actor.findPlaced driver.pendingPlaced parked.submission.identity = none)
    (first : parked.submission.sequence = 0)
    (room : driver.shouldBlockAdmission parked.encodedBytes = false)
    (full : driver.policy.maxChunkRecords ≤ parked.submission.records.length)
    (offsets : driver.writer.nextOffset.toNat + parked.submission.records.length < 2 ^ 64)
    (small : parked.encodedBytes < 2 ^ 32) :
    ∃ result, SealedFrom driver.sealHeader (frameOf driver.journalId driver.writer.nextOffset
        [driver.soloItem parked.submission parked.ticket parked.encodedBytes]) result ∧
      driver.drainFor (fuel + 1) = ((driver.withParked rest).filled parked.submission
        parked.ticket parked.encodedBytes result).drainFor fuel := by
  have popped : (driver.withParked rest).checkSize parked.submission = .ok parked.encodedBytes := by
    rw [← size]
    exact Actor.checkSize_congr (driver.withParked rest).toActor driver.toActor rfl rfl rfl _
  have notOpen : Actor.findPlaced (driver.withParked rest).openPlaced
      parked.submission.identity = none := by
    have empty : (driver.withParked rest).openPlaced = driver.openPlaced := rfl
    rw [empty, Actor.openPlaced, closed]
    rfl
  have free : (driver.withParked rest).shouldBlockAdmission parked.encodedBytes = false := room
  have decision : (driver.withParked rest).decideAdmission parked.submission =
      .ok (.place parked.encodedBytes) := by
    rw [Actor.decideAdmission_newcomer popped unknown unseen notOpen notPending first, free]
    rfl
  obtain ⟨result, sealed, filled⟩ := admit_fills decision depthOne closed full offsets small
  refine ⟨result, sealed, ?_⟩
  rw [drainFor_admits queue healthy room, filled]

/-- The driver whose inline append of this many records was acknowledged. -/
def acknowledged (driver : Driver) (work : SealedWork) (records : Nat) (count : UInt32)
    (settled : Duration) : Driver :=
  let next := RecordOffset.ofNat (driver.writer.nextOffset.toNat + records)
  let ack : ChunkAppendAck :=
    ⟨driver.writer.log.length, work.chunk.chunkId, driver.writer.nextOffset, next, count⟩
  let appended := { driver.takePending work.chunk.chunkId with
    writer := { driver.writer with
      log := driver.writer.log ++ [work.chunk.bytes], nextOffset := next, poisoned := false } }
  ((appended.record (.append driver.toActor work (.ok ack))).atTime settled).commitPlaced
    work.placed work.chunk.chunkId ack

theorem appendDepthOne_acknowledged {work : SealedWork} {header : ChunkHeader} {frame : Frame}
    (pending : driver.pendingAppend = some (.depthOne work)) (inline : driver.datarefBlobs = none)
    (kernel : pass.kernel = .ok) (result : SealedFrom header frame work.chunk)
    (cohort : header.cohortId = driver.writer.cohortId)
    (generation : header.generation = driver.writer.generation)
    (journal : frame.journalId = driver.writer.journalId)
    (base : frame.baseOffset = driver.writer.nextOffset) (alive : driver.writer.poisoned = false) :
    ∃ count, driver.appendDepthOne pass =
      (driver.acknowledged work frame.records.length count pass.settled).drainBlocked := by
  obtain ⟨count, appended⟩ :=
    ChunkLogWriter.append_succeeds result cohort generation journal base alive
  refine ⟨count, ?_⟩
  have direct : (driver.takePending work.chunk.chunkId).datarefBlobs = none := inline
  have outcome : (driver.takePending work.chunk.chunkId).appendSealed work.chunk pass.put
      pass.kernel = ((driver.writer.append work.chunk pass.kernel).1,
        { driver.takePending work.chunk.chunkId with
          writer := (driver.writer.append work.chunk pass.kernel).2 }) :=
    appendSealed_inline direct
  rw [appendDepthOne_pending pending, outcome, kernel, appended]
  rfl

theorem drainBlocked_idle (parked : driver.blocked = []) : driver.drainBlocked = driver := by
  unfold drainBlocked
  rw [parked]
  rfl

theorem run_append (driver : Driver) (front back : List Pass) :
    driver.run (front ++ back) = (driver.run front).run back :=
  List.foldl_append

end progress

end Driver

/-- A policy that leaves the sizes open. -/
def smallPolicy (maxChunkBytes maxChunkRecords maxBufferedBytes : Nat) : ChunkPolicy where
  maxChunkBytes := maxChunkBytes
  maxRecordBytes := 64
  maxChunkRecords := maxChunkRecords
  maxChunkAge := 10 ^ 9
  maxBufferedBytes := maxBufferedBytes
  maxInflightChunks := 1
  maxUncommittedAge := 10 ^ 10
  recoveryScan := ⟨16, by decide⟩

def smallConfig (policy : ChunkPolicy) : DriverConfig where
  journalId := ⟨repeated 16 1⟩
  cohortId := ⟨repeated 16 2⟩
  writerId := ⟨repeated 16 3⟩
  generation := 1
  policy := policy
  datarefBlobs := none
  blobSink := false
  blobVerseKey := none

/-- The writer of an empty log. -/
def emptyWriter : ChunkLogWriter where
  journalId := ⟨repeated 16 1⟩
  cohortId := ⟨repeated 16 2⟩
  generation := 1
  log := []
  nextOffset := .ofNat 0
  poisoned := false

/-- A driver over an empty log and an empty store. -/
def freshDriver (policy : ChunkPolicy) : Driver where
  toActor := (smallConfig policy).blank emptyWriter fun _ => none
  offered := []
  sent := []
  history := []
  exited := false

/-- A submission of one-byte records. -/
def submissionOf (producer : UInt8) (sequence : UInt64) (count : Nat) : Submission where
  producerId := ⟨repeated 16 producer⟩
  producerEpoch := 0
  sequence := sequence
  records := List.replicate count ⟨.empty, [producer]⟩

/-- A pass that receives this command while everything else goes well and no time passes. -/
def commandPass (command : Command) : Pass where
  started := 0
  arrival := .command command
  woken := 0
  put := .ok
  kernel := .ok
  settled := 0
  sink := .ok

theorem commandPass_plain {commands : List Command} (plain : ∀ command ∈ commands, command.Plain) :
    ∀ pass ∈ commands.map commandPass, pass.Plain := by
  intro pass member command arrived
  obtain ⟨sent, listed, rfl⟩ := List.mem_map.mp member
  cases arrived
  exact plain _ listed

/-- A chunk holds one record. -/
def soloPolicy : ChunkPolicy := smallPolicy 1000 1 1000

/-- One record is submitted; the flush is only received once its chunk is appended. -/
def soloCommands : List Command := [.submit (submissionOf 1 0 1), .flush 0]

/-- A chunk holds two records. -/
def pairPolicy : ChunkPolicy := smallPolicy 1000 2 1000

/-- Two records are submitted one after the other. -/
def pairCommands : List Command :=
  [.submit (submissionOf 1 0 1), .submit (submissionOf 2 0 1), .flush 0]

def soloWork (result : SealedChunk) : SealedWork :=
  ⟨result, [⟨submissionOf 1 0 1, .ofNat 0, 199, [0]⟩], 199, 0⟩

/-- The record is sealed in a chunk. -/
def soloSealed (result : SealedChunk) : Driver :=
  ((freshDriver soloPolicy).submitted (commandPass (.submit (submissionOf 1 0 1)))
    (submissionOf 1 0 1)).filled (submissionOf 1 0 1) 0 199 result

/-- The chunk is committed. -/
def soloCommitted [Digests] (result : SealedChunk) (count : UInt32) : Driver :=
  (soloSealed result).acknowledged (soloWork result) 1 count 0

theorem solo_sealed [Digests] : ∃ result,
    SealedFrom (freshDriver soloPolicy).sealHeader
      (frameOf (freshDriver soloPolicy).journalId (.ofNat 0)
        [⟨submissionOf 1 0 1, .ofNat 0, 199, [0]⟩]) result ∧
    (freshDriver soloPolicy).iterate (commandPass (.submit (submissionOf 1 0 1))) =
      soloSealed result := by
  have decision : ((freshDriver soloPolicy).submitted (commandPass (.submit (submissionOf 1 0 1)))
      (submissionOf 1 0 1)).decideAdmission (submissionOf 1 0 1) = .ok (.place 199) := rfl
  obtain ⟨result, sealed, filled⟩ := Driver.admit_fills decision rfl rfl (Nat.le_refl 1) (by decide)
    (by decide)
  exact ⟨result, sealed, (Driver.iterate_submit rfl rfl (Or.inl rfl) rfl rfl).trans filled⟩

theorem solo_appended [Digests] {result : SealedChunk}
    (sealed : SealedFrom (freshDriver soloPolicy).sealHeader
      (frameOf (freshDriver soloPolicy).journalId (.ofNat 0)
        [⟨submissionOf 1 0 1, .ofNat 0, 199, [0]⟩]) result)
    {pass : Pass} (kernel : pass.kernel = .ok) (settled : pass.settled = 0) :
    ∃ count, (soloSealed result).appendDepthOne pass = soloCommitted result count := by
  have pending : (soloSealed result).pendingAppend = some (.depthOne (soloWork result)) := rfl
  obtain ⟨count, appended⟩ :=
    Driver.appendDepthOne_acknowledged pending rfl kernel sealed rfl rfl rfl rfl rfl
  refine ⟨count, ?_⟩
  rw [appended, settled]
  rfl

/-- The driver that commits one record. -/
theorem solo_run [Digests] : ∃ result count,
    SealedFrom (freshDriver soloPolicy).sealHeader
      (frameOf (freshDriver soloPolicy).journalId (.ofNat 0)
        [⟨submissionOf 1 0 1, .ofNat 0, 199, [0]⟩]) result ∧
    (freshDriver soloPolicy).run (soloCommands.map commandPass) = soloCommitted result count := by
  obtain ⟨result, sealed, placed⟩ := solo_sealed
  have kernel : (commandPass (.flush 0)).kernel = .ok := rfl
  obtain ⟨count, appended⟩ := solo_appended sealed kernel rfl
  have flushed : (soloSealed result).iterate (commandPass (.flush 0)) =
      (soloSealed result).appendDepthOne (commandPass (.flush 0)) := rfl
  have passes (driver : Driver) : driver.run (soloCommands.map commandPass) =
      (driver.iterate (commandPass (.submit (submissionOf 1 0 1)))).iterate
        (commandPass (.flush 0)) := rfl
  refine ⟨result, count, sealed, ?_⟩
  rw [passes, placed, flushed, appended]

end Scripture
