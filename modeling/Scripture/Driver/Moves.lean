import Scripture.Driver.Effects

set_option autoImplicit false

/- What a driver can do, said once. Every function of the run loop is a sequence of the moves below,
so that a property of all reachable states is proved move by move. -/
namespace Scripture

open ByteFormat Relation

namespace Actor

/-- The size checks passed with this reservation. -/
structure Sized (actor : Actor) (submission : Submission) (encodedBytes : Nat) : Prop where
  alive : actor.poisoned = false
  nonempty : submission.records ≠ []
  encoded : actor.submissionEncodedBytes submission = .ok encodedBytes
  recordsFit : submission.records.length ≤ actor.policy.maxChunkRecords
  bytesFit : encodedBytes ≤ actor.policy.maxChunkBytes

variable {actor : Actor} {submission : Submission}

theorem checkSize_eq_ok {encodedBytes : Nat}
    (accepted : actor.checkSize submission = .ok encodedBytes) :
    actor.Sized submission encodedBytes := by
  unfold checkSize at accepted
  obtain ⟨alive, accepted⟩ := checked_eq_ok.mp accepted
  obtain ⟨nonempty, accepted⟩ := checked_eq_ok.mp accepted
  obtain ⟨_, -, accepted⟩ := bind_eq_ok.mp accepted
  obtain ⟨size, encoded, accepted⟩ := bind_eq_ok.mp accepted
  obtain ⟨fits, accepted⟩ := checked_eq_ok.mp accepted
  cases accepted
  exact {
    alive := by simpa using alive
    nonempty := by simpa using nonempty
    encoded := mapError_eq_ok.mp encoded
    recordsFit := by omega
    bytesFit := by omega }

/-- The window answers the submission with this receipt. -/
def Replays [Digests] (actor : Actor) (submission : Submission) (receipt : DedupReceipt) : Prop :=
  ∃ highest window, actor.dedup submission.key = some (highest, window) ∧
    window submission.sequence = some receipt ∧
    receipt.submissionDigest = canonicalRecordsDigest submission.records

theorem findReplay_eq_some [Digests] {receipt : DedupReceipt}
    (found : actor.findReplay submission = .ok (some receipt)) :
    actor.Replays submission receipt := by
  unfold findReplay at found
  split at found
  · rename_i highest window entry
    split at found
    · split at found
      · rename_i candidate held
        split at found
        · cases found
        · rename_i same
          cases found
          exact ⟨highest, window, entry, held, by simpa using same⟩
      · cases found
    · cases found
  · cases found

theorem findReplay_eq_none [Digests] (absent : actor.findReplay submission = .ok none) :
    actor.inDedupRange submission = false := by
  unfold findReplay at absent
  unfold inDedupRange
  split at absent
  · split at absent
    · split at absent
      · split at absent <;> cases absent
      · cases absent
    · rename_i above
      simpa using above
  · rfl

/-- A placed submission with this identity and these records is waiting. -/
def Joins [Digests] (placed : List PlacedSubmission) (submission : Submission) : Prop :=
  ∃ item, findPlaced placed submission.identity = some item ∧
    canonicalRecordsDigest item.submission.records = canonicalRecordsDigest submission.records

theorem checkJoin_eq_true [Digests] {placed : List PlacedSubmission}
    (found : checkJoin placed submission = .ok true) : Joins placed submission := by
  unfold checkJoin at found
  split at found
  · rename_i item held
    split at found
    · cases found
    · rename_i same
      exact ⟨item, held, by simpa using same⟩
  · cases found

theorem checkJoin_eq_false [Digests] {placed : List PlacedSubmission}
    (absent : checkJoin placed submission = .ok false) :
    findPlaced placed submission.identity = none := by
  unfold checkJoin at absent
  split at absent
  · split at absent <;> cases absent
  · assumption

/-- The submission is neither fenced, committed nor waiting, and is next in its sequence. -/
structure Fresh (actor : Actor) (submission : Submission) : Prop where
  epoch : ∀ highest, actor.knownProducers submission.producerId = some highest →
    ¬ submission.producerEpoch < highest
  uncommitted : actor.inDedupRange submission = false
  notOpen : findPlaced actor.openPlaced submission.identity = none
  notPending : findPlaced actor.pendingPlaced submission.identity = none
  sequence : submission.sequence = actor.expectedSequence submission

theorem checkEpoch_eq_ok (passed : actor.checkEpoch submission = .ok ()) (highest : UInt32)
    (known : actor.knownProducers submission.producerId = some highest) :
    ¬ submission.producerEpoch < highest := by
  unfold checkEpoch at passed
  rw [known] at passed
  intro fenced
  simp [fenced, throw, throwThe, MonadExceptOf.throw] at passed

theorem checkSequence_eq_ok (passed : actor.checkSequence submission = .ok ()) :
    submission.sequence = actor.expectedSequence submission := by
  unfold checkSequence at passed
  dsimp only at passed
  split at passed
  · cases passed
  · rename_i same
    simpa using same

/-- What each decision of `admit` rests on. -/
def Decided [Digests] (actor : Actor) (submission : Submission) : Admission → Prop
  | .replay receipt => actor.Replays submission receipt
  | .joinOpen => Joins actor.openPlaced submission
  | .joinPending => findPlaced actor.openPlaced submission.identity = none ∧
      Joins actor.pendingPlaced submission
  | .park encodedBytes => actor.Sized submission encodedBytes ∧ actor.Fresh submission ∧
      actor.shouldBlockAdmission encodedBytes = true
  | .place encodedBytes => actor.Sized submission encodedBytes ∧ actor.Fresh submission ∧
      actor.shouldBlockAdmission encodedBytes = false

theorem decideAdmission_eq_ok [Digests] {admission : Admission}
    (accepted : actor.decideAdmission submission = .ok admission) :
    actor.Decided submission admission := by
  unfold decideAdmission at accepted
  obtain ⟨encodedBytes, size, accepted⟩ := bind_eq_ok.mp accepted
  obtain ⟨_, epoch, accepted⟩ := bind_eq_ok.mp accepted
  obtain ⟨replayed, window, accepted⟩ := bind_eq_ok.mp accepted
  cases replayed with
  | some receipt =>
      cases accepted
      exact findReplay_eq_some window
  | none =>
      obtain ⟨inOpen, joinsOpen, accepted⟩ := bind_eq_ok.mp accepted
      cases inOpen with
      | true =>
          cases accepted
          exact checkJoin_eq_true joinsOpen
      | false =>
          obtain ⟨inPending, joinsPending, accepted⟩ := bind_eq_ok.mp accepted
          cases inPending with
          | true =>
              cases accepted
              exact ⟨checkJoin_eq_false joinsOpen, checkJoin_eq_true joinsPending⟩
          | false =>
              obtain ⟨_, sequence, accepted⟩ := bind_eq_ok.mp accepted
              have sized := checkSize_eq_ok size
              have fresh : actor.Fresh submission := {
                epoch := checkEpoch_eq_ok epoch
                uncommitted := findReplay_eq_none window
                notOpen := checkJoin_eq_false joinsOpen
                notPending := checkJoin_eq_false joinsPending
                sequence := checkSequence_eq_ok sequence }
              cases blocked : actor.shouldBlockAdmission encodedBytes <;>
                rw [blocked] at accepted <;>
                cases accepted <;> exact ⟨sized, fresh, blocked⟩

end Actor

/-- A submission in hand: just offered, or popped from the parked ones. -/
inductive Taken (driver : Driver) : Submission → Nat → Driver → Prop where
  | offered (submission : Submission) :
      Taken driver submission driver.offered.length
        { driver with offered := driver.offered ++ [submission] }
  | parked (item : BlockedSubmission) (rest : List BlockedSubmission)
      (front : driver.blocked = item :: rest) :
      Taken driver item.submission item.ticket { driver with blocked := rest }

/-- Messages that answer no submission. -/
def Message.Plain : Message → Prop
  | .admission .. => False
  | .receipt .. => False
  | _ => True

def replayReceipt (driver : Driver) (receipt : DedupReceipt) : Receipt where
  level := .committed
  journalId := driver.journalId
  firstOffset := receipt.firstOffset
  nextOffset := (receipt.firstOffset.checkedAdd receipt.recordCount.toNat).getD receipt.firstOffset
  chunkId := receipt.chunkId
  slot := receipt.slot
  canonRevision := receipt.canonRevision
  deduplicated := true

namespace Driver

/-- The open chunk is taken for sealing. -/
def takeOpen (driver : Driver) : Driver :=
  { driver with
    openChunk := none, ageSleep := false, ageSleepDeadline := none
    nextChunk := driver.nextChunk + 1 }

def openFrame (driver : Driver) (chunk : OpenChunk) (first : PlacedSubmission) : Frame :=
  frameOf driver.journalId first.firstOffset chunk.placed

def sealHeader (driver : Driver) : ChunkHeader :=
  ⟨chunkIdOf driver.nextChunk, driver.cohortId, driver.generation, driver.writerId,
    createdAtMicros driver.now⟩

/-- The codec that sealing meets: the chunk codec, or the size check of an envelope. -/
def sealError [Digests] (driver : Driver) (frame : Frame) : Option ChunkError :=
  if driver.blobSink then
    match encodedChunkLen [frame] with
    | .error error => some error
    | .ok _ => none
  else
    match sealSingleFrameChunk driver.sealHeader [frame] with
    | .error error => some error
    | .ok _ => none

/-- The pending work leaves the actor, and its append is on the ledger. -/
def takePending (driver : Driver) (chunkId : ChunkId) : Driver :=
  { driver with pendingAppend := none }.event (.appendIssued chunkId)

/-- The append of the work is answered with this result, after these puts. -/
structure Appends [Digests] (driver : Driver) (work : SealedWork)
    (result : Except ChunkLogError ChunkAppendAck) (writer : ChunkLogWriter) (store : BlobStore)
    (puts : List Act) : Prop where
  ran : ∃ put kernel, (driver.takePending work.chunk.chunkId).appendSealed work.chunk put kernel =
    (result, { driver.takePending work.chunk.chunkId with
      writer, store, history := driver.history ++ puts })
  stored : ∀ act ∈ puts, ∃ key, act =
    .put (driver.takePending work.chunk.chunkId).toActor key work.chunk.bytes

theorem Appends.grown [Digests] {driver : Driver} {work : SealedWork}
    {result : Except ChunkLogError ChunkAppendAck} {writer : ChunkLogWriter} {store : BlobStore}
    {puts : List Act} (appends : driver.Appends work result writer store puts) :
    driver.store.Extends store := by
  obtain ⟨put, kernel, ran⟩ := appends.ran
  exact (appendSealed_appended ran).store

/-- The driver once the append of its work is answered. -/
def answered (driver : Driver) (work : SealedWork) (result : Except ChunkLogError ChunkAppendAck)
    (writer : ChunkLogWriter) (store : BlobStore) (puts : List Act) (settled : Duration) : Driver :=
  { driver.takePending work.chunk.chunkId with
    writer, store, now := settled
    history := driver.history ++ puts ++ [.append driver.toActor work result] }

end Driver

/-- One thing a driver does on its own, on a submission, on a flush or at its end. -/
inductive Move [Digests] : Driver → Driver → Prop where
  | quiet (driver : Driver) (now : Duration) (ledger : Ledger) (ageSleep : Bool)
      (ageSleepDeadline : Option Duration) (metrics : DriverMetrics)
      (published : metrics.reservedBytes = driver.metrics.reservedBytes) :
      Move driver { driver with now, ledger, ageSleep, ageSleepDeadline, metrics }
  | say (driver : Driver) (message : Message) (plain : message.Plain) :
      Move driver (driver.send message)
  | refuse {driver taken : Driver} {submission : Submission} {ticket : Nat}
      (inHand : Taken driver submission ticket taken) (error : DriverError) :
      Move driver (taken.send (.admission ticket (.error error)))
  | replay {driver taken : Driver} {submission : Submission} {ticket : Nat}
      (inHand : Taken driver submission ticket taken) (receipt : DedupReceipt)
      (held : driver.Replays submission receipt) :
      Move driver ((taken.send (.receipt ticket (.ok (replayReceipt driver receipt)))).send
        (.admission ticket (.ok ())))
  | joinOpen {driver taken : Driver} {submission : Submission} {ticket : Nat}
      (inHand : Taken driver submission ticket taken)
      (held : Actor.Joins driver.openPlaced submission) :
      Move driver (taken.joinOpen submission ticket)
  | joinPending {driver taken : Driver} {submission : Submission} {ticket : Nat}
      (inHand : Taken driver submission ticket taken)
      (absent : Actor.findPlaced driver.openPlaced submission.identity = none)
      (held : Actor.Joins driver.pendingPlaced submission) :
      Move driver (taken.joinPending submission ticket)
  | park {driver taken : Driver} {submission : Submission} {ticket : Nat}
      (inHand : Taken driver submission ticket taken) (encodedBytes : Nat)
      (sized : driver.Sized submission encodedBytes) (fresh : driver.Fresh submission) :
      Move driver (taken.park submission ticket encodedBytes)
  | place {driver taken : Driver} {submission : Submission} {ticket : Nat}
      (inHand : Taken driver submission ticket taken) (encodedBytes : Nat)
      (sized : driver.Sized submission encodedBytes) (fresh : driver.Fresh submission)
      (room : driver.shouldBlockAdmission encodedBytes = false) :
      Move driver (taken.place submission ticket encodedBytes)
  | sealNothing (driver : Driver) (chunk : OpenChunk) (opened : driver.openChunk = some chunk)
      (empty : chunk.placed = []) :
      Move driver { driver with openChunk := none, ageSleep := false, ageSleepDeadline := none }
  | sealRefused (driver : Driver) (chunk : OpenChunk) (first : PlacedSubmission)
      (rest : List PlacedSubmission) (error : ChunkError)
      (opened : driver.openChunk = some chunk) (filled : chunk.placed = first :: rest)
      (refused : driver.sealError (driver.openFrame chunk first) = some error) :
      Move driver (driver.takeOpen.sealFailed id driver.toActor chunk
        (chunkIdOf driver.nextChunk) error)
  | sealChunk (driver : Driver) (chunk : OpenChunk) (first : PlacedSubmission)
      (rest : List PlacedSubmission) (result : SealedChunk)
      (opened : driver.openChunk = some chunk) (filled : chunk.placed = first :: rest)
      (depthOne : driver.blobSink = false)
      (success : sealSingleFrameChunk driver.sealHeader [driver.openFrame chunk first] =
        .ok result) :
      Move driver (driver.takeOpen.sealDone driver.toActor chunk (chunkIdOf driver.nextChunk)
        result.bytes.length
        (.depthOne ⟨result, chunk.placed, chunk.encodedBytes, driver.now⟩))
  | sealEnvelope (driver : Driver) (chunk : OpenChunk) (first : PlacedSubmission)
      (rest : List PlacedSubmission) (bytes : Nat)
      (opened : driver.openChunk = some chunk) (filled : chunk.placed = first :: rest)
      (sink : driver.blobSink = true)
      (success : encodedChunkLen [driver.openFrame chunk first] = .ok bytes) :
      Move driver (driver.takeOpen.sealDone driver.toActor chunk (chunkIdOf driver.nextChunk) bytes
        (.blobSink (driver.envelopeOf (chunkIdOf driver.nextChunk) (driver.openFrame chunk first))
          chunk.placed chunk.encodedBytes false))
  | commit (driver : Driver) (work : SealedWork) (ack : ChunkAppendAck) {writer : ChunkLogWriter}
      {store : BlobStore} {puts : List Act} {settled : Duration} {ledger : Ledger}
      {metrics : DriverMetrics} (pending : driver.pendingAppend = some (.depthOne work))
      (appends : driver.Appends work (.ok ack) writer store puts)
      (published : metrics.reservedBytes = driver.openBytes) :
      Move driver ((driver.answered work (.ok ack) writer store puts settled).committed work.placed
        work.chunk.chunkId ack ledger metrics)
  | fail (driver : Driver) (work : SealedWork) (error : ChunkLogError) {writer : ChunkLogWriter}
      {store : BlobStore} {puts : List Act} {settled : Duration} {ledger : Ledger}
      {metrics : DriverMetrics} {ageSleep : Bool} {ageSleepDeadline : Option Duration}
      (pending : driver.pendingAppend = some (.depthOne work))
      (appends : driver.Appends work (.error error) writer store puts)
      (published : metrics.reservedBytes = 0) :
      Move driver ((driver.answered work (.error error) writer store puts settled).poisonedBy work
        ledger metrics ageSleep ageSleepDeadline)
  | enqueue (driver : Driver) (envelope : PendingBlobEnvelope) (placed : List PlacedSubmission)
      (encodedBytes : Nat)
      (pending : driver.pendingAppend = some (.blobSink envelope placed encodedBytes false)) :
      Move driver ({ driver with
        pendingAppend := some (.blobSink envelope placed encodedBytes true) }.record
          (.enqueue driver.toActor envelope))
  | enqueueFailed (driver : Driver) (envelope : PendingBlobEnvelope)
      (placed : List PlacedSubmission) (encodedBytes : Nat) (message : String)
      (pending : driver.pendingAppend = some (.blobSink envelope placed encodedBytes false)) :
      Move driver ({ driver with pendingAppend := none }.resolve placed
        fun _ => .error (.invariant message)).publishReserved
  | close (driver : Driver) : Move driver (driver.record (.close driver.toActor))
  | refuseParked (driver : Driver) (error : DriverError) :
      Move driver { driver with
        blocked := []
        sent := driver.sent ++ driver.blocked.map fun parked =>
          .admission parked.ticket (.error error) }
  | exit (driver : Driver) : Move driver { driver with exited := true }

/-- One thing a driver does for the shared sink. -/
inductive SinkMove [Digests] : Driver → Driver → Prop where
  | appendRefs (driver : Driver) (items : List BlobSinkAppendItem) {writer : ChunkLogWriter}
      (log : ∃ more, writer.log = driver.writer.log ++ more) :
      SinkMove driver ({ driver with writer }.record (.appendRefs driver.toActor items))
  | misreport (driver : Driver) (chunkId : ChunkId) (ack : ChunkAppendAck)
      (stray : ack.chunkId = chunkId → ∀ envelope placed encodedBytes enqueued,
        driver.pendingAppend ≠ some (.blobSink envelope placed encodedBytes enqueued)) :
      SinkMove driver ({ driver with pendingAppend := none }.record
        (.report driver.toActor chunkId ack))
  | report (driver : Driver) (envelope : PendingBlobEnvelope) (placed : List PlacedSubmission)
      (encodedBytes : Nat) (enqueued : Bool) (chunkId : ChunkId) (ack : ChunkAppendAck)
      {ledger : Ledger} {metrics : DriverMetrics}
      (pending : driver.pendingAppend = some (.blobSink envelope placed encodedBytes enqueued))
      (named : ack.chunkId = chunkId) :
      SinkMove driver (({ driver with pendingAppend := none }.record
        (.report driver.toActor chunkId ack)).committed placed chunkId ack ledger metrics)

/-- Any number of moves. -/
abbrev Moves [Digests] : Driver → Driver → Prop := ReflTransGen Move

section simulation

variable [Digests] {driver taken : Driver} {submission : Submission} {ticket : Nat}

theorem Taken.decided (inHand : Taken driver submission ticket taken) {admission : Actor.Admission}
    (decided : taken.Decided submission admission) : driver.Decided submission admission := by
  -- The decision reads neither the parked submissions nor the offered ones.
  have sized {encodedBytes : Nat} (size : taken.Sized submission encodedBytes) :
      driver.Sized submission encodedBytes := by
    cases inHand <;>
      exact ⟨size.alive, size.nonempty, size.encoded, size.recordsFit, size.bytesFit⟩
  have fresh (next : taken.Fresh submission) : driver.Fresh submission := by
    cases inHand <;>
      exact ⟨next.epoch, next.uncommitted, next.notOpen, next.notPending, next.sequence⟩
  cases admission with
  | park encodedBytes =>
      refine ⟨sized decided.1, fresh decided.2.1, ?_⟩
      cases inHand <;> exact decided.2.2
  | place encodedBytes =>
      refine ⟨sized decided.1, fresh decided.2.1, ?_⟩
      cases inHand <;> exact decided.2.2
  | _ => cases inHand <;> exact decided

theorem Moves.single {before after : Driver} (move : Move before after) : Moves before after :=
  ReflTransGen.single move

theorem refuse_moves (inHand : Taken driver submission ticket taken) (refusal : Actor.Refusal) :
    Moves driver (taken.refuse submission ticket refusal) := by
  refine (Moves.single (Move.refuse inHand refusal.error)).tail ?_
  unfold Driver.refuse
  cases refusal.event <;> exact Move.quiet _ _ _ _ _ _ rfl

theorem replay_moves (inHand : Taken driver submission ticket taken) (receipt : DedupReceipt)
    (held : driver.Replays submission receipt) :
    Moves driver (taken.replay submission ticket receipt) := by
  refine (Moves.single (Move.replay inHand receipt held)).tail ?_
  have same : replayReceipt driver receipt = replayReceipt taken receipt := by
    cases inHand <;> rfl
  rw [same]
  exact Move.quiet _ _ _ _ _ _ rfl

theorem sealOpen_filled (drain : Driver → Driver) {chunk : OpenChunk} {first : PlacedSubmission}
    {rest : List PlacedSubmission} (opened : driver.openChunk = some chunk)
    (filled : chunk.placed = first :: rest) :
    driver.sealOpen drain =
      if driver.blobSink then
        match encodedChunkLen [driver.openFrame chunk first] with
        | .error error => driver.takeOpen.sealFailed drain driver.toActor chunk
            (chunkIdOf driver.nextChunk) error
        | .ok bytes => driver.takeOpen.sealDone driver.toActor chunk (chunkIdOf driver.nextChunk)
            bytes (.blobSink (driver.envelopeOf (chunkIdOf driver.nextChunk)
              (driver.openFrame chunk first)) chunk.placed chunk.encodedBytes false)
      else
        match sealSingleFrameChunk driver.sealHeader [driver.openFrame chunk first] with
        | .error error => driver.takeOpen.sealFailed drain driver.toActor chunk
            (chunkIdOf driver.nextChunk) error
        | .ok result => driver.takeOpen.sealDone driver.toActor chunk
            (chunkIdOf driver.nextChunk) result.bytes.length
            (.depthOne ⟨result, chunk.placed, chunk.encodedBytes, driver.now⟩) := by
  unfold Driver.sealOpen
  rw [opened]
  dsimp only
  split
  · rename_i empty
    rw [filled] at empty
    cases empty
  · rename_i head tail same
    cases filled.symm.trans same
    rfl

theorem sealOpen_moves (drain : Driver → Driver) (drains : ∀ before, Moves before (drain before))
    (driver : Driver) : Moves driver (driver.sealOpen drain) := by
  cases opened : driver.openChunk with
  | none =>
      rw [Driver.sealOpen, opened]
  | some chunk =>
      cases filled : chunk.placed with
      | nil =>
          have emptied := Move.sealNothing driver chunk opened filled
          rw [Driver.sealOpen, opened]
          dsimp only
          rw [filled]
          exact .single emptied
      | cons first rest =>
          have refused (error : ChunkError)
              (codec : driver.sealError (driver.openFrame chunk first) = some error) :
              Moves driver (driver.takeOpen.sealFailed drain driver.toActor chunk
                (chunkIdOf driver.nextChunk) error) :=
            (Moves.single (.sealRefused driver chunk first rest error opened filled codec)).trans
              (drains _)
          rw [sealOpen_filled drain opened filled]
          cases sink : driver.blobSink with
          | true =>
              rw [if_pos rfl]
              cases codec : encodedChunkLen [driver.openFrame chunk first] with
              | error error => exact refused error (by simp [Driver.sealError, sink, codec])
              | ok bytes =>
                  exact .single
                    (.sealEnvelope driver chunk first rest bytes opened filled sink codec)
          | false =>
              rw [if_neg Bool.false_ne_true]
              cases codec : sealSingleFrameChunk driver.sealHeader
                  [driver.openFrame chunk first] with
              | error error => exact refused error (by simp [Driver.sealError, sink, codec])
              | ok result =>
                  exact .single (.sealChunk driver chunk first rest result opened filled sink codec)

theorem clearAgeSleep_moves (driver : Driver) : Moves driver driver.clearAgeSleep :=
  .single (.quiet driver driver.now driver.ledger false none driver.metrics rfl)

theorem atTime_moves (driver : Driver) (now : Duration) : Moves driver (driver.atTime now) :=
  .single (.quiet driver now driver.ledger driver.ageSleep driver.ageSleepDeadline driver.metrics
    rfl)

theorem admit_moves (drain : Driver → Driver) (drains : ∀ before, Moves before (drain before))
    (inHand : Taken driver submission ticket taken) :
    Moves driver (taken.admitSubmission drain submission ticket) := by
  unfold Driver.admitSubmission
  cases decision : taken.decideAdmission submission with
  | error refusal => exact refuse_moves inHand refusal
  | ok admission =>
      have decided := inHand.decided (Actor.decideAdmission_eq_ok decision)
      cases admission with
      | replay receipt => exact replay_moves inHand receipt decided
      | joinOpen => exact .single (.joinOpen inHand decided)
      | joinPending => exact .single (.joinPending inHand decided.1 decided.2)
      | park encodedBytes => exact .single (.park inHand encodedBytes decided.1 decided.2.1)
      | place encodedBytes =>
          have placed := Moves.single
            (Move.place inHand encodedBytes decided.1 decided.2.1 decided.2.2)
          dsimp only [Driver.admitReady]
          split
          · exact (placed.trans (clearAgeSleep_moves _)).trans (sealOpen_moves drain drains _)
          · exact placed

theorem drainFor_moves (fuel : Nat) (driver : Driver) : Moves driver (driver.drainFor fuel) := by
  induction fuel generalizing driver with
  | zero => exact ReflTransGen.refl
  | succ fuel ih =>
      unfold Driver.drainFor
      cases queue : driver.blocked with
      | nil => exact ReflTransGen.refl
      | cons parked rest =>
          have inHand : Taken driver parked.submission parked.ticket
              { driver with blocked := rest } :=
            .parked parked rest queue
          dsimp only
          split
          · exact (Moves.single (.refuse inHand .poisoned)).trans (ih _)
          · split
            · exact ReflTransGen.refl
            · exact (admit_moves (Driver.drainFor fuel) ih inHand).trans (ih _)

theorem drainBlocked_moves (driver : Driver) : Moves driver driver.drainBlocked :=
  drainFor_moves _ driver

theorem appendDepthOne_pending {work : SealedWork} {pass : Pass}
    (pending : driver.pendingAppend = some (.depthOne work)) :
    driver.appendDepthOne pass =
      let outcome := (driver.takePending work.chunk.chunkId).appendSealed work.chunk pass.put
        pass.kernel
      ((outcome.2.record (.append driver.toActor work outcome.1)).atTime
        pass.settled).finishDepthOneAppend work outcome.1 := by
  unfold Driver.appendDepthOne
  rw [pending]
  rfl

/-- The append of the pending work commits it, and parked submissions follow, or it poisons the
driver. -/
theorem appendDepthOne_cases {driver : Driver} {work : SealedWork}
    (pending : driver.pendingAppend = some (.depthOne work)) (pass : Pass) :
    (∃ ack writer store puts ledger metrics, driver.Appends work (.ok ack) writer store puts ∧
      metrics.reservedBytes = driver.openBytes ∧
      driver.appendDepthOne pass =
        ((driver.answered work (.ok ack) writer store puts pass.settled).committed work.placed
          work.chunk.chunkId ack ledger metrics).drainBlocked) ∨
    ∃ error writer store puts ledger metrics ageSleep ageSleepDeadline,
      driver.Appends work (.error error) writer store puts ∧ metrics.reservedBytes = 0 ∧
      driver.appendDepthOne pass =
        (driver.answered work (.error error) writer store puts pass.settled).poisonedBy work
          ledger metrics ageSleep ageSleepDeadline := by
  rw [appendDepthOne_pending pending]
  cases outcome : (driver.takePending work.chunk.chunkId).appendSealed work.chunk pass.put
      pass.kernel with
  | mk result appended =>
      obtain ⟨writer, store, puts, rfl, stored⟩ := (Driver.appendSealed_appended outcome).eq
      cases result with
      | ok ack =>
          obtain ⟨ledger, metrics, same, published⟩ := Driver.commitPlaced_eq
            (driver.answered work (.ok ack) writer store puts pass.settled) work.placed
            work.chunk.chunkId ack
          exact .inl ⟨ack, writer, store, puts, ledger, metrics, ⟨⟨_, _, outcome⟩, stored⟩,
            published, congrArg Driver.drainBlocked same⟩
      | error error =>
          obtain ⟨ledger, metrics, ageSleep, ageSleepDeadline, same, published⟩ := Driver.poison_eq
            (driver.answered work (.error error) writer store puts pass.settled) work
          exact .inr ⟨error, writer, store, puts, ledger, metrics, ageSleep, ageSleepDeadline,
            ⟨⟨_, _, outcome⟩, stored⟩, published, same⟩

theorem appendDepthOne_moves (driver : Driver) (pass : Pass) :
    Moves driver (driver.appendDepthOne pass) := by
  cases held : driver.pendingAppend with
  | none =>
      rw [Driver.appendDepthOne, held]
  | some work =>
      cases work with
      | blobSink envelope placed encodedBytes enqueued => rw [Driver.appendDepthOne, held]
      | depthOne work =>
          rcases appendDepthOne_cases held pass with
            ⟨ack, _, _, _, _, _, appends, published, same⟩ |
            ⟨error, _, _, _, _, _, _, _, appends, published, same⟩
          · rw [same]
            exact (Moves.single (.commit driver work ack held appends published)).trans
              (drainBlocked_moves _)
          · rw [same]
            exact .single (.fail driver work error held appends published)

theorem tryEnqueueBlobSink_moves (driver : Driver) (reply : SinkReply) :
    Moves driver (driver.tryEnqueueBlobSink reply) := by
  unfold Driver.tryEnqueueBlobSink
  split
  · rename_i envelope placed encodedBytes pending
    have noted : Moves driver (driver.event (.appendIssued envelope.chunkId)) :=
      .single (.quiet _ _ _ _ _ _ rfl)
    dsimp only
    split
    · exact noted.tail (.exit _)
    · cases reply with
      | ok => exact noted.tail (.enqueue _ envelope placed encodedBytes pending)
      | bufferFull => exact noted
      | failed message =>
          exact (noted.tail (.enqueueFailed _ envelope placed encodedBytes message pending)).tail
            (.quiet _ _ _ _ _ _ rfl)
  · exact ReflTransGen.refl

theorem refreshAgeSleep_moves (driver : Driver) : Moves driver driver.refreshAgeSleep := by
  unfold Driver.refreshAgeSleep
  dsimp only
  split <;> exact .single (.quiet _ _ _ _ _ _ rfl)

/-- Sealing on a flush or at the end. -/
theorem sealIfOpen_moves (driver : Driver) :
    Moves driver (if driver.openChunk.isSome then driver.clearAgeSleep.sealOpen Driver.drainBlocked
      else driver) := by
  split
  · exact (clearAgeSleep_moves _).trans (sealOpen_moves _ drainBlocked_moves _)
  · exact ReflTransGen.refl

theorem close_moves (driver : Driver) (pass : Pass) : Moves driver (driver.close pass) := by
  have noted := (Moves.single (Move.close driver)).trans (clearAgeSleep_moves _)
  refine (((noted.trans ?_).trans (appendDepthOne_moves _ pass)).tail
    (.refuseParked _ .unavailable)).tail (.exit _)
  split
  · exact sealOpen_moves _ drainBlocked_moves _
  · exact ReflTransGen.refl

end simulation

/-- Commands of producers and operators, not of the sink. -/
def Command.Plain : Command → Prop
  | .submit _ => True
  | .flush _ => True
  | _ => False

/-- A pass in which the sink asks nothing of the driver. -/
def Pass.Plain (pass : Pass) : Prop := ∀ command, pass.arrival = .command command → command.Plain

section passes

variable [Digests] {relation : Driver → Driver → Prop}

theorem rejectCommand_moves (driver : Driver) (command : Command) (error : DriverError) :
    Moves driver (driver.rejectCommand command error) := by
  cases command with
  | submit submission => exact .single (.refuse (Taken.offered submission) error)
  | _ => exact .single (.say _ _ trivial)

/-- Whatever the handling of its command is made of, the rest of a select is made of moves. -/
theorem await_related (own : ∀ before after, Move before after → relation before after)
    (driver : Driver) (pass : Pass)
    (handled : ∀ command, pass.arrival = .command command → ∀ before,
      ReflTransGen relation before (before.handleCommand command pass)) :
    ReflTransGen relation driver (driver.await pass) := by
  have lift {before after : Driver} (moves : Moves before after) :
      ReflTransGen relation before after := ReflTransGen.mono own _ _ moves
  have refreshed := lift (refreshAgeSleep_moves driver)
  unfold Driver.await
  dsimp only
  cases arrived : pass.arrival with
  | command command =>
      exact (refreshed.trans (lift (atTime_moves _ pass.woken))).trans
        (handled command arrived _)
  | elapsed =>
      dsimp only
      split
      · have slept := refreshed.tail (own _ _ (Move.quiet driver.refreshAgeSleep pass.woken
          driver.refreshAgeSleep.ledger false none _ rfl))
        split
        · exact slept.trans (lift (sealOpen_moves _ drainBlocked_moves _))
        · exact slept
      · exact refreshed
  | closed => exact refreshed.trans (lift ((atTime_moves _ pass.woken).trans (close_moves _ pass)))

theorem iterate_related (own : ∀ before after, Move before after → relation before after)
    (driver : Driver) (pass : Pass)
    (handled : ∀ command, pass.arrival = .command command → ∀ before,
      ReflTransGen relation before (before.handleCommand command pass)) :
    ReflTransGen relation driver (driver.iterate pass) := by
  have lift {before after : Driver} (moves : Moves before after) :
      ReflTransGen relation before after := ReflTransGen.mono own _ _ moves
  unfold Driver.iterate
  split
  · exact ReflTransGen.refl
  · have started := atTime_moves driver pass.started
    dsimp only
    split
    · have refused := started.tail (Move.refuseParked _ .poisoned)
      cases pass.arrival with
      | command command => exact lift (refused.trans (rejectCommand_moves _ command .poisoned))
      | elapsed => exact lift refused
      | closed => exact lift (refused.tail (.exit _))
    · split
      · exact lift (started.trans (appendDepthOne_moves _ pass))
      · exact lift ((started.trans (tryEnqueueBlobSink_moves _ pass.sink)).trans
          (atTime_moves _ pass.settled))
      · split
        · exact lift ((started.trans (clearAgeSleep_moves _)).trans
            (sealOpen_moves _ drainBlocked_moves _))
        · exact (lift started).trans (await_related own _ pass handled)

/-- What every step of every pass preserves holds after every run. -/
theorem run_related {property : Driver → Prop}
    (preserved : ∀ before after, relation before after → property before → property after)
    {driver : Driver} (initial : property driver) (passes : List Pass)
    (related : ∀ pass ∈ passes, ∀ before, ReflTransGen relation before (before.iterate pass)) :
    property (driver.run passes) := by
  induction passes generalizing driver with
  | nil => exact initial
  | cons pass rest ih =>
      have along {final : Driver} (steps : ReflTransGen relation driver final) :
          property final := by
        induction steps with
        | refl => exact initial
        | tail _ step ih => exact preserved _ _ step ih
      exact ih (along (related pass (by simp) driver))
        fun other member => related other (List.mem_cons_of_mem _ member)

end passes

section runs

variable [Digests]

theorem handleCommand_moves (driver : Driver) (command : Command) (pass : Pass)
    (plain : command.Plain) : Moves driver (driver.handleCommand command pass) := by
  cases command with
  | submit submission =>
      exact admit_moves _ drainBlocked_moves (Taken.offered submission)
  | flush responder =>
      unfold Driver.handleCommand
      dsimp only
      split
      · exact .single (.say _ _ trivial)
      · exact ((sealIfOpen_moves driver).trans (appendDepthOne_moves _ pass)).tail
          (.say _ _ trivial)
  | blobSinkSeal => exact absurd plain id
  | blobSinkAppendRefs => exact absurd plain id
  | blobSinkCommitted => exact absurd plain id

theorem iterate_moves (driver : Driver) (pass : Pass) (plain : pass.Plain) :
    Moves driver (driver.iterate pass) :=
  iterate_related (fun _ _ => id) driver pass
    fun command arrived before => handleCommand_moves before command pass (plain command arrived)

theorem run_invariant {property : Driver → Prop}
    (preserved : ∀ before after, Move before after → property before → property after)
    {driver : Driver} (initial : property driver) (passes : List Pass)
    (plain : ∀ pass ∈ passes, pass.Plain) : property (driver.run passes) :=
  run_related preserved initial passes
    fun pass member before => iterate_moves before pass (plain pass member)

/-- A step of a driver that a shared sink may talk to. -/
inductive Step (before after : Driver) : Prop where
  | own (move : Move before after)
  | sink (move : SinkMove before after)

/-- Any number of steps. -/
abbrev Steps : Driver → Driver → Prop := ReflTransGen Step

variable {before after : Driver}

theorem Moves.steps (moves : Moves before after) : Steps before after :=
  ReflTransGen.mono (fun _ _ => Step.own) _ _ moves

theorem finishBlobSinkCommitted_steps (driver : Driver) (chunkId : ChunkId)
    (ack : ChunkAppendAck) : Steps driver (driver.finishBlobSinkCommitted chunkId ack).2 := by
  unfold Driver.finishBlobSinkCommitted
  dsimp only
  split
  · rename_i envelope placed encodedBytes enqueued pending
    split
    · rename_i differs
      exact .single (.sink (.misreport driver chunkId ack fun same => absurd same differs))
    · rename_i same
      have named : ack.chunkId = chunkId := by simpa using same
      obtain ⟨ledger, metrics, shape, -⟩ := Driver.commitPlaced_eq
        ({ driver with pendingAppend := none }.record (.report driver.toActor chunkId ack))
        placed chunkId ack
      have reported := @SinkMove.report _ driver envelope placed encodedBytes enqueued chunkId ack
        ledger metrics pending named
      rw [← shape] at reported
      exact (ReflTransGen.single (Step.sink reported)).trans (drainBlocked_moves _).steps
  · rename_i idle
    exact .single (.sink (.misreport driver chunkId ack fun _ => idle))

theorem handleCommand_steps (driver : Driver) (command : Command) (pass : Pass) :
    Steps driver (driver.handleCommand command pass) := by
  cases command with
  | submit submission => exact (handleCommand_moves driver (.submit submission) pass trivial).steps
  | flush responder => exact (handleCommand_moves driver (.flush responder) pass trivial).steps
  | blobSinkSeal envelope responder => exact .single (.own (.say _ _ trivial))
  | blobSinkAppendRefs items responder =>
      obtain ⟨writer, log, same⟩ := driver.appendBlobSinkRefs_eq items pass.kernel
      have appended : Steps driver (driver.appendBlobSinkRefs items pass.kernel).2 :=
        .single (.sink (same ▸ .appendRefs driver items log))
      exact (appended.trans (atTime_moves _ pass.settled).steps).tail (.own (.say _ _ trivial))
  | blobSinkCommitted chunkId ack responder =>
      exact (finishBlobSinkCommitted_steps driver chunkId ack).tail (.own (.say _ _ trivial))

theorem iterate_steps (driver : Driver) (pass : Pass) : Steps driver (driver.iterate pass) :=
  iterate_related (fun _ _ => Step.own) driver pass
    fun command _ before => handleCommand_steps before command pass

theorem run_step_invariant {property : Driver → Prop}
    (preserved : ∀ before after, Step before after → property before → property after)
    {driver : Driver} (initial : property driver) (passes : List Pass) :
    property (driver.run passes) :=
  run_related preserved initial passes fun pass _ before => iterate_steps before pass

/-- What a driver was mounted with. -/
def Actor.config (actor : Actor) : DriverConfig :=
  ⟨actor.journalId, actor.cohortId, actor.writerId, actor.generation, actor.policy,
    actor.datarefBlobs, actor.blobSink, actor.blobVerseKey⟩

/-- Nothing that was done, sent or stored is taken back, and the driver stays what it was mounted
as. -/
structure Grown (before after : Driver) : Prop where
  history : before.history <+: after.history
  sent : before.sent <+: after.sent
  config : after.config = before.config
  store : before.store.Extends after.store

omit [Digests] in
theorem Grown.trans {middle : Driver} (first : Grown before middle) (second : Grown middle after) :
    Grown before after :=
  ⟨first.history.trans second.history, first.sent.trans second.sent,
    second.config.trans first.config, fun key blob held =>
      second.store key blob (first.store key blob held)⟩

theorem Move.grown (move : Move before after) : Grown before after := by
  cases move with
  | say => exact ⟨List.prefix_refl _, List.prefix_append _ _, rfl, .refl _⟩
  | refuse inHand =>
      cases inHand <;> exact ⟨List.prefix_refl _, List.prefix_append _ _, rfl, .refl _⟩
  | replay inHand =>
      cases inHand <;> exact ⟨List.prefix_refl _,
        (List.prefix_append _ _).trans (List.prefix_append _ _), rfl, .refl _⟩
  | joinOpen inHand =>
      cases inHand <;> exact ⟨List.prefix_refl _, List.prefix_append _ _, rfl, .refl _⟩
  | joinPending inHand =>
      cases inHand <;> exact ⟨List.prefix_refl _, List.prefix_append _ _, rfl, .refl _⟩
  | park inHand => cases inHand <;> exact ⟨List.prefix_refl _, List.prefix_refl _, rfl, .refl _⟩
  | place inHand =>
      cases inHand <;> exact ⟨List.prefix_append _ _, List.prefix_append _ _, rfl, .refl _⟩
  | sealRefused => exact ⟨List.prefix_append _ _, List.prefix_append _ _, rfl, .refl _⟩
  | sealChunk => exact ⟨List.prefix_append _ _, List.prefix_refl _, rfl, .refl _⟩
  | sealEnvelope => exact ⟨List.prefix_append _ _, List.prefix_refl _, rfl, .refl _⟩
  | commit work ack pending appends =>
      exact ⟨(List.prefix_append _ _).trans (List.prefix_append _ _), List.prefix_append _ _, rfl,
        appends.grown⟩
  | fail work error pending appends =>
      exact ⟨(List.prefix_append _ _).trans (List.prefix_append _ _),
        (List.prefix_append _ _).trans (List.prefix_append _ _), rfl, appends.grown⟩
  | enqueue => exact ⟨List.prefix_append _ _, List.prefix_refl _, rfl, .refl _⟩
  | enqueueFailed => exact ⟨List.prefix_refl _, List.prefix_append _ _, rfl, .refl _⟩
  | close => exact ⟨List.prefix_append _ _, List.prefix_refl _, rfl, .refl _⟩
  | refuseParked => exact ⟨List.prefix_refl _, List.prefix_append _ _, rfl, .refl _⟩
  | _ => exact ⟨List.prefix_refl _, List.prefix_refl _, rfl, .refl _⟩

theorem Moves.grown (moves : Moves before after) : Grown before after := by
  induction moves with
  | refl => exact ⟨List.prefix_refl _, List.prefix_refl _, rfl, .refl _⟩
  | tail _ move ih => exact ih.trans move.grown

theorem Step.grown (step : Step before after) : Grown before after := by
  cases step with
  | own move => exact move.grown
  | sink move =>
      cases move with
      | appendRefs => exact ⟨List.prefix_append _ _, List.prefix_refl _, rfl, .refl _⟩
      | misreport => exact ⟨List.prefix_append _ _, List.prefix_refl _, rfl, .refl _⟩
      | report => exact ⟨List.prefix_append _ _, List.prefix_append _ _, rfl, .refl _⟩

theorem run_config (driver : Driver) (passes : List Pass) :
    (driver.run passes).config = driver.config :=
  run_step_invariant (fun _ _ step held => step.grown.config.trans held) rfl passes

/-- What every step of a driver preserves, as long as its history meets a condition that shorter
histories inherit, holds after every run whose history meets it. -/
theorem run_step_invariant_of_history {condition : List Act → Prop} {property : Driver → Prop}
    (inherited : ∀ front back, condition (front ++ back) → condition front)
    (preserved : ∀ before after, Step before after → condition after.history →
      property before → property after)
    {driver : Driver} (initial : property driver) (passes : List Pass)
    (met : condition (driver.run passes).history) : property (driver.run passes) := by
  refine @run_step_invariant _ (fun state => condition state.history → property state) ?_ driver
    (fun _ => initial) passes met
  intro before after step held all
  obtain ⟨more, grown⟩ := step.grown.history
  exact preserved before after step all (held (inherited _ more (grown ▸ all)))

/-- What every step of a driver preserves, as long as its acts meet a condition, holds after every
run whose acts all meet it. -/
theorem run_step_invariant_of_acts {condition : Act → Prop} {property : Driver → Prop}
    (preserved : ∀ before after, Step before after → (∀ act ∈ after.history, condition act) →
      property before → property after)
    {driver : Driver} (initial : property driver) (passes : List Pass)
    (met : ∀ act ∈ (driver.run passes).history, condition act) : property (driver.run passes) :=
  @run_step_invariant_of_history _ (fun history => ∀ act ∈ history, condition act) property
    (fun _ _ all act member => all act (List.mem_append_left _ member)) preserved driver initial
    passes met

/-- The same for a driver without a sink. -/
theorem run_invariant_of_acts {condition : Act → Prop} {property : Driver → Prop}
    (preserved : ∀ before after, Move before after → (∀ act ∈ after.history, condition act) →
      property before → property after)
    {driver : Driver} (initial : property driver) (passes : List Pass)
    (plain : ∀ pass ∈ passes, pass.Plain)
    (met : ∀ act ∈ (driver.run passes).history, condition act) : property (driver.run passes) := by
  refine @run_invariant _
    (fun state => (∀ act ∈ state.history, condition act) → property state) ?_ driver
    (fun _ => initial) passes plain met
  intro before after move held all
  exact preserved before after move all
    (held fun act member => all act (move.grown.history.subset member))

end runs

/-- A driver without a sink holds nothing for one, and a poisoned driver holds nothing at all. -/
structure DepthOne (driver : Driver) : Prop where
  mode : driver.blobSink = false
  works : ∀ pending, driver.pendingAppend = some pending → ∃ work, pending = .depthOne work
  dead : driver.poisoned = true → driver.openChunk = none ∧ driver.pendingAppend = none

theorem DepthOne.alive_of_open {driver : Driver} (held : DepthOne driver) {chunk : OpenChunk}
    (opened : driver.openChunk = some chunk) : driver.poisoned = false := by
  by_contra poisoned
  have closed := (held.dead (by simpa using poisoned)).1
  rw [opened] at closed
  cases closed

theorem DepthOne.alive_of_pending {driver : Driver} (held : DepthOne driver)
    {pending : PendingAppend} (waits : driver.pendingAppend = some pending) :
    driver.poisoned = false := by
  by_contra poisoned
  have idle := (held.dead (by simpa using poisoned)).2
  rw [waits] at idle
  cases idle

/-- The driver is not poisoned, and what it has pending is a sealed chunk. -/
theorem DepthOne.of_alive {before after : Driver} (held : DepthOne before)
    (mode : after.blobSink = before.blobSink) (alive : after.poisoned = false)
    (works : ∀ pending, after.pendingAppend = some pending →
      before.pendingAppend = some pending ∨ ∃ work, pending = .depthOne work) : DepthOne after where
  mode := mode.trans held.mode
  works := fun pending present => (works pending present).elim (held.works pending) id
  dead := fun poisoned => by rw [alive] at poisoned; cases poisoned

theorem Taken.depthOne {driver taken : Driver} {submission : Submission} {ticket : Nat}
    (inHand : Taken driver submission ticket taken) (held : DepthOne driver) : DepthOne taken := by
  cases inHand <;> exact ⟨held.mode, held.works, held.dead⟩

theorem depthOne_move [Digests] {before after : Driver} (move : Move before after)
    (held : DepthOne before) : DepthOne after := by
  cases move with
  | refuse inHand => cases inHand <;> exact ⟨held.mode, held.works, held.dead⟩
  | replay inHand => cases inHand <;> exact ⟨held.mode, held.works, held.dead⟩
  | park inHand => cases inHand <;> exact ⟨held.mode, held.works, held.dead⟩
  | joinOpen inHand =>
      have taken := inHand.depthOne held
      refine ⟨taken.mode, taken.works, fun poisoned => ?_⟩
      obtain ⟨closed, idle⟩ := taken.dead poisoned
      exact ⟨Option.map_eq_none_iff.mpr closed, idle⟩
  | joinPending inHand =>
      have taken := inHand.depthOne held
      refine ⟨taken.mode, ?_, fun poisoned => ?_⟩
      · intro pending present
        obtain ⟨old, waits, rfl⟩ := Option.map_eq_some_iff.mp present
        obtain ⟨work, rfl⟩ := taken.works old waits
        exact ⟨_, rfl⟩
      · obtain ⟨closed, idle⟩ := taken.dead poisoned
        exact ⟨closed, Option.map_eq_none_iff.mpr idle⟩
  | place inHand encodedBytes sized =>
      have alive := sized.alive
      cases inHand <;> exact held.of_alive rfl alive fun _ => Or.inl
  | sealNothing chunk opened => exact held.of_alive rfl (held.alive_of_open opened) fun _ => Or.inl
  | sealRefused chunk first rest error opened =>
      exact held.of_alive rfl (held.alive_of_open opened) fun _ => Or.inl
  | sealChunk chunk first rest result opened =>
      refine held.of_alive rfl (held.alive_of_open opened) ?_
      rintro pending ⟨⟩
      exact Or.inr ⟨_, rfl⟩
  | sealEnvelope chunk first rest bytes opened filled sink =>
      rw [held.mode] at sink
      cases sink
  | commit work ack pending =>
      have alive := held.alive_of_pending pending
      refine held.of_alive rfl alive ?_
      rintro pending ⟨⟩
  | fail work error pending => exact ⟨held.mode, by rintro pending ⟨⟩, fun _ => ⟨rfl, rfl⟩⟩
  | enqueue envelope placed encodedBytes pending =>
      obtain ⟨work, wrong⟩ := held.works _ pending
      cases wrong
  | enqueueFailed envelope placed encodedBytes message pending =>
      obtain ⟨work, wrong⟩ := held.works _ pending
      cases wrong
  | _ => exact ⟨held.mode, held.works, held.dead⟩

theorem Moves.depthOne [Digests] {before after : Driver} (moves : Moves before after)
    (held : DepthOne before) : DepthOne after := by
  induction moves with
  | refl => exact held
  | tail _ move ih => exact depthOne_move move ih

end Scripture
