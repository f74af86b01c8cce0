import Scripture.Driver.Receipts

set_option autoImplicit false

/- Receipts of a driver with a shared sink. The sink reports a commit with a chunk id and an
acknowledgement; the driver releases the waiters of whatever envelope is pending then, and compares
the id with the acknowledgement only. A seal replaces a pending envelope, so the report about the
replaced one releases the waiters of the wrong chunk. As long as nothing is sealed over a pending
envelope, an envelope that the sink took is the pending one until it is reported. -/
namespace Scripture

open ByteFormat

/-- The frame an envelope is sealed with. -/
def PendingBlobEnvelope.frame (envelope : PendingBlobEnvelope) : Frame :=
  ⟨envelope.journalId, envelope.baseOffset, envelope.records, envelope.submissions⟩

/-- The acknowledgement of a reported commit is that of an append which put a chunk with the
reported id in the log; if the pending envelope has that id, the chunk was sealed from it. -/
def Act.Truthful [Digests] (store : BlobStore) : Act → Prop
  | .report before chunkId ack => ∃ header frame chunk, header.chunkId = chunkId ∧
      SealedFrom header frame chunk ∧ BytesAt before.writer.log store ack.slot chunk.bytes ∧
      ∀ envelope placed encodedBytes enqueued,
        before.pendingAppend = some (.blobSink envelope placed encodedBytes enqueued) →
        envelope.chunkId = chunkId → frame = envelope.frame
  | _ => True

/-- The envelopes the sink took, in order. -/
def enqueuedChunks (history : List Act) : List ChunkId :=
  history.filterMap fun
    | .enqueue _ envelope => some envelope.chunkId
    | _ => none

/-- The chunks whose commit the sink reported, in order. -/
def reportedChunks (history : List Act) : List ChunkId :=
  history.filterMap fun
    | .report _ chunkId _ => some chunkId
    | _ => none

/-- The sink reports what it took, each envelope at most once, with an acknowledgement of that
chunk. -/
def ReportsTaken (history : List Act) : Prop :=
  ∀ front before chunkId ack back, history = front ++ .report before chunkId ack :: back →
    ack.chunkId = chunkId ∧ (reportedChunks front ++ [chunkId]).Subperm (enqueuedChunks front)

theorem ReportsTaken.inherited (front back : List Act) (all : ReportsTaken (front ++ back)) :
    ReportsTaken front := by
  intro head before chunkId ack tail split
  refine all head before chunkId ack (tail ++ back) ?_
  rw [split, List.append_assoc, List.cons_append]

def PendingAppend.enqueuedIds : PendingAppend → List ChunkId
  | .blobSink envelope _ _ true => [envelope.chunkId]
  | _ => []

/-- The pending envelope, once the sink has taken it. -/
def Actor.enqueuedPending (actor : Actor) : List ChunkId :=
  (actor.pendingAppend.map PendingAppend.enqueuedIds).getD []

theorem PendingAppend.join_enqueuedIds (identity : Identity) (ticket : Nat)
    (pending : PendingAppend) :
    (pending.join identity ticket).enqueuedIds = pending.enqueuedIds := by
  cases pending with
  | depthOne => rfl
  | blobSink envelope placed encodedBytes enqueued => cases enqueued <;> rfl

/-- Every envelope that the sink took is reported or pending. -/
def Handed (driver : Driver) : Prop :=
  enqueuedChunks driver.history = reportedChunks driver.history ++ driver.enqueuedPending

theorem enqueuedChunks_append (left right : List Act) :
    enqueuedChunks (left ++ right) = enqueuedChunks left ++ enqueuedChunks right :=
  List.filterMap_append

theorem reportedChunks_append (left right : List Act) :
    reportedChunks (left ++ right) = reportedChunks left ++ reportedChunks right :=
  List.filterMap_append

/-- An act that is neither an enqueue nor a report changes nothing. -/
theorem Handed.of_same {before after : Driver} (handed : Handed before) {acts : List Act}
    (history : after.history = before.history ++ acts) (enqueues : enqueuedChunks acts = [])
    (reports : reportedChunks acts = [])
    (pending : after.enqueuedPending = before.enqueuedPending) : Handed after := by
  unfold Handed
  rw [history, enqueuedChunks_append, reportedChunks_append, enqueues, reports, List.append_nil,
    List.append_nil, pending]
  exact handed

/-- A report is about the pending envelope. -/
theorem Handed.matched {driver : Driver} (handed : Handed driver) {chunkId : ChunkId}
    (taken : (reportedChunks driver.history ++ [chunkId]).Subperm (enqueuedChunks driver.history)) :
    driver.enqueuedPending = [chunkId] := by
  rw [handed, List.subperm_append_left, List.singleton_subperm_iff] at taken
  unfold Actor.enqueuedPending at taken ⊢
  cases held : driver.pendingAppend with
  | none => simp [held] at taken
  | some pending =>
      rw [held] at taken
      cases pending with
      | depthOne => cases taken
      | blobSink envelope placed encodedBytes enqueued =>
          cases enqueued with
          | false => cases taken
          | true => rw [List.mem_singleton.mp taken]; rfl

/-- A driver with a sink never seals a chunk itself and never puts an object. -/
structure Enveloped [Digests] (held : BlobStore) (driver : Driver) : Prop where
  sink : driver.blobSink = true
  pending : ∀ work, driver.pendingAppend ≠ some (.depthOne work)
  store : driver.store = held
  puts : NoCollision driver.history

section steps

variable [Digests] {held store : BlobStore}

variable {before after : Driver}

theorem Enveloped.of_same (enveloped : Enveloped held before)
    (sink : after.blobSink = before.blobSink) (stored : after.store = before.store)
    (pending : ∀ work, after.pendingAppend = some (.depthOne work) →
      ∃ other, before.pendingAppend = some (.depthOne other))
    (history : ∀ act ∈ after.history, act ∈ before.history ∨ act.CollisionFree) :
    Enveloped held after where
  sink := sink.trans enveloped.sink
  pending := by
    intro work present
    obtain ⟨other, old⟩ := pending work present
    exact enveloped.pending other old
  store := stored.trans enveloped.store
  puts := fun act member => (history act member).elim (enveloped.puts act) id

theorem Taken.enveloped {driver taken : Driver} {submission : Submission} {ticket : Nat}
    (inHand : Taken driver submission ticket taken) (enveloped : Enveloped held driver) :
    Enveloped held taken := by
  cases inHand <;> exact enveloped.of_same rfl rfl (fun work old => ⟨work, old⟩) fun _ => Or.inl

theorem enveloped_move (move : Move before after) (enveloped : Enveloped held before) :
    Enveloped held after := by
  have noted (act : Act) (free : act.CollisionFree) :
      ∀ other ∈ before.history ++ [act], other ∈ before.history ∨ other.CollisionFree :=
    acts_append [act] (by simpa using free)
  cases move with
  | quiet => exact enveloped.of_same rfl rfl (fun work old => ⟨work, old⟩) fun _ => Or.inl
  | say => exact enveloped.of_same rfl rfl (fun work old => ⟨work, old⟩) fun _ => Or.inl
  | refuse inHand =>
      exact (inHand.enveloped enveloped).of_same rfl rfl (fun work old => ⟨work, old⟩)
        fun _ => Or.inl
  | replay inHand =>
      exact (inHand.enveloped enveloped).of_same rfl rfl (fun work old => ⟨work, old⟩)
        fun _ => Or.inl
  | joinOpen inHand =>
      exact (inHand.enveloped enveloped).of_same rfl rfl (fun work old => ⟨work, old⟩)
        fun _ => Or.inl
  | @joinPending taken submission ticket inHand =>
      refine (inHand.enveloped enveloped).of_same rfl rfl ?_ fun _ => Or.inl
      intro work present
      obtain ⟨old, before, joined⟩ := Option.map_eq_some_iff.mp present
      cases old with
      | depthOne other => exact ⟨other, before⟩
      | blobSink => cases joined
  | park inHand =>
      exact (inHand.enveloped enveloped).of_same rfl rfl (fun work old => ⟨work, old⟩)
        fun _ => Or.inl
  | @place taken submission ticket inHand encodedBytes sized fresh room =>
      refine (inHand.enveloped enveloped).of_same rfl rfl (fun work old => ⟨work, old⟩) ?_
      exact acts_append _ (by simp [Act.CollisionFree])
  | sealNothing => exact enveloped.of_same rfl rfl (fun work old => ⟨work, old⟩) fun _ => Or.inl
  | sealRefused chunk first rest error =>
      exact enveloped.of_same rfl rfl (fun work old => ⟨work, old⟩)
        (noted (.sealOpen before.toActor (chunkIdOf before.nextChunk) (.error error)) trivial)
  | sealChunk chunk first rest result opened filled depthOne success =>
      rw [enveloped.sink] at depthOne
      cases depthOne
  | sealEnvelope chunk first rest bytes =>
      refine enveloped.of_same rfl rfl ?_
        (noted (.sealOpen before.toActor (chunkIdOf before.nextChunk) (.ok bytes)) trivial)
      rintro work ⟨⟩
  | commit work ack pending => exact absurd pending (enveloped.pending work)
  | fail work error pending => exact absurd pending (enveloped.pending work)
  | enqueue envelope =>
      refine enveloped.of_same rfl rfl ?_ (noted (.enqueue before.toActor envelope) trivial)
      rintro work ⟨⟩
  | enqueueFailed =>
      refine enveloped.of_same rfl rfl ?_ fun _ => Or.inl
      rintro work ⟨⟩
  | close =>
      exact enveloped.of_same rfl rfl (fun work old => ⟨work, old⟩)
        (noted (.close before.toActor) trivial)
  | refuseParked => exact enveloped.of_same rfl rfl (fun work old => ⟨work, old⟩) fun _ => Or.inl
  | exit => exact enveloped.of_same rfl rfl (fun work old => ⟨work, old⟩) fun _ => Or.inl

theorem enveloped_sinkMove (move : SinkMove before after) (enveloped : Enveloped held before) :
    Enveloped held after := by
  cases move with
  | appendRefs =>
      exact enveloped.of_same rfl rfl (fun work old => ⟨work, old⟩)
        (acts_append [_] (by simp [Act.CollisionFree]))
  | misreport =>
      refine enveloped.of_same rfl rfl ?_ (acts_append [_] (by simp [Act.CollisionFree]))
      rintro work ⟨⟩
  | report =>
      refine enveloped.of_same rfl rfl ?_ (acts_append _ (by simp [Act.CollisionFree]))
      rintro work ⟨⟩

theorem handed_move (move : Move before after) (free : ∀ act ∈ after.history, act.SealsFree)
    (enveloped : Enveloped held before) (handed : Handed before) : Handed after := by
  have nothing : before.history = before.history ++ [] := (List.append_nil _).symm
  cases move with
  | refuse inHand => cases inHand <;> exact handed.of_same nothing rfl rfl rfl
  | replay inHand => cases inHand <;> exact handed.of_same nothing rfl rfl rfl
  | joinOpen inHand => cases inHand <;> exact handed.of_same nothing rfl rfl rfl
  | @joinPending taken submission ticket inHand =>
      have same : (taken.joinPending submission ticket).enqueuedPending =
          taken.enqueuedPending := by
        show ((taken.pendingAppend.map _).map PendingAppend.enqueuedIds).getD [] = _
        rw [Option.map_map]
        exact congrArg (fun ids => (taken.pendingAppend.map ids).getD [])
          (funext (PendingAppend.join_enqueuedIds submission.identity ticket))
      cases inHand <;> exact handed.of_same nothing rfl rfl same
  | park inHand => cases inHand <;> exact handed.of_same nothing rfl rfl rfl
  | place inHand => cases inHand <;> exact handed.of_same rfl rfl rfl rfl
  | sealRefused chunk first rest error =>
      exact handed.of_same rfl rfl rfl rfl
  | sealChunk chunk first rest result opened filled depthOne success =>
      rw [enveloped.sink] at depthOne
      cases depthOne
  | sealEnvelope chunk first rest bytes =>
      have idle : before.pendingAppend = none :=
        free (.sealOpen before.toActor (chunkIdOf before.nextChunk) (.ok bytes))
          (List.mem_append_right _ (List.mem_singleton_self _))
      refine handed.of_same rfl rfl rfl ?_
      rw [Actor.enqueuedPending, Actor.enqueuedPending, idle]
      rfl
  | commit work ack pending => exact absurd pending (enveloped.pending work)
  | fail work error pending => exact absurd pending (enveloped.pending work)
  | enqueue envelope placed encodedBytes pending =>
      have none : before.enqueuedPending = [] := by rw [Actor.enqueuedPending, pending]; rfl
      unfold Handed at handed
      rw [none, List.append_nil] at handed
      show enqueuedChunks (before.history ++ [_]) = reportedChunks (before.history ++ [_]) ++ _
      rw [enqueuedChunks_append, reportedChunks_append, handed]
      simp [enqueuedChunks, reportedChunks, Actor.enqueuedPending, PendingAppend.enqueuedIds,
        Driver.record]
  | enqueueFailed envelope placed encodedBytes message pending =>
      have none : before.enqueuedPending = [] := by rw [Actor.enqueuedPending, pending]; rfl
      exact handed.of_same nothing rfl rfl none.symm
  | close => exact handed.of_same rfl rfl rfl rfl
  | _ => exact handed.of_same nothing rfl rfl rfl

theorem handed_sinkMove (move : SinkMove before after) (reports : ReportsTaken after.history)
    (handed : Handed before) : Handed after := by
  have cleared {chunkId : ChunkId} {ack : ChunkAppendAck}
      (taken : (reportedChunks before.history ++ [chunkId]).Subperm
        (enqueuedChunks before.history)) :
      enqueuedChunks (before.history ++ [Act.report before.toActor chunkId ack]) =
        reportedChunks (before.history ++ [Act.report before.toActor chunkId ack]) ++ [] := by
    rw [enqueuedChunks_append, reportedChunks_append, handed, handed.matched taken]
    simp [enqueuedChunks, reportedChunks]
  cases move with
  | appendRefs => exact handed.of_same rfl rfl rfl rfl
  | misreport => exact cleared (reports _ _ _ _ [] rfl).2
  | report => exact cleared (reports _ _ _ _ [] rfl).2

/-- A report about the pending envelope releases true receipts. -/
theorem sound_sinkMove (move : SinkMove before after)
    (truthful : ∀ act ∈ after.history, act.Truthful store) (reports : ReportsTaken after.history)
    (handed : Handed before) (sound : Sound store before) : Sound store after := by
  have framed := framed_sinkMove move sound.toFramed
  have attended := attended_sinkMove move sound.toAttended
  cases move with
  | appendRefs items log => exact sound.of_less framed attended rfl log rfl rfl fun _ _ => id
  | misreport =>
      exact sound.of_less framed attended rfl ⟨[], (List.append_nil _).symm⟩ rfl rfl fun _ _ => id
  | report envelope placed encodedBytes enqueued chunkId ack pending named =>
      have items := pendingPlaced_of_some pending
      have dropped : before.openPlaced ++ [] ⊆ before.openPlaced ++ before.pendingPlaced :=
        List.append_subset.mpr ⟨List.subset_append_left _ _, List.nil_subset _⟩
      have ready : Sound store ({ before with pendingAppend := none }.record
          (.report before.toActor chunkId ack)) :=
        sound.of_less (sound.toFramed.of_idle (Or.inl rfl) rfl)
          (sound.toAttended.of_less rfl dropped (List.Subset.refl _)) rfl
          ⟨[], (List.append_nil _).symm⟩ rfl rfl fun _ _ => id
      have same : envelope.chunkId = chunkId := by
        have only := handed.matched (reports _ _ _ _ [] rfl).2
        rw [Actor.enqueuedPending, pending] at only
        cases enqueued with
        | true => exact List.singleton_inj.mp only
        | false => cases only
      obtain ⟨header, frame, chunk, headed, result, present, fromPending⟩ :=
        truthful _ (List.mem_append_right _ (List.mem_singleton_self _))
      have whole := fromPending envelope placed encodedBytes enqueued pending same
      obtain ⟨first, rest, filled, chained, owner, base, records, spans⟩ := sound.pending _ pending
      have sealedFrame : frame = frameOf before.journalId first.firstOffset placed := by
        rw [whole, PendingBlobEnvelope.frame, owner, base, records, spans]
        rfl
      subst sealedFrame
      refine ready.commit framed attended ?_ ?_ ?_
      · intro item member
        rw [← headed]
        exact stored_of_chunkAt ⟨chunk.bytes, present, result.decoded⟩ filled chained
          result.records result.offsets member
      · exact fun item member => lt_of_le_of_lt (placedRecords_item member) result.records
      · intro item member
        refine sound.waiting item (List.mem_append_right _ ?_)
        rw [items]
        exact member

/-- With a sink, every receipt names where the records of the submission are, as long as nothing is
sealed over a pending envelope. -/
theorem run_sink_receipts_sound {config : DriverConfig} {log : List Bytes} {bound : RecoveryBound}
    {policy : GenerationPolicy} {blobs : Option BlobStore} {writer : ChunkLogWriter}
    {recovered : List RecoveredChunk} {driver : Driver}
    (covers : Covers store blobs)
    (scanned : recoverFromLog config.journalId config.cohortId config.generation log bound policy
      blobs = .ok (writer, recovered))
    (mounted : Driver.new config writer recovered held = .ok driver)
    (sink : config.blobSink = true) (grown : held.Extends store) (passes : List Pass)
    (truthful : ∀ act ∈ (driver.run passes).history, act.Truthful store)
    (reports : ReportsTaken (driver.run passes).history)
    (free : ∀ act ∈ (driver.run passes).history, act.SealsFree) (ticket : Nat)
    (receipt : Receipt) (released : .receipt ticket (.ok receipt) ∈ (driver.run passes).sent) :
    ∃ submission, (driver.run passes).offered[ticket]? = some submission ∧
      receipt.Sound store (driver.run passes).writer.log config.journalId submission := by
  have start : Enveloped held driver ∧ Handed driver ∧ driver.journalId = config.journalId := by
    obtain ⟨dedup, admittedSeq, knownProducers, rfl⟩ := Driver.new_blank mounted
    exact ⟨⟨sink, by rintro work ⟨⟩, rfl, by rintro act ⟨⟩⟩, rfl, rfl⟩
  have inherited (front back : List Act)
      (all : (∀ act ∈ front ++ back, act.Truthful store ∧ act.SealsFree) ∧
        ReportsTaken (front ++ back)) :
      (∀ act ∈ front, act.Truthful store ∧ act.SealsFree) ∧ ReportsTaken front :=
    ⟨fun act member => all.1 act (List.mem_append_left _ member), all.2.inherited⟩
  have initial : Enveloped held driver ∧ Handed driver ∧ Sound store driver :=
    ⟨start.1, start.2.1, new_sound covers scanned mounted⟩
  have preserved (before after : Driver) (step : Step before after)
      (met : (∀ act ∈ after.history, act.Truthful store ∧ act.SealsFree) ∧
        ReportsTaken after.history)
      (state : Enveloped held before ∧ Handed before ∧ Sound store before) :
      Enveloped held after ∧ Handed after ∧ Sound store after := by
    obtain ⟨enveloped, handed, sound⟩ := state
    cases step with
    | own move =>
        have kept := enveloped_move move enveloped
        exact ⟨kept, handed_move move (fun act member => (met.1 act member).2) enveloped handed,
          sound_move move kept.puts (kept.store ▸ grown) sound⟩
    | sink move =>
        exact ⟨enveloped_sinkMove move enveloped, handed_sinkMove move met.2 handed,
          sound_sinkMove move (fun act member => (met.1 act member).1) met.2 handed sound⟩
  have met : (∀ act ∈ (driver.run passes).history, act.Truthful store ∧ act.SealsFree) ∧
      ReportsTaken (driver.run passes).history :=
    ⟨fun act member => ⟨truthful act member, free act member⟩, reports⟩
  obtain ⟨-, -, sound⟩ := @run_step_invariant_of_history _
    (fun history => (∀ act ∈ history, act.Truthful store ∧ act.SealsFree) ∧ ReportsTaken history)
    (fun state => Enveloped held state ∧ Handed state ∧ Sound store state) inherited preserved
    driver initial passes met
  have journal : (driver.run passes).journalId = config.journalId :=
    (congrArg DriverConfig.journalId (run_config driver passes)).trans start.2.2
  rw [← journal]
  exact sound.receipts ticket receipt released

end steps

/-- A driver with a sink over an empty log. -/
def sinkConfig : DriverConfig :=
  { smallConfig soloPolicy with blobSink := true, blobVerseKey := some "verse" }

def sinkDriver : Driver where
  toActor := sinkConfig.blank emptyWriter fun _ => none
  offered := []
  sent := []
  history := []
  exited := false

/-- The result that was sent for a ticket. -/
def Driver.released (driver : Driver) (ticket : Nat) : Option Receipt :=
  driver.sent.findSome? fun
    | .receipt other (.ok receipt) => if other = ticket then some receipt else none
    | _ => none

theorem Driver.released_mem {driver : Driver} {ticket : Nat} {receipt : Receipt}
    (found : driver.released ticket = some receipt) :
    .receipt ticket (.ok receipt) ∈ driver.sent := by
  obtain ⟨message, member, sent⟩ := List.exists_of_findSome?_eq_some found
  split at sent
  · split at sent
    · rename_i same
      cases sent
      rwa [← same]
    · cases sent
  · cases sent

/-- A pass in which no command arrives. -/
def elapsedPass : Pass := { commandPass (.flush 0) with arrival := .elapsed }

/-- The submission is received, and then its envelope is handed to the sink. -/
def handPasses (submission : Submission) : List Pass :=
  [commandPass (.submit submission), elapsedPass]

/-- The envelope of one record, placed at the writer's offset. -/
def soleEnvelope (submission : Submission) (counter : UInt64) : PendingBlobEnvelope where
  verseKey := "verse"
  chunkId := chunkIdOf counter
  baseOffset := .ofNat 0
  journalId := sinkConfig.journalId
  cohortId := sinkConfig.cohortId
  records := submission.records
  submissions := [⟨submission.producerId, submission.producerEpoch, submission.sequence, 0, 1⟩]

def firstHeader : ChunkHeader := ⟨chunkIdOf 0, sinkConfig.cohortId, 1, sinkConfig.writerId, 0⟩

/-- An object store with one chunk. -/
def blobHolding (chunk : SealedChunk) : BlobStore :=
  fun key => if key = "blob" then some chunk.bytes else none

def pointerAt [Digests] (chunk : SealedChunk) : DataRef where
  blobKey := "blob"
  offset := 0
  length := UInt64.ofNat chunk.bytes.length
  recordCount := 1
  chunkId := chunk.chunkId
  chunkDigest := chunk.digest
  blobDigest := ChunkDigest.of chunk.bytes

/-- The acknowledgement of the first append of one record. -/
def firstAck (chunk : SealedChunk) : ChunkAppendAck := ⟨0, chunk.chunkId, .ofNat 0, .ofNat 1, 1⟩

/-- The sink appends a pointer at the chunk and reports its commit. -/
def cutPasses [Digests] (chunk : SealedChunk) : List Pass :=
  [commandPass (.blobSinkAppendRefs [⟨chunk, pointerAt chunk⟩] 0),
    commandPass (.blobSinkCommitted chunk.chunkId (firstAck chunk) 0)]

/-- What was in the log and pending when a commit was reported. -/
def Act.reportSeen : Act → Option (ChunkId × ChunkAppendAck × List Bytes × Option PendingAppend)
  | .report before chunkId ack => some (chunkId, ack, before.writer.log, before.pendingAppend)
  | _ => none

instance : DecidablePred Act.SealsFree
  | .sealOpen before _ _ => inferInstanceAs (Decidable (before.pendingAppend = none))
  | .place .. | .put .. | .append .. | .enqueue .. | .appendRefs .. | .report .. | .close _ =>
      .isTrue trivial

section cut

variable {history : List Act}

theorem reportsTaken_of_none (none : reportedChunks history = []) : ReportsTaken history := by
  intro front before chunkId ack back split
  rw [split, reportedChunks_append] at none
  simp [reportedChunks] at none

/-- What holds of every act but a report holds of all acts without one. -/
theorem acts_of_none {fits : Act → Prop} (none : reportedChunks history = [])
    (other : ∀ act, reportedChunks [act] = [] → fits act) : ∀ act ∈ history, fits act := by
  intro act member
  obtain ⟨front, back, rfl⟩ := List.append_of_mem member
  refine other act ?_
  rw [List.append_cons, reportedChunks_append, reportedChunks_append] at none
  exact (List.append_eq_nil_iff.mp (List.append_eq_nil_iff.mp none).1).2

/-- One more report, of an envelope that is not yet reported. -/
theorem ReportsTaken.snoc (all : ReportsTaken history) {before : Actor} {chunkId : ChunkId}
    {ack : ChunkAppendAck} (named : ack.chunkId = chunkId)
    (taken : (reportedChunks history ++ [chunkId]).Subperm (enqueuedChunks history)) :
    ReportsTaken (history ++ [Act.report before chunkId ack]) := by
  intro front other otherId otherAck back split
  rcases List.eq_nil_or_concat back with rfl | ⟨rest, last, rfl⟩
  · obtain ⟨rfl, same⟩ := List.append_inj' split rfl
    cases same
    exact ⟨named, taken⟩
  · rw [List.concat_eq_append, ← List.cons_append, ← List.append_assoc] at split
    obtain ⟨whole, -⟩ := List.append_inj' split rfl
    exact all front other otherId otherAck rest whole


variable [Digests] {enqueued : List ChunkId} {envelope : PendingBlobEnvelope}
  {placed : PlacedSubmission} {ticket : Nat} {chunk : SealedChunk} {final : Driver}

/-- The commit of the chunk is reported last, after these envelopes were taken and while this one is
pending, and the ticket gets a receipt for it. -/
abbrev CutShown (enqueued : List ChunkId) (envelope : PendingBlobEnvelope)
    (placed : PlacedSubmission) (ticket : Nat) (chunk : SealedChunk) (final : Driver) : Prop :=
  reportedChunks final.history.dropLast = [] ∧ enqueuedChunks final.history.dropLast = enqueued ∧
    final.history.getLast?.bind Act.reportSeen = some (chunkIdOf 0, firstAck chunk,
      [dataRefBytes (pointerAt chunk)], some (.blobSink envelope [placed] 199 true)) ∧
    resolvePayload (some (blobHolding chunk)) (dataRefBytes (pointerAt chunk)) =
      .ok [chunk.bytes] ∧
    final.writer.log = [dataRefBytes (pointerAt chunk)] ∧
    (final.released ticket).map Receipt.slot = some 0

/-- The last act is the report. -/
theorem cutShown_lastReport (shown : CutShown enqueued envelope placed ticket chunk final) :
    ∃ before : Actor, final.history =
        final.history.dropLast ++ [.report before (chunkIdOf 0) (firstAck chunk)] ∧
      before.writer.log = [dataRefBytes (pointerAt chunk)] ∧
      before.pendingAppend = some (.blobSink envelope [placed] 199 true) := by
  obtain ⟨-, -, seen, -⟩ := shown
  obtain ⟨act, last, seen⟩ := Option.bind_eq_some_iff.mp seen
  cases act with
  | report before chunkId ack =>
      simp only [Act.reportSeen, Option.some.injEq, Prod.mk.injEq] at seen
      obtain ⟨rfl, rfl, log, pending⟩ := seen
      exact ⟨before, (List.dropLast_append_getLast? _ last).symm, log, pending⟩
  | _ => cases seen

/-- The passes, and then the commit of the chunk that the first envelope is sealed in. -/
def cutRun (passes : List Pass) : Except ChunkError (SealedChunk × Driver) := do
  let chunk ← sealSingleFrameChunk firstHeader
    [(soleEnvelope (submissionOf 1 0 1) 0).frame]
  return (chunk, sinkDriver.run (passes ++ cutPasses chunk))

/-- What a run shows whose only report is that of the first envelope's chunk. -/
theorem cutRun_shows {passes : List Pass} (ran : cutRun passes = .ok (chunk, final))
    (shown : CutShown enqueued envelope placed ticket chunk final)
    (member : chunkIdOf 0 ∈ enqueued)
    (same : envelope.chunkId = chunkIdOf 0 → envelope = soleEnvelope (submissionOf 1 0 1) 0) :
    final = sinkDriver.run (passes ++ cutPasses chunk) ∧
      decodeChunk chunk.bytes = .ok ⟨firstHeader, [(soleEnvelope (submissionOf 1 0 1) 0).frame]⟩ ∧
      (∀ act ∈ final.history, act.Truthful (blobHolding chunk)) ∧ ReportsTaken final.history ∧
      ∃ receipt, .receipt ticket (.ok receipt) ∈ final.sent ∧ receipt.slot = 0 := by
  obtain ⟨sealed, success, rest⟩ := bind_eq_ok.mp ran
  cases rest
  have result := sealSingleFrameChunk_eq_ok success
  obtain ⟨before, history, log, pending⟩ := cutShown_lastReport shown
  obtain ⟨unreported, taken, -, resolves, -, released⟩ := shown
  refine ⟨rfl, result.decoded, ?_, ?_, ?_⟩
  · intro act member
    rw [history] at member
    rcases List.mem_append.mp member with old | new
    · refine acts_of_none unreported ?_ act old
      rintro (_ | _ | _ | _ | _ | _ | _) unreported <;> trivial
    · rw [List.mem_singleton.mp new]
      refine ⟨firstHeader, _, chunk, rfl, result, ?_, ?_⟩
      · rw [log]
        exact ⟨_, _, rfl, resolves, List.mem_singleton_self _⟩
      · intro other otherPlaced encodedBytes queued held named
        cases held.symm.trans pending
        rw [same named]
  · rw [history]
    refine (reportsTaken_of_none unreported).snoc result.chunkId ?_
    rw [unreported, taken]
    exact List.singleton_subperm_iff.mpr member
  · obtain ⟨receipt, found, slot⟩ := Option.map_eq_some_iff.mp released
    exact ⟨receipt, Driver.released_mem found, slot⟩

end cut

/-- The commit of the first envelope is reported while it is pending, and its receipt is true. -/
theorem run_sink_receipts_sound_first : ∃ _ : Digests, ∃ passes store receipt submission,
    .receipt 0 (.ok receipt) ∈ (sinkDriver.run passes).sent ∧
      (sinkDriver.run passes).offered[0]? = some submission ∧
      receipt.Sound store (sinkDriver.run passes).writer.log sinkConfig.journalId submission := by
  let digests := valueDigests
  have facts : (cutRun (handPasses (submissionOf 1 0 1)) >>= fun (chunk, final) =>
      .ok (decide (CutShown [chunkIdOf 0] (soleEnvelope (submissionOf 1 0 1) 0)
        ⟨submissionOf 1 0 1, .ofNat 0, 199, [0]⟩ 0 chunk final ∧
        ∀ act ∈ final.history, act.SealsFree))) = .ok true := by
    decide +kernel
  obtain ⟨⟨chunk, final⟩, ran, values⟩ := bind_eq_ok.mp facts
  obtain ⟨shown, free⟩ := of_decide_eq_true (Except.ok.inj values)
  obtain ⟨rfl, -, truthful, reports, receipt, released, -⟩ :=
    cutRun_shows ran shown (List.mem_singleton_self _) fun _ => rfl
  have covers : Covers (blobHolding chunk) none := by rintro held ⟨⟩
  have grown : BlobStore.Extends (fun _ => none) (blobHolding chunk) := by rintro key blob ⟨⟩
  have mounted : Driver.new sinkConfig emptyWriter [] (fun _ => none) = .ok sinkDriver := rfl
  have scanned : recoverFromLog sinkConfig.journalId sinkConfig.cohortId sinkConfig.generation []
      soloPolicy.recoveryScan (.exact 1) none = .ok (emptyWriter, []) := rfl
  obtain ⟨submission, offered, sound⟩ := run_sink_receipts_sound covers scanned mounted rfl grown _
    truthful reports free 0 receipt released
  exact ⟨digests, _, _, receipt, submission, released, offered, sound⟩

/-- The report about the first envelope releases the waiter of the second one, with a receipt for a
chunk that does not hold its record. -/
theorem sink_receipts_fail : ∃ _ : Digests,
    Driver.new sinkConfig emptyWriter [] (fun _ => none) = .ok sinkDriver ∧
      ∃ passes store receipt submission,
        (∀ act ∈ (sinkDriver.run passes).history, act.Truthful store) ∧
          ReportsTaken (sinkDriver.run passes).history ∧
          .receipt 1 (.ok receipt) ∈ (sinkDriver.run passes).sent ∧
          (sinkDriver.run passes).offered[1]? = some submission ∧
          ¬ receipt.Sound store (sinkDriver.run passes).writer.log sinkConfig.journalId
            submission := by
  let digests := valueDigests
  have facts : (cutRun (handPasses (submissionOf 1 0 1) ++ handPasses (submissionOf 2 0 1)) >>=
      fun (chunk, final) => .ok (decide (CutShown [chunkIdOf 0, chunkIdOf 1]
        (soleEnvelope (submissionOf 2 0 1) 1) ⟨submissionOf 2 0 1, .ofNat 0, 199, [1]⟩
          1 chunk final ∧
        final.offered[1]? = some (submissionOf 2 0 1)))) = .ok true := by
    decide +kernel
  obtain ⟨⟨chunk, final⟩, ran, values⟩ := bind_eq_ok.mp facts
  obtain ⟨shown, offered⟩ := of_decide_eq_true (Except.ok.inj values)
  have resolves := shown.2.2.2.1
  have log := shown.2.2.2.2.1
  have other : chunkIdOf 1 ≠ chunkIdOf 0 := by decide
  obtain ⟨same, decoded, truthful, reports, receipt, released, slot⟩ :=
    cutRun_shows ran shown List.mem_cons_self fun named => absurd named other
  refine ⟨digests, rfl, handPasses (submissionOf 1 0 1) ++ handPasses (submissionOf 2 0 1) ++
    cutPasses chunk, blobHolding chunk, receipt, submissionOf 2 0 1, ?_⟩
  rw [← same]
  refine ⟨truthful, reports, released, offered, ?_⟩
  rintro ⟨-, slice, ⟨stored, frame, ⟨bytes, ⟨payload, sets, entry, found, member⟩, held⟩, -, -,
    ⟨span, listed, identity, -⟩, -⟩, -⟩
  rw [log, slot] at entry
  cases entry
  cases found.symm.trans resolves
  cases List.mem_singleton.mp member
  cases held.symm.trans decoded
  cases List.mem_singleton.mp listed
  exact absurd identity (by decide)

end Scripture
