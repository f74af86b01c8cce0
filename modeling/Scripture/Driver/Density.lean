import Scripture.Driver.Offsets

set_option autoImplicit false

/- Dense allocation without a sink. Admission starts an empty open chunk at the writer's offset and
does not look at a chunk that is sealed and not yet appended, and sealing takes the one pending slot
without looking whether it is free. Both go well as long as nothing is placed behind a pending
chunk; the drain of parked submissions after a commit does place one there. -/
namespace Scripture

open ByteFormat

/-- Nothing is sealed and not yet appended when the submission is placed, and its offset exists. -/
def Act.PlacedAlone : Act → Prop
  | .place before _ => before.pendingAppend = none ∧
      before.writer.nextOffset.toNat + (placedRecords before.openPlaced).length < 2 ^ 64
  | _ => True

/-- An admission continues the log, a seal finds the pending slot free, and an append starts where
the writer stands. -/
def Act.Dense [Digests] : Act → Prop
  | .place before placed => placed.firstOffset.toNat = before.writer.nextOffset.toNat +
      (placedRecords before.pendingPlaced).length + (placedRecords before.openPlaced).length
  | .sealOpen before _ _ => before.pendingAppend = none
  | .append before work result => before.pendingAppend = some (.depthOne work) ∧
      (∃ header frame, decodeIndex work.chunk.bytes = .ok ⟨header, [frame]⟩ ∧
        frame.baseOffset = before.writer.nextOffset) ∧
      ∀ expected actual, result ≠ .error (.offsetDiscontinuity expected actual)
  | _ => True

/-- The chunks that were sealed, in order. -/
def sealedChunks (history : List Act) : List ChunkId :=
  history.filterMap fun
    | .sealOpen _ chunkId (.ok _) => some chunkId
    | _ => none

/-- The chunks that were offered to an append, in order. -/
def offeredChunks (history : List Act) : List ChunkId :=
  history.filterMap fun
    | .append _ work _ => some work.chunk.chunkId
    | _ => none

def PendingAppend.chunkIds : PendingAppend → List ChunkId
  | .depthOne work => [work.chunk.chunkId]
  | .blobSink .. => []

/-- The chunk that waits for its append. -/
def Actor.pendingChunks (actor : Actor) : List ChunkId :=
  (actor.pendingAppend.map PendingAppend.chunkIds).getD []

theorem pendingChunks_core {left right : Actor}
    (same : left.pendingAppend.map PendingAppend.core =
      right.pendingAppend.map PendingAppend.core) :
    left.pendingChunks = right.pendingChunks := by
  have through (actor : Actor) : actor.pendingChunks =
      ((actor.pendingAppend.map PendingAppend.core).map PendingAppend.chunkIds).getD [] := by
    unfold Actor.pendingChunks
    cases actor.pendingAppend with
    | none => rfl
    | some held => cases held <;> rfl
  rw [through left, through right, same]

/-- At most one of the open and the pending chunk exists, and it starts at the writer's offset. -/
structure Dense [Digests] (driver : Driver) : Prop extends Framed driver, DepthOne driver where
  exclusive : driver.openChunk = none ∨ driver.pendingAppend = none
  openBase : ∀ first rest, driver.openPlaced = first :: rest →
    first.firstOffset = driver.writer.nextOffset
  pendingBase : ∀ first rest, driver.pendingPlaced = first :: rest →
    first.firstOffset = driver.writer.nextOffset
  balance : sealedChunks driver.history = offeredChunks driver.history ++ driver.pendingChunks
  acts : ∀ act ∈ driver.history, act.Dense

theorem firstOffset_core {left right : List PlacedSubmission} {base : RecordOffset}
    (same : left.map PlacedSubmission.core = right.map PlacedSubmission.core)
    (held : ∀ first rest, right = first :: rest → first.firstOffset = base) :
    ∀ first rest, left = first :: rest → first.firstOffset = base := by
  rintro first rest rfl
  obtain ⟨other, others, whole, core, -⟩ := List.map_eq_cons_iff.mp same.symm
  have offset : other.core.firstOffset = first.core.firstOffset :=
    congrArg PlacedSubmission.firstOffset core
  exact offset.symm.trans (held other others whole)

theorem sealedChunks_append (left right : List Act) :
    sealedChunks (left ++ right) = sealedChunks left ++ sealedChunks right :=
  List.filterMap_append

theorem offeredChunks_append (left right : List Act) :
    offeredChunks (left ++ right) = offeredChunks left ++ offeredChunks right :=
  List.filterMap_append

theorem puts_chunks {puts : List Act} {before : Actor} {bytes : Bytes}
    (stored : ∀ act ∈ puts, ∃ key, act = .put before key bytes) :
    sealedChunks puts = [] ∧ offeredChunks puts = [] := by
  constructor <;> refine List.filterMap_eq_nil_iff.mpr fun act member => ?_ <;>
    obtain ⟨key, rfl⟩ := stored act member <;> rfl

/-- An act that neither seals nor offers leaves the balance as it was. -/
theorem balance_append {history : List Act} {pending : List ChunkId} (act : Act)
    (seals : sealedChunks [act] = []) (offers : offeredChunks [act] = [])
    (balance : sealedChunks history = offeredChunks history ++ pending) :
    sealedChunks (history ++ [act]) = offeredChunks (history ++ [act]) ++ pending := by
  rw [sealedChunks_append, offeredChunks_append, seals, offers, List.append_nil, List.append_nil]
  exact balance

section moves

variable [Digests]

/-- Nothing that density is about has changed. -/
theorem Dense.of_same {before after : Driver} (dense : Dense before) (framed : Framed after)
    (depthOne : DepthOne after) (writer : after.writer = before.writer)
    (opened : after.openChunk.map OpenChunk.core = before.openChunk.map OpenChunk.core)
    (pending : after.pendingAppend.map PendingAppend.core =
      before.pendingAppend.map PendingAppend.core)
    (history : after.history = before.history) : Dense after where
  toFramed := framed
  toDepthOne := depthOne
  exclusive := by
    have openNone := congrArg Option.isNone opened
    have pendingNone := congrArg Option.isNone pending
    rw [Option.isNone_map, Option.isNone_map] at openNone pendingNone
    rw [← Option.isNone_iff_eq_none, ← Option.isNone_iff_eq_none, openNone, pendingNone,
      Option.isNone_iff_eq_none, Option.isNone_iff_eq_none]
    exact dense.exclusive
  openBase := by
    rw [writer]
    exact firstOffset_core (openPlaced_core opened) dense.openBase
  pendingBase := by
    rw [writer]
    exact firstOffset_core (pendingPlaced_core pending) dense.pendingBase
  balance := by
    rw [history, pendingChunks_core pending]
    exact dense.balance
  acts := by rw [history]; exact dense.acts

/-- Nothing is pending; the open chunk is as before or gone. -/
theorem Dense.of_idle {before after : Driver} (dense : Dense before) (framed : Framed after)
    (depthOne : DepthOne after) (pending : after.pendingAppend = none)
    (opened : after.openChunk = none)
    (balance : sealedChunks after.history = offeredChunks after.history ++ [])
    (acts : ∀ act ∈ after.history, act ∈ before.history ∨ act.Dense) : Dense after where
  toFramed := framed
  toDepthOne := depthOne
  exclusive := Or.inl opened
  openBase := by
    rw [Actor.openPlaced, opened]
    rintro first rest ⟨⟩
  pendingBase := by
    rw [Actor.pendingPlaced, pending]
    rintro first rest ⟨⟩
  balance := by
    rw [balance, Actor.pendingChunks, pending]
    rfl
  acts := fun act member => (acts act member).elim (dense.acts act) id

/-- What is pending is offered to its append, at the writer's offset. -/
theorem Dense.offered {driver : Driver} (dense : Dense driver) {work : SealedWork}
    {result : Except ChunkLogError ChunkAppendAck} {writer : ChunkLogWriter} {store : BlobStore}
    {puts : List Act} (pending : driver.pendingAppend = some (.depthOne work))
    (appends : driver.Appends work result writer store puts) :
    Act.Dense (.append driver.toActor work result) := by
  obtain ⟨put, kernel, ran⟩ := appends.ran
  obtain ⟨header, first, rest, filled, -, sealed⟩ := dense.pending _ pending
  obtain ⟨body, -, index, -⟩ := sealed.body
  have base : first.firstOffset = driver.writer.nextOffset := by
    refine dense.pendingBase first rest ?_
    rw [Actor.pendingPlaced, pending]
    exact filled
  refine ⟨pending, ⟨_, _, index, base⟩, ?_⟩
  have answer : (Driver.appendSealed _ work.chunk put kernel).1 = result := congrArg Prod.fst ran
  exact answer ▸ Driver.appendSealed_discontinuity index base

/-- Once it is offered, nothing is pending. -/
theorem Dense.settle {driver after : Driver} (dense : Dense driver) {work : SealedWork}
    {result : Except ChunkLogError ChunkAppendAck} {writer : ChunkLogWriter} {store : BlobStore}
    {puts : List Act} (pending : driver.pendingAppend = some (.depthOne work))
    (appends : driver.Appends work result writer store puts) (framed : Framed after)
    (depthOne : DepthOne after) (idle : after.pendingAppend = none)
    (closed : after.openChunk = none)
    (history : after.history = driver.history ++ puts ++ [.append driver.toActor work result]) :
    Dense after := by
  have balance := dense.balance
  rw [Actor.pendingChunks, pending] at balance
  refine dense.of_idle framed depthOne idle closed ?_ ?_
  · simp only [history, sealedChunks_append, offeredChunks_append, puts_chunks appends.stored,
      balance]
    simp [sealedChunks, offeredChunks, PendingAppend.chunkIds]
  · rw [history]
    exact acts_append_puts appends.stored _ (by simp [Act.Dense]) (dense.offered pending appends)

theorem Taken.dense {driver taken : Driver} {submission : Submission} {ticket : Nat}
    (inHand : Taken driver submission ticket taken) (dense : Dense driver) : Dense taken := by
  have depthOne := dense.toDepthOne
  cases inHand <;> exact dense.of_same (dense.toFramed.of_same rfl rfl rfl)
    ⟨depthOne.mode, depthOne.works, depthOne.dead⟩ rfl rfl rfl rfl

/-- A submission placed with nothing pending continues the log. -/
theorem Dense.place {driver : Driver} (dense : Dense driver) {submission : Submission}
    {ticket encodedBytes : Nat} (framed : Framed (driver.place submission ticket encodedBytes))
    (depthOne : DepthOne (driver.place submission ticket encodedBytes))
    (idle : driver.pendingAppend = none)
    (fits : driver.writer.nextOffset.toNat + (placedRecords driver.openPlaced).length < 2 ^ 64) :
    Dense (driver.place submission ticket encodedBytes) := by
  have offset : driver.placeOffset.toNat =
      driver.writer.nextOffset.toNat + (placedRecords driver.openPlaced).length := by
    cases opened : driver.openPlaced with
    | nil =>
        rw [placeOffset_empty opened]
        rfl
    | cons first rest =>
        have laid := dense.openChained first rest opened
        have base := dense.openBase first rest opened
        rw [base] at laid
        rw [← opened]
        exact placeOffset_laid laid (by simp [opened]) fits
  exact {
    framed, depthOne with
    exclusive := Or.inr idle
    openBase := by
      rw [place_openPlaced]
      intro first rest whole
      show first.firstOffset = driver.writer.nextOffset
      cases opened : driver.openPlaced with
      | nil =>
          rw [opened] at whole
          cases whole
          exact placeOffset_empty opened
      | cons head tail =>
          have base := dense.openBase head tail opened
          rw [opened] at whole
          cases whole
          exact base
    pendingBase := dense.pendingBase
    balance := balance_append _ rfl rfl dense.balance
    acts := by
      intro act member
      rcases List.mem_append.mp member with old | new
      · exact dense.acts act old
      · rw [List.mem_singleton.mp new]
        show driver.placeOffset.toNat = _
        rw [offset, Actor.pendingPlaced, idle]
        rfl }

theorem dense_move {before after : Driver} (move : Move before after)
    (alone : ∀ act ∈ after.history, act.PlacedAlone) (dense : Dense before) : Dense after := by
  have framed := framed_move move dense.toFramed
  have depthOne := depthOne_move move dense.toDepthOne
  have keep (act : Act) (fits : act.Dense) :
      ∀ other ∈ before.history ++ [act], other ∈ before.history ∨ other.Dense :=
    acts_append [act] (by simpa using fits)
  cases move with
  | quiet => exact dense.of_same framed depthOne rfl rfl rfl rfl
  | say => exact dense.of_same framed depthOne rfl rfl rfl rfl
  | refuse inHand => exact (inHand.dense dense).of_same framed depthOne rfl rfl rfl rfl
  | replay inHand => exact (inHand.dense dense).of_same framed depthOne rfl rfl rfl rfl
  | joinOpen inHand =>
      exact (inHand.dense dense).of_same framed depthOne rfl (openChunk_join_core _ _ _) rfl rfl
  | joinPending inHand =>
      exact (inHand.dense dense).of_same framed depthOne rfl rfl (pendingAppend_join_core _ _ _) rfl
  | park inHand => exact (inHand.dense dense).of_same framed depthOne rfl rfl rfl rfl
  | @place taken submission ticket inHand encodedBytes sized fresh room =>
      obtain ⟨idle, fits⟩ := alone (.place taken.toActor
        ⟨submission, taken.placeOffset, encodedBytes, [ticket]⟩) (List.mem_append_right _ (by simp))
      exact (inHand.dense dense).place framed depthOne idle fits
  | sealNothing chunk opened empty =>
      have idle := dense.exclusive.resolve_left (by simp [opened])
      have balance := dense.balance
      rw [Actor.pendingChunks, idle] at balance
      exact dense.of_idle framed depthOne idle rfl balance fun _ => Or.inl
  | sealRefused chunk first rest error opened filled refused =>
      have idle := dense.exclusive.resolve_left (by simp [opened])
      have balance := dense.balance
      rw [Actor.pendingChunks, idle] at balance
      exact dense.of_idle framed depthOne idle rfl (balance_append _ rfl rfl balance)
        (keep (.sealOpen before.toActor (chunkIdOf before.nextChunk) (.error error)) idle)
  | sealChunk chunk first rest result opened filled mode success =>
      have idle := dense.exclusive.resolve_left (by simp [opened])
      have named := (sealSingleFrameChunk_eq_ok success).chunkId
      have placed := openPlaced_of_some opened
      exact {
        framed, depthOne with
        exclusive := Or.inl rfl
        openBase := by rintro head tail ⟨⟩
        pendingBase := by
          intro head tail whole
          exact dense.openBase head tail (placed.trans whole)
        balance := by
          have balance := dense.balance
          rw [Actor.pendingChunks, idle] at balance
          show sealedChunks (before.history ++ _) = offeredChunks (before.history ++ _) ++
            [result.chunkId]
          rw [sealedChunks_append, offeredChunks_append, balance, named]
          simp [sealedChunks, offeredChunks, Driver.sealHeader]
        acts := fun act member => (keep (.sealOpen before.toActor (chunkIdOf before.nextChunk)
          (.ok result.bytes.length)) idle act member).elim (dense.acts act) id }
  | sealEnvelope chunk first rest bytes opened filled sink success =>
      rw [dense.mode] at sink
      cases sink
  | commit work ack pending appends =>
      have closed := dense.exclusive.resolve_right (by simp [pending])
      exact dense.settle pending appends framed depthOne rfl closed rfl
  | fail work error pending appends =>
      exact dense.settle pending appends framed depthOne rfl rfl rfl
  | enqueue envelope placed encodedBytes pending =>
      obtain ⟨work, wrong⟩ := dense.works _ pending
      cases wrong
  | enqueueFailed envelope placed encodedBytes message pending =>
      obtain ⟨work, wrong⟩ := dense.works _ pending
      cases wrong
  | close =>
      exact {
        framed, depthOne with
        exclusive := dense.exclusive
        openBase := dense.openBase
        pendingBase := dense.pendingBase
        balance := balance_append (.close before.toActor) rfl rfl dense.balance
        acts := fun act member => (keep (.close before.toActor) trivial act member).elim
          (dense.acts act) id }
  | refuseParked => exact dense.of_same framed depthOne rfl rfl rfl rfl
  | exit => exact dense.of_same framed depthOne rfl rfl rfl rfl

/-- In a run in which nothing is placed behind a pending chunk, admissions are dense, the pending
slot is never overwritten, every sealed chunk is offered to one append, at the writer's offset, and
no append reports a discontinuity. -/
theorem run_dense {config : DriverConfig} {writer : ChunkLogWriter}
    {recovered : List RecoveredChunk} {store : BlobStore} {driver : Driver}
    (mounted : Driver.new config writer recovered store = .ok driver)
    (depthOne : config.blobSink = false) (passes : List Pass)
    (plain : ∀ pass ∈ passes, pass.Plain)
    (alone : ∀ act ∈ (driver.run passes).history, act.PlacedAlone) :
    (∀ act ∈ (driver.run passes).history, act.Dense) ∧
      sealedChunks (driver.run passes).history =
        offeredChunks (driver.run passes).history ++ (driver.run passes).pendingChunks := by
  have framed := new_framed mounted
  have initial : Dense driver := by
    obtain ⟨dedup, admittedSeq, knownProducers, rfl⟩ := Driver.new_blank mounted
    exact {
      framed with
      mode := depthOne
      works := by rintro held ⟨⟩
      dead := by rintro ⟨⟩
      exclusive := Or.inl rfl
      openBase := by rintro first rest ⟨⟩
      pendingBase := by rintro first rest ⟨⟩
      balance := rfl
      acts := by rintro act ⟨⟩ }
  have dense := run_invariant_of_acts (fun _ _ => dense_move) initial passes plain alone
  exact ⟨dense.acts, dense.balance⟩

end moves

instance : DecidablePred Act.PlacedAlone
  | .place _ _ => inferInstanceAs (Decidable (_ ∧ _))
  | .sealOpen .. | .put .. | .append .. | .enqueue .. | .appendRefs .. | .report .. | .close _ =>
      .isTrue trivial

/-- Two submissions share an open chunk, which is sealed once and offered once. -/
theorem run_dense_pair : ∃ _ : Digests,
    let driver := (freshDriver pairPolicy).run (pairCommands.map commandPass)
    (∀ act ∈ driver.history, act.Dense) ∧ sealedChunks driver.history = [chunkIdOf 0] ∧
      offeredChunks driver.history = [chunkIdOf 0] ∧ driver.writer.nextOffset.toNat = 2 := by
  let digests := valueDigests
  have mounted : Driver.new (smallConfig pairPolicy) emptyWriter [] (fun _ => none) =
      .ok (freshDriver pairPolicy) := rfl
  have values : (let driver := (freshDriver pairPolicy).run (pairCommands.map commandPass)
      (∀ act ∈ driver.history, act.PlacedAlone) ∧ sealedChunks driver.history = [chunkIdOf 0] ∧
        offeredChunks driver.history = [chunkIdOf 0] ∧ driver.writer.nextOffset.toNat = 2) := by
    decide +kernel
  obtain ⟨alone, shown⟩ := values
  exact ⟨digests, (run_dense mounted rfl _
    (commandPass_plain (by simp [pairCommands, Command.Plain])) alone).1, shown⟩

/-- A chunk holds two records; the open chunk and a submission of two records do not fit the
buffer together. -/
def tightPolicy : ChunkPolicy := smallPolicy 1000 2 300

def overwriteCommands : List Command :=
  [.submit (submissionOf 1 0 1), .submit (submissionOf 2 0 2),
    .submit (submissionOf 3 0 2), .flush 0]

/-- One record is open. -/
def leadPlaced : Driver :=
  { freshDriver tightPolicy with offered := [submissionOf 1 0 1] }.place (submissionOf 1 0 1) 0 199

/-- A submission is parked behind it. -/
def oneParked : Driver :=
  (leadPlaced.submitted (commandPass (.submit (submissionOf 2 0 2))) (submissionOf 2 0 2)).park
    (submissionOf 2 0 2) 1 208

/-- Another submission is parked behind that one. -/
def twoParked : Driver :=
  (oneParked.submitted (commandPass (.submit (submissionOf 3 0 2))) (submissionOf 3 0 2)).park
    (submissionOf 3 0 2) 2 208

def leadItem : PlacedSubmission := ⟨submissionOf 1 0 1, .ofNat 0, 199, [0]⟩

/-- The flush has sealed the open record. -/
def leadSealed (lead : SealedChunk) : Driver :=
  let flushed := twoParked.refreshAgeSleep.clearAgeSleep
  flushed.takeOpen.sealDone flushed.toActor ⟨[leadItem], 199, 0⟩ (chunkIdOf 0) lead.bytes.length
    (.depthOne ⟨lead, [leadItem], 199, 0⟩)

/-- The open record is committed, and both submissions are still parked. -/
def leadCommitted [Digests] (lead : SealedChunk) (count : UInt32) : Driver :=
  (leadSealed lead).acknowledged ⟨lead, [leadItem], 199, 0⟩ 1 count 0

/-- The first parked submission is sealed. -/
def firstFilled [Digests] (lead first : SealedChunk) (count : UInt32) : Driver :=
  ((leadCommitted lead count).withParked [⟨submissionOf 3 0 2, 2, 208⟩]).filled
    (submissionOf 2 0 2) 1 208 first

/-- The second parked submission is sealed in its place. -/
def bothFilled [Digests] (lead first second : SealedChunk) (count : UInt32) : Driver :=
  ((firstFilled lead first count).withParked []).filled (submissionOf 3 0 2) 2 208 second

theorem twoParked_run [Digests] : (freshDriver tightPolicy).run
    (overwriteCommands.map commandPass) = twoParked.iterate (commandPass (.flush 0)) := by
  have passes (driver : Driver) : driver.run (overwriteCommands.map commandPass) =
      (((driver.iterate (commandPass (.submit (submissionOf 1 0 1)))).iterate
        (commandPass (.submit (submissionOf 2 0 2)))).iterate
          (commandPass (.submit (submissionOf 3 0 2)))).iterate (commandPass (.flush 0)) := rfl
  have first : (freshDriver tightPolicy).iterate (commandPass (.submit (submissionOf 1 0 1))) =
      leadPlaced := rfl
  have second : leadPlaced.iterate (commandPass (.submit (submissionOf 2 0 2))) = oneParked := rfl
  have third : oneParked.iterate (commandPass (.submit (submissionOf 3 0 2))) = twoParked := rfl
  rw [passes, first, second, third]

theorem leadSealed_flush [Digests] : ∃ lead, SealedFrom twoParked.sealHeader
      (frameOf twoParked.journalId (.ofNat 0) [leadItem]) lead ∧
    twoParked.refreshAgeSleep.clearAgeSleep.sealOpen Driver.drainBlocked = leadSealed lead := by
  have opened : twoParked.refreshAgeSleep.clearAgeSleep.openChunk = some ⟨[leadItem], 199, 0⟩ := rfl
  have sized : encodedChunkLen [twoParked.refreshAgeSleep.clearAgeSleep.openFrame
      ⟨[leadItem], 199, 0⟩ leadItem] = .ok 199 := rfl
  exact Driver.sealOpen_sealed Driver.drainBlocked opened rfl rfl rfl (by decide) sized (by decide)

theorem leadCommitted_append [Digests] {lead : SealedChunk}
    (sealed : SealedFrom twoParked.sealHeader
      (frameOf twoParked.journalId (.ofNat 0) [leadItem]) lead) :
    ∃ count, (leadSealed lead).appendDepthOne (commandPass (.flush 0)) =
      (leadCommitted lead count).drainBlocked := by
  have pending : (leadSealed lead).pendingAppend =
      some (.depthOne ⟨lead, [leadItem], 199, 0⟩) := rfl
  have kernel : (commandPass (.flush 0)).kernel = .ok := rfl
  obtain ⟨count, appended⟩ :=
    Driver.appendDepthOne_acknowledged pending rfl kernel sealed rfl rfl rfl rfl rfl
  exact ⟨count, appended⟩

theorem firstFilled_drain [Digests] (lead : SealedChunk) (count : UInt32) :
    ∃ first, SealedFrom (leadCommitted lead count).sealHeader
        (frameOf (leadCommitted lead count).journalId (leadCommitted lead count).writer.nextOffset
          [(leadCommitted lead count).soloItem (submissionOf 2 0 2) 1 208]) first ∧
      (leadCommitted lead count).drainFor 2 = (firstFilled lead first count).drainFor 1 := by
  have queue : (leadCommitted lead count).blocked =
      [⟨submissionOf 2 0 2, 1, 208⟩, ⟨submissionOf 3 0 2, 2, 208⟩] := rfl
  have size : (freshDriver tightPolicy).checkSize (submissionOf 2 0 2) = .ok 208 := rfl
  have sized : (leadCommitted lead count).checkSize (submissionOf 2 0 2) = .ok 208 :=
    (Actor.checkSize_congr _ (freshDriver tightPolicy).toActor rfl rfl rfl _).trans size
  have full : (leadCommitted lead count).policy.maxChunkRecords ≤ 2 := Nat.le_refl 2
  have offsets : (leadCommitted lead count).writer.nextOffset.toNat + 2 < 2 ^ 64 := by
    have next : (leadCommitted lead count).writer.nextOffset = .ofNat 1 := rfl
    rw [next]
    decide
  have room : (leadCommitted lead count).shouldBlockAdmission 208 = false :=
    Actor.shouldBlockAdmission_congr (leadCommitted lead count).toActor
      (freshDriver tightPolicy).toActor rfl rfl rfl rfl 208
  exact Driver.drainFor_fills queue rfl rfl rfl sized rfl rfl rfl rfl room full offsets (by decide)

/-- A driver with nothing open and this chunk pending. -/
def onePending (first : SealedChunk) : Driver :=
  { freshDriver tightPolicy with
    pendingAppend := some (.depthOne ⟨first, [⟨submissionOf 2 0 2, .ofNat 1, 208, [1]⟩], 208, 0⟩) }

theorem bothFilled_drain [Digests] (lead first : SealedChunk) (count : UInt32) :
    ∃ second, SealedFrom (firstFilled lead first count).sealHeader
        (frameOf (firstFilled lead first count).journalId
          (firstFilled lead first count).writer.nextOffset
          [(firstFilled lead first count).soloItem (submissionOf 3 0 2) 2 208]) second ∧
      (firstFilled lead first count).drainFor 1 =
        (bothFilled lead first second count).drainFor 0 := by
  have queue : (firstFilled lead first count).blocked = [⟨submissionOf 3 0 2, 2, 208⟩] := rfl
  have size : (freshDriver tightPolicy).checkSize (submissionOf 3 0 2) = .ok 208 := rfl
  have sized : (firstFilled lead first count).checkSize (submissionOf 3 0 2) = .ok 208 :=
    (Actor.checkSize_congr _ (freshDriver tightPolicy).toActor rfl rfl rfl _).trans size
  have full : (firstFilled lead first count).policy.maxChunkRecords ≤ 2 := Nat.le_refl 2
  have offsets : (firstFilled lead first count).writer.nextOffset.toNat + 2 < 2 ^ 64 := by
    have next : (firstFilled lead first count).writer.nextOffset = .ofNat 1 := rfl
    rw [next]
    decide
  have free : (onePending first).shouldBlockAdmission 208 = false := rfl
  have room : (firstFilled lead first count).shouldBlockAdmission 208 = false :=
    (Actor.shouldBlockAdmission_congr _ (onePending first).toActor rfl rfl rfl rfl 208).trans free
  exact Driver.drainFor_fills queue rfl rfl rfl sized rfl rfl rfl rfl room full offsets (by decide)

/-- The drain after the commit seals both parked submissions, one over the other. -/
theorem overwrite_run [Digests] : ∃ lead first second count,
    SealedFrom twoParked.sealHeader (frameOf twoParked.journalId (.ofNat 0) [leadItem]) lead ∧
    SealedFrom (firstFilled lead first count).sealHeader
      (frameOf (firstFilled lead first count).journalId
        (firstFilled lead first count).writer.nextOffset
        [(firstFilled lead first count).soloItem (submissionOf 3 0 2) 2 208]) second ∧
    (freshDriver tightPolicy).run (overwriteCommands.map commandPass) =
      (bothFilled lead first second count).send (.flush 0 (.ok ())) := by
  obtain ⟨lead, leadFrom, flushed⟩ := leadSealed_flush
  obtain ⟨count, appended⟩ := leadCommitted_append leadFrom
  obtain ⟨first, -, firstDrained⟩ := firstFilled_drain lead count
  obtain ⟨second, secondFrom, secondDrained⟩ := bothFilled_drain lead first count
  refine ⟨lead, first, second, count, leadFrom, secondFrom, ?_⟩
  have drained : (leadCommitted lead count).drainBlocked = bothFilled lead first second count := by
    have two : (leadCommitted lead count).drainBlocked = (leadCommitted lead count).drainFor 2 :=
      rfl
    rw [two, firstDrained, secondDrained]
    rfl
  have outcome : (twoParked.refreshAgeSleep.clearAgeSleep.sealOpen
      Driver.drainBlocked).appendDepthOne (commandPass (.flush 0)) =
        bothFilled lead first second count := by
    rw [flushed, appended, drained]
  have handled : twoParked.iterate (commandPass (.flush 0)) =
      let after := (twoParked.refreshAgeSleep.clearAgeSleep.sealOpen
        Driver.drainBlocked).appendDepthOne (commandPass (.flush 0))
      after.send (.flush 0 (if after.poisoned then .error .poisoned else .ok ())) := by
    rw [Driver.iterate_command rfl rfl (Or.inl rfl) rfl rfl]
    rfl
  rw [twoParked_run, handled, outcome]
  rfl

/-- A seal takes the pending slot from a chunk that was never appended, and the submission in it
starts at the offset of that chunk. -/
theorem dense_fails :
    Driver.new (smallConfig tightPolicy) emptyWriter [] (fun _ => none) =
        .ok (freshDriver tightPolicy) ∧
      ¬ ∃ digests : Digests,
        (∀ before chunkId outcome, .sealOpen before chunkId outcome ∈ (@Driver.run digests
          (freshDriver tightPolicy) (overwriteCommands.map commandPass)).history →
          before.pendingAppend = none) ∨
        (∀ before placed, .place before placed ∈ (@Driver.run digests
          (freshDriver tightPolicy) (overwriteCommands.map commandPass)).history →
          placed.firstOffset.toNat = before.writer.nextOffset.toNat +
            (placedRecords before.pendingPlaced).length +
            (placedRecords before.openPlaced).length) := by
  refine ⟨rfl, ?_⟩
  rintro ⟨digests, free | dense⟩
  · obtain ⟨lead, first, second, count, -, -, ran⟩ := overwrite_run
    rw [ran] at free
    have idle := free _ _ _ (List.mem_append_right _ (List.mem_singleton_self _))
    cases idle
  · obtain ⟨lead, first, second, count, -, -, ran⟩ := overwrite_run
    rw [ran] at dense
    have offset : 1 = 1 + 2 + 0 := dense _ _ (List.mem_append_left _ (List.mem_append_right _
      (List.mem_singleton_self _)))
    exact absurd offset (by decide)

end Scripture
