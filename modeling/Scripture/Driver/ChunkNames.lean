import Scripture.Driver.Density
import Scripture.Driver.SinkReceipts

set_option autoImplicit false

/- The names of chunks. A driver names a chunk by a counter that every driver starts at zero, and a
keyed append is named by the writer and the chunk. Within one driver the names do not repeat until
the counter wraps; recovery, which takes every other counter from the log, does not move this one,
so that the drivers of one journal name their chunks alike. -/
namespace Scripture

open ByteFormat

structure SequencerRequestKey where
  client : FixedBytes 16
  request : FixedBytes 16
  deriving DecidableEq

def sequencerRequestKeyForChunk (writerId : WriterId) (chunkId : ChunkId) : SequencerRequestKey :=
  ⟨writerId.bytes, chunkId.bytes⟩

theorem chunkIdOf_injective : Function.Injective chunkIdOf := by
  intro left right same
  have bytes : putU64 left ++ List.replicate 8 0 = putU64 right ++ List.replicate 8 0 :=
    congrArg (fun id => id.bytes.val) same
  have read := readU64_reads () left (List.replicate 8 0)
  rw [bytes, readU64_reads () right] at read
  cases read
  rfl

/-- The sealed chunks that an act gives to the log: the driver's own, or those the sink asks for. -/
def Act.appended : Act → List SealedChunk
  | .append _ work _ => [work.chunk]
  | .appendRefs _ items => items.map BlobSinkAppendItem.chunk
  | _ => []

def appendedChunks (history : List Act) : List SealedChunk := history.flatMap Act.appended

/-- An append is keyed by its first chunk: the writer in its header, and its identity. -/
def Act.requestKey [Digests] (act : Act) : Option SequencerRequestKey := do
  let chunk ← act.appended.head?
  let index ← (decodeIndex chunk.bytes).toOption
  return sequencerRequestKeyForChunk index.header.writerId chunk.chunkId

def requestKeys [Digests] (history : List Act) : List SequencerRequestKey :=
  history.filterMap Act.requestKey

/-- The chunks that the sink has had appended. -/
def sinkChunks (history : List Act) : List ChunkId :=
  history.flatMap fun
    | .appendRefs _ items => items.map fun item => item.chunk.chunkId
    | _ => []

/-- The sink has chunks appended that it took from this driver, each at most once. -/
def AppendsTaken (history : List Act) : Prop :=
  (sinkChunks history).Subperm (enqueuedChunks history)

/-- The chunks that a driver has passed on, to the log or to the sink, in order. -/
def passedChunks (history : List Act) : List ChunkId :=
  history.filterMap fun
    | .append _ work _ => some work.chunk.chunkId
    | .enqueue _ envelope => some envelope.chunkId
    | _ => none

theorem appendedChunks_perm (history : List Act) :
    ((appendedChunks history).map SealedChunk.chunkId).Perm
      (offeredChunks history ++ sinkChunks history) := by
  induction history with
  | nil => exact .nil
  | cons act rest ih =>
      cases act with
      | append _ work _ => exact ih.cons work.chunk.chunkId
      | appendRefs _ items =>
          rw [appendedChunks, List.flatMap_cons, List.map_append]
          refine (ih.append_left _).trans ?_
          rw [Act.appended, List.map_map]
          exact List.perm_append_comm_assoc _ _ _
      | _ => exact ih

theorem passedChunks_perm (history : List Act) :
    (passedChunks history).Perm (offeredChunks history ++ enqueuedChunks history) := by
  induction history with
  | nil => exact .nil
  | cons act rest ih =>
      cases act with
      | append _ work _ => exact ih.cons work.chunk.chunkId
      | enqueue _ envelope => exact (ih.cons envelope.chunkId).trans List.perm_middle.symm
      | _ => exact ih

/-- What is appended is what was passed on, where the sink keeps to it. -/
theorem AppendsTaken.nodup {history : List Act} (taken : AppendsTaken history)
    (distinct : (passedChunks history).Nodup) :
    ((appendedChunks history).map SealedChunk.chunkId).Nodup := by
  rw [(passedChunks_perm history).nodup_iff] at distinct
  rw [(appendedChunks_perm history).nodup_iff]
  obtain ⟨kept, same, within⟩ := taken
  exact ((same.append_left _).nodup_iff).mp (distinct.sublist (within.append_left _))

theorem Act.requestKey_eq_some [Digests] {act : Act} {key : SequencerRequestKey}
    (keyed : act.requestKey = some key) :
    ∃ chunk others, act.appended = chunk :: others ∧ key.request = chunk.chunkId.bytes := by
  obtain ⟨chunk, first, keyed⟩ := Option.bind_eq_some_iff.mp keyed
  obtain ⟨index, -, keyed⟩ := Option.bind_eq_some_iff.mp keyed
  obtain ⟨others, same⟩ := List.head?_eq_some_iff.mp first
  cases keyed
  exact ⟨chunk, others, same, rfl⟩

/-- The keys name chunks that are appended. -/
theorem requestKeys_sublist [Digests] (history : List Act) :
    ((requestKeys history).map SequencerRequestKey.request).Sublist
      (((appendedChunks history).map SealedChunk.chunkId).map fun id => id.bytes) := by
  induction history with
  | nil => exact List.Sublist.refl _
  | cons act rest ih =>
      rw [requestKeys, List.filterMap_cons, appendedChunks, List.flatMap_cons, List.map_append,
        List.map_append]
      cases keyed : act.requestKey with
      | none => exact ih.trans (List.sublist_append_right _ _)
      | some key =>
          obtain ⟨chunk, others, same, named⟩ := Act.requestKey_eq_some keyed
          rw [same, List.map_cons, List.map_cons, List.map_cons, List.cons_append, named]
          exact (ih.trans (List.sublist_append_right _ _)).cons_cons _

/-- How often a chunk was named. -/
def sealCount (history : List Act) : Nat :=
  history.countP fun
    | .sealOpen .. => true
    | _ => false

/-- The names a driver has given after this many seals. -/
def namesBelow (count : Nat) : List ChunkId :=
  (List.range count).map fun number => chunkIdOf (.ofNat number)

def PendingAppend.heldIds : PendingAppend → List ChunkId
  | .depthOne work => [work.chunk.chunkId]
  | .blobSink envelope _ _ false => [envelope.chunkId]
  | .blobSink _ _ _ true => []

/-- The chunk that is sealed and not yet given to anyone. -/
def Actor.heldChunks (actor : Actor) : List ChunkId :=
  (actor.pendingAppend.map PendingAppend.heldIds).getD []

/-- What was handed on and what is held are names below the counter, each once and in order. -/
structure Numbered (driver : Driver) : Prop where
  counter : driver.nextChunk = .ofNat (sealCount driver.history)
  names : (passedChunks driver.history ++ driver.heldChunks).Sublist
    (namesBelow (sealCount driver.history))

theorem namesBelow_nodup {count : Nat} (few : count ≤ 2 ^ 64) : (namesBelow count).Nodup := by
  refine List.Nodup.map_on ?_ List.nodup_range
  intro left below right bound same
  have numbers := congrArg UInt64.toNat (chunkIdOf_injective same)
  rw [List.mem_range] at below bound
  rwa [UInt64.toNat_ofNat_of_lt' (lt_of_lt_of_le below few),
    UInt64.toNat_ofNat_of_lt' (lt_of_lt_of_le bound few)] at numbers

variable {before after : Driver}

theorem Numbered.nodup (numbered : Numbered before) (few : sealCount before.history ≤ 2 ^ 64) :
    (passedChunks before.history).Nodup :=
  (namesBelow_nodup few).sublist ((List.sublist_append_left _ _).trans numbered.names)

/-- No name is given, and only the held chunk is handed on. -/
theorem Numbered.of_less (numbered : Numbered before) {acts : List Act}
    (history : after.history = before.history ++ acts) (seals : sealCount acts = 0)
    (counter : after.nextChunk = before.nextChunk)
    (names : (passedChunks acts ++ after.heldChunks).Sublist before.heldChunks) :
    Numbered after := by
  have count : sealCount after.history = sealCount before.history := by
    rw [history, sealCount, List.countP_append]
    exact congrArg _ seals
  refine ⟨by rw [counter, count, numbered.counter], ?_⟩
  rw [count, history, passedChunks, List.filterMap_append, List.append_assoc]
  exact (names.append_left _).trans numbered.names

/-- The next name is given to a chunk that may take the place of the held one. -/
theorem Numbered.seal (numbered : Numbered before) {actor : Actor} {chunkId : ChunkId}
    {outcome : Except ChunkError Nat}
    (history : after.history = before.history ++ [.sealOpen actor chunkId outcome])
    (counter : after.nextChunk = before.nextChunk + 1)
    (names : after.heldChunks.Sublist (before.heldChunks ++ [chunkIdOf before.nextChunk])) :
    Numbered after := by
  have count : sealCount after.history = sealCount before.history + 1 := by
    rw [history, sealCount, List.countP_append]
    rfl
  refine ⟨?_, ?_⟩
  · rw [counter, count, numbered.counter, UInt64.ofNat_add]
    rfl
  · have same : passedChunks after.history = passedChunks before.history := by
      rw [history, passedChunks, List.filterMap_append]
      exact List.append_nil _
    rw [count, same, namesBelow, List.range_succ, List.map_append, List.map_singleton,
      ← numbered.counter]
    refine (names.append_left _).trans ?_
    rw [← List.append_assoc]
    exact numbered.names.append_right _

theorem Numbered.offer (numbered : Numbered before) {work : SealedWork}
    (pending : before.pendingAppend = some (.depthOne work)) {puts : List Act} {actor : Actor}
    {bytes : Bytes} (stored : ∀ act ∈ puts, ∃ key, act = .put actor key bytes)
    {result : Except ChunkLogError ChunkAppendAck}
    (history : after.history = before.history ++ puts ++ [.append before.toActor work result])
    (counter : after.nextChunk = before.nextChunk) (idle : after.pendingAppend = none) :
    Numbered after := by
  have silent : passedChunks puts = [] := by
    refine List.filterMap_eq_nil_iff.mpr fun act member => ?_
    obtain ⟨key, rfl⟩ := stored act member
    rfl
  have unsealed : sealCount puts = 0 := by
    refine List.countP_eq_zero.mpr fun act member => ?_
    obtain ⟨key, rfl⟩ := stored act member
    exact Bool.false_ne_true
  refine numbered.of_less (history.trans (List.append_assoc _ _ _)) ?_ counter ?_
  · rw [sealCount, List.countP_append]
    exact congrArg (· + 0) unsealed
  · rw [passedChunks, List.filterMap_append, ← passedChunks, silent, Actor.heldChunks,
      Actor.heldChunks, pending, idle]
    exact List.Sublist.refl _

section steps

variable [Digests]

theorem numbered_move (move : Move before after) (numbered : Numbered before) : Numbered after := by
  have nothing : before.history = before.history ++ [] := (List.append_nil _).symm
  have dropped := List.nil_sublist before.heldChunks
  cases move with
  | refuse inHand => cases inHand <;> exact numbered.of_less nothing rfl rfl (List.Sublist.refl _)
  | replay inHand => cases inHand <;> exact numbered.of_less nothing rfl rfl (List.Sublist.refl _)
  | joinOpen inHand => cases inHand <;> exact numbered.of_less nothing rfl rfl (List.Sublist.refl _)
  | @joinPending taken submission ticket inHand =>
      have same : (taken.joinPending submission ticket).heldChunks = taken.heldChunks := by
        show ((taken.pendingAppend.map _).map PendingAppend.heldIds).getD [] = _
        rw [Option.map_map, Actor.heldChunks]
        congr 2
        funext pending
        rcases pending with _ | ⟨_, _, _, _ | _⟩ <;> rfl
      cases inHand <;> exact numbered.of_less nothing rfl rfl (same ▸ List.Sublist.refl _)
  | park inHand => cases inHand <;> exact numbered.of_less nothing rfl rfl (List.Sublist.refl _)
  | place inHand => cases inHand <;> exact numbered.of_less rfl rfl rfl (List.Sublist.refl _)
  | sealRefused => exact numbered.seal rfl rfl (List.sublist_append_left _ _)
  | sealChunk chunk first rest result opened filled mode success =>
      have named : [result.chunkId] = [chunkIdOf before.nextChunk] :=
        congrArg (fun id => [id]) (sealSingleFrameChunk_eq_ok success).chunkId
      exact numbered.seal rfl rfl (named ▸ List.sublist_append_right _ _)
  | sealEnvelope => exact numbered.seal rfl rfl (List.sublist_append_right _ _)
  | commit work ack pending appends => exact numbered.offer pending appends.stored rfl rfl rfl
  | fail work error pending appends => exact numbered.offer pending appends.stored rfl rfl rfl
  | enqueue envelope placed encodedBytes pending =>
      have held : before.heldChunks = [envelope.chunkId] := by
        rw [Actor.heldChunks, pending]
        rfl
      exact numbered.of_less rfl rfl rfl (held ▸ List.Sublist.refl _)
  | enqueueFailed => exact numbered.of_less nothing rfl rfl dropped
  | close => exact numbered.of_less rfl rfl rfl (List.Sublist.refl _)
  | _ => exact numbered.of_less nothing rfl rfl (List.Sublist.refl _)

theorem numbered_step (step : Step before after) (numbered : Numbered before) : Numbered after := by
  cases step with
  | own move => exact numbered_move move numbered
  | sink move =>
      have dropped := List.nil_sublist before.heldChunks
      cases move with
      | appendRefs => exact numbered.of_less rfl rfl rfl (List.Sublist.refl _)
      | misreport => exact numbered.of_less rfl rfl rfl dropped
      | report => exact numbered.of_less rfl rfl rfl dropped

/-- The drivers of one journal with one writer id, one after another. Each is mounted over what
recovery reads of a log that holds all that the earlier ones appended. -/
inductive Incarnations (journalId : JournalId) (writerId : WriterId) : List Driver → Prop where
  | none : Incarnations journalId writerId []
  | next {earlier : List Driver} {config : DriverConfig} {log : List Bytes} {bound : RecoveryBound}
      {policy : GenerationPolicy} {blobs : Option BlobStore} {writer : ChunkLogWriter}
      {recovered : List RecoveredChunk} {store : BlobStore} {driver : Driver}
      (lives : Incarnations journalId writerId earlier)
      (grown : ∀ other ∈ earlier, other.writer.log <+: log)
      (journal : config.journalId = journalId) (named : config.writerId = writerId)
      (scanned : recoverFromLog config.journalId config.cohortId config.generation log bound policy
        blobs = .ok (writer, recovered))
      (mounted : Driver.new config writer recovered store = .ok driver) (passes : List Pass) :
      Incarnations journalId writerId (earlier ++ [driver.run passes])

theorem Incarnations.numbered {journalId : JournalId} {writerId : WriterId} {drivers : List Driver}
    (lives : Incarnations journalId writerId drivers) :
    ∀ driver ∈ drivers, Numbered driver := by
  induction lives with
  | none => simp
  | @next _ _ _ _ _ _ _ _ _ driver _ _ _ _ _ mounted passes ih =>
      intro other member
      rcases List.mem_append.mp member with old | new
      · exact ih other old
      · rw [List.mem_singleton.mp new]
        have initial : Numbered driver := by
          obtain ⟨dedup, admittedSeq, knownProducers, rfl⟩ := Driver.new_blank mounted
          exact ⟨rfl, List.nil_sublist _⟩
        exact run_step_invariant (fun _ _ => numbered_step) initial passes

end steps

/-- A driver that commits one record. -/
def firstLife : Driver :=
  @Driver.run valueDigests (freshDriver soloPolicy) (soloCommands.map commandPass)

/-- The driver that is mounted next, after these commands. -/
def secondLife (commands : List Command) : Except DriverError Driver := do
  let (writer, recovered) ← (@recoverFromLog valueDigests (smallConfig soloPolicy).journalId
    (smallConfig soloPolicy).cohortId 1 firstLife.writer.log soloPolicy.recoveryScan (.exact 1)
    none).mapError .log
  let driver ← Driver.new (smallConfig soloPolicy) writer recovered firstLife.store
  return @Driver.run valueDigests driver (commands.map commandPass)

theorem secondLife_lives {commands : List Command} {driver : Driver}
    (lived : secondLife commands = .ok driver) :
    @Incarnations valueDigests (smallConfig soloPolicy).journalId (smallConfig soloPolicy).writerId
      [firstLife, driver] := by
  let digests := valueDigests
  obtain ⟨⟨writer, recovered⟩, scanned, lived⟩ := bind_eq_ok.mp lived
  obtain ⟨mounted, built, lived⟩ := bind_eq_ok.mp lived
  cases lived
  have first : Incarnations (smallConfig soloPolicy).journalId (smallConfig soloPolicy).writerId
      [firstLife] :=
    @Incarnations.next _ _ _ _ (smallConfig soloPolicy) [] soloPolicy.recoveryScan
      (.exact 1) none _ _
      _ _ .none (by simp) rfl rfl rfl rfl _
  exact .next first (by simp) rfl rfl (mapError_eq_ok.mp scanned) built _

/-- As long as only one driver of the journal appends chunks, its sink appends what it took and its
counter does not wrap, no two of the chunks have one name and no two of the appends one key. -/
theorem incarnations_names_distinct [Digests] {journalId : JournalId} {writerId : WriterId}
    {drivers : List Driver} (lives : Incarnations journalId writerId drivers)
    (alone : drivers.Pairwise fun earlier later =>
      appendedChunks earlier.history = [] ∨ appendedChunks later.history = [])
    (taken : ∀ driver ∈ drivers, AppendsTaken driver.history)
    (few : ∀ driver ∈ drivers, sealCount driver.history ≤ 2 ^ 64) :
    let acts := drivers.flatMap Driver.history
    ((appendedChunks acts).map SealedChunk.chunkId).Nodup ∧ (requestKeys acts).Nodup := by
  intro acts
  have ids : ((appendedChunks acts).map SealedChunk.chunkId).Nodup := by
    rw [appendedChunks, List.flatMap_assoc, List.map_flatMap]
    refine List.nodup_flatMap.mpr ⟨?_, alone.imp ?_⟩
    · intro driver member
      exact (taken driver member).nodup ((lives.numbered driver member).nodup (few driver member))
    · rintro earlier later (none | none) id before after
      · change id ∈ (appendedChunks earlier.history).map _ at before
        simp [none] at before
      · change id ∈ (appendedChunks later.history).map _ at after
        simp [none] at after
  refine ⟨ids, ?_⟩
  have bytes : (((appendedChunks acts).map SealedChunk.chunkId).map fun id => id.bytes).Nodup :=
    ids.map fun left right same => by
      cases left
      cases right
      exact congrArg ChunkId.mk same
  exact (bytes.sublist (requestKeys_sublist acts)).of_map _

/-- One driver commits a record and the next one is idle. -/
theorem incarnations_names_distinct_idle : ∃ (_ : Digests) (first second : Driver),
    Incarnations (smallConfig soloPolicy).journalId (smallConfig soloPolicy).writerId
      [first, second] ∧ (requestKeys first.history).length = 1 ∧
    ((appendedChunks ([first, second].flatMap Driver.history)).map SealedChunk.chunkId).Nodup ∧
    (requestKeys ([first, second].flatMap Driver.history)).Nodup := by
  have facts : (secondLife [] >>= fun second =>
      .ok (appendedChunks second.history, sealCount second.history, sinkChunks second.history)) =
        .ok ([], 0, []) := by
    decide +kernel
  obtain ⟨second, lived, values⟩ := bind_eq_ok.mp facts
  injection values with values
  obtain ⟨idle, unsealed, unasked⟩ := by simpa only [Prod.mk.injEq] using values
  have once : sealCount firstLife.history = 1 := by decide +kernel
  have direct : sinkChunks firstLife.history = [] := by decide +kernel
  refine ⟨valueDigests, firstLife, second, secondLife_lives lived, by decide +kernel,
    @incarnations_names_distinct valueDigests _ _ _ (secondLife_lives lived) (by simp [idle]) ?_
      (by simp [once, unsealed])⟩
  simp [AppendsTaken, direct, unasked, List.nil_subperm]

/-- Each of two lives commits a record of its own, under one name and one key. -/
theorem second_life_reuses_name : ∃ (_ : Digests) (first second : Driver),
    Incarnations (smallConfig soloPolicy).journalId (smallConfig soloPolicy).writerId
      [first, second] ∧ first.writer.log.length = 1 ∧ second.writer.log.length = 2 ∧
    second.writer.log.Nodup ∧
    (appendedChunks first.history).map SealedChunk.chunkId = [chunkIdOf 0] ∧
    (appendedChunks second.history).map SealedChunk.chunkId = [chunkIdOf 0] ∧
    requestKeys first.history = [sequencerRequestKeyForChunk first.writerId (chunkIdOf 0)] ∧
    requestKeys second.history = requestKeys first.history := by
  have facts : (secondLife [.submit (submissionOf 2 0 1), .flush 0] >>= fun second =>
      .ok (second.writer.log.length, decide second.writer.log.Nodup,
        (appendedChunks second.history).map SealedChunk.chunkId,
        @requestKeys valueDigests second.history)) =
      .ok (2, true, [chunkIdOf 0], @requestKeys valueDigests firstLife.history) := by
    decide +kernel
  obtain ⟨second, lived, values⟩ := bind_eq_ok.mp facts
  injection values with values
  obtain ⟨two, distinct, named, keys⟩ := by simpa only [Prod.mk.injEq] using values
  exact ⟨valueDigests, firstLife, second, secondLife_lives lived, by decide +kernel, two,
    of_decide_eq_true distinct, by decide +kernel, named, by decide +kernel, keys⟩

end Scripture
