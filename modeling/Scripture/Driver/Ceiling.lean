import Scripture.Driver.Budget

set_option autoImplicit false

/- The ceiling of a chunk. Admission adds a submission to the open chunk before it looks at the
bounds, so a chunk can pass both of them; it does not when every submission fits what is left. -/
namespace Scripture

open ByteFormat

/-- The submission fits what the open chunk has left of both bounds. -/
def Act.FitsOpenChunk : Act → Prop
  | .place before placed =>
      before.openBytes + placed.encodedBytes ≤ before.policy.maxChunkBytes ∧
        (placedRecords before.openPlaced).length + placed.submission.records.length ≤
          before.policy.maxChunkRecords
  | _ => True

/-- The sealed chunk is within both bounds. -/
def Act.WithinCeiling : Act → Prop
  | .sealOpen before _ (.ok bytes) =>
      bytes ≤ before.policy.maxChunkBytes ∧
        (placedRecords before.openPlaced).length ≤ before.policy.maxChunkRecords
  | _ => True

/-- The open and the pending work are within the bounds of one chunk. -/
structure Ceiling (driver : Driver) : Prop where
  openBytes : driver.openBytes ≤ driver.policy.maxChunkBytes
  openRecords : (placedRecords driver.openPlaced).length ≤ driver.policy.maxChunkRecords
  pendingBytes : driver.pendingBytes ≤ driver.policy.maxChunkBytes
  seals : ∀ act ∈ driver.history, act.WithinCeiling

theorem Ceiling.of_core {before after : Driver} (ceiling : Ceiling before)
    (policy : after.policy = before.policy)
    (opened : after.openChunk.map OpenChunk.core = before.openChunk.map OpenChunk.core)
    (pending : after.pendingBytes ≤ before.pendingBytes)
    (acts : ∀ act ∈ after.history, act ∈ before.history ∨ act.WithinCeiling) : Ceiling after where
  openBytes := by rw [openBytes_core opened, policy]; exact ceiling.openBytes
  openRecords := by
    rw [placedRecords_core (openPlaced_core opened), policy]
    exact ceiling.openRecords
  pendingBytes := by rw [policy]; exact pending.trans ceiling.pendingBytes
  seals := fun act member => (acts act member).elim (ceiling.seals act) id

/-- Nothing is open, and what is pending fits one chunk. -/
theorem Ceiling.of_none {before after : Driver} (ceiling : Ceiling before)
    (policy : after.policy = before.policy) (opened : after.openChunk = none)
    (pending : after.pendingBytes ≤ before.policy.maxChunkBytes)
    (acts : ∀ act ∈ after.history, act ∈ before.history ∨ act.WithinCeiling) : Ceiling after where
  openBytes := by rw [Actor.openBytes, opened]; exact Nat.zero_le _
  openRecords := by rw [Actor.openPlaced, opened]; exact Nat.zero_le _
  pendingBytes := by rw [policy]; exact pending
  seals := fun act member => (acts act member).elim (ceiling.seals act) id

theorem Taken.ceiling {driver taken : Driver} {submission : Submission} {ticket : Nat}
    (inHand : Taken driver submission ticket taken) (ceiling : Ceiling driver) :
    Ceiling taken := by
  cases inHand <;> exact ceiling.of_core rfl rfl le_rfl fun _ => Or.inl

theorem pendingBytes_join (actor : Actor) (identity : Identity) (ticket : Nat) :
    ({ actor with pendingAppend :=
      actor.pendingAppend.map (PendingAppend.join identity ticket) } : Actor).pendingBytes =
      actor.pendingBytes :=
  pendingBytes_core (pendingAppend_join_core identity ticket actor.pendingAppend)

/-- The chunk being sealed is within the ceiling when the open one was. -/
theorem Ceiling.sealed {driver : Driver} (ceiling : Ceiling driver) (held : Reservations driver)
    {bytes : Nat} (fits : bytes ≤ (driver.openPlaced.map PlacedSubmission.encodedBytes).sum)
    (chunkId : ChunkId) : Act.WithinCeiling (.sealOpen driver.toActor chunkId (.ok bytes)) := by
  refine ⟨?_, ceiling.openRecords⟩
  rw [← held.openSum] at fits
  exact fits.trans ceiling.openBytes

section steps

variable [Digests]

theorem ceiling_move {before after : Driver} (move : Move before after)
    (met : ∀ act ∈ after.history, act.FitsOpenChunk) (held : Reservations before)
    (ceiling : Ceiling before) : Ceiling after := by
  have kept := reservations_move move held
  have keep (act : Act) (fits : act.WithinCeiling) :
      ∀ other ∈ before.history ++ [act], other ∈ before.history ∨ other.WithinCeiling :=
    acts_append [act] (by simpa using fits)
  cases move with
  | quiet => exact ceiling.of_core rfl rfl le_rfl fun _ => Or.inl
  | say => exact ceiling.of_core rfl rfl le_rfl fun _ => Or.inl
  | refuse inHand => exact (inHand.ceiling ceiling).of_core rfl rfl le_rfl fun _ => Or.inl
  | replay inHand => exact (inHand.ceiling ceiling).of_core rfl rfl le_rfl fun _ => Or.inl
  | joinOpen inHand =>
      exact (inHand.ceiling ceiling).of_core rfl (openChunk_join_core _ _ _) le_rfl fun _ => Or.inl
  | joinPending inHand =>
      exact (inHand.ceiling ceiling).of_core rfl rfl (pendingBytes_join _ _ _).le fun _ => Or.inl
  | park inHand => exact (inHand.ceiling ceiling).of_core rfl rfl le_rfl fun _ => Or.inl
  | @place taken submission ticket inHand encodedBytes sized fresh room =>
      have before := inHand.ceiling ceiling
      obtain ⟨bytes, records⟩ := met (.place taken.toActor
        ⟨submission, taken.placeOffset, encodedBytes, [ticket]⟩) (List.mem_append_right _ (by simp))
      exact {
        openBytes := by rw [place_openBytes]; exact bytes
        openRecords := by
          rw [place_openPlaced, placedRecords_append, placedRecords_singleton, List.length_append]
          exact records
        pendingBytes := before.pendingBytes
        seals := by
          intro act member
          rcases List.mem_append.mp member with old | new
          · exact before.seals act old
          · rw [List.mem_singleton.mp new]
            trivial }
  | sealNothing chunk opened empty => exact absurd empty (held.filled chunk opened)
  | sealRefused chunk first rest error opened filled refused =>
      exact ceiling.of_none rfl rfl ceiling.pendingBytes
        (keep (.sealOpen before.toActor (chunkIdOf before.nextChunk) (.error error)) trivial)
  | sealChunk chunk first rest result opened filled depthOne success =>
      have openBytes := ceiling.openBytes
      rw [Actor.openBytes, opened] at openBytes
      refine ceiling.of_none rfl rfl openBytes (keep _ (ceiling.sealed held ?_ _))
      exact (kept.sealed (.sealOpen before.toActor (chunkIdOf before.nextChunk)
        (.ok result.bytes.length)) (List.mem_append_right _ (by simp))).1
  | sealEnvelope chunk first rest bytes opened filled sink success =>
      have openBytes := ceiling.openBytes
      rw [Actor.openBytes, opened] at openBytes
      refine ceiling.of_none rfl rfl openBytes (keep _ (ceiling.sealed held ?_ _))
      exact (kept.sealed (.sealOpen before.toActor (chunkIdOf before.nextChunk) (.ok bytes))
        (List.mem_append_right _ (by simp))).1
  | commit work ack pending appends =>
      exact ceiling.of_core rfl rfl (Nat.zero_le _)
        (acts_append_puts appends.stored _ (by simp [Act.WithinCeiling]) trivial)
  | fail work error pending appends =>
      exact ceiling.of_none rfl rfl (Nat.zero_le _)
        (acts_append_puts appends.stored _ (by simp [Act.WithinCeiling]) trivial)
  | enqueue envelope placed encodedBytes pending =>
      refine ceiling.of_core rfl rfl ?_ (keep (.enqueue before.toActor envelope) trivial)
      have size : before.pendingBytes = encodedBytes := by rw [Actor.pendingBytes, pending]; rfl
      exact size.ge
  | enqueueFailed => exact ceiling.of_core rfl rfl (Nat.zero_le _) fun _ => Or.inl
  | close => exact ceiling.of_core rfl rfl le_rfl (keep (.close before.toActor) trivial)
  | refuseParked => exact ceiling.of_core rfl rfl le_rfl fun _ => Or.inl
  | exit => exact ceiling.of_core rfl rfl le_rfl fun _ => Or.inl

theorem ceiling_step {before after : Driver} (step : Step before after)
    (met : ∀ act ∈ after.history, act.FitsOpenChunk) (held : Reservations before)
    (ceiling : Ceiling before) : Ceiling after := by
  cases step with
  | own move => exact ceiling_move move met held ceiling
  | sink move =>
      cases move with
      | appendRefs =>
          exact ceiling.of_core rfl rfl le_rfl (acts_append [_] (by simp [Act.WithinCeiling]))
      | misreport | report =>
          exact ceiling.of_core rfl rfl (Nat.zero_le _)
            (acts_append [_] (by simp [Act.WithinCeiling]))

/-- In a run in which every submission fits what the open chunk has left when it is placed, every
sealed chunk is within both bounds and so is the work in flight. -/
theorem run_ceiling {config : DriverConfig} {writer : ChunkLogWriter}
    {recovered : List RecoveredChunk} {store : BlobStore} {driver : Driver}
    (mounted : Driver.new config writer recovered store = .ok driver) (passes : List Pass)
    (fits : ∀ act ∈ (driver.run passes).history, act.FitsOpenChunk) :
    (driver.run passes).pendingBytes ≤ (driver.run passes).policy.maxChunkBytes ∧
      ∀ before chunkId bytes,
        .sealOpen before chunkId (.ok bytes) ∈ (driver.run passes).history →
        bytes ≤ before.policy.maxChunkBytes ∧
          (placedRecords before.openPlaced).length ≤ before.policy.maxChunkRecords := by
  have initial : Reservations driver ∧ Ceiling driver := by
    refine ⟨(new_budget mounted).toReservations, ?_⟩
    obtain ⟨dedup, admittedSeq, knownProducers, rfl⟩ := Driver.new_blank mounted
    exact ⟨Nat.zero_le _, Nat.zero_le _, Nat.zero_le _, by rintro act ⟨⟩⟩
  have preserved (before after : Driver) (step : Step before after)
      (met : ∀ act ∈ after.history, act.FitsOpenChunk)
      (held : Reservations before ∧ Ceiling before) :
      Reservations after ∧ Ceiling after :=
    ⟨reservations_step step held.1, ceiling_step step met held.1 held.2⟩
  obtain ⟨-, ceiling⟩ := run_step_invariant_of_acts preserved initial passes fits
  exact ⟨ceiling.pendingBytes, fun before chunkId bytes member => ceiling.seals _ member⟩

end steps

instance : DecidablePred Act.FitsOpenChunk
  | .place _ _ => inferInstanceAs (Decidable (_ ∧ _))
  | .sealOpen .. | .put .. | .append .. | .enqueue .. | .appendRefs .. | .report .. | .close _ =>
      .isTrue trivial

/-- A chunk that was sealed, with the state it was sealed in. -/
def Act.sealedWhole : Act → Option (Actor × ChunkId × Nat)
  | .sealOpen before chunkId (.ok bytes) => some (before, chunkId, bytes)
  | _ => none

/-- Two submissions are sealed in one chunk. -/
theorem run_ceiling_sealed : ∃ _ : Digests, ∃ before chunkId bytes,
    .sealOpen before chunkId (.ok bytes) ∈
        ((freshDriver pairPolicy).run (pairCommands.map commandPass)).history ∧
      before.openPlaced.length = 2 ∧ bytes ≤ before.policy.maxChunkBytes ∧
        (placedRecords before.openPlaced).length ≤ before.policy.maxChunkRecords := by
  let digests := valueDigests
  have mounted : Driver.new (smallConfig pairPolicy) emptyWriter [] (fun _ => none) =
      .ok (freshDriver pairPolicy) := rfl
  have values :
      (let history := ((freshDriver pairPolicy).run (pairCommands.map commandPass)).history
      (∀ act ∈ history, act.FitsOpenChunk) ∧
        ∃ found ∈ history.filterMap Act.sealedWhole, found.1.openPlaced.length = 2) := by
    decide +kernel
  obtain ⟨fits, ⟨before, chunkId, bytes⟩, member, two⟩ := values
  obtain ⟨act, listed, same⟩ := List.mem_filterMap.mp member
  unfold Act.sealedWhole at same
  split at same <;> cases same
  exact ⟨digests, before, chunkId, bytes, listed, two, (run_ceiling mounted _ fits).2 _ _ _ listed⟩

/-- The driver with the first submission placed. -/
def oneOpen (policy : ChunkPolicy) : Driver :=
  { freshDriver policy with offered := [submissionOf 1 0 1] }.place (submissionOf 1 0 1) 0 199

/-- One record is open when two more arrive, and a chunk may hold two. -/
def overfullCommands : List Command := [.submit (submissionOf 1 0 1), .submit (submissionOf 2 0 2)]

/-- The driver with both submissions placed. -/
def bothOpen (policy : ChunkPolicy) : Driver :=
  (((oneOpen policy).submitted (commandPass (.submit (submissionOf 2 0 2)))
    (submissionOf 2 0 2)).place
    (submissionOf 2 0 2) 1 208).clearAgeSleep

/-- What `bothOpen` has open. -/
def bothChunk : OpenChunk where
  placed := [⟨submissionOf 1 0 1, .ofNat 0, 199, [0]⟩, ⟨submissionOf 2 0 2, .ofNat 1, 208, [1]⟩]
  encodedBytes := 407
  startedAt := 0

/-- Three records are sealed into one chunk under a bound of two. -/
theorem ceiling_exceeded :
    Driver.new (smallConfig (smallPolicy 1000 2 1000)) emptyWriter [] (fun _ => none) =
        .ok (freshDriver (smallPolicy 1000 2 1000)) ∧
      ¬ ∃ digests : Digests, ∀ before chunkId bytes,
        .sealOpen before chunkId (.ok bytes) ∈ (@Driver.run digests
          (freshDriver (smallPolicy 1000 2 1000)) (overfullCommands.map commandPass)).history →
        (placedRecords before.openPlaced).length ≤ before.policy.maxChunkRecords := by
  refine ⟨rfl, ?_⟩
  rintro ⟨digests, bounded⟩
  have first : (freshDriver (smallPolicy 1000 2 1000)).iterate
      (commandPass (.submit (submissionOf 1 0 1))) = oneOpen (smallPolicy 1000 2 1000) := rfl
  have second : (oneOpen (smallPolicy 1000 2 1000)).iterate
      (commandPass (.submit (submissionOf 2 0 2))) =
      (bothOpen (smallPolicy 1000 2 1000)).sealOpen Driver.drainBlocked := by
    have decision : ((oneOpen (smallPolicy 1000 2 1000)).submitted
        (commandPass (.submit (submissionOf 2 0 2))) (submissionOf 2 0 2)).decideAdmission
        (submissionOf 2 0 2) = .ok (.place 208) := rfl
    exact (Driver.iterate_submit rfl rfl (Or.inl rfl) rfl rfl).trans
      (Driver.admit_sealed decision (Or.inl (by decide)))
  have opened : (bothOpen (smallPolicy 1000 2 1000)).openChunk = some bothChunk := rfl
  have sized : encodedChunkLen [(bothOpen (smallPolicy 1000 2 1000)).openFrame bothChunk
      ⟨submissionOf 1 0 1, .ofNat 0, 199, [0]⟩] = .ok 253 := rfl
  obtain ⟨result, -, sealed⟩ := Driver.sealOpen_sealed Driver.drainBlocked opened rfl rfl rfl
    (by decide) sized (by decide)
  have passes (driver : Driver) : driver.run (overfullCommands.map commandPass) =
      (driver.iterate (commandPass (.submit (submissionOf 1 0 1)))).iterate
        (commandPass (.submit (submissionOf 2 0 2))) := rfl
  rw [passes, first, second, sealed] at bounded
  have three := bounded (bothOpen (smallPolicy 1000 2 1000)).toActor _ _
    (List.mem_append_right _ (List.mem_singleton_self _))
  exact absurd three (by decide)

end Scripture
