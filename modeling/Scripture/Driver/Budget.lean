import Scripture.Driver.Progress

set_option autoImplicit false

/- How much a driver holds. Reservations are the sizes of solo chunks, the sealed chunk is never
longer than the sum of its reservations, and open and pending work together stay below the bound
the policy declares. -/
namespace Scripture

open ByteFormat

/-- The fixed part of a solo reservation. -/
def soloOverhead : Nat := soleChunkLen 1 4

theorem encodeFrameRecords_length {records : List Record} {body : Bytes}
    (encoded : encodeFrameRecords records = .ok body) :
    ∃ rest, encodeRecords records = .ok rest ∧ body.length = 4 + rest.length := by
  obtain ⟨-, rest, restEncoded, rfl⟩ := encodeFrameRecords_eq_ok encoded
  exact ⟨rest, restEncoded, by simp⟩

variable {actor : Actor} {submission : Submission} {before after : Driver}

theorem submissionEncodedBytes_eq_ok {size : Nat}
    (encoded : actor.submissionEncodedBytes submission = .ok size) :
    ∃ bytes, encodeRecords submission.records = .ok bytes ∧ size = soloOverhead + bytes.length := by
  unfold Actor.submissionEncodedBytes at encoded
  obtain ⟨count, -, encoded⟩ := bind_eq_ok.mp encoded
  obtain ⟨body, bodyEncoded, rfl, -⟩ := encodedChunkLen_eq_ok (mapError_eq_ok.mp encoded)
  obtain ⟨bytes, recordsEncoded, length⟩ := encodeFrameRecords_length bodyEncoded
  refine ⟨bytes, recordsEncoded, ?_⟩
  simp only [soloOverhead, soleChunkLen, Actor.soloFrame, List.length_singleton, length]
  omega

theorem reservations_sum (placed : List PlacedSubmission) (bytes : Bytes)
    (solo : ∀ item ∈ placed, actor.submissionEncodedBytes item.submission = .ok item.encodedBytes)
    (encoded : encodeRecords (placedRecords placed) = .ok bytes) :
    (placed.map PlacedSubmission.encodedBytes).sum =
      placed.length * soloOverhead + bytes.length := by
  induction placed generalizing bytes with
  | nil =>
      cases encoded
      rfl
  | cons item rest ih =>
      obtain ⟨front, back, frontEncoded, backEncoded, rfl⟩ :=
        (encodeRecords_append item.submission.records (placedRecords rest) bytes).mp encoded
      obtain ⟨own, ownEncoded, size⟩ := submissionEncodedBytes_eq_ok (solo item (by simp))
      cases frontEncoded.symm.trans ownEncoded
      have remaining := ih back (fun other member => solo other (by simp [member])) backEncoded
      simp only [List.map_cons, List.sum_cons, List.length_cons, List.length_append, remaining,
        size, Nat.add_mul, Nat.one_mul]
      omega

/-- A merged chunk is never longer than the reservations of its submissions. -/
theorem merged_length_le {journal : JournalId} {base : RecordOffset}
    {placed : List PlacedSubmission} {body : Bytes} (nonempty : placed ≠ [])
    (solo : ∀ item ∈ placed, actor.submissionEncodedBytes item.submission = .ok item.encodedBytes)
    (encoded : encodeFrameRecords (frameOf journal base placed).records = .ok body) :
    soleChunkLen (frameOf journal base placed).submissions.length body.length ≤
      (placed.map PlacedSubmission.encodedBytes).sum := by
  obtain ⟨bytes, recordsEncoded, length⟩ := encodeFrameRecords_length encoded
  have sum := reservations_sum placed bytes solo recordsEncoded
  have spans : (frameOf journal base placed).submissions.length = placed.length :=
    spansOf_length placed 0
  have positive := List.length_pos_iff.mpr nonempty
  rw [sum, spans, length]
  simp only [soleChunkLen, soloOverhead, headerLen, indexEntryFixedLen, submissionRefLen,
    trailerLen]
  omega

theorem sealed_length_le [Digests] {header : ChunkHeader} {journal : JournalId}
    {base : RecordOffset} {placed : List PlacedSubmission} {result : SealedChunk}
    (nonempty : placed ≠ [])
    (solo : ∀ item ∈ placed, actor.submissionEncodedBytes item.submission = .ok item.encodedBytes)
    (success : sealSingleFrameChunk header [frameOf journal base placed] = .ok result) :
    result.bytes.length ≤ (placed.map PlacedSubmission.encodedBytes).sum := by
  obtain ⟨body, encoded, -, length, -⟩ := (sealSingleFrameChunk_eq_ok success).body
  rw [length]
  exact merged_length_le nonempty solo encoded

/-- An admission that is not blocked leaves both buffers within their limits. -/
theorem room_of_not_blocked (valid : actor.policy.Valid) {encodedBytes : Nat}
    (pendingFits : actor.pendingBytes ≤ actor.policy.maxBufferedBytes)
    (room : actor.shouldBlockAdmission encodedBytes = false) :
    actor.openBytes + encodedBytes ≤ actor.policy.maxBufferedBytes ∧
      actor.openBytes + actor.pendingBytes + encodedBytes ≤ actor.policy.bytesAtRisk := by
  have bounded := valid.bounded
  have positive := valid.chunkBytes
  have risk := valid.bytesAtRisk_eq
  unfold Actor.shouldBlockAdmission at room
  split at room <;> [cases room; skip]
  split at room <;> [cases room; skip]
  rename_i atRisk
  split at room <;> [cases room; skip]
  rename_i buffered
  split at room <;> [cases room; skip]
  rename_i inflight
  unfold Usize.saturatingAdd at atRisk buffered inflight
  have openFits : actor.openBytes + encodedBytes ≤ actor.policy.maxBufferedBytes := by omega
  refine ⟨openFits, ?_⟩
  -- A bound at the very top of `usize` never fires, but then the chunk ceiling applies.
  cases pending : actor.pendingAppend with
  | none =>
      have none : actor.pendingBytes = 0 := by simp [Actor.pendingBytes, pending]
      omega
  | some work =>
      have ceiling : ¬ actor.policy.maxChunkBytes < min (actor.openBytes + encodedBytes)
          Usize.max := by
        simpa [pending] using inflight
      omega

/-- A sealed chunk was no longer than the reservations it had been given. -/
def Act.SealFits : Act → Prop
  | .sealOpen before _ (.ok bytes) =>
      bytes ≤ (before.openPlaced.map PlacedSubmission.encodedBytes).sum ∧
        before.openBytes = (before.openPlaced.map PlacedSubmission.encodedBytes).sum
  | _ => True

/-- The open chunk holds the solo sizes of its submissions, whatever the sink does. -/
structure Reservations (driver : Driver) : Prop where
  valid : driver.policy.Valid
  filled : ∀ chunk, driver.openChunk = some chunk → chunk.placed ≠ []
  solo : ∀ item ∈ driver.openPlaced,
    driver.submissionEncodedBytes item.submission = .ok item.encodedBytes
  openSum : driver.openBytes = (driver.openPlaced.map PlacedSubmission.encodedBytes).sum
  sealed : ∀ act ∈ driver.history, act.SealFits

theorem submissionEncodedBytes_congr {left right : Actor}
    (journal : left.journalId = right.journalId)
    (submission : Submission) :
    left.submissionEncodedBytes submission = right.submissionEncodedBytes submission := by
  unfold Actor.submissionEncodedBytes
  rw [journal]

theorem Reservations.of_core (held : Reservations before) (policy : after.policy = before.policy)
    (journal : after.journalId = before.journalId)
    (opened : after.openChunk.map OpenChunk.core = before.openChunk.map OpenChunk.core)
    (acts : ∀ act ∈ after.history, act ∈ before.history ∨ act.SealFits) : Reservations after where
  valid := by rw [policy]; exact held.valid
  filled := by
    intro chunk present empty
    rw [present] at opened
    cases old : before.openChunk with
    | none => simp [old] at opened
    | some previous =>
        rw [old] at opened
        have same : chunk.placed.map PlacedSubmission.core =
            previous.placed.map PlacedSubmission.core :=
          congrArg OpenChunk.placed (Option.some.inj opened)
        rw [empty] at same
        exact held.filled previous old (List.map_eq_nil_iff.mp same.symm)
  solo := by
    have known := forall_placed_core (fun _ => Iff.rfl) (openPlaced_core opened) held.solo
    intro item member
    rw [submissionEncodedBytes_congr journal]
    exact known item member
  openSum := by
    rw [openBytes_core opened, held.openSum]
    exact congrArg List.sum (map_placed_core PlacedSubmission.encodedBytes (fun _ => rfl)
      (openPlaced_core opened)).symm
  sealed := fun act member => (acts act member).elim (held.sealed act) id

/-- Nothing is open. -/
theorem Reservations.of_none (held : Reservations before) (policy : after.policy = before.policy)
    (opened : after.openChunk = none)
    (acts : ∀ act ∈ after.history, act ∈ before.history ∨ act.SealFits) : Reservations after where
  valid := by rw [policy]; exact held.valid
  filled := by
    intro chunk present
    rw [opened] at present
    cases present
  solo := by
    intro item member
    simp [Actor.openPlaced, opened] at member
  openSum := by simp [Actor.openPlaced, Actor.openBytes, opened]
  sealed := fun act member => (acts act member).elim (held.sealed act) id

theorem place_openBytes (driver : Driver) (submission : Submission) (ticket encodedBytes : Nat) :
    (driver.place submission ticket encodedBytes).openBytes = driver.openBytes + encodedBytes := by
  cases opened : driver.openChunk <;> simp [Driver.place, Driver.send, Driver.event, Driver.record,
    Actor.openBytes, opened]

theorem Reservations.place {driver : Driver} (held : Reservations driver) {submission : Submission}
    {encodedBytes : Nat} (ticket : Nat)
    (encoded : driver.submissionEncodedBytes submission = .ok encodedBytes) :
    Reservations (driver.place submission ticket encodedBytes) where
  valid := held.valid
  filled := by
    rintro chunk present empty
    have placed := place_openPlaced driver submission ticket encodedBytes
    rw [Actor.openPlaced, present] at placed
    dsimp only at placed
    rw [empty] at placed
    simp at placed
  solo := by
    intro item member
    rw [place_openPlaced] at member
    rcases List.mem_append.mp member with old | new
    · exact held.solo item old
    · rw [List.mem_singleton.mp new]
      exact encoded
  openSum := by
    rw [place_openPlaced, place_openBytes, held.openSum]
    simp
  sealed := by
    intro act member
    rcases List.mem_append.mp member with old | new
    · exact held.sealed act old
    · rw [List.mem_singleton.mp new]
      trivial

theorem Taken.reservations {driver taken : Driver} {ticket : Nat}
    (inHand : Taken driver submission ticket taken) (held : Reservations driver) :
    Reservations taken := by
  cases inHand <;> exact held.of_core rfl rfl rfl fun _ => Or.inl

section steps

variable [Digests]

theorem reservations_move {before after : Driver} (move : Move before after)
    (held : Reservations before) : Reservations after := by
  have keep (act : Act) (fits : act.SealFits) :
      ∀ other ∈ before.history ++ [act], other ∈ before.history ∨ other.SealFits :=
    acts_append [act] (by simpa using fits)
  cases move with
  | quiet => exact held.of_core rfl rfl rfl fun _ => Or.inl
  | say => exact held.of_core rfl rfl rfl fun _ => Or.inl
  | refuse inHand => exact (inHand.reservations held).of_core rfl rfl rfl fun _ => Or.inl
  | replay inHand => exact (inHand.reservations held).of_core rfl rfl rfl fun _ => Or.inl
  | joinOpen inHand =>
      exact (inHand.reservations held).of_core rfl rfl (openChunk_join_core _ _ _) fun _ => Or.inl
  | joinPending inHand => exact (inHand.reservations held).of_core rfl rfl rfl fun _ => Or.inl
  | park inHand => exact (inHand.reservations held).of_core rfl rfl rfl fun _ => Or.inl
  | place inHand encodedBytes sized =>
      refine (inHand.reservations held).place _ ?_
      rw [← sized.encoded]
      exact submissionEncodedBytes_congr (by cases inHand <;> rfl) _
  | sealNothing chunk opened empty => exact absurd empty (held.filled chunk opened)
  | sealRefused chunk first rest error opened filled refused =>
      exact held.of_none rfl rfl (keep _ trivial)
  | sealChunk chunk first rest result opened filled depthOne success =>
      have placed := openPlaced_of_some opened
      refine held.of_none rfl rfl (keep _ ⟨?_, held.openSum⟩)
      rw [placed]
      exact sealed_length_le (held.filled chunk opened) (placed ▸ held.solo) success
  | sealEnvelope chunk first rest bytes opened filled sink success =>
      have placed := openPlaced_of_some opened
      obtain ⟨body, encoded, length, -⟩ := encodedChunkLen_eq_ok success
      refine held.of_none rfl rfl (keep _ ⟨?_, held.openSum⟩)
      rw [placed, length]
      exact merged_length_le (held.filled chunk opened) (placed ▸ held.solo) encoded
  | commit work ack pending appends =>
      exact held.of_core rfl rfl rfl
        (acts_append_puts appends.stored _ (by simp [Act.SealFits]) trivial)
  | fail work error pending appends =>
      exact held.of_none rfl rfl
        (acts_append_puts appends.stored _ (by simp [Act.SealFits]) trivial)
  | enqueue envelope =>
      exact held.of_core rfl rfl rfl (keep (.enqueue before.toActor envelope) trivial)
  | enqueueFailed => exact held.of_core rfl rfl rfl fun _ => Or.inl
  | close => exact held.of_core rfl rfl rfl (keep _ trivial)
  | refuseParked => exact held.of_core rfl rfl rfl fun _ => Or.inl
  | exit => exact held.of_core rfl rfl rfl fun _ => Or.inl

theorem reservations_sinkMove {before after : Driver} (move : SinkMove before after)
    (held : Reservations before) : Reservations after := by
  cases move with
  | appendRefs => exact held.of_core rfl rfl rfl (acts_append [_] (by simp [Act.SealFits]))
  | misreport => exact held.of_core rfl rfl rfl (acts_append [_] (by simp [Act.SealFits]))
  | report => exact held.of_core rfl rfl rfl (acts_append [_] (by simp [Act.SealFits]))

theorem reservations_step {before after : Driver} (step : Step before after)
    (held : Reservations before) : Reservations after := by
  cases step with
  | own move => exact reservations_move move held
  | sink move => exact reservations_sinkMove move held

end steps

/-- A placement left room for itself, and no sum it makes overflows. -/
def Act.PlaceFits : Act → Prop
  | .place before placed =>
      before.openBytes + before.pendingBytes + placed.encodedBytes ≤ before.policy.bytesAtRisk ∧
        before.policy.bytesAtRisk ≤ Usize.max
  | _ => True

/-- The sealed work is no longer than its reservation. -/
def PendingAppend.Fits : PendingAppend → Prop
  | .depthOne work => work.chunk.bytes.length ≤ work.encodedBytes
  | .blobSink .. => True

/-- The loss budget: what is open and what is pending, against what the policy declares. -/
structure Budget (driver : Driver) : Prop extends Reservations driver where
  pendingSolo : ∀ item ∈ driver.pendingPlaced,
    driver.submissionEncodedBytes item.submission = .ok item.encodedBytes
  pendingSum : driver.pendingBytes = (driver.pendingPlaced.map PlacedSubmission.encodedBytes).sum
  pendingLength : ∀ pending, driver.pendingAppend = some pending → pending.Fits
  openFits : driver.openBytes ≤ driver.policy.maxBufferedBytes
  pendingFits : driver.pendingBytes ≤ driver.policy.maxBufferedBytes
  total : driver.openBytes + driver.pendingBytes ≤ driver.policy.bytesAtRisk
  reserved : driver.reservedBytes = driver.openBytes + driver.pendingBytes
  published : driver.metrics.reservedBytes = driver.openBytes + driver.pendingBytes
  places : ∀ act ∈ driver.history, act.PlaceFits

theorem PendingAppend.fits_core (pending : PendingAppend) : pending.Fits ↔ pending.core.Fits := by
  cases pending <;> exact Iff.rfl

/-- The numbers stay within bounds while the pending work is the same and the open work does not
grow. -/
theorem Budget.of_parts (budget : Budget before) (kept : Reservations after)
    (policy : after.policy = before.policy) (journal : after.journalId = before.journalId)
    (opened : after.openBytes ≤ before.openBytes)
    (placed : after.pendingPlaced.map PlacedSubmission.core =
      before.pendingPlaced.map PlacedSubmission.core)
    (size : after.pendingBytes = before.pendingBytes)
    (fits : ∀ pending, after.pendingAppend = some pending → pending.Fits)
    (reserved : after.reservedBytes = after.openBytes + after.pendingBytes)
    (published : after.metrics.reservedBytes = after.openBytes + after.pendingBytes)
    (acts : ∀ act ∈ after.history, act ∈ before.history ∨ act.PlaceFits) : Budget after := by
  have openFits := budget.openFits
  have total := budget.total
  exact {
    kept with
    pendingSolo := by
      have known := forall_placed_core (fun _ => Iff.rfl) placed budget.pendingSolo
      intro item member
      rw [submissionEncodedBytes_congr journal]
      exact known item member
    pendingSum := by
      rw [size, budget.pendingSum]
      exact congrArg List.sum
        (map_placed_core PlacedSubmission.encodedBytes (fun _ => rfl) placed).symm
    pendingLength := fits
    openFits := by rw [policy]; omega
    pendingFits := by rw [size, policy]; exact budget.pendingFits
    total := by rw [size, policy]; omega
    reserved := reserved
    published := published
    places := fun act member => (acts act member).elim (budget.places act) id }

theorem Budget.of_core (budget : Budget before) (kept : Reservations after)
    (policy : after.policy = before.policy) (journal : after.journalId = before.journalId)
    (opened : after.openChunk.map OpenChunk.core = before.openChunk.map OpenChunk.core)
    (pending : after.pendingAppend.map PendingAppend.core =
      before.pendingAppend.map PendingAppend.core)
    (reserved : after.reservedBytes = before.reservedBytes)
    (published : after.metrics.reservedBytes = before.metrics.reservedBytes)
    (acts : ∀ act ∈ after.history, act ∈ before.history ∨ act.PlaceFits) : Budget after := by
  have openBytes := openBytes_core opened
  have pendingBytes := pendingBytes_core pending
  refine budget.of_parts kept policy journal openBytes.le (pendingPlaced_core pending) pendingBytes
    ?_ ?_ ?_ acts
  · intro held present
    rw [present] at pending
    cases old : before.pendingAppend with
    | none => simp [old] at pending
    | some previous =>
        rw [old] at pending
        have same : held.core = previous.core := Option.some.inj pending
        rw [held.fits_core, same, ← previous.fits_core]
        exact budget.pendingLength previous old
  · rw [openBytes, pendingBytes, reserved]
    exact budget.reserved
  · rw [openBytes, pendingBytes, published]
    exact budget.published

/-- Nothing is pending, and the numbers were published from what is left. -/
theorem Budget.of_idle (budget : Budget before) (kept : Reservations after)
    (policy : after.policy = before.policy) (pending : after.pendingAppend = none)
    (opened : after.openBytes = before.openBytes ∨ after.openBytes = 0)
    (reserved : after.reservedBytes = after.openBytes)
    (published : after.metrics.reservedBytes = after.openBytes)
    (acts : ∀ act ∈ after.history, act ∈ before.history ∨ act.PlaceFits) : Budget after := by
  have none : after.pendingBytes = 0 := by rw [Actor.pendingBytes, pending]
  have empty : after.pendingPlaced = [] := by rw [Actor.pendingPlaced, pending]
  have total := budget.total
  have openFits := budget.openFits
  exact {
    kept with
    pendingSolo := by simp [empty]
    pendingSum := by simp [none, empty]
    pendingLength := by simp [pending]
    openFits := by rw [policy]; omega
    pendingFits := by rw [none]; exact Nat.zero_le _
    total := by rw [none, policy]; omega
    reserved := by rw [none, reserved, Nat.add_zero]
    published := by rw [none, published, Nat.add_zero]
    places := fun act member => (acts act member).elim (budget.places act) id }

/-- The open work becomes the pending work, in place of what was pending. -/
theorem Budget.of_sealed (budget : Budget before) (kept : Reservations after) {chunk : OpenChunk}
    {pending : PendingAppend} (policy : after.policy = before.policy)
    (journal : after.journalId = before.journalId) (opened : before.openChunk = some chunk)
    (taken : after.openChunk = none) (present : after.pendingAppend = some pending)
    (placed : pending.placed = chunk.placed) (size : pending.encodedBytes = chunk.encodedBytes)
    (fits : pending.Fits) (reserved : after.reservedBytes = chunk.encodedBytes)
    (published : after.metrics.reservedBytes = chunk.encodedBytes)
    (acts : ∀ act ∈ after.history, act ∈ before.history ∨ act.PlaceFits) : Budget after := by
  have bytes : after.pendingBytes = chunk.encodedBytes := by
    rw [Actor.pendingBytes, present]; exact size
  have items : after.pendingPlaced = chunk.placed := by
    rw [Actor.pendingPlaced, present]; exact placed
  have zero : after.openBytes = 0 := by rw [Actor.openBytes, taken]
  have openBytes : before.openBytes = chunk.encodedBytes := by rw [Actor.openBytes, opened]
  have openPlaced := openPlaced_of_some opened
  have openFits := budget.openFits
  have risk := budget.valid.bytesAtRisk_eq
  exact {
    kept with
    pendingSolo := by
      intro item member
      rw [submissionEncodedBytes_congr journal]
      rw [items, ← openPlaced] at member
      exact budget.solo item member
    pendingSum := by rw [bytes, items, ← openBytes, budget.openSum, openPlaced]
    pendingLength := by
      intro held same
      cases present.symm.trans same
      exact fits
    openFits := by rw [zero]; exact Nat.zero_le _
    pendingFits := by rw [bytes, policy, ← openBytes]; exact openFits
    total := by rw [zero, bytes, policy]; omega
    reserved := by rw [zero, bytes, reserved, Nat.zero_add]
    published := by rw [zero, bytes, published, Nat.zero_add]
    places := fun act member => (acts act member).elim (budget.places act) id }

theorem Taken.budget {driver taken : Driver} {ticket : Nat}
    (inHand : Taken driver submission ticket taken) (budget : Budget driver) : Budget taken := by
  cases inHand <;> exact budget.of_core (budget.toReservations.of_core rfl rfl rfl fun _ => Or.inl)
    rfl rfl rfl rfl rfl rfl fun _ => Or.inl

theorem Budget.place {driver : Driver} (budget : Budget driver) {submission : Submission}
    {encodedBytes : Nat} (ticket : Nat)
    (kept : Reservations (driver.place submission ticket encodedBytes))
    (room : driver.shouldBlockAdmission encodedBytes = false) :
    Budget (driver.place submission ticket encodedBytes) := by
  obtain ⟨openFits, total⟩ := room_of_not_blocked budget.valid budget.pendingFits room
  have risk := budget.valid.bytesAtRisk_eq
  have bounded := budget.valid.bounded
  have openBytes := place_openBytes driver submission ticket encodedBytes
  have pendingBytes : (driver.place submission ticket encodedBytes).pendingBytes =
      driver.pendingBytes := rfl
  have sum : driver.openBytes + driver.pendingBytes + encodedBytes =
      driver.openBytes + encodedBytes + driver.pendingBytes := by omega
  exact {
    kept with
    pendingSolo := budget.pendingSolo
    pendingSum := budget.pendingSum
    pendingLength := budget.pendingLength
    openFits := by rw [openBytes]; exact openFits
    pendingFits := budget.pendingFits
    total := by
      rw [openBytes, pendingBytes, ← sum]
      exact total
    reserved := by rw [openBytes, pendingBytes, ← sum]; rfl
    published := by rw [openBytes, pendingBytes, ← sum]; rfl
    places := by
      intro act member
      rcases List.mem_append.mp member with old | new
      · exact budget.places act old
      · rw [List.mem_singleton.mp new]
        exact ⟨total, by show driver.policy.bytesAtRisk ≤ _; omega⟩ }

theorem budget_move [Digests] (move : Move before after) (budget : Budget before) :
    Budget after := by
  have kept := reservations_move move budget.toReservations
  have keep (act : Act) (fits : act.PlaceFits) :
      ∀ other ∈ before.history ++ [act], other ∈ before.history ∨ other.PlaceFits :=
    acts_append [act] (by simpa using fits)
  cases move with
  | quiet now ledger ageSleep ageSleepDeadline metrics published =>
      exact budget.of_core kept rfl rfl rfl rfl rfl published fun _ => Or.inl
  | say => exact budget.of_core kept rfl rfl rfl rfl rfl rfl fun _ => Or.inl
  | refuse inHand =>
      exact (inHand.budget budget).of_core kept rfl rfl rfl rfl rfl rfl fun _ => Or.inl
  | replay inHand =>
      exact (inHand.budget budget).of_core kept rfl rfl rfl rfl rfl rfl fun _ => Or.inl
  | joinOpen inHand =>
      exact (inHand.budget budget).of_core kept rfl rfl (openChunk_join_core _ _ _) rfl rfl rfl
        fun _ => Or.inl
  | joinPending inHand =>
      exact (inHand.budget budget).of_core kept rfl rfl rfl (pendingAppend_join_core _ _ _) rfl rfl
        fun _ => Or.inl
  | park inHand => exact (inHand.budget budget).of_core kept rfl rfl rfl rfl rfl rfl fun _ => Or.inl
  | place inHand encodedBytes sized fresh room =>
      refine (inHand.budget budget).place _ kept ?_
      rw [← room]
      cases inHand <;> rfl
  | sealNothing chunk opened empty => exact absurd empty (budget.filled chunk opened)
  | sealRefused chunk first rest error opened filled refused =>
      -- What was pending stays pending, and nothing is open.
      exact budget.of_parts kept rfl rfl (Nat.zero_le _) rfl rfl budget.pendingLength rfl rfl
        (keep (.sealOpen before.toActor (chunkIdOf before.nextChunk) (.error error)) trivial)
  | sealChunk chunk first rest result opened filled depthOne success =>
      have placed := openPlaced_of_some opened
      have size : chunk.encodedBytes = (chunk.placed.map PlacedSubmission.encodedBytes).sum := by
        rw [← placed, ← budget.openSum, Actor.openBytes, opened]
      have fits : result.bytes.length ≤ chunk.encodedBytes := by
        rw [size]
        exact sealed_length_le (budget.filled chunk opened) (placed ▸ budget.solo) success
      exact budget.of_sealed kept rfl rfl opened rfl rfl rfl rfl fits (Nat.zero_add _)
        (Nat.zero_add _) (keep _ trivial)
  | sealEnvelope chunk first rest bytes opened filled sink success =>
      exact budget.of_sealed kept rfl rfl opened rfl rfl rfl rfl trivial (Nat.zero_add _)
        (Nat.zero_add _) (keep _ trivial)
  | commit work ack pending appends published =>
      exact budget.of_idle kept rfl rfl (Or.inl rfl) (Nat.add_zero _) published
        (acts_append_puts appends.stored _ (by simp [Act.PlaceFits]) trivial)
  | fail work error pending appends published =>
      exact budget.of_idle kept rfl rfl (Or.inr rfl) rfl published
        (acts_append_puts appends.stored _ (by simp [Act.PlaceFits]) trivial)
  | enqueue envelope placed encodedBytes pending =>
      have same : placed = before.pendingPlaced := by rw [Actor.pendingPlaced, pending]; rfl
      have size : encodedBytes = before.pendingBytes := by rw [Actor.pendingBytes, pending]; rfl
      subst same size
      refine budget.of_parts kept rfl rfl le_rfl rfl rfl ?_ budget.reserved budget.published
        (keep (.enqueue before.toActor envelope) trivial)
      intro held present
      cases present
      trivial
  | enqueueFailed envelope placed encodedBytes message pending =>
      exact budget.of_idle kept rfl rfl (Or.inl rfl) (Nat.add_zero _) (Nat.add_zero _)
        fun _ => Or.inl
  | close => exact budget.of_core kept rfl rfl rfl rfl rfl rfl (keep _ trivial)
  | refuseParked => exact budget.of_core kept rfl rfl rfl rfl rfl rfl fun _ => Or.inl
  | exit => exact budget.of_core kept rfl rfl rfl rfl rfl rfl fun _ => Or.inl

/-- The sum of the reservations of placed submissions. -/
def reservations (placed : List PlacedSubmission) : Nat :=
  (placed.map PlacedSubmission.encodedBytes).sum

/-- The promise of the loss budget about one state and everything that led to it. -/
structure LossBudget (driver : Driver) : Prop where
  solo : ∀ item ∈ driver.openPlaced ++ driver.pendingPlaced,
    driver.submissionEncodedBytes item.submission = .ok item.encodedBytes
  bounded : reservations driver.openPlaced + reservations driver.pendingPlaced ≤
    driver.policy.bytesAtRisk
  noOverflow : driver.policy.bytesAtRisk ≤ Usize.max
  reserved : driver.reservedBytes =
    reservations driver.openPlaced + reservations driver.pendingPlaced
  published : driver.metrics.reservedBytes =
    reservations driver.openPlaced + reservations driver.pendingPlaced
  sealedLength : ∀ work, driver.pendingAppend = some (.depthOne work) →
    work.chunk.bytes.length ≤ reservations work.placed
  placements : ∀ before placed, .place before placed ∈ driver.history →
    before.openBytes + before.pendingBytes + placed.encodedBytes ≤ Usize.max
  seals : ∀ before chunkId bytes, .sealOpen before chunkId (.ok bytes) ∈ driver.history →
    bytes ≤ reservations before.openPlaced

theorem Budget.lossBudget {driver : Driver} (budget : Budget driver) : LossBudget driver where
  solo := by
    intro item member
    exact (List.mem_append.mp member).elim (budget.solo item) (budget.pendingSolo item)
  bounded := by
    have total := budget.total
    rwa [budget.openSum, budget.pendingSum] at total
  noOverflow := by
    rw [budget.valid.bytesAtRisk_eq]
    exact budget.valid.bounded
  reserved := by
    rw [budget.reserved, budget.openSum, budget.pendingSum]
    rfl
  published := by
    rw [budget.published, budget.openSum, budget.pendingSum]
    rfl
  sealedLength := by
    intro work pending
    have fits : work.chunk.bytes.length ≤ work.encodedBytes := budget.pendingLength _ pending
    have sum := budget.pendingSum
    rw [Actor.pendingBytes, Actor.pendingPlaced, pending] at sum
    exact fits.trans sum.le
  placements := by
    intro before placed member
    obtain ⟨fits, bounded⟩ := budget.places _ member
    exact fits.trans bounded
  seals := fun before chunkId bytes member => (budget.sealed _ member).1

theorem new_budget {config : DriverConfig} {writer : ChunkLogWriter}
    {recovered : List RecoveredChunk} {store : BlobStore} {driver : Driver}
    (mounted : Driver.new config writer recovered store = .ok driver) : Budget driver := by
  obtain ⟨valid, -⟩ := Driver.new_eq_ok mounted
  obtain ⟨dedup, admittedSeq, knownProducers, rfl⟩ := Driver.new_blank mounted
  exact {
    valid := valid
    filled := by rintro chunk ⟨⟩
    solo := by rintro item ⟨⟩
    openSum := rfl
    sealed := by rintro act ⟨⟩
    pendingSolo := by rintro item ⟨⟩
    pendingSum := rfl
    pendingLength := by rintro pending ⟨⟩
    openFits := Nat.zero_le _
    pendingFits := Nat.zero_le _
    total := Nat.zero_le _
    reserved := rfl
    published := rfl
    places := by rintro act ⟨⟩ }

/-- In every state a driver reaches, move by move and pass by pass, what it holds is within the
declared bound and is what it publishes, and no sealed chunk is longer than its reservations. -/
theorem reachable_lossBudget [Digests] {config : DriverConfig} {writer : ChunkLogWriter}
    {recovered : List RecoveredChunk} {store : BlobStore} {driver : Driver}
    (mounted : Driver.new config writer recovered store = .ok driver) :
    (∀ state, Moves driver state → LossBudget state) ∧
      ∀ passes : List Pass, (∀ pass ∈ passes, pass.Plain) → LossBudget (driver.run passes) := by
  have initial := new_budget mounted
  constructor
  · intro state reached
    suffices budget : Budget state from budget.lossBudget
    induction reached with
    | refl => exact initial
    | tail _ move ih => exact budget_move move ih
  · intro passes plain
    exact (run_invariant (fun _ _ => budget_move) initial passes plain).lossBudget

/-- Two submissions that share a chunk of a driver over an empty log. -/
theorem reachable_lossBudget_shared :
    LossBudget (@Driver.run sampleDigests (freshDriver (smallPolicy 1000 10 1000))
      ([.submit (submissionOf 1 0 1), .submit (submissionOf 2 0 2), .flush 0].map
        commandPass)) := by
  have mounted : Driver.new (smallConfig (smallPolicy 1000 10 1000)) emptyWriter []
      (fun _ => none) = .ok (freshDriver (smallPolicy 1000 10 1000)) := rfl
  exact (@reachable_lossBudget sampleDigests _ _ _ _ _ mounted).2 _
    (commandPass_plain (by simp [Command.Plain]))

end Scripture
