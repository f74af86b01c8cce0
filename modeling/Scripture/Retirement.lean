import Scripture.Producer.Faults

set_option autoImplicit false

/- Room for the end of what was admitted. Neither the outbox of a producer nor the spool before the
seal keeps any for the record of a commit; the spool, besides, never gives back what a write that
succeeded had reserved. -/
namespace Scripture.Producer

open ByteFormat AppendLog

def ackRecordBytes : Nat := 17

theorem ackRecord_length [Digests] (sequence : UInt64) :
    (frameRecord (ackBody sequence)).length = ackRecordBytes := by
  rw [frameRecord_length]
  simp only [ackBody, List.length_append, List.length_singleton, putU64_length, ackRecordBytes]

/-- Whether an entry still waits for its acknowledgement. -/
def isPendingEntry : Nat × EntryState → Bool
  | (_, .pending _) => true
  | (_, .acknowledged _) => false

namespace ProducerOutbox

theorem pendingSubmissions_length (outbox : ProducerOutbox) :
    outbox.pendingSubmissions.length = outbox.entries.entries.countP isPendingEntry := by
  unfold pendingSubmissions
  rw [List.length_filterMap_eq_countP]
  refine congrArg (fun kind => List.countP kind _) (funext fun entry => ?_)
  obtain ⟨sequence, pending | acknowledged⟩ := entry
  · rfl
  · rfl

variable {outbox : ProducerOutbox}

theorem countP_pos {sequence : Nat} {original : Bytes}
    (found : outbox.entries.find? sequence = some (.pending original)) :
    0 < outbox.entries.entries.countP isPendingEntry :=
  List.countP_pos_iff.mpr ⟨_, OrderedMap.find?_eq_some.mp found, rfl⟩

theorem reserve_fits (word : outbox.maxBytes ≤ Usize.max) {attempted : Nat}
    (fits : outbox.usedBytes + attempted ≤ outbox.maxBytes) :
    outbox.reserve attempted = .ok () := by
  have sum : Usize.checkedAdd outbox.usedBytes attempted = some (outbox.usedBytes + attempted) :=
    Usize.checkedAdd_eq_some.mpr ⟨rfl, fits.trans word⟩
  unfold reserve
  simp only [sum]
  rw [if_neg (by omega)]
  rfl

/-- Room for more bytes and more entries, beside the acknowledgements of all that is pending. -/
def Room (outbox : ProducerOutbox) (bytes entries : Nat) : Prop :=
  outbox.usedBytes + bytes + ackRecordBytes * (outbox.pendingSubmissions.length + entries) ≤
    outbox.maxBytes

instance (outbox : ProducerOutbox) (bytes entries : Nat) : Decidable (outbox.Room bytes entries) :=
  inferInstanceAs (Decidable (_ ≤ _))

/-- The limit is a word of the machine, and leaves room for what is pending. -/
def Ready (outbox : ProducerOutbox) : Prop := outbox.maxBytes ≤ Usize.max ∧ outbox.Room 0 0

instance (outbox : ProducerOutbox) : Decidable outbox.Ready := inferInstanceAs (Decidable (_ ∧ _))

variable [Digests]

/-- A submission is written only if its acknowledgement will fit behind it. -/
def Spares (outbox : ProducerOutbox) : OutboxCall × WalIo → Prop
  | (.stage encodedSubmit, _) =>
      ∀ body ∈ outbox.body? (.stage encodedSubmit), outbox.Room (frameRecord body).length 1
  | (.mark _ _, _) => True

instance (outbox : ProducerOutbox) (event : OutboxCall × WalIo) :
    Decidable (outbox.Spares event) :=
  match event with
  | (.stage encodedSubmit, _) => inferInstanceAs
      (Decidable (∀ body ∈ outbox.body? (.stage encodedSubmit),
        outbox.Room (frameRecord body).length 1))
  | (.mark _ _, _) => inferInstanceAs (Decidable True)

/-- A record costs its length and changes what is pending by one entry. -/
theorem room_grown {event : OutboxCall × WalIo} {body : Bytes} (room : outbox.Room 0 0)
    (spares : outbox.Spares event) (wrote : outbox.body? event.1 = some body) :
    (outbox.grown body (event.1.effect outbox.entries)).Room 0 0 := by
  unfold Room at room ⊢
  rw [pendingSubmissions_length] at room ⊢
  show outbox.usedBytes + (frameRecord body).length + 0 + ackRecordBytes *
    ((event.1.effect outbox.entries).entries.countP isPendingEntry + 0) ≤ outbox.maxBytes
  obtain ⟨encodedSubmit | ⟨producerEpoch, sequence⟩, io⟩ := event
  · obtain ⟨sequence, carried, absent, -, -⟩ := stage_writes wrote
    have counted := outbox.entries.countP_insert sequence.toNat (.pending encodedSubmit)
      isPendingEntry
    have kept := spares body wrote
    unfold Room at kept
    rw [pendingSubmissions_length] at kept
    simp only [absent, OutboxCall.effect, carried, Option.toList_none, List.map_nil,
      List.countP_nil, List.countP_singleton, isPendingEntry, if_true] at counted ⊢
    rw [show (outbox.entries.insert sequence.toNat (.pending encodedSubmit)).entries.countP
      isPendingEntry = outbox.entries.entries.countP isPendingEntry + 1 from counted]
    omega
  · obtain ⟨original, planned, rfl⟩ := mark_writes wrote
    obtain ⟨-, found, -, -⟩ := planMark_eq_ok planned
    have counted := outbox.entries.countP_insert sequence.toNat (.acknowledged original)
      isPendingEntry
    simp only [found, OutboxCall.effect, Option.toList_some, List.map_cons, List.map_nil,
      List.countP_singleton, isPendingEntry, if_true] at counted ⊢
    rw [ackRecord_length]
    simp only [ackRecordBytes] at room ⊢
    have fewer : (outbox.entries.insert sequence.toNat (.acknowledged original)).entries.countP
      isPendingEntry + 1 = outbox.entries.entries.countP isPendingEntry := counted
    omega

theorem ready_step (ready : outbox.Ready) (event : OutboxCall × WalIo)
    (spares : outbox.Spares event) : (outbox.step event).Ready := by
  obtain ⟨-, -, limit⟩ := outbox.perform_frame event.1 event.2
  refine ⟨limit ▸ ready.1, ?_⟩
  unfold ProducerOutbox.step
  cases wrote : outbox.body? event.1 with
  | none =>
      rw [perform_silent wrote]
      exact ready.2
  | some body =>
      cases outcome : event.2.succeeds with
      | true =>
          rw [perform_succeeds wrote outcome]
          exact room_grown ready.2 spares wrote
      | false =>
          obtain ⟨wal, same, -⟩ := perform_fails wrote outcome
          rw [same]
          exact ready.2

/-- With room for it, an acknowledgement is not refused. -/
theorem markCommitted_fits (ready : outbox.Ready) (producerEpoch : UInt32) (sequence : UInt64)
    (io : WalIo) (usedBytes attemptedBytes limit : Nat) :
    (outbox.markCommitted producerEpoch sequence io).2 ≠
      .error (.capacityExceeded usedBytes attemptedBytes limit) := by
  obtain ⟨word, room⟩ := ready
  intro refused
  simp only [markCommitted] at refused
  split at refused
  · rename_i error planned
    cases refused
    rcases checked_eq_error.mp planned with ⟨-, other⟩ | ⟨-, planned⟩
    · cases other
    · split at planned
      · cases planned
      · cases planned
      · rename_i original found
        have waiting := countP_pos found
        rw [← pendingSubmissions_length] at waiting
        unfold Room at room
        rcases bind_eq_error.mp planned with reserved | ⟨_, -, planned⟩
        · rw [encodeAckRecord, ackRecord_length, reserve_fits word] at reserved
          · cases reserved
          · simp only [ackRecordBytes] at room ⊢
            omega
        · cases planned
  · cases refused
  · split at refused
    · cases refused
    · cases refused

end ProducerOutbox

end Scripture.Producer

namespace Scripture.Spool

open ByteFormat AppendLog

def progressFrameBytes : Nat := 58

theorem encodeFrame_progress [Digests] (identity : ProgressIdentity) :
    ∃ encoded, encodeFrame (.progress identity) = .ok encoded ∧
      encoded.length = progressFrameBytes := by
  have journal := identity.journalId.bytes.property
  have producer := identity.producerId.bytes.property
  have length : (frameMagic ++ ([frameVersion] ++ ([kindProgress] ++ encodeIdentity identity)) ++
      putU32 (Digests.crc32c (frameMagic ++ ([frameVersion] ++ ([kindProgress] ++
        encodeIdentity identity))))).length = 54 := by
    simp only [frameMagic, encodeIdentity, List.length_append, List.length_cons, List.length_nil,
      putU32_length, putU64_length, journal, producer]
  refine ⟨_, bind_eq_ok.mpr ⟨_, rfl, checked_eq_ok.mpr ⟨?_, rfl⟩⟩, ?_⟩
  · rw [length]
    decide
  · rw [List.length_append, length, putU32_length]
    rfl

/-- What a write, successful or not, adds to the counters. -/
theorem FileSpoolStorage.persist_counters [Digests] (storage : FileSpoolStorage)
    {frame : SpoolFrame} {encoded : Bytes} (encodes : encodeFrame frame = .ok encoded)
    (reply : WriteReply)
    (synced : Bool) :
    let written := storage.persist frame reply synced
    written.1.usedBytes ≤ storage.usedBytes + encoded.length ∧
      written.1.frameCount ≤ storage.frameCount + 1 ∧ written.2 ≠ .error .capacityExceeded := by
  simp only [FileSpoolStorage.persist, FileSpoolStorage.appendFrame, encodes]
  cases reply with
  | written =>
      simp only [FileSpoolStorage.sync, Usize.saturatingAdd]
      split
      · exact ⟨Nat.min_le_left _ _, Nat.min_le_left _ _, by simp⟩
      · exact ⟨Nat.min_le_left _ _, Nat.min_le_left _ _, by simp⟩
  | failed kept => exact ⟨Nat.le_add_right _ _, Nat.le_add_right _ _, by simp⟩

/-- The frame of an envelope, as it is written. -/
def encodedEnvelope [Digests] (envelope : BlobEnvelope) : Except PreCommitSpoolError Bytes := do
  let submission ← submissionOfEnvelope envelope
  (encodeFrame (.preCommit envelope.verseKey envelope.chunkId envelope.journalId envelope.cohortId
    submission)).mapError fun error => .spool (.frame error)

namespace PreCommitSpool

/-- Room for more bytes and more frames, beside a progress frame, counted twice, for each pending
envelope. -/
def Room (spool : PreCommitSpool) (bytes frames : Nat) : Prop :=
  spool.storage.usedBytes + spool.reservedBytes + bytes +
      2 * progressFrameBytes * spool.pending.length ≤ spool.config.val.wal.maxWalBytes ∧
    spool.storage.frameCount + frames + spool.pending.length ≤ spool.config.val.wal.maxFrames

instance (spool : PreCommitSpool) (bytes frames : Nat) : Decidable (spool.Room bytes frames) :=
  inferInstanceAs (Decidable (_ ∧ _))

/-- The limit is a word of the machine, and leaves room for what is pending. -/
def Ready (spool : PreCommitSpool) : Prop :=
  spool.config.val.wal.maxWalBytes ≤ Usize.max ∧ spool.Room 0 0

instance (spool : PreCommitSpool) : Decidable spool.Ready := inferInstanceAs (Decidable (_ ∧ _))

/-- The segment can take the frame, as its own counters have it. -/
def Takes (spool : PreCommitSpool) (bytes : Nat) : Prop :=
  spool.storage.usedBytes + bytes ≤ spool.config.val.wal.maxWalBytes ∧
    Usize.saturatingAdd spool.storage.frameCount 1 ≤ spool.config.val.wal.maxFrames

instance (spool : PreCommitSpool) (bytes : Nat) : Decidable (spool.Takes bytes) :=
  inferInstanceAs (Decidable (_ ∧ _))

variable [Digests]

/-- A frame that the segment could take leaves room for its progress and its reservation; a
progress frame succeeds, or leaves room for another attempt. -/
def Spares (spool : PreCommitSpool) : PreCommitEvent → Prop
  | .persist envelope _ _ => ∀ encoded ∈ (encodedEnvelope envelope).toOption,
      encoded.length ≤ spool.config.val.wal.maxFrameBytes ∧
        (spool.Takes encoded.length → spool.Room (2 * encoded.length + 2 * progressFrameBytes) 2)
  | .observe identity reply synced => identity ∈ spool.committed ∨
      spool.isPending identity = true ∧ reply = .written ∧ synced = true ∨
      spool.Room (2 * progressFrameBytes) 1
  | .drain => True
  | .reopen kept config => (spool.reopen kept config).Ready

instance (spool : PreCommitSpool) (event : PreCommitEvent) : Decidable (spool.Spares event) :=
  match event with
  | .persist envelope _ _ => inferInstanceAs
      (Decidable (∀ encoded ∈ (encodedEnvelope envelope).toOption, _ ∧ (_ → _)))
  | .observe _ _ _ => inferInstanceAs (Decidable (_ ∨ _ ∧ _ ∧ _ ∨ _))
  | .drain => inferInstanceAs (Decidable True)
  | .reopen kept config => inferInstanceAs (Decidable (spool.reopen kept config).Ready)

variable {spool : PreCommitSpool} {envelope : BlobEnvelope} {identity : ProgressIdentity}

omit [Digests] in
theorem reserve_fits (word : spool.config.val.wal.maxWalBytes ≤ Usize.max) {bytes : Nat}
    (fits : spool.storage.usedBytes + spool.reservedBytes + bytes ≤
      spool.config.val.wal.maxWalBytes)
    (counted : spool.storage.frameCount + 1 ≤ spool.config.val.wal.maxFrames) :
    ∃ reserved, spool.reserve bytes = .ok reserved := by
  have used : Usize.checkedAdd spool.storage.usedBytes spool.reservedBytes =
      some (spool.storage.usedBytes + spool.reservedBytes) :=
    Usize.checkedAdd_eq_some.mpr ⟨rfl, by omega⟩
  have next : Usize.checkedAdd (spool.storage.usedBytes + spool.reservedBytes) bytes =
      some (spool.storage.usedBytes + spool.reservedBytes + bytes) :=
    Usize.checkedAdd_eq_some.mpr ⟨rfl, by omega⟩
  have total : Usize.checkedAdd spool.reservedBytes bytes = some (spool.reservedBytes + bytes) :=
    Usize.checkedAdd_eq_some.mpr ⟨rfl, by omega⟩
  refine ⟨{ spool with reservedBytes := spool.reservedBytes + bytes }, ?_⟩
  unfold reserve
  simp only [used, next, total]
  rw [if_neg]
  · rfl
  · have saturated : Usize.saturatingAdd spool.storage.frameCount 1 ≤
        spool.storage.frameCount + 1 :=
      Nat.min_le_left _ _
    omega

omit [Digests] in
theorem reserve_full {bytes : Nat} (full : ¬ spool.Takes bytes) :
    ∃ error, spool.reserve bytes = .error error := by
  cases reserves : spool.reserve bytes with
  | error error => exact ⟨error, rfl⟩
  | ok reserved =>
      obtain ⟨-, bytes, frames⟩ := reserve_eq_ok reserves
      exact absurd ⟨by omega, frames⟩ full

/-- A write for which there is room fails only over the file. -/
theorem reserveAndPersist_fits (word : spool.config.val.wal.maxWalBytes ≤ Usize.max)
    {frame : SpoolFrame} {encoded : Bytes} (encodes : encodeFrame frame = .ok encoded)
    (fits : spool.storage.usedBytes + spool.reservedBytes + encoded.length ≤
      spool.config.val.wal.maxWalBytes)
    (counted : spool.storage.frameCount + 1 ≤ spool.config.val.wal.maxFrames) (reply : WriteReply)
    (synced : Bool) :
    (spool.reserveAndPersist frame encoded.length reply synced).2 ≠
      .error (.spool .capacityExceeded) := by
  obtain ⟨reserved, reserves⟩ := reserve_fits word fits counted
  obtain ⟨rfl, -⟩ := reserve_eq_ok reserves
  obtain ⟨-, -, other⟩ := spool.storage.persist_counters encodes reply synced
  unfold reserveAndPersist
  simp only [reserves]
  intro refused
  rcases persisted : spool.storage.persist frame reply synced with ⟨storage, error | done⟩
  · simp only [persisted, Except.error.injEq, PreCommitSpoolError.spool.injEq] at refused
    rw [refused] at persisted
    exact other (congrArg Prod.snd persisted)
  · simp only [persisted, reduceCtorEq] at refused

theorem planPersist_encoded {frame : SpoolFrame} {bytes : Nat}
    (planned : spool.planPersist envelope = .ok (identity, frame, bytes)) :
    ∃ encoded, encodedEnvelope envelope = .ok encoded ∧ encodeFrame frame = .ok encoded ∧
      bytes = encoded.length := by
  unfold planPersist at planned
  obtain ⟨found, -, planned⟩ := bind_eq_ok.mp planned
  obtain ⟨-, planned⟩ := checked_eq_ok.mp planned
  obtain ⟨submission, held, planned⟩ := bind_eq_ok.mp planned
  obtain ⟨encoded, encodes, planned⟩ := bind_eq_ok.mp planned
  obtain ⟨-, planned⟩ := checked_eq_ok.mp planned
  cases planned
  exact ⟨encoded, bind_eq_ok.mpr ⟨submission, held, encodes⟩, mapError_eq_ok.mp encodes, rfl⟩

/-- Before the reservation, only a frame over its own limit is refused for capacity. -/
theorem planPersist_capacity
    (refused : spool.planPersist envelope = .error (.spool .capacityExceeded)) :
    ∃ encoded, encodedEnvelope envelope = .ok encoded ∧
      spool.config.val.wal.maxFrameBytes < encoded.length := by
  unfold planPersist at refused
  rcases bind_eq_error.mp refused with unnamed | ⟨identity, -, refused⟩
  · unfold identityOf at unnamed
    split at unnamed <;> cases unnamed
  rcases checked_eq_error.mp refused with ⟨-, other⟩ | ⟨-, refused⟩
  · cases other
  rcases bind_eq_error.mp refused with shapeless | ⟨submission, held, refused⟩
  · unfold submissionOfEnvelope at shapeless
    split at shapeless <;> cases shapeless
  rcases bind_eq_error.mp refused with unencoded | ⟨encoded, encodes, refused⟩
  · cases failed : encodeFrame (.preCommit envelope.verseKey envelope.chunkId envelope.journalId
      envelope.cohortId submission) with
    | error error =>
        rw [failed] at unencoded
        cases unencoded
    | ok encoded =>
        rw [failed] at unencoded
        cases unencoded
  rcases checked_eq_error.mp refused with ⟨long, -⟩ | ⟨-, done⟩
  · exact ⟨encoded, bind_eq_ok.mpr ⟨submission, held, encodes⟩, long⟩
  · cases done

/-- An admission that spares room is refused only by a full segment. -/
theorem persist_refused (ready : spool.Ready) {reply : WriteReply} {synced : Bool}
    (spares : spool.Spares (.persist envelope reply synced))
    (refused : (spool.persistAndAckSpooled envelope reply synced).2 =
      .error (.spool .capacityExceeded)) :
    ∃ encoded, encodedEnvelope envelope = .ok encoded ∧ ¬ spool.Takes encoded.length := by
  unfold persistAndAckSpooled at refused
  rcases planned : spool.planPersist envelope with error | ⟨identity, frame, bytes⟩
  · simp only [planned, Except.error.injEq] at refused
    rw [refused] at planned
    obtain ⟨encoded, encodes, long⟩ := planPersist_capacity planned
    have short := (spares encoded (by rw [encodes]; rfl)).1
    omega
  · obtain ⟨encoded, encodes, framed, rfl⟩ := planPersist_encoded planned
    refine ⟨encoded, encodes, ?_⟩
    intro takes
    obtain ⟨bytes, frames⟩ := (spares encoded (by rw [encodes]; rfl)).2 takes
    have fits := reserveAndPersist_fits ready.1 framed (by omega) (by omega) reply synced
    rcases persisted : spool.reserveAndPersist frame encoded.length reply synced with
      ⟨later, error | done⟩
    · simp only [planned, persisted, Except.error.injEq] at refused
      rw [persisted, refused] at fits
      exact fits rfl
    · simp only [planned, persisted, reduceCtorEq] at refused

/-- The commit of a pending envelope is not refused for capacity. -/
theorem observe_fits (ready : spool.Ready) (pending : spool.isPending identity = true)
    (reply : WriteReply) (synced : Bool) :
    (spool.observeCommitted identity reply synced).2 ≠ .error (.spool .capacityExceeded) := by
  intro refused
  unfold observeCommitted at refused
  split at refused
  · cases refused
  · split at refused
    · cases refused
    · rename_i encoded encodes
      obtain ⟨again, same, length⟩ := encodeFrame_progress identity
      rw [encodes] at same
      cases same
      have waiting : 0 < spool.pending.length := by
        obtain ⟨entry, member, -⟩ := List.any_eq_true.mp pending
        exact List.length_pos_of_mem member
      obtain ⟨bytes, frames⟩ := ready.2
      simp only [progressFrameBytes] at bytes length
      have fits := reserveAndPersist_fits ready.1 encodes (by omega) (by omega) reply synced
      rcases persisted : spool.reserveAndPersist (.progress identity) encoded.length reply synced
        with ⟨later, error | done⟩
      · simp only [persisted, Except.error.injEq] at refused
        rw [persisted, refused] at fits
        exact fits rfl
      · simp only [persisted, reduceCtorEq] at refused

theorem ready_persist (ready : spool.Ready) {reply : WriteReply} {synced : Bool}
    (spares : spool.Spares (.persist envelope reply synced)) :
    (spool.persistAndAckSpooled envelope reply synced).1.Ready := by
  rcases planned : spool.planPersist envelope with error | ⟨identity, frame, bytes⟩
  · unfold persistAndAckSpooled
    simp only [planned]
    exact ready
  obtain ⟨encoded, encodes, framed, rfl⟩ := planPersist_encoded planned
  by_cases takes : spool.Takes encoded.length
  · obtain ⟨used, counted, -⟩ := spool.storage.persist_counters framed reply synced
    obtain ⟨bytes, frames⟩ := (spares encoded (by rw [encodes]; rfl)).2 takes
    rcases spool.persistAndAckSpooled_cases envelope reply synced with
      ⟨error, same⟩ | ⟨again, frame, _, plan, outcome⟩
    · rw [same]
      exact ready
    · rw [planned] at plan
      cases plan
      simp only [progressFrameBytes] at bytes
      rcases outcome with ⟨error, -, same⟩ | ⟨-, same⟩
      · rw [same]
        simp only [Ready, Room, progressFrameBytes]
        exact ⟨ready.1, by omega, by omega⟩
      · rw [same]
        simp only [Ready, Room, progressFrameBytes, List.length_append, List.length_singleton]
        exact ⟨ready.1, by omega, by omega⟩
  · obtain ⟨error, refused⟩ := reserve_full takes
    unfold persistAndAckSpooled reserveAndPersist
    simp only [planned, refused]
    exact ready

theorem ready_observe (ready : spool.Ready) {reply : WriteReply} {synced : Bool}
    (spares : spool.Spares (.observe identity reply synced)) :
    (spool.observeCommitted identity reply synced).1.Ready := by
  obtain ⟨encoded, encodes, length⟩ := encodeFrame_progress identity
  obtain ⟨used, counted, -⟩ := spool.storage.persist_counters encodes reply synced
  obtain ⟨room, places⟩ := ready.2
  simp only [Spares, Room, progressFrameBytes] at room spares length
  rcases spool.observeCommitted_cases identity reply synced with
    same | ⟨error, failed, same⟩ | ⟨again, encodesAgain, -, same⟩
  · rw [same]
    exact ready
  · rcases spares with retired | ⟨-, rfl, rfl⟩ | ⟨bytes, frames⟩
    · unfold observeCommitted
      rw [if_pos retired]
      exact ready
    · simp only [FileSpoolStorage.persist, FileSpoolStorage.appendFrame, encodes,
        FileSpoolStorage.sync, if_true, reduceCtorEq] at failed
    · rw [same]
      simp only [Ready, Room, progressFrameBytes]
      exact ⟨ready.1, by omega, by omega⟩
  · rw [encodes] at encodesAgain
    cases encodesAgain
    have left := List.length_filter_le (fun entry : PreCommitEntry => entry.identity ≠ identity)
      spool.pending
    rcases spares with retired | ⟨pending, -, -⟩ | ⟨bytes, frames⟩
    · unfold observeCommitted
      rw [if_pos retired]
      exact ready
    · have fewer : (spool.pending.filter fun entry => entry.identity ≠ identity).length <
          spool.pending.length := by
        rw [List.length_filter_lt_length_iff_exists]
        obtain ⟨entry, member, same⟩ := List.any_eq_true.mp pending
        exact ⟨entry, member, by simpa using same⟩
      rw [same]
      simp only [Ready, Room, progressFrameBytes]
      exact ⟨ready.1, by omega, by omega⟩
    · rw [same]
      simp only [Ready, Room, progressFrameBytes]
      exact ⟨ready.1, by omega, by omega⟩

theorem ready_step (ready : spool.Ready) (event : PreCommitEvent) (spares : spool.Spares event) :
    (spool.step event).Ready := by
  cases event with
  | persist envelope reply synced => exact ready_persist ready spares
  | observe identity reply synced => exact ready_observe ready spares
  | drain =>
      obtain ⟨pending, held, same⟩ := spool.nextEnvelope_eq
      have length : pending.length = spool.pending.length := by
        simpa only [List.length_map] using congrArg List.length held
      simp only [step, same, Ready, Room, length]
      exact ready
  | reopen kept config => exact spares

end PreCommitSpool

end Scripture.Spool

namespace Scripture

open Producer Spool AppendLog

/-- The outbox and the spool record every commit that is due, and the spool refuses an admission
only when its segment is full, along runs in which each admission leaves room for its end. -/
theorem retirement_has_room [Digests] :
    (∀ (found : Option ByteFormat.Bytes) (wal : LogFile) (identity : ProducerOutboxIdentity)
      (maxBytes : Nat)
      (capability : Option ScribeSpoolCapability) (journalId : JournalId)
      (outbox : ProducerOutbox) (events : List (OutboxCall × WalIo)),
      ProducerOutbox.openInner found wal identity maxBytes capability journalId = .ok outbox →
      outbox.Ready →
      Machine.Along ProducerOutbox.step ProducerOutbox.Spares outbox events →
      ∀ producerEpoch sequence io usedBytes attemptedBytes limit,
        ((Machine.run ProducerOutbox.step outbox events).markCommitted producerEpoch
          sequence io).2 ≠
          .error (.capacityExceeded usedBytes attemptedBytes limit)) ∧
    (∀ (config : AcceptedConfig) (segment : LogFile) (events : List PreCommitEvent),
      (PreCommitSpool.opened config segment).Ready →
      Machine.Along PreCommitSpool.step PreCommitSpool.Spares (.opened config segment) events →
      let last := Machine.run PreCommitSpool.step (.opened config segment) events
      (∀ identity reply synced, last.isPending identity = true →
        (last.observeCommitted identity reply synced).2 ≠ .error (.spool .capacityExceeded)) ∧
      ∀ envelope reply synced, last.Spares (.persist envelope reply synced) →
        (last.persistAndAckSpooled envelope reply synced).2 = .error (.spool .capacityExceeded) →
        ∃ encoded, encodedEnvelope envelope = .ok encoded ∧
          (last.config.val.wal.maxWalBytes < last.storage.usedBytes + encoded.length ∨
            last.config.val.wal.maxFrames ≤ last.storage.frameCount)) := by
  constructor
  · intro found wal identity maxBytes capability journalId outbox events _ ready spares
      producerEpoch sequence io usedBytes attemptedBytes limit
    have ready : (Machine.run ProducerOutbox.step outbox events).Ready := spares.invariant
      (fun outbox event ready spares => ProducerOutbox.ready_step ready event spares) ready
    exact ProducerOutbox.markCommitted_fits ready producerEpoch sequence io usedBytes attemptedBytes
      limit
  · intro config segment events ready spares last
    have ready : last.Ready := spares.invariant
      (fun spool event ready spares => PreCommitSpool.ready_step ready event spares) ready
    refine ⟨?_, ?_⟩
    · intro identity reply synced pending
      exact PreCommitSpool.observe_fits ready pending reply synced
    · intro envelope reply synced sparing refused
      obtain ⟨encoded, encodes, full⟩ := PreCommitSpool.persist_refused ready sparing refused
      refine ⟨encoded, encodes, ?_⟩
      by_cases long : last.config.val.wal.maxWalBytes < last.storage.usedBytes + encoded.length
      · exact Or.inl long
      · refine Or.inr ?_
        have crowded : ¬ Usize.saturatingAdd last.storage.frameCount 1 ≤
            last.config.val.wal.maxFrames := fun fits => full ⟨by omega, fits⟩
        have saturated : Usize.saturatingAdd last.storage.frameCount 1 ≤
            last.storage.frameCount + 1 := Nat.min_le_left _ _
        omega

/-- One submission and one envelope under limits that leave room for both ends. -/
theorem retirement_has_room_once : ∃ (_ : Digests) (outbox : ProducerOutbox),
    ProducerOutbox.openInner none .empty sampleIdentity 1000 none sampleJournal = .ok outbox ∧
    (let last := Machine.run ProducerOutbox.step outbox [(.stage (sampleSubmit 0 7), .faultless)]
     last.pendingSubmissions.length = 1 ∧
     (last.markCommitted 1 0 .faultless).2 ≠ .error (.capacityExceeded 47 17 1000)) ∧
    (let last := Machine.run PreCommitSpool.step (.opened sampleConfig .empty)
        [.persist (oneEnvelope 1 0) .written true]
     let identity := progressIdentity sampleJournal (oneRecord 1 0)
     last.isPending identity = true ∧
     (last.observeCommitted identity .written true).2 ≠ .error (.spool .capacityExceeded)) := by
  obtain ⟨outboxes, spools⟩ := @retirement_has_room sampleDigests
  refine ⟨sampleDigests, _, rfl, ⟨by decide +kernel, ?_⟩, by decide +kernel, ?_⟩
  · exact outboxes none .empty sampleIdentity 1000 none sampleJournal _
      [(.stage (sampleSubmit 0 7), .faultless)] rfl (by decide +kernel) (by decide +kernel) 1 0
      .faultless 47 17 1000
  · exact (spools sampleConfig .empty [.persist (oneEnvelope 1 0) .written true] (by decide +kernel)
      (by decide +kernel)).1 _ .written true (by decide +kernel)

def narrowConfig (maxWalBytes : Nat) : SpoolConfig := ⟨maxWalBytes, 10, 500, 4⟩

/-- An outbox whose limit is just its submission, a spool whose limit is just its envelope, and a
spool that could take a second envelope by its own count. -/
theorem retirement_refused : ∃ (_ : Digests) (outbox : ProducerOutbox),
    ProducerOutbox.openInner none .empty sampleIdentity 47 none sampleJournal = .ok outbox ∧
    (let last := outbox.step (.stage (sampleSubmit 0 7), .faultless)
     last.pendingSubmissions.length = 1 ∧
     (last.markCommitted 1 0 .faultless).2 = .error (.capacityExceeded 47 17 47)) ∧
    (let config : AcceptedConfig := ⟨⟨narrowConfig 150, ⟨1000, 1, "s"⟩⟩, by decide⟩
     let last := (PreCommitSpool.opened config .empty).step
       (.persist (oneEnvelope 1 0) .written true)
     let identity := progressIdentity sampleJournal (oneRecord 1 0)
     last.isPending identity = true ∧
     (last.observeCommitted identity .written true).2 = .error (.spool .capacityExceeded)) ∧
    (let config : AcceptedConfig := ⟨⟨narrowConfig 300, ⟨1000, 1, "s"⟩⟩, by decide⟩
     let last := (PreCommitSpool.opened config .empty).step
       (.persist (oneEnvelope 1 0) .written true)
     (encodedEnvelope (oneEnvelope 1 1)).toOption.map List.length = some 108 ∧
     last.storage.usedBytes = 108 ∧ last.storage.frameCount = 1 ∧
     (last.persistAndAckSpooled (oneEnvelope 1 1) .written true).2 =
        .error (.spool .capacityExceeded)) := by
  refine ⟨sampleDigests, _, rfl, ?_, ?_, ?_⟩
  · decide +kernel
  · decide +kernel
  · decide +kernel

end Scripture
