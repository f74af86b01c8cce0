import Scripture.ChunkLog
import Scripture.ChunkSeal

set_option autoImplicit false

/- What a writer's operations establish when they succeed, what they leave behind when they fail,
and what a log entry stands for while the object store grows. -/
namespace Scripture

open ByteFormat ByteFormat.Reader

namespace ChunkLogWriter

variable {writer : ChunkLogWriter} {frame : FrameRef} {chunk : SealedChunk} {header : ChunkHeader}
  {pointer : DataRef}

theorem run_eq_ok {after : ChunkLogWriter} {plan : Except ChunkLogError Plan}
    {reply : KernelReply} {ack : ChunkAppendAck}
    (success : writer.run plan reply = (.ok ack, after)) :
    ∃ ready, plan = .ok ready ∧ reply = .ok ∧ ack = ready.ack writer.log.length ∧
      after = { writer with
        log := writer.log ++ [ready.payload], nextOffset := ready.advance, poisoned := false } := by
  cases plan with
  | error error => cases success
  | ok ready =>
      cases reply <;> cases success
      exact ⟨ready, rfl, rfl, rfl, rfl⟩

/-- A failure before the kernel leaves the writer as it was; one from the kernel poisons it, with
or without the payload in the log. -/
theorem run_eq_error {after : ChunkLogWriter} {plan : Except ChunkLogError Plan}
    {reply : KernelReply} {error : ChunkLogError}
    (failure : writer.run plan reply = (.error error, after)) :
    (plan = .error error ∧ after = writer) ∨
      ∃ ready reason, plan = .ok ready ∧ error = .holylog reason ∧
        (after = { writer with poisoned := true } ∨
          after = { writer with log := writer.log ++ [ready.payload], poisoned := true }) := by
  cases plan with
  | error error => cases failure; exact Or.inl ⟨rfl, rfl⟩
  | ok ready =>
      cases reply with
      | ok => cases failure
      | notWritten reason => cases failure; exact Or.inr ⟨ready, reason, rfl, rfl, Or.inl rfl⟩
      | written reason => cases failure; exact Or.inr ⟨ready, reason, rfl, rfl, Or.inr rfl⟩

theorem soleFrame_eq_ok {journal : JournalId} {frames : List FrameRef}
    (sole : soleFrame journal frames = .ok frame) :
    frames = [frame] ∧ frame.journalId = journal := by
  unfold soleFrame at sole
  split at sole
  · split at sole
    · cases sole
    · rename_i same
      cases sole
      exact ⟨rfl, by simpa using same⟩
  · cases sole

/-- A chunk that passes the writer's checks. -/
structure Checked [Digests] (writer : ChunkLogWriter) (expected : RecordOffset)
    (chunk : SealedChunk) (frame : FrameRef) : Prop where
  index : ∃ header, decodeIndex chunk.bytes = .ok ⟨header, [frame]⟩ ∧
    header.chunkId = chunk.chunkId ∧ header.cohortId = writer.cohortId ∧
    header.generation = writer.generation
  digest : ChunkDigest.of chunk.bytes = chunk.digest
  journal : frame.journalId = writer.journalId
  base : frame.baseOffset = expected

theorem checkChunk_eq_ok [Digests] {expected : RecordOffset}
    (passed : writer.checkChunk expected chunk = .ok frame) :
    writer.Checked expected chunk frame := by
  unfold checkChunk at passed
  obtain ⟨⟨header, frames⟩, index, passed⟩ := bind_eq_ok.mp passed
  obtain ⟨metadata, passed⟩ := checked_eq_ok.mp passed
  obtain ⟨cohort, passed⟩ := checked_eq_ok.mp passed
  obtain ⟨generation, passed⟩ := checked_eq_ok.mp passed
  obtain ⟨found, sole, passed⟩ := bind_eq_ok.mp passed
  obtain ⟨base, passed⟩ := checked_eq_ok.mp passed
  cases passed
  obtain ⟨rfl, journal⟩ := soleFrame_eq_ok sole
  simp only [not_or, ne_eq, not_not] at metadata cohort generation base
  exact ⟨⟨header, mapError_eq_ok.mp index, metadata.1, cohort, generation⟩, metadata.2, journal,
    base⟩

/-- The checks fail on the offset only when the chunk does not start where it must. -/
theorem checkChunk_discontinuity [Digests] {expected : RecordOffset}
    (index : decodeIndex chunk.bytes = .ok ⟨header, [frame]⟩) (base : frame.baseOffset = expected)
    (wanted actual : UInt64) :
    writer.checkChunk expected chunk ≠ .error (.offsetDiscontinuity wanted actual) := by
  intro failed
  unfold checkChunk at failed
  rw [index] at failed
  rcases checked_eq_error.mp failed with ⟨-, wrong⟩ | ⟨-, failed⟩
  · cases wrong
  rcases checked_eq_error.mp failed with ⟨-, wrong⟩ | ⟨-, failed⟩
  · cases wrong
  rcases checked_eq_error.mp failed with ⟨-, wrong⟩ | ⟨-, failed⟩
  · cases wrong
  rcases bind_eq_error.mp failed with wrong | ⟨found, sole, failed⟩
  · unfold soleFrame at wrong
    dsimp only at wrong
    split at wrong <;> cases wrong
  · obtain ⟨same, -⟩ := soleFrame_eq_ok sole
    cases same
    rcases checked_eq_error.mp failed with ⟨differs, -⟩ | ⟨-, failed⟩
    · exact differs base
    · cases failed

theorem frameEnd_eq_ok {next : RecordOffset} (fits : frameEnd frame = .ok next) :
    frame.baseOffset.toNat + frame.recordCount.toNat = next.toNat := by
  unfold frameEnd at fits
  split at fits
  · rename_i found
    cases fits
    exact RecordOffset.checkedAdd_eq_some.mp found
  · cases fits

theorem frameEnd_discontinuity (frame : FrameRef) (wanted actual : UInt64) :
    frameEnd frame ≠ .error (.offsetDiscontinuity wanted actual) := by
  unfold frameEnd
  split <;> rintro ⟨⟩

theorem planAppend_eq_ok [Digests] {plan : Plan} (ready : writer.planAppend chunk = .ok plan) :
    writer.poisoned = false ∧ ∃ frame, writer.Checked writer.nextOffset chunk frame ∧
      plan.payload = chunk.bytes ∧ plan.chunkId = chunk.chunkId ∧
      plan.firstOffset = writer.nextOffset ∧ plan.nextOffset = plan.advance ∧
      plan.recordCount = frame.recordCount ∧
      writer.nextOffset.toNat + frame.recordCount.toNat = plan.advance.toNat := by
  unfold planAppend at ready
  obtain ⟨alive, ready⟩ := checked_eq_ok.mp ready
  obtain ⟨frame, passed, ready⟩ := bind_eq_ok.mp ready
  obtain ⟨next, fits, ready⟩ := bind_eq_ok.mp ready
  cases ready
  have checks := checkChunk_eq_ok passed
  have stop := frameEnd_eq_ok fits
  rw [checks.base] at stop
  exact ⟨by simpa using alive, frame, checks, rfl, rfl, checks.base, rfl, rfl, stop⟩

theorem checkPointer_eq_ok (passed : checkPointer frame chunk pointer = .ok ()) :
    pointer.recordCount = frame.recordCount ∧ pointer.chunkId = chunk.chunkId ∧
      pointer.chunkDigest = chunk.digest := by
  unfold checkPointer at passed
  obtain ⟨count, passed⟩ := checked_eq_ok.mp passed
  obtain ⟨named, passed⟩ := checked_eq_ok.mp passed
  simp only [ne_eq, not_not] at count named
  refine ⟨count, named, ?_⟩
  by_contra differs
  rw [if_pos differs] at passed
  cases passed

theorem planDataRef_eq_ok [Digests] {plan : Plan}
    (ready : writer.planDataRef chunk pointer = .ok plan) :
    writer.poisoned = false ∧ pointer.Valid ∧ ∃ frame,
      writer.Checked writer.nextOffset chunk frame ∧
      (pointer.recordCount = frame.recordCount ∧ pointer.chunkId = chunk.chunkId ∧
        pointer.chunkDigest = chunk.digest) ∧
      encodeDataRef pointer = .ok plan.payload ∧ plan.chunkId = chunk.chunkId ∧
      plan.firstOffset = writer.nextOffset ∧ plan.nextOffset = plan.advance ∧
      plan.recordCount = frame.recordCount ∧
      writer.nextOffset.toNat + frame.recordCount.toNat = plan.advance.toNat := by
  unfold planDataRef at ready
  obtain ⟨alive, ready⟩ := checked_eq_ok.mp ready
  obtain ⟨_, valid, ready⟩ := bind_eq_ok.mp ready
  obtain ⟨frame, passed, ready⟩ := bind_eq_ok.mp ready
  obtain ⟨_, pointed, ready⟩ := bind_eq_ok.mp ready
  obtain ⟨next, fits, ready⟩ := bind_eq_ok.mp ready
  obtain ⟨payload, encoded, ready⟩ := bind_eq_ok.mp ready
  cases ready
  have checks := checkChunk_eq_ok passed
  have stop := frameEnd_eq_ok fits
  rw [checks.base] at stop
  exact ⟨by simpa using alive, DataRef.validate_eq_ok.mp (mapError_eq_ok.mp valid), frame, checks,
    checkPointer_eq_ok pointed, mapError_eq_ok.mp encoded, rfl, checks.base, rfl, rfl, stop⟩

/-- An inline append of a chunk that starts where it must never reports a discontinuity. -/
theorem planAppend_discontinuity [Digests]
    (index : decodeIndex chunk.bytes = .ok ⟨header, [frame]⟩)
    (base : frame.baseOffset = writer.nextOffset) (wanted actual : UInt64) :
    writer.planAppend chunk ≠ .error (.offsetDiscontinuity wanted actual) := by
  intro failed
  unfold planAppend at failed
  rcases checked_eq_error.mp failed with ⟨-, wrong⟩ | ⟨-, failed⟩
  · cases wrong
  rcases bind_eq_error.mp failed with wrong | ⟨entry, -, failed⟩
  · exact checkChunk_discontinuity index base wanted actual wrong
  rcases bind_eq_error.mp failed with wrong | ⟨next, -, failed⟩
  · exact frameEnd_discontinuity entry wanted actual wrong
  · cases failed

theorem liftDataRef_discontinuity {α : Type} (result : Except DataRefError α)
    (wanted actual : UInt64) :
    liftDataRef result ≠ .error (.offsetDiscontinuity wanted actual) := by
  cases result <;> rintro ⟨⟩

theorem planDataRef_discontinuity [Digests]
    (index : decodeIndex chunk.bytes = .ok ⟨header, [frame]⟩)
    (base : frame.baseOffset = writer.nextOffset) (wanted actual : UInt64) :
    writer.planDataRef chunk pointer ≠ .error (.offsetDiscontinuity wanted actual) := by
  intro failed
  unfold planDataRef at failed
  rcases checked_eq_error.mp failed with ⟨-, wrong⟩ | ⟨-, failed⟩
  · cases wrong
  rcases bind_eq_error.mp failed with wrong | ⟨_, -, failed⟩
  · exact liftDataRef_discontinuity _ wanted actual wrong
  rcases bind_eq_error.mp failed with wrong | ⟨entry, -, failed⟩
  · exact checkChunk_discontinuity index base wanted actual wrong
  rcases bind_eq_error.mp failed with wrong | ⟨_, -, failed⟩
  · unfold checkPointer at wrong
    rcases checked_eq_error.mp wrong with ⟨-, wrong⟩ | ⟨-, wrong⟩
    · cases wrong
    rcases checked_eq_error.mp wrong with ⟨-, wrong⟩ | ⟨-, wrong⟩
    · cases wrong
    split at wrong <;> cases wrong
  rcases bind_eq_error.mp failed with wrong | ⟨next, -, failed⟩
  · exact frameEnd_discontinuity entry wanted actual wrong
  rcases bind_eq_error.mp failed with wrong | ⟨payload, -, failed⟩
  · exact liftDataRef_discontinuity _ wanted actual wrong
  · cases failed

theorem checkChunk_of_sealed [Digests] {frame : Frame} (result : SealedFrom header frame chunk)
    (cohort : header.cohortId = writer.cohortId)
    (generation : header.generation = writer.generation)
    (journal : frame.journalId = writer.journalId) :
    ∃ entry, writer.checkChunk frame.baseOffset chunk = .ok entry ∧
      entry.baseOffset = frame.baseOffset ∧ entry.recordCount.toNat = frame.records.length := by
  obtain ⟨body, -, index, -⟩ := result.body
  generalize entryIs : frameRefOf frame body (headerLen + indexLenOf [frame]) = entry at index
  have start : entry.baseOffset = frame.baseOffset := by rw [← entryIs]; rfl
  have sole : soleFrame writer.journalId [entry] = .ok entry := by
    rw [← entryIs]
    exact if_neg (by simp [frameRefOf, journal])
  refine ⟨entry, ?_, start, by rw [← entryIs]; exact toNat_u32OfNat result.records⟩
  unfold checkChunk
  rw [index]
  refine checked_eq_ok.mpr ⟨by simp [result.chunkId, result.digest], checked_eq_ok.mpr
    ⟨by simp [cohort], checked_eq_ok.mpr ⟨by simp [generation],
      bind_eq_ok.mpr ⟨entry, sole, checked_eq_ok.mpr ⟨by simp [start], rfl⟩⟩⟩⟩⟩

theorem append_succeeds [Digests] {writer : ChunkLogWriter} {header : ChunkHeader}
    {frame : Frame} {chunk : SealedChunk} (result : SealedFrom header frame chunk)
    (cohort : header.cohortId = writer.cohortId)
    (generation : header.generation = writer.generation)
    (journal : frame.journalId = writer.journalId) (base : frame.baseOffset = writer.nextOffset)
    (alive : writer.poisoned = false) :
    ∃ count, writer.append chunk .ok =
      (.ok ⟨writer.log.length, chunk.chunkId, writer.nextOffset,
        .ofNat (writer.nextOffset.toNat + frame.records.length), count⟩,
        { writer with
          log := writer.log ++ [chunk.bytes], poisoned := false
          nextOffset := .ofNat (writer.nextOffset.toNat + frame.records.length) }) := by
  obtain ⟨entry, passed, start, count⟩ := checkChunk_of_sealed result cohort generation journal
  have stop : frameEnd entry = .ok (.ofNat (writer.nextOffset.toNat + frame.records.length)) := by
    have fits := result.offsets
    unfold frameEnd
    rw [start, count, RecordOffset.checkedAdd, if_pos fits, base]
    rfl
  have ready : writer.planAppend chunk = .ok ⟨chunk.bytes, chunk.chunkId, writer.nextOffset,
      .ofNat (writer.nextOffset.toNat + frame.records.length), entry.recordCount,
      .ofNat (writer.nextOffset.toNat + frame.records.length)⟩ := by
    unfold planAppend
    rw [base] at passed start
    refine checked_eq_ok.mpr ⟨by simp [alive], bind_eq_ok.mpr ⟨entry, passed,
      bind_eq_ok.mpr ⟨_, stop, ?_⟩⟩⟩
    rw [start]
    rfl
  refine ⟨entry.recordCount, ?_⟩
  rw [append, ready]
  rfl

end ChunkLogWriter

/-- Every object of the first store is in the second. -/
def BlobStore.Extends (before after : BlobStore) : Prop :=
  ∀ key blob, before key = some blob → after key = some blob

theorem BlobStore.Extends.refl (store : BlobStore) : store.Extends store := fun _ _ held => held

/-- What a successful fetch read. -/
structure Fetched [Digests] (store : BlobStore) (pointer : DataRef) (bytes : Bytes) : Prop where
  valid : pointer.Valid
  object : ∃ blob, store pointer.blobKey = some blob ∧ ChunkDigest.of blob = pointer.blobDigest ∧
    slice blob pointer.offset.toNat (pointer.offset.toNat + pointer.length.toNat) = some bytes
  length : bytes.length = pointer.length.toNat
  digest : ChunkDigest.of bytes = pointer.chunkDigest

variable {pointer : DataRef}

theorem verifyChunkBytes_eq_ok [Digests] {bytes : Bytes} :
    pointer.verifyChunkBytes bytes = .ok () ↔ pointer.Valid ∧ bytes.length = pointer.length.toNat ∧
      ChunkDigest.of bytes = pointer.chunkDigest := by
  unfold DataRef.verifyChunkBytes
  rw [bind_eq_ok]
  constructor
  · rintro ⟨_, valid, passed⟩
    obtain ⟨length, passed⟩ := checked_eq_ok.mp passed
    refine ⟨DataRef.validate_eq_ok.mp valid, by simpa using length, ?_⟩
    by_contra differs
    rw [if_pos differs] at passed
    cases passed
  · rintro ⟨valid, length, digest⟩
    refine ⟨(), DataRef.validate_eq_ok.mpr valid, ?_⟩
    exact checked_eq_ok.mpr ⟨by simp [length], if_neg (by simp [digest])⟩

theorem fetchDataRefChunkBytes_eq_ok [Digests] {store : BlobStore} {bytes : Bytes} :
    fetchDataRefChunkBytes (some store) pointer = .ok bytes ↔ Fetched store pointer bytes := by
  unfold fetchDataRefChunkBytes
  constructor
  · intro fetched
    dsimp only at fetched
    split at fetched <;> [skip; cases fetched]
    rename_i blob present
    obtain ⟨digest, fetched⟩ := checked_eq_ok.mp fetched
    obtain ⟨-, fetched⟩ := checked_eq_ok.mp fetched
    split at fetched <;> [skip; cases fetched]
    rename_i range found
    obtain ⟨_, verified, fetched⟩ := bind_eq_ok.mp fetched
    cases fetched
    obtain ⟨valid, length, chunkDigest⟩ := verifyChunkBytes_eq_ok.mp (mapError_eq_ok.mp verified)
    exact ⟨valid, ⟨blob, present, by simpa using digest, found⟩, length, chunkDigest⟩
  · rintro ⟨valid, ⟨blob, present, digest, found⟩, length, chunkDigest⟩
    have verified := verifyChunkBytes_eq_ok.mpr ⟨valid, length, chunkDigest⟩
    have range := valid.range
    dsimp only
    rw [present]
    refine checked_eq_ok.mpr ⟨by simp [digest], checked_eq_ok.mpr ⟨by omega, ?_⟩⟩
    rw [found]
    exact bind_eq_ok.mpr ⟨(), mapError_eq_ok.mpr verified, rfl⟩

theorem Fetched.extend [Digests] {before after : BlobStore} {bytes : Bytes}
    (grown : before.Extends after) (fetched : Fetched before pointer bytes) :
    Fetched after pointer bytes := by
  obtain ⟨blob, present, rest⟩ := fetched.object
  exact { fetched with object := ⟨blob, grown _ _ present, rest⟩ }

/-- The recovering owner read nothing the store does not hold. -/
def Covers (store : BlobStore) (blobs : Option BlobStore) : Prop :=
  ∀ held, blobs = some held → held.Extends store

section Covers

variable [Digests] {store : BlobStore} {blobs : Option BlobStore} {sets : List Bytes}

theorem fetchAll_covers (covers : Covers store blobs) (pointers : List DataRef)
    (fetched : fetchAll blobs pointers = .ok sets) : fetchAll (some store) pointers = .ok sets := by
  induction pointers generalizing sets with
  | nil => exact fetched
  | cons pointer pointers ih =>
      unfold fetchAll at fetched ⊢
      obtain ⟨bytes, first, fetched⟩ := bind_eq_ok.mp fetched
      obtain ⟨others, rest, fetched⟩ := bind_eq_ok.mp fetched
      have kept : fetchDataRefChunkBytes (some store) pointer = .ok bytes := by
        cases blobs with
        | none => cases first
        | some held =>
            have read := fetchDataRefChunkBytes_eq_ok.mp first
            exact fetchDataRefChunkBytes_eq_ok.mpr (read.extend (covers held rfl))
      exact bind_eq_ok.mpr ⟨bytes, kept, bind_eq_ok.mpr ⟨others, ih rest, fetched⟩⟩

theorem resolvePayload_covers (covers : Covers store blobs) {payload : Bytes}
    (resolved : resolvePayload blobs payload = .ok sets) :
    resolvePayload (some store) payload = .ok sets := by
  unfold resolvePayload at resolved ⊢
  obtain ⟨decoded, dispatched, resolved⟩ := bind_eq_ok.mp resolved
  refine bind_eq_ok.mpr ⟨decoded, dispatched, ?_⟩
  cases decoded with
  | inlineChunk bytes => exact resolved
  | dataRef pointer => exact fetchAll_covers covers [pointer] resolved
  | referenceBatch pointers => exact fetchAll_covers covers pointers resolved

/-- What a log entry stands for does not change while the store grows. -/
theorem resolvePayload_extend {before after : BlobStore} (grown : before.Extends after)
    {payload : Bytes} (resolved : resolvePayload (some before) payload = .ok sets) :
    resolvePayload (some after) payload = .ok sets :=
  resolvePayload_covers (by rintro held ⟨⟩; exact grown) resolved

end Covers

theorem resolvePayload_sealed [Digests] {header : ChunkHeader} {frame : Frame}
    {chunk : SealedChunk} (result : SealedFrom header frame chunk) (store : Option BlobStore) :
    resolvePayload store chunk.bytes = .ok [chunk.bytes] :=
  bind_eq_ok.mpr ⟨_, mapError_eq_ok.mpr result.payload, rfl⟩

theorem resolvePayload_dataRef [Digests] {store : BlobStore} {payload bytes : Bytes}
    (encoded : encodeDataRef pointer = .ok payload) (fetched : Fetched store pointer bytes) :
    resolvePayload (some store) payload = .ok [bytes] := by
  refine bind_eq_ok.mpr ⟨_, mapError_eq_ok.mpr (decodeLogPayload_dataRef encoded), ?_⟩
  refine bind_eq_ok.mpr ⟨bytes, fetchDataRefChunkBytes_eq_ok.mpr fetched, ?_⟩
  exact bind_eq_ok.mpr ⟨[], rfl, rfl⟩

end Scripture
