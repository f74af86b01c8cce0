import Scripture.ChunkLogRecover
import Scripture.Machine

set_option autoImplicit false

/- What the operations of a writer lay down in the log, and what recovery makes of it. -/
namespace Scripture

open ByteFormat ByteFormat.Reader

namespace Chunk

def records (chunk : Chunk) : List Record := chunk.frames.flatMap Frame.records

/-- The offset of the first record of a chunk of one frame. -/
def base (chunk : Chunk) : Nat :=
  match chunk.frames with
  | [frame] => frame.baseOffset.toNat
  | _ => 0

@[simp] theorem records_sole (header : ChunkHeader) (frame : Frame) :
    records ⟨header, [frame]⟩ = frame.records := by
  simp [records]

@[simp] theorem base_sole (header : ChunkHeader) (frame : Frame) :
    base ⟨header, [frame]⟩ = frame.baseOffset.toNat := rfl

end Chunk

/-- The chunks continue one another from the first offset to the second. -/
def Adjoining : Nat → List Chunk → Nat → Prop
  | start, [], stop => start = stop
  | start, chunk :: rest, stop =>
      chunk.base = start ∧ Adjoining (start + chunk.records.length) rest stop

theorem adjoining_append {start stop : Nat} {left right : List Chunk} :
    Adjoining start (left ++ right) stop ↔
      ∃ middle, Adjoining start left middle ∧ Adjoining middle right stop := by
  induction left generalizing start with
  | nil => simp [Adjoining]
  | cons chunk rest ih =>
      simp only [List.cons_append, Adjoining, ih]
      constructor
      · rintro ⟨base, middle, front, back⟩
        exact ⟨middle, ⟨base, front⟩, back⟩
      · rintro ⟨middle, ⟨base, front⟩, back⟩
        exact ⟨base, middle, front, back⟩

theorem Adjoining.length {start stop : Nat} {chunks : List Chunk}
    (chained : Adjoining start chunks stop) :
    start + (chunks.flatMap Chunk.records).length = stop := by
  induction chunks generalizing start with
  | nil => exact chained
  | cons chunk rest ih =>
      rw [List.flatMap_cons, List.length_append, ← Nat.add_assoc]
      exact ih chained.2

section

variable [Digests]

/-- These bytes are a chunk as `seal_single_frame_chunk` makes it. -/
def SealedAs (bytes : Bytes) (chunk : Chunk) : Prop :=
  ∃ header frame made, SealedFrom header frame made ∧ bytes = made.bytes ∧ chunk = ⟨header, [frame]⟩

theorem SealedAs.decoded {bytes : Bytes} {chunk : Chunk} (made : SealedAs bytes chunk) :
    decodeChunk bytes = .ok chunk := by
  obtain ⟨header, frame, result, spec, rfl, rfl⟩ := made
  exact spec.decoded

theorem SealedAs.payload {bytes : Bytes} {chunk : Chunk} (made : SealedAs bytes chunk) :
    decodeLogPayload bytes = .ok (.inlineChunk bytes) := by
  obtain ⟨header, frame, result, spec, rfl, rfl⟩ := made
  exact spec.payload

/-- The pointer leads to the chunk that it names. -/
def Points (store : BlobStore) (pointer : DataRef) (chunk : Chunk) : Prop :=
  ∃ bytes, Fetched store pointer bytes ∧ SealedAs bytes chunk ∧
    chunk.header.chunkId = pointer.chunkId

/-- The chunks that an entry of the log holds, itself or by its pointers. -/
inductive Holds (store : BlobStore) : Bytes → List Chunk → Prop
  | inline {bytes : Bytes} {chunk : Chunk} (made : SealedAs bytes chunk) : Holds store bytes [chunk]
  | dataRef {pointer : DataRef} {payload : Bytes} {chunk : Chunk}
      (encoded : encodeDataRef pointer = .ok payload) (points : Points store pointer chunk) :
      Holds store payload [chunk]
  | referenceBatch {pointers : List DataRef} {payload : Bytes} {chunks : List Chunk}
      (encoded : encodeReferenceBatch pointers = .ok payload)
      (points : List.Forall₂ (Points store) pointers chunks) : Holds store payload chunks

theorem fetchAll_points {store : BlobStore} {pointers : List DataRef} {chunks : List Chunk}
    (points : List.Forall₂ (Points store) pointers chunks) :
    ∃ sets, fetchAll (some store) pointers = .ok sets ∧ List.Forall₂ SealedAs sets chunks := by
  induction points with
  | nil => exact ⟨[], rfl, .nil⟩
  | cons first _ ih =>
      obtain ⟨bytes, fetched, made, -⟩ := first
      obtain ⟨sets, others, rest⟩ := ih
      exact ⟨bytes :: sets, bind_eq_ok.mpr ⟨bytes, fetchDataRefChunkBytes_eq_ok.mpr fetched,
        bind_eq_ok.mpr ⟨sets, others, rfl⟩⟩, .cons made rest⟩

theorem Holds.resolved {store : BlobStore} {payload : Bytes} {chunks : List Chunk}
    (holds : Holds store payload chunks) :
    ∃ sets, resolvePayload (some store) payload = .ok sets ∧ List.Forall₂ SealedAs sets chunks := by
  cases holds with
  | inline made =>
      exact ⟨_, bind_eq_ok.mpr ⟨_, mapError_eq_ok.mpr made.payload, rfl⟩, .cons made .nil⟩
  | dataRef encoded points =>
      obtain ⟨sets, fetched, made⟩ := fetchAll_points (.cons points .nil)
      exact ⟨sets, bind_eq_ok.mpr
        ⟨_, mapError_eq_ok.mpr (decodeLogPayload_dataRef encoded), fetched⟩,
        made⟩
  | referenceBatch encoded points =>
      obtain ⟨sets, fetched, made⟩ := fetchAll_points points
      exact ⟨sets, bind_eq_ok.mpr
        ⟨_, mapError_eq_ok.mpr (decodeLogPayload_referenceBatch encoded), fetched⟩, made⟩

theorem Holds.extend {store after : BlobStore} (grown : store.Extends after) {payload : Bytes}
    {chunks : List Chunk} (holds : Holds store payload chunks) : Holds after payload chunks := by
  have points {pointer : DataRef} {chunk : Chunk} (point : Points store pointer chunk) :
      Points after pointer chunk := by
    obtain ⟨bytes, fetched, rest⟩ := point
    exact ⟨bytes, fetched.extend grown, rest⟩
  cases holds with
  | inline made => exact .inline made
  | dataRef encoded point => exact .dataRef encoded (points point)
  | referenceBatch encoded all => exact .referenceBatch encoded (all.imp fun _ _ => points)

/-- The chunk belongs to this journal, cohort and generation. -/
def Owned (journal : JournalId) (cohort : CohortId) (generation : UInt64) (chunk : Chunk) : Prop :=
  chunk.header.cohortId = cohort ∧ chunk.header.generation = generation ∧
    chunk.frames.map Frame.journalId = [journal]

/-- The policy accepts chunks of this generation, after none or after others of it. -/
def GenerationPolicy.Allows (policy : GenerationPolicy) (generation : UInt64) : Prop :=
  ∀ previous, previous = none ∨ previous = some generation →
    ∃ next, policy.check previous generation = .ok next ∧ (next = none ∨ next = some generation)

omit [Digests] in
theorem GenerationPolicy.exact_allows (generation : UInt64) :
    (exact generation).Allows generation := by
  intro previous settled
  exact ⟨previous, if_neg (by simp), settled⟩

omit [Digests] in
theorem GenerationPolicy.exact_check {expected actual : UInt64} {previous next : Option UInt64}
    (accepted : (exact expected).check previous actual = .ok next) : actual = expected := by
  unfold check at accepted
  by_contra differs
  simp only [ne_eq, differs, not_false_eq_true, if_true] at accepted
  cases accepted

omit [Digests] in
theorem GenerationPolicy.atMost_check {generation active : UInt64} {previous : Option UInt64}
    (held : generation ≤ active) (since : ∀ before ∈ previous, before ≤ generation) :
    (atMost active).check previous generation = .ok (some generation) := by
  have inside : ¬ active < generation := UInt64.not_lt.mpr held
  cases previous with
  | none => simp [check, inside, Pure.pure, Except.pure]
  | some before =>
      have forward : ¬ generation < before := UInt64.not_lt.mpr (since before rfl)
      simp [check, inside, forward, Pure.pure, Except.pure]

omit [Digests] in
theorem GenerationPolicy.atMost_allows {generation active : UInt64} (held : generation ≤ active) :
    (atMost active).Allows generation := by
  intro previous settled
  refine ⟨some generation, atMost_check held ?_, .inr rfl⟩
  rcases settled with rfl | rfl <;> simp

/-- A recovered chunk has the offset and the records of the chunk in the log. -/
def Agrees (recovered : RecoveredChunk) (chunk : Chunk) : Prop :=
  recovered.firstOffset.toNat = chunk.base ∧ recovered.recordCount.toNat = chunk.records.length

section Recover

variable {journal : JournalId} {cohort : CohortId} {generation : UInt64}

theorem digestSubmissions_within {records : List Record} {submissions : List SubmissionRef}
    (within : ∀ submission ∈ submissions,
      submission.firstRecord.toNat + submission.recordCount.toNat ≤ records.length) :
    ∃ digests, digestSubmissions journal records submissions = .ok digests := by
  induction submissions with
  | nil => exact ⟨[], rfl⟩
  | cons submission rest ih =>
      obtain ⟨digests, others⟩ := ih fun other member => within other (by simp [member])
      have fits := within submission (by simp)
      exact ⟨_, by simp [digestSubmissions, submissionRecords, fits, others, Bind.bind,
        Except.bind]; rfl⟩

omit [Digests] in
theorem tilingLoop_within {submissions : List SubmissionRef} {seen : List Identity}
    {cursor stop : Nat} (tiled : tilingLoop submissions seen cursor = .ok stop) :
    cursor ≤ stop ∧ ∀ submission ∈ submissions,
      submission.firstRecord.toNat + submission.recordCount.toNat ≤ stop := by
  induction submissions generalizing seen cursor with
  | nil =>
      cases tiled
      exact ⟨Nat.le_refl _, by simp⟩
  | cons submission rest ih =>
      unfold tilingLoop at tiled
      split at tiled <;> [cases tiled; skip]
      split at tiled <;> [cases tiled; skip]
      rename_i placed
      split at tiled <;> [cases tiled; skip]
      rename_i next advanced
      obtain ⟨below, others⟩ := ih tiled
      have sum := Usize.checkedAdd_eq_some.mp advanced
      refine ⟨by omega, ?_⟩
      intro other member
      rcases List.mem_cons.mp member with rfl | listed
      · omega
      · exact others other listed

theorem recoverChunk_sealed {policy : GenerationPolicy} {previous next : Option UInt64} {slot : Nat}
    {bytes : Bytes} {chunk : Chunk} (made : SealedAs bytes chunk)
    (inCohort : chunk.header.cohortId = cohort)
    (inJournal : chunk.frames.map Frame.journalId = [journal])
    (accepted : policy.check previous chunk.header.generation = .ok next) :
    ∃ recovered, recoverChunk journal cohort policy previous slot bytes = .ok (recovered, next) ∧
      Agrees recovered chunk := by
  obtain ⟨header, frame, result, spec, rfl, rfl⟩ := made
  obtain ⟨body, -, index, -⟩ := spec.body
  have journalIs : frame.journalId = journal := by simpa using inJournal
  generalize entryIs : frameRefOf frame body (headerLen + indexLenOf [frame]) = entry at index
  have sole : ChunkLogWriter.soleFrame journal [entry] = .ok entry := by
    rw [← entryIs]
    exact if_neg (by simp [frameRefOf, journalIs])
  have submissions : entry.submissions = frame.submissions := by
    rw [← entryIs]
    rfl
  obtain ⟨digests, digested⟩ : ∃ digests,
      digestSubmissions journal frame.records entry.submissions = .ok digests := by
    rw [submissions]
    obtain ⟨stop, looped, exact⟩ := bind_eq_ok.mp spec.tiled
    have stopIs : stop = frame.records.length := by
      by_contra differs
      rw [if_pos differs] at exact
      cases exact
    exact digestSubmissions_within (stopIs ▸ (tilingLoop_within looped).2)
  refine ⟨_, bind_eq_ok.mpr ⟨_, mapError_eq_ok.mpr index, bind_eq_ok.mpr
    ⟨_, mapError_eq_ok.mpr spec.decoded, checked_eq_ok.mpr ⟨by simpa using inCohort,
      bind_eq_ok.mpr ⟨next, accepted, bind_eq_ok.mpr ⟨entry, sole,
        bind_eq_ok.mpr ⟨digests, digested, rfl⟩⟩⟩⟩⟩⟩, ?_, ?_⟩
  · rw [← entryIs]
    rfl
  · rw [← entryIs, Chunk.records_sole]
    exact toNat_u32OfNat spec.records

variable {previous : Option UInt64} {recovered : List RecoveredChunk}

theorem recoverChunk_owned {policy : GenerationPolicy} {next : Option UInt64} {slot : Nat}
    {bytes : Bytes} {chunk : Chunk} {recovered : RecoveredChunk} (made : SealedAs bytes chunk)
    (success : recoverChunk journal cohort policy previous slot bytes = .ok (recovered, next)) :
    chunk.header.cohortId = cohort ∧ chunk.frames.map Frame.journalId = [journal] ∧
      policy.check previous chunk.header.generation = .ok next := by
  obtain ⟨header, frame, result, spec, rfl, rfl⟩ := made
  obtain ⟨body, -, index, -⟩ := spec.body
  unfold recoverChunk at success
  rw [index, spec.decoded] at success
  obtain ⟨inCohort, success⟩ := checked_eq_ok.mp success
  obtain ⟨found, accepted, success⟩ := bind_eq_ok.mp success
  obtain ⟨entry, sole, success⟩ := bind_eq_ok.mp success
  obtain ⟨single, owner⟩ := ChunkLogWriter.soleFrame_eq_ok sole
  obtain ⟨digests, -, success⟩ := bind_eq_ok.mp success
  cases success
  simp only [List.cons.injEq, and_true] at single
  subst single
  refine ⟨by simpa using inCohort, ?_, accepted⟩
  rw [← owner]
  rfl

theorem recoverChunks_sealed {policy : GenerationPolicy} (allows : policy.Allows generation)
    {slot : Nat} {sets : List Bytes} {chunks : List Chunk}
    (made : List.Forall₂ SealedAs sets chunks)
    (owned : ∀ chunk ∈ chunks, Owned journal cohort generation chunk)
    (settled : previous = none ∨ previous = some generation) :
    ∃ recovered next, recoverChunks journal cohort policy slot previous sets =
      .ok (recovered, next) ∧ (next = none ∨ next = some generation) ∧
      List.Forall₂ Agrees recovered chunks := by
  induction made generalizing previous with
  | nil => exact ⟨[], previous, rfl, settled, .nil⟩
  | cons first _ ih =>
      obtain ⟨inCohort, inGeneration, inJournal⟩ := owned _ List.mem_cons_self
      obtain ⟨middle, accepted, settled⟩ := allows previous settled
      obtain ⟨recovered, done, agrees⟩ :=
        @recoverChunk_sealed _ journal cohort policy previous middle slot _ _ first
          inCohort inJournal
          (inGeneration ▸ accepted)
      obtain ⟨others, next, rest, settled, follow⟩ :=
        ih (fun chunk member => owned chunk (List.mem_cons_of_mem _ member)) settled
      exact ⟨recovered :: others, next, bind_eq_ok.mpr ⟨_, done, bind_eq_ok.mpr ⟨_, rest, rfl⟩⟩,
        settled, .cons agrees follow⟩

theorem recoverSlots_holds {policy : GenerationPolicy} (allows : policy.Allows generation)
    {store : BlobStore} {log : List Bytes} {view : List (List Chunk)}
    (holds : List.Forall₂ (Holds store) log view)
    (owned : ∀ chunk ∈ view.flatten, Owned journal cohort generation chunk) {slot : Nat}
    {previous : Option UInt64} (settled : previous = none ∨ previous = some generation) :
    ∃ recovered, recoverSlots journal cohort policy (some store) slot previous log = .ok recovered ∧
      List.Forall₂ Agrees recovered view.flatten := by
  induction holds generalizing slot previous with
  | nil => exact ⟨[], rfl, .nil⟩
  | cons first _ ih =>
      obtain ⟨sets, resolved, made⟩ := first.resolved
      obtain ⟨recovered, next, done, settled, agrees⟩ := recoverChunks_sealed allows made
        (fun chunk member => owned chunk (List.mem_append_left _ member)) settled
      obtain ⟨others, rest, follow⟩ :=
        ih (fun chunk member => owned chunk (List.mem_append_right _ member)) settled
      exact ⟨recovered ++ others, bind_eq_ok.mpr ⟨_, resolved, bind_eq_ok.mpr ⟨_, done,
        bind_eq_ok.mpr ⟨_, rest, rfl⟩⟩⟩, List.rel_append agrees follow⟩

theorem recoverChunks_owned {slot : Nat} {sets : List Bytes} {chunks : List Chunk}
    (made : List.Forall₂ SealedAs sets chunks) {next : Option UInt64}
    (success : recoverChunks journal cohort (.exact generation) slot previous sets =
      .ok (recovered, next)) : ∀ chunk ∈ chunks, Owned journal cohort generation chunk := by
  induction made generalizing previous recovered with
  | nil => simp
  | cons first _ ih =>
      obtain ⟨⟨head, middle⟩, done, success⟩ := bind_eq_ok.mp success
      obtain ⟨⟨others, last⟩, rest, success⟩ := bind_eq_ok.mp success
      cases success
      obtain ⟨inCohort, inJournal, accepted⟩ := recoverChunk_owned first done
      intro chunk member
      rcases List.mem_cons.mp member with rfl | later
      · exact ⟨inCohort, GenerationPolicy.exact_check accepted, inJournal⟩
      · exact ih rest chunk later

theorem recoverSlots_owned {store : BlobStore} {log : List Bytes} {view : List (List Chunk)}
    (holds : List.Forall₂ (Holds store) log view) {slot : Nat}
    (success : recoverSlots journal cohort (.exact generation) (some store) slot previous log =
      .ok recovered) : ∀ chunk ∈ view.flatten, Owned journal cohort generation chunk := by
  induction holds generalizing slot previous recovered with
  | nil => simp
  | cons first _ ih =>
      obtain ⟨sets, resolved, success⟩ := bind_eq_ok.mp success
      obtain ⟨⟨front, middle⟩, done, success⟩ := bind_eq_ok.mp success
      obtain ⟨others, rest, success⟩ := bind_eq_ok.mp success
      cases success
      obtain ⟨same, again, made⟩ := first.resolved
      cases resolved.symm.trans again
      intro chunk member
      rcases List.mem_append.mp member with here | later
      · exact recoverChunks_owned made done chunk here
      · exact ih rest chunk later

omit [Digests] in
/-- The dense check of recovery follows the offsets of the chunks. -/
theorem denseTail_eq_ok {chunks : List Chunk} (agrees : List.Forall₂ Agrees recovered chunks)
    {start stop : RecordOffset} :
    denseTail recovered start = .ok stop ↔ Adjoining start.toNat chunks stop.toNat := by
  induction agrees generalizing start with
  | nil =>
      constructor
      · intro done
        cases done
        exact rfl
      · intro same
        exact congrArg Except.ok (RecordOffset.ext_toNat same)
  | @cons chunk entry _ _ first _ ih =>
      obtain ⟨base, count⟩ := first
      unfold denseTail Adjoining
      constructor
      · intro done
        split at done <;> [cases done; skip]
        rename_i continues
        split at done <;> [cases done; skip]
        rename_i next advanced
        have sum := RecordOffset.checkedAdd_eq_some.mp advanced
        have same : chunk.firstOffset = start := by simpa using continues
        refine ⟨by rw [← base, same], ?_⟩
        rw [← count, sum]
        exact ih.mp done
      · rintro ⟨here, rest⟩
        have same : chunk.firstOffset = start := RecordOffset.ext_toNat (base.trans here)
        have total := rest.length
        have bound := stop.toNat_lt
        have advanced : start.checkedAdd chunk.recordCount.toNat =
            some (.ofNat (start.toNat + chunk.recordCount.toNat)) := by
          unfold RecordOffset.checkedAdd
          rw [if_pos (by omega)]
        rw [if_neg (by simp [same]), advanced]
        refine ih.mpr ?_
        rw [RecordOffset.toNat_ofNat (by omega), count]
        exact rest

/-- Recovery returns the writer at the end of the chunks that it agrees with. -/
theorem recoverFromLog_agrees {policy : GenerationPolicy} {blobs : Option BlobStore}
    {log : List Bytes} {bound : RecoveryBound} {chunks : List Chunk}
    (scanned : recoverSlots journal cohort policy blobs (log.length - bound.val) none
      (log.drop (log.length - bound.val)) = .ok recovered)
    (agrees : List.Forall₂ Agrees recovered chunks) {next : RecordOffset}
    (zero : chunks = [] → next.toNat = 0) (chained : ∃ start, Adjoining start chunks next.toNat) :
    recoverFromLog journal cohort generation log bound policy blobs =
      .ok (⟨journal, cohort, generation, log, next, false⟩, recovered) := by
  refine bind_eq_ok.mpr ⟨recovered, scanned, bind_eq_ok.mpr ⟨next, ?_, rfl⟩⟩
  cases agrees with
  | nil => exact congrArg Except.ok (RecordOffset.ext_toNat (zero rfl).symm)
  | cons agree rest =>
      obtain ⟨start, chained⟩ := chained
      refine (denseTail_eq_ok (.cons agree rest)).mpr ?_
      rw [agree.1.trans chained.1]
      exact chained

/-- What recovery answers to a log whose entries hold these chunks. -/
theorem recover_holds {store : BlobStore} {log : List Bytes} {view : List (List Chunk)}
    (holds : List.Forall₂ (Holds store) log view) (bound : RecoveryBound) (next : RecordOffset) :
    (∃ writer chunks, ChunkLogWriter.recover journal cohort generation log bound (some store) =
        .ok (writer, chunks) ∧ writer.nextOffset = next) ↔
      let window := (view.drop (log.length - bound.val)).flatten
      (∀ chunk ∈ window, Owned journal cohort generation chunk) ∧ (window = [] → next.toNat = 0) ∧
        ∃ start, Adjoining start window next.toNat := by
  have suffix := List.forall₂_drop (log.length - bound.val) holds
  constructor
  · rintro ⟨writer, chunks, success, same⟩ window
    obtain ⟨found, scanned, success⟩ := bind_eq_ok.mp success
    obtain ⟨reached, dense, success⟩ := bind_eq_ok.mp success
    cases success
    have owned := recoverSlots_owned suffix scanned
    obtain ⟨recovered, again, agrees⟩ :=
      recoverSlots_holds (GenerationPolicy.exact_allows generation) suffix owned (.inl rfl)
    cases scanned.symm.trans again
    subst same
    refine ⟨owned, ?_, _, (denseTail_eq_ok agrees).mp dense⟩
    intro nothing
    have none : chunks = [] := by
      have length := agrees.length_eq
      rw [show (view.drop (log.length - bound.val)).flatten = [] from nothing] at length
      exact List.eq_nil_of_length_eq_zero length
    subst none
    cases dense
    rfl
  · rintro ⟨owned, zero, chained⟩
    obtain ⟨recovered, scanned, agrees⟩ :=
      recoverSlots_holds (GenerationPolicy.exact_allows generation) suffix owned (.inl rfl)
    exact ⟨_, recovered, recoverFromLog_agrees scanned agrees zero chained, rfl⟩

end Recover

end

end Scripture
