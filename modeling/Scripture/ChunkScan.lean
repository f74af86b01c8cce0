import Scripture.ChunkCanonical

set_option autoImplicit false

/- Partial reads of sealed chunks: the index from a front of the bytes, one frame from its own
region, and the walk over chunks that stand one behind the other. -/
namespace Scripture

open ByteFormat

/-- The length of the sealed chunk at the front of the bytes. -/
def nextSealedChunkLen [Digests] (bytes : Bytes) : Except ChunkError Nat := do
  let index ← decodeIndex bytes
  let some last := index.frames.getLast? | throw .emptyChunk
  let length := last.frameOffset.toNat + last.frameLen.toNat + trailerLen
  if bytes.length < length then throw .truncated
  return length

section

variable [Digests]

theorem nextSealedChunkLen_eq_ok {bytes : Bytes} {length : Nat} :
    nextSealedChunkLen bytes = .ok length ↔ ∃ index last, decodeIndex bytes = .ok index ∧
      index.frames.getLast? = some last ∧
      length = last.frameOffset.toNat + last.frameLen.toNat + trailerLen ∧
      length ≤ bytes.length := by
  constructor
  · intro found
    obtain ⟨index, decoded, found⟩ := bind_eq_ok.mp found
    cases ends : index.frames.getLast? with
    | none =>
        simp only [ends] at found
        cases found
    | some last =>
        simp only [ends] at found
        obtain ⟨long, found⟩ := checked_eq_ok.mp found
        cases found
        exact ⟨index, last, decoded, ends, rfl, not_lt.mp long⟩
  · rintro ⟨index, last, decoded, ends, rfl, fits⟩
    refine bind_eq_ok.mpr ⟨index, decoded, ?_⟩
    simp only [ends]
    exact checked_eq_ok.mpr ⟨not_lt.mpr fits, rfl⟩

theorem nextSealedChunkLen_pos {bytes : Bytes} {length : Nat}
    (found : nextSealedChunkLen bytes = .ok length) : 0 < length ∧ length ≤ bytes.length := by
  obtain ⟨index, last, -, -, rfl, fits⟩ := nextSealedChunkLen_eq_ok.mp found
  have trailer : 0 < trailerLen := by decide
  omega

end

/-- The identities of the sealed chunks that the bytes are made of. -/
def scanSealedChunkIds [Digests] (bytes : Bytes) : Except ChunkError (List ChunkId) :=
  if bytes.isEmpty then return []
  else
    match _ : nextSealedChunkLen bytes with
    | .error error => throw error
    | .ok length => do
        let chunk ← decodeChunk (bytes.take length)
        let later ← scanSealedChunkIds (bytes.drop length)
        return chunk.header.chunkId :: later
  termination_by bytes.length
  decreasing_by
    rename_i found
    have bounds := nextSealedChunkLen_pos found
    simp only [List.length_drop]
    omega

/-- A chunk that the encoder has sealed. -/
def Sealed [Digests] (chunk : SealedChunk) : Prop :=
  ∃ header frames, sealChunk header frames = .ok chunk

section

variable [Digests]

variable {front : Bytes} {chunk : SealedChunk}

theorem decodeIndex_append {index : ChunkIndex} (decoded : decodeIndex front = .ok index)
    (rest : Bytes) :
    decodeIndex (front ++ rest) = .ok index := by
  obtain ⟨⟨⟨header, layout⟩, unread⟩, headed, decoded⟩ := bind_eq_ok.mp decoded
  have again : readHeader (front ++ rest) = .ok ((header, layout), unread ++ rest) := by
    rw [readHeader_spells headed, List.append_assoc]
    exact readHeader_reads header layout (unread ++ rest)
  obtain ⟨indexOffset, decoded⟩ := checked_eq_ok.mp decoded
  obtain ⟨framesOffset, decoded⟩ := checked_eq_ok.mp decoded
  refine bind_eq_ok.mpr ⟨_, again, checked_eq_ok.mpr ⟨indexOffset, ?_⟩⟩
  refine checked_eq_ok.mpr ⟨framesOffset, ?_⟩
  dsimp only at decoded ⊢
  cases found : slice front layout.indexOffset.toNat
      (layout.indexOffset.toNat + layout.indexLen.toNat) with
  | none =>
      rw [found] at decoded
      cases decoded
  | some indexBytes =>
      rw [found] at decoded
      rw [slice_append found rest]
      exact decoded

theorem nextSealedChunkLen_append {length : Nat} (found : nextSealedChunkLen front = .ok length)
    (rest : Bytes) :
    nextSealedChunkLen (front ++ rest) = .ok length := by
  obtain ⟨index, last, decoded, ends, spans, fits⟩ := nextSealedChunkLen_eq_ok.mp found
  refine nextSealedChunkLen_eq_ok.mpr
    ⟨index, last, decodeIndex_append decoded rest, ends, spans, ?_⟩
  rw [List.length_append]
  omega

theorem Sealing.decodeIndex_take {header : ChunkHeader} {frames : List Frame}
    {bodies : List Bytes} {index : Bytes} {layout : ChunkLayout}
    (sealing : Sealing header frames bodies index layout) {count : Nat}
    (covered : headerLen + indexLenOf frames ≤ count) :
    decodeIndex ((sealedBytes header layout index bodies.flatten).take count) =
      .ok ⟨header, frameRefs frames bodies (headerLen + indexLenOf frames)⟩ := by
  have length := sealing.index_length
  rw [sealedBytes, List.take_append, List.take_append, List.take_of_length_le (by simp; omega),
    List.take_of_length_le (by simp; omega)]
  exact sealing.decodeIndex_front _

theorem nextSealedChunkLen_sealed (made : Sealed chunk) :
    nextSealedChunkLen chunk.bytes = .ok chunk.bytes.length := by
  obtain ⟨header, frames, success⟩ := made
  obtain ⟨bodies, index, layout, sealing, -, -, bytes⟩ := sealChunk_eq_ok success
  have paired := encodeBodies_length sealing.bodiesEncoded
  obtain ⟨last, found, ends⟩ := frameRefs_getLast _ bodies index _ _ sealing.nonempty paired
    sealing.indexEncoded
  have decoded := sealing.decodeIndex_front
    (bodies.flatten ++ encodeTrailer layout.indexOffset layout.indexLen)
  rw [bytes]
  refine nextSealedChunkLen_eq_ok.mpr ⟨_, last, decoded, found, ?_, le_refl _⟩
  rw [sealing.sealedBytes_length, ends]

/-- A front of a sealed chunk that is not the whole of it is refused. -/
theorem nextSealedChunkLen_cut (made : Sealed chunk) {back : Bytes}
    (split : front ++ back = chunk.bytes) (cut : back ≠ []) (length : Nat) :
    nextSealedChunkLen front ≠ .ok length := by
  intro found
  have whole := nextSealedChunkLen_append found back
  rw [split, nextSealedChunkLen_sealed made, Except.ok.injEq] at whole
  have fits := (nextSealedChunkLen_pos found).2
  have lengths := congrArg List.length split
  rw [List.length_append] at lengths
  have some := List.length_pos_iff.mpr cut
  omega

theorem decodeChunk_of_sealed (made : Sealed chunk) :
    ∃ decoded, decodeChunk chunk.bytes = .ok decoded ∧ decoded.header.chunkId = chunk.chunkId := by
  obtain ⟨header, frames, success⟩ := made
  obtain ⟨bodies, index, layout, sealing, chunkId, -, bytes⟩ := sealChunk_eq_ok success
  rw [bytes, chunkId]
  exact ⟨_, sealing.decodeChunk_sealedBytes, rfl⟩

/-- The walk takes a sealed chunk off the front, whatever follows. -/
theorem scanSealedChunkIds_cons (made : Sealed chunk) (rest : Bytes) :
    scanSealedChunkIds (chunk.bytes ++ rest) =
      (scanSealedChunkIds rest).map (chunk.chunkId :: ·) := by
  have whole := nextSealedChunkLen_sealed made
  have front := nextSealedChunkLen_append whole rest
  have bounds := nextSealedChunkLen_pos whole
  obtain ⟨decoded, success, named⟩ := decodeChunk_of_sealed made
  have some : (chunk.bytes ++ rest).isEmpty = false := by
    rw [List.isEmpty_eq_false_iff, ← List.length_pos_iff, List.length_append]
    omega
  rw [scanSealedChunkIds, if_neg (by simp [some])]
  split
  · rename_i error failed
    rw [front] at failed
    cases failed
  · rename_i length found
    rw [front, Except.ok.injEq] at found
    rw [← found, List.take_left, List.drop_left, success, ← named]
    cases scanSealedChunkIds rest <;> rfl

theorem scanSealedChunkIds_sealed {chunks : List SealedChunk}
    (each : ∀ chunk ∈ chunks, Sealed chunk) :
    scanSealedChunkIds (chunks.flatMap SealedChunk.bytes) =
      .ok (chunks.map SealedChunk.chunkId) := by
  induction chunks with
  | nil =>
      rw [scanSealedChunkIds]
      rfl
  | cons chunk rest ih =>
      have later := ih fun other member => each other (List.mem_cons_of_mem _ member)
      rw [List.flatMap_cons, scanSealedChunkIds_cons (each chunk List.mem_cons_self), later]
      rfl

theorem scanSealedChunkIds_cut (made : Sealed chunk) {back : Bytes}
    (split : front ++ back = chunk.bytes) (some : front ≠ []) (cut : back ≠ []) :
    ∃ error, scanSealedChunkIds front = .error error := by
  rw [scanSealedChunkIds, if_neg (by simpa using some)]
  split
  · rename_i error failed
    exact ⟨error, rfl⟩
  · rename_i length found
    exact absurd found (nextSealedChunkLen_cut made split cut length)

/-- A walk over a front of the chunks fails where the front ends inside a chunk. -/
theorem scanSealedChunkIds_truncated {chunks : List SealedChunk}
    (each : ∀ chunk ∈ chunks, Sealed chunk) (cut : front <+: chunks.flatMap SealedChunk.bytes)
    (inside : ∀ count, front ≠ (chunks.take count).flatMap SealedChunk.bytes) :
    ∃ error, scanSealedChunkIds front = .error error := by
  induction chunks generalizing front with
  | nil => exact absurd (List.prefix_nil.mp cut) (inside 0)
  | cons chunk rest ih =>
      have made := each chunk List.mem_cons_self
      rw [List.flatMap_cons] at cut
      by_cases short : front.length < chunk.bytes.length
      · obtain ⟨back, split⟩ :=
          List.prefix_of_prefix_length_le cut (List.prefix_append _ _) short.le
        refine scanSealedChunkIds_cut made split (inside 0) ?_
        rintro rfl
        rw [List.append_nil] at split
        rw [split] at short
        exact absurd short (lt_irrefl _)
      · obtain ⟨after, rfl⟩ := List.prefix_of_prefix_length_le (List.prefix_append _ _) cut
          (not_lt.mp short)
        have remaining := (List.prefix_append_right_inj chunk.bytes).mp cut
        obtain ⟨error, failed⟩ :=
          ih (fun other member => each other (List.mem_cons_of_mem _ member))
          remaining (by
            intro count same
            refine inside (count + 1) ?_
            rw [same, List.take_succ_cons, List.flatMap_cons])
        rw [scanSealedChunkIds_cons made, failed]
        exact ⟨error, rfl⟩

/-- Each frame of a chunk comes from the region of its entry alone. -/
theorem decodeFrames_regions {bytes : Bytes} {entries : List FrameRef} {frames : List Frame}
    (decoded : decodeFrames bytes entries = .ok frames) :
    List.Forall₂ (fun entry frame => frame.journalId = entry.journalId ∧ ∃ region,
      slice bytes entry.frameOffset.toNat (entry.frameOffset.toNat + entry.frameLen.toNat) =
        some region ∧ decodeFrame entry region = .ok frame.records) entries frames := by
  induction entries generalizing frames with
  | nil =>
      cases decoded
      exact .nil
  | cons entry rest ih =>
      obtain ⟨body, records, others, found, framed, remaining, rfl⟩ := decodeFrames_cons decoded
      exact .cons ⟨rfl, body, found, framed⟩ (ih remaining)

theorem decodeChunk_frames {bytes : Bytes} {chunk : Chunk}
    (decoded : decodeChunk bytes = .ok chunk) :
    ∃ index, decodeIndex bytes = .ok index ∧
      decodeFrames bytes index.frames = .ok chunk.frames := by
  obtain ⟨-, decoded⟩ := checked_eq_ok.mp decoded
  obtain ⟨_, -, decoded⟩ := bind_eq_ok.mp decoded
  obtain ⟨index, indexed, decoded⟩ := bind_eq_ok.mp decoded
  obtain ⟨-, decoded⟩ := checked_eq_ok.mp decoded
  cases found : index.frames.getLast? with
  | none =>
      simp only [found] at decoded
      cases decoded
  | some last =>
      simp only [found] at decoded
      obtain ⟨-, decoded⟩ := checked_eq_ok.mp decoded
      obtain ⟨frames, framed, decoded⟩ := bind_eq_ok.mp decoded
      cases decoded
      exact ⟨index, indexed, framed⟩

end

/-- A reader with the front of a sealed chunk has its index, and one with the region of an entry has
the records of the whole decoder. A walk over sealed chunks returns their identities in order, and
fails on a front of them that ends inside a chunk. -/
theorem partialReads_agree [Digests] :
    (∀ sealed : SealedChunk, Sealed sealed → ∃ index chunk, decodeIndex sealed.bytes = .ok index ∧
      decodeChunk sealed.bytes = .ok chunk ∧
      (∀ front, front <+: sealed.bytes →
        headerLen + (index.frames.map fun frame =>
          indexEntryFixedLen + frame.submissions.length * submissionRefLen).sum ≤ front.length →
        decodeIndex front = .ok index) ∧
      List.Forall₂ (fun entry frame => frame.journalId = entry.journalId ∧ ∃ region,
        slice sealed.bytes entry.frameOffset.toNat
          (entry.frameOffset.toNat + entry.frameLen.toNat) = some region ∧
        decodeFrame entry region = .ok frame.records) index.frames chunk.frames) ∧
    ∀ chunks : List SealedChunk, (∀ chunk ∈ chunks, Sealed chunk) →
      scanSealedChunkIds (chunks.flatMap SealedChunk.bytes) = .ok (chunks.map SealedChunk.chunkId) ∧
      ∀ front, front <+: chunks.flatMap SealedChunk.bytes →
        (∀ count, front ≠ (chunks.take count).flatMap SealedChunk.bytes) →
        ∃ error, scanSealedChunkIds front = .error error := by
  constructor
  · rintro sealed ⟨header, frames, success⟩
    obtain ⟨bodies, index, layout, sealing, -, -, bytes⟩ := sealChunk_eq_ok success
    have whole := sealing.decodeChunk_sealedBytes
    rw [← bytes] at whole
    obtain ⟨found, indexed, framed⟩ := decodeChunk_frames whole
    refine ⟨found, _, indexed, whole, ?_, decodeFrames_regions framed⟩
    have first := sealing.decodeIndex_front
      (bodies.flatten ++ encodeTrailer layout.indexOffset layout.indexLen)
    have same := Except.ok.inj (indexed.symm.trans ((congrArg decodeIndex bytes).trans first))
    intro front cut covered
    rw [same] at covered ⊢
    rw [sealing.indexSpan] at covered
    rw [List.prefix_iff_eq_take.mp cut, bytes]
    exact sealing.decodeIndex_take covered
  · intro chunks each
    exact ⟨scanSealedChunkIds_sealed each, fun front => scanSealedChunkIds_truncated each⟩

/-- A chunk of two journals: its index from a front, twice the chunk, and a chunk without its last
byte. -/
theorem partialReads_agree_tiny : ∃ (_ : Digests) (sealed : SealedChunk) (index : ChunkIndex),
    decodeIndex sealed.bytes = .ok index ∧
      decodeIndex (sealed.bytes.take (headerLen + (index.frames.map fun frame =>
        indexEntryFixedLen + frame.submissions.length * submissionRefLen).sum)) = .ok index ∧
      scanSealedChunkIds (sealed.bytes ++ sealed.bytes) = .ok [sealed.chunkId, sealed.chunkId] ∧
      ∃ error, scanSealedChunkIds sealed.bytes.dropLast = .error error := by
  let digests := sampleDigests
  obtain ⟨bytes, decoded⟩ := tinyFrames_decoded
  obtain ⟨sealed, success, -⟩ := sealChunk_of_decoded decoded (by decide) (by decide)
  obtain ⟨reads, scans⟩ := @partialReads_agree digests
  have made : Sealed sealed := ⟨_, _, success⟩
  obtain ⟨index, chunk, indexed, whole, fronts, -⟩ := reads sealed made
  have long := not_lt.mp (checked_eq_ok.mp whole).1
  have size : 2 ≤ headerLen + trailerLen := by decide
  obtain ⟨twice, -⟩ := scans [sealed, sealed] (by simp [made])
  obtain ⟨-, cut⟩ := scans [sealed] (by simp [made])
  refine ⟨digests, sealed, index, indexed, ?_, by simpa using twice, ?_⟩
  · obtain ⟨layout, rest, spelled, -⟩ := decodeIndex_spells indexed
    have lengths := congrArg List.length spelled
    rw [List.length_append, List.length_append, encodeHeader_length, frameRefs_spelled_length]
      at lengths
    refine fronts _ (List.take_prefix _ _) ?_
    rw [List.length_take]
    omega
  · refine cut _ (by simpa using List.dropLast_prefix _) ?_
    intro count same
    have lengths := congrArg List.length same
    cases count with
    | zero =>
        simp at lengths
        omega
    | succ count =>
        simp at lengths
        omega

end Scripture
