import Scripture.DataRef

set_option autoImplicit false

/- Chunks of one frame, the only ones a driver seals: what they decode to, how long they are, and
how the length of a merged frame compares with the lengths of its parts. -/
namespace Scripture

open ByteFormat ByteFormat.Reader

/-- The length of a one-frame chunk with this many submissions and this frame body. -/
def soleChunkLen (submissions bodyLen : Nat) : Nat :=
  headerLen + (indexEntryFixedLen + submissions * submissionRefLen) + bodyLen + trailerLen

/-- Everything a successful `seal_single_frame_chunk` says about its result. -/
structure SealedFrom [Digests] (header : ChunkHeader) (frame : Frame) (result : SealedChunk) :
    Prop where
  chunkId : result.chunkId = header.chunkId
  digest : result.digest = ChunkDigest.of result.bytes
  decoded : decodeChunk result.bytes = .ok ⟨header, [frame]⟩
  payload : decodeLogPayload result.bytes = .ok (.inlineChunk result.bytes)
  tiled : validateSubmissionTiling frame.submissions frame.records.length = .ok ()
  offsets : frame.baseOffset.toNat + frame.records.length < 2 ^ 64
  records : frame.records.length < 2 ^ 32
  body : ∃ body, encodeFrameRecords frame.records = .ok body ∧
    decodeIndex result.bytes =
      .ok ⟨header, [frameRefOf frame body (headerLen + indexLenOf [frame])]⟩ ∧
    result.bytes.length = soleChunkLen frame.submissions.length body.length ∧
    result.bytes.length < 2 ^ 34

variable {frame : Frame}

theorem sealSingleFrameChunk_eq_ok [Digests] {header : ChunkHeader} {result : SealedChunk}
    (success : sealSingleFrameChunk header [frame] = .ok result) :
    SealedFrom header frame result := by
  have single : sealChunk header [frame] = .ok result := by
    rwa [sealSingleFrameChunk, if_neg (by simp)] at success
  obtain ⟨bodies, index, layout, sealing, chunkId, digest, bytes⟩ := sealChunk_eq_ok single
  rw [List.mergeSort_singleton] at sealing
  have encoded := sealing.bodiesEncoded
  unfold encodeBodies at encoded
  obtain ⟨body, bodyEncoded, encoded⟩ := bind_eq_ok.mp encoded
  cases encoded
  obtain ⟨tiled, offsets, -⟩ := validateFrames_cons sealing.valid
  obtain ⟨⟨records, start, bodyFits, -⟩, -⟩ := encodeIndex_cons sealing.indexEncoded
  have length := sealing.sealedBytes_length
  have sum : indexLenOf [frame] =
      indexEntryFixedLen + frame.submissions.length * submissionRefLen := by simp [indexLenOf]
  have flat : [body].flatten = body := by simp
  rw [flat] at length
  refine ⟨chunkId, digest, ?_, ?_, tiled, offsets, records, body, bodyEncoded, ?_, ?_, ?_⟩
  · rw [bytes]
    exact sealing.decodeChunk_sealedBytes
  · rw [bytes]
    exact decodeLogPayload_sealedBytes header layout index _
  · rw [bytes]
    exact sealing.decodeIndex_front _
  · rw [bytes, flat, length, sum]
    rfl
  · rw [bytes, flat, length]
    simp only [trailerLen]
    omega

theorem encodeRecords_append (left right : List Record) (bytes : Bytes) :
    encodeRecords (left ++ right) = .ok bytes ↔
      ∃ front back, encodeRecords left = .ok front ∧ encodeRecords right = .ok back ∧
        bytes = front ++ back := by
  induction left generalizing bytes with
  | nil =>
      simp only [List.nil_append, encodeRecords]
      constructor
      · intro encoded
        exact ⟨[], bytes, rfl, encoded, rfl⟩
      · rintro ⟨front, back, empty, encoded, rfl⟩
        cases empty
        exact encoded
  | cons record rest ih =>
      simp only [List.cons_append, encodeRecords, bind_eq_ok]
      constructor
      · rintro ⟨first, firstEncoded, others, othersEncoded, same⟩
        obtain ⟨front, back, frontEncoded, backEncoded, rfl⟩ := (ih others).mp othersEncoded
        cases same
        exact ⟨first ++ front, back, ⟨first, firstEncoded, front, frontEncoded, rfl⟩, backEncoded,
          (List.append_assoc first front back).symm⟩
      · rintro ⟨front, back, ⟨first, firstEncoded, others, othersEncoded, same⟩, backEncoded, rfl⟩
        cases same
        refine ⟨first, firstEncoded, others ++ back, ?_, ?_⟩
        · exact (ih _).mpr ⟨others, back, othersEncoded, backEncoded, rfl⟩
        · rw [List.append_assoc]
          rfl

theorem checkedAdd_of_le (left right : Nat) (fits : left + right ≤ Usize.max) :
    Usize.checkedAdd left right = some (left + right) := if_pos fits

theorem checkedMul_of_le (left right : Nat) (fits : left * right ≤ Usize.max) :
    Usize.checkedMul left right = some (left * right) := if_pos fits

/-- The exact size of a one-frame chunk. -/
theorem encodedChunkLen_of_le {body : Bytes}
    (encoded : encodeFrameRecords frame.records = .ok body)
    (fits : soleChunkLen frame.submissions.length body.length ≤ Usize.max) :
    encodedChunkLen [frame] = .ok (soleChunkLen frame.submissions.length body.length) := by
  simp only [soleChunkLen, trailerLen] at fits
  have spans := checkedMul_of_le frame.submissions.length submissionRefLen (by omega)
  have fixed := checkedAdd_of_le 0 indexEntryFixedLen (by omega)
  have entry := checkedAdd_of_le (0 + indexEntryFixedLen)
    (frame.submissions.length * submissionRefLen) (by omega)
  have frames := checkedAdd_of_le 0 body.length (by omega)
  have lengths : encodedLengths [frame] 0 0 =
      .ok (0 + indexEntryFixedLen + frame.submissions.length * submissionRefLen,
        0 + body.length) := by
    simp only [encodedLengths, spans, fixed, entry, encoded, Bind.bind, Except.bind, frames]
    rfl
  have withIndex := checkedAdd_of_le headerLen
    (0 + indexEntryFixedLen + frame.submissions.length * submissionRefLen) (by omega)
  have withFrames := checkedAdd_of_le
    (headerLen + (0 + indexEntryFixedLen + frame.submissions.length * submissionRefLen))
    (0 + body.length) (by omega)
  have total := checkedAdd_of_le (headerLen +
    (0 + indexEntryFixedLen + frame.submissions.length * submissionRefLen) + (0 + body.length))
    trailerLen (by simp only [trailerLen]; omega)
  simp only [encodedChunkLen, lengths, Bind.bind, Except.bind, withIndex, withFrames, total]
  simp only [Nat.zero_add, soleChunkLen]
  rfl

theorem encodedLengths_single {indexLen framesLen : Nat}
    (success : encodedLengths [frame] 0 0 = .ok (indexLen, framesLen)) :
    ∃ body, encodeFrameRecords frame.records = .ok body ∧
      indexLen = indexEntryFixedLen + frame.submissions.length * submissionRefLen ∧
      framesLen = body.length := by
  simp only [encodedLengths] at success
  split at success <;> [skip; cases success]
  rename_i spans spansFit
  split at success <;> [skip; cases success]
  rename_i fixed fixedFits
  split at success <;> [skip; cases success]
  rename_i entry entryFits
  obtain ⟨body, encoded, success⟩ := bind_eq_ok.mp success
  split at success <;> [skip; cases success]
  rename_i frames framesFit
  cases success
  unfold Usize.checkedMul at spansFit
  split at spansFit
  · cases spansFit
    have := (Usize.checkedAdd_eq_some.mp fixedFits).1
    have := (Usize.checkedAdd_eq_some.mp entryFits).1
    have := (Usize.checkedAdd_eq_some.mp framesFit).1
    exact ⟨body, encoded, by omega, by omega⟩
  · cases spansFit

theorem encodedChunkLen_eq_ok {length : Nat} (success : encodedChunkLen [frame] = .ok length) :
    ∃ body, encodeFrameRecords frame.records = .ok body ∧
      length = soleChunkLen frame.submissions.length body.length ∧ length ≤ Usize.max := by
  unfold encodedChunkLen at success
  obtain ⟨⟨indexLen, framesLen⟩, lengths, success⟩ := bind_eq_ok.mp success
  dsimp only at success
  split at success <;> [skip; cases success]
  rename_i withIndex indexFits
  split at success <;> [skip; cases success]
  rename_i withFrames framesFit
  split at success <;> [skip; cases success]
  rename_i total totalFits
  cases success
  obtain ⟨body, encoded, rfl, rfl⟩ := encodedLengths_single lengths
  have first := (Usize.checkedAdd_eq_some.mp indexFits).1
  have second := (Usize.checkedAdd_eq_some.mp framesFit).1
  obtain ⟨third, bounded⟩ := Usize.checkedAdd_eq_some.mp totalFits
  exact ⟨body, encoded, by simp only [soleChunkLen]; omega, bounded⟩

theorem encodeIndex_sole [Digests] {body : Bytes} {cursor : Nat}
    (records : frame.records.length < 2 ^ 32) (spans : frame.submissions.length < 2 ^ 32)
    (small : cursor + body.length < 2 ^ 32) :
    encodeIndex [frame] [body] cursor =
      .ok (encodeFrameRef (frameRefOf frame body cursor) ++ [], cursor + body.length) := by
  have wide : 2 ^ 32 ≤ Usize.max := by decide
  have stop := checkedAdd_of_le cursor body.length (by omega)
  have start : cursor < 2 ^ 32 := by omega
  have length : body.length < 2 ^ 32 := by omega
  simp only [encodeIndex, u32Len_of_lt records, u32Len_of_lt start, u32Len_of_lt length,
    u32Len_of_lt spans, Bind.bind, Except.bind, stop]
  rfl

/-- A frame whose spans tile it, whose offsets exist and whose chunk has a 32-bit length can be
sealed. -/
theorem sealSingleFrameChunk_succeeds [Digests] (header : ChunkHeader) {frame : Frame} {size : Nat}
    (tiled : validateSubmissionTiling frame.submissions frame.records.length = .ok ())
    (offsets : frame.baseOffset.toNat + frame.records.length < 2 ^ 64)
    (sized : encodedChunkLen [frame] = .ok size) (small : size < 2 ^ 32) :
    ∃ result, sealSingleFrameChunk header [frame] = .ok result := by
  obtain ⟨body, encoded, rfl, -⟩ := encodedChunkLen_eq_ok sized
  obtain ⟨records, -⟩ := encodeFrameRecords_eq_ok encoded
  have wide : 2 ^ 32 ≤ Usize.max := by decide
  have index : indexLenOf [frame] =
      indexEntryFixedLen + frame.submissions.length * submissionRefLen := by simp [indexLenOf]
  simp only [soleChunkLen, ← index] at small
  have spans : frame.submissions.length < 2 ^ 32 := by
    simp only [index, submissionRefLen] at small
    omega
  have fits : headerLen + indexLenOf [frame] + body.length < 2 ^ 32 := by omega
  have indexFits : indexLenOf [frame] < 2 ^ 32 := by omega
  have startFits : headerLen + indexLenOf [frame] < 2 ^ 32 := by omega
  have bodyFits : headerLen + indexLenOf [frame] + body.length -
      (headerLen + indexLenOf [frame]) < 2 ^ 32 := by omega
  have start := checkedAdd_of_le headerLen (indexLenOf [frame]) (by omega)
  obtain ⟨next, advanced⟩ := Option.isSome_iff_exists.mp
    (RecordOffset.checkedAdd_isSome.mpr offsets)
  have valid : validateFrames [frame] = .ok () := by
    simp only [validateFrames, tiled, advanced, Bind.bind, Except.bind]
    rfl
  have bodies : encodeBodies [frame] = .ok [body] := by
    simp only [encodeBodies, encoded, Bind.bind, Except.bind]
    rfl
  have sole : repeatsJournal [frame] = false := rfl
  unfold sealSingleFrameChunk sealChunk
  simp only [List.length_singleton, ne_eq, not_true_eq_false, ↓reduceIte, List.isEmpty_cons,
    Bool.false_eq_true, List.mergeSort_singleton, sole, valid, bodies, start,
    encodeIndex_sole records spans fits, Bind.bind, Except.bind,
    u32Len_of_lt (show headerLen < 2 ^ 32 by decide), u32Len_of_lt indexFits,
    u32Len_of_lt startFits, u32Len_of_lt bodyFits, u32Len_of_lt (show 1 < 2 ^ 32 by decide)]
  exact ⟨_, rfl⟩

end Scripture
