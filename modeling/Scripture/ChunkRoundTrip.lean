import Scripture.ChunkDecode

set_option autoImplicit false

/- Every sealed chunk decodes to the header and frames it was sealed from. -/
namespace Scripture

open ByteFormat
open ByteFormat.Reader (Reads)

theorem u32Len_eq_ok {value : Nat} {length : UInt32} :
    u32Len value = .ok length ↔ value < 2 ^ 32 ∧ length.toNat = value := by
  unfold u32Len
  split
  · rename_i fits
    rw [Except.ok.injEq]
    constructor
    · rintro rfl
      exact ⟨fits, by simp only [UInt32.toNat_ofNat']; omega⟩
    · rintro ⟨-, rfl⟩
      exact UInt32.ofNat_toNat
  · simp_all

theorem u32Len_of_lt {value : Nat} (fits : value < 2 ^ 32) :
    u32Len value = .ok (UInt32.ofNat value) := by
  rw [u32Len, if_pos fits]

theorem toNat_u32OfNat {value : Nat} (fits : value < 2 ^ 32) :
    (UInt32.ofNat value).toNat = value := by
  simp only [UInt32.toNat_ofNat']
  omega

theorem putLenBytes_eq_ok {value bytes : Bytes} :
    putLenBytes value = .ok bytes ↔
      value.length < 2 ^ 32 ∧ bytes = putU32 (UInt32.ofNat value.length) ++ value := by
  unfold putLenBytes u32Len
  split
  · rename_i fits
    simp only [Bind.bind, Except.bind, Pure.pure, Except.pure, Except.ok.injEq, fits, true_and]
    exact eq_comm
  · rename_i large
    simp only [Bind.bind, Except.bind, reduceCtorEq, false_iff]
    exact fun fits => large fits.1

theorem readLenBytes_reads {value bytes : Bytes} (encoded : putLenBytes value = .ok bytes) :
    Reads readLenBytes bytes value := by
  obtain ⟨fits, rfl⟩ := putLenBytes_eq_ok.mp encoded
  refine Reads.bind (readU32_reads _ _) (Reads.take_of_length _ ?_)
  rw [toNat_u32OfNat fits]

theorem decodeKey_utf8 (key : String) : decodeKey (utf8 key) = .ok key := by
  simp [decodeKey, Pure.pure, Except.pure]

theorem encodeAttribute_eq_ok {entry : String × AttributeValue} {bytes : Bytes}
    (encoded : encodeAttribute entry = .ok bytes) :
    ∃ key tag value valueBytes, putLenBytes (utf8 entry.1) = .ok key ∧
      putLenBytes value = .ok valueBytes ∧ bytes = key ++ ([tag] ++ valueBytes) ∧
      decodeAttributeValue tag value = .ok entry.2 := by
  obtain ⟨name, typed⟩ := entry
  unfold encodeAttribute at encoded
  obtain ⟨key, keyed, encoded⟩ := bind_eq_ok.mp encoded
  cases typed with
  | string text =>
      obtain ⟨value, written, encoded⟩ := bind_eq_ok.mp encoded
      cases encoded
      exact ⟨key, stringTag, utf8 text, value, keyed, written, rfl,
        by simp [decodeAttributeValue, Pure.pure, Except.pure]⟩
  | i64 number =>
      cases encoded
      refine ⟨key, i64Tag, putU64 number.toUInt64, _, keyed,
        putLenBytes_eq_ok.mpr ⟨by simp, rfl⟩, ?_, ?_⟩
      · simp
      · have fits : number.toUInt64.toNat < 256 ^ 8 := number.toUInt64.toNat_lt
        have value : bigEndianValue (putU64 number.toUInt64) = number.toUInt64.toNat :=
          bigEndianValue_bigEndian_of_lt 8 _ fits
        simp [decodeAttributeValue, stringTag, i64Tag, value, Pure.pure, Except.pure]
  | bool flag =>
      cases encoded
      refine ⟨key, boolTag, [if flag then 1 else 0], _, keyed,
        putLenBytes_eq_ok.mpr ⟨by simp, rfl⟩, ?_, ?_⟩
      · simp
      · cases flag <;> rfl

theorem readAttributes_eq (count : Nat) (previous : Option String) (collected : AttributeMap) :
    readAttributes count previous collected = AttributeMap.readWith .nonCanonicalAttributes
      (readLenBytes >>= fun bytes => Reader.lift (decodeKey bytes))
      (do
        let tag ← readU8 .truncated
        let bytes ← readLenBytes
        Reader.lift (decodeAttributeValue tag bytes)) count previous collected := by
  induction count generalizing previous collected with
  | zero => rfl
  | succ count ih =>
      simp only [readAttributes, AttributeMap.readWith, Reader.bind_assoc]
      simp only [ih]

/-- The entries of a record are written one behind another, each as its key and its value. -/
theorem encodeAttributes_eq_ok (entries : List (String × AttributeValue)) (bytes : Bytes)
    (encoded : encodeAttributes entries = .ok bytes) :
    ∃ pieces, bytes = pieces.flatten ∧
      List.Forall₂ (fun entry piece => encodeAttribute entry = .ok piece) entries pieces := by
  induction entries generalizing bytes with
  | nil =>
      cases encoded
      exact ⟨[], rfl, .nil⟩
  | cons entry rest ih =>
      unfold encodeAttributes at encoded
      obtain ⟨first, firstEncoded, encoded⟩ := bind_eq_ok.mp encoded
      obtain ⟨remaining, restEncoded, encoded⟩ := bind_eq_ok.mp encoded
      cases encoded
      obtain ⟨pieces, rfl, later⟩ := ih remaining restEncoded
      exact ⟨first :: pieces, rfl, .cons firstEncoded later⟩

theorem readAttributes_reads (attributes : AttributeMap) (bytes : Bytes)
    (encoded : encodeAttributes attributes.entries = .ok bytes) :
    Reads (readAttributes attributes.entries.length none .empty) bytes attributes := by
  obtain ⟨pieces, rfl, spelled⟩ := encodeAttributes_eq_ok attributes.entries bytes encoded
  rw [readAttributes_eq]
  refine AttributeMap.readWith_reads (spelled.imp ?_) .empty none (by simp) attributes.sorted
  intro entry piece written
  obtain ⟨key, tag, value, valueBytes, keyed, valued, rfl, decoded⟩ := encodeAttribute_eq_ok written
  refine ⟨key, [tag] ++ valueBytes, rfl, ?_, ?_⟩
  · exact Reads.last (readLenBytes_reads keyed) (Reads.lift (decodeKey_utf8 entry.1))
  · refine Reads.bind (readU8_reads _ tag) ?_
    exact Reads.last (readLenBytes_reads valued) (Reads.lift decoded)

theorem readRecord_reads {record : Record} {bytes : Bytes}
    (encoded : encodeRecord record = .ok bytes) : Reads readRecord bytes record := by
  unfold encodeRecord at encoded
  obtain ⟨count, counted, encoded⟩ := bind_eq_ok.mp encoded
  obtain ⟨entries, entriesEncoded, encoded⟩ := bind_eq_ok.mp encoded
  obtain ⟨payload, payloadEncoded, encoded⟩ := bind_eq_ok.mp encoded
  cases encoded
  have length := (u32Len_eq_ok.mp counted).2
  have entriesRead := readAttributes_reads record.attributes entries entriesEncoded
  rw [← length] at entriesRead
  refine Reads.bind (readU32_reads _ count) ?_
  refine Reads.bind entriesRead ?_
  exact (readLenBytes_reads payloadEncoded).map fun payload => Record.mk record.attributes payload

/-- Any reader that takes each record in its own bytes takes them all. -/
theorem readMany_reads {ε : Type} {item : Reader ε Record}
    (each : ∀ record bytes, encodeRecord record = .ok bytes → Reads item bytes record)
    (records : List Record) (bytes : Bytes) (encoded : encodeRecords records = .ok bytes) :
    Reads (Reader.many item records.length) bytes records := by
  induction records generalizing bytes with
  | nil =>
      cases encoded
      exact Reads.pure []
  | cons record rest ih =>
      unfold encodeRecords at encoded
      obtain ⟨first, firstEncoded, encoded⟩ := bind_eq_ok.mp encoded
      obtain ⟨remaining, restEncoded, encoded⟩ := bind_eq_ok.mp encoded
      cases encoded
      exact Reads.bind (each _ _ firstEncoded) ((ih remaining restEncoded).map (record :: ·))

theorem readRecords_reads (records : List Record) (bytes : Bytes)
    (encoded : encodeRecords records = .ok bytes) :
    Reads (Reader.many readRecord records.length) bytes records :=
  readMany_reads (fun _ _ written => readRecord_reads written) records bytes encoded

theorem encodeFrameRecords_eq_ok {records : List Record} {body : Bytes}
    (encoded : encodeFrameRecords records = .ok body) :
    records.length < 2 ^ 32 ∧ ∃ rest, encodeRecords records = .ok rest ∧
      body = putU32 (UInt32.ofNat records.length) ++ rest := by
  unfold encodeFrameRecords at encoded
  obtain ⟨count, counted, encoded⟩ := bind_eq_ok.mp encoded
  obtain ⟨rest, restEncoded, encoded⟩ := bind_eq_ok.mp encoded
  cases encoded
  obtain ⟨fits, length⟩ := u32Len_eq_ok.mp counted
  refine ⟨fits, rest, restEncoded, ?_⟩
  rw [← length, UInt32.ofNat_toNat]

theorem decodeFrame_of_reads [Digests] {entry : FrameRef} {body rest : Bytes}
    {records : List Record} (crc : entry.frameCrc = Digests.crc32c body)
    (counted : readU32 ChunkError.truncated body = .ok (entry.recordCount, rest))
    (read : Reader.many readRecord entry.recordCount.toNat rest = .ok (records, [])) :
    decodeFrame entry body = .ok records := by
  unfold decodeFrame
  rw [if_neg (by simp [crc])]
  simp only [counted]
  show (if _ then _ else _ : Except _ _) = _
  rw [if_neg (by simp)]
  simp only [read]
  rfl

theorem decodeFrame_frameRefOf [Digests] (frame : Frame) (body : Bytes) (cursor : Nat)
    (encoded : encodeFrameRecords frame.records = .ok body) :
    decodeFrame (frameRefOf frame body cursor) body = .ok frame.records := by
  obtain ⟨fits, rest, restEncoded, rfl⟩ := encodeFrameRecords_eq_ok encoded
  refine decodeFrame_of_reads rfl (readU32_reads .truncated _ rest) ?_
  simp only [frameRefOf, toNat_u32OfNat fits]
  exact Reads.all (readRecords_reads frame.records rest restEncoded)

theorem headerMagic_length : headerMagic.length = 4 := rfl

theorem readHeader_reads (header : ChunkHeader) (layout : ChunkLayout) :
    Reads readHeader (encodeHeader header layout) (header, layout) := by
  obtain ⟨⟨chunkId⟩, ⟨cohortId⟩, generation, ⟨writerId⟩, createdAtMicros⟩ := header
  obtain ⟨indexOffset, indexLen, framesOffset, framesLen, frameCount, indexCrc⟩ := layout
  refine Reads.bind (Reads.take_of_length _ headerMagic_length) ?_
  refine Reads.after (Reads.require (by simp)) ?_
  refine Reads.bind (readU8_reads _ majorVersion) ?_
  refine Reads.after (Reads.require (by simp)) ?_
  refine Reads.bind (readU8_reads _ minorVersion) ?_
  refine Reads.after (Reads.require (by simp)) ?_
  refine Reads.bind (readFixed_reads _ chunkId) ?_
  refine Reads.bind (readFixed_reads _ cohortId) ?_
  refine Reads.bind (readU64_reads _ generation) ?_
  refine Reads.bind (readFixed_reads _ writerId) ?_
  refine Reads.bind (readU32_reads _ indexOffset) ?_
  refine Reads.bind (readU32_reads _ indexLen) ?_
  refine Reads.bind (readU32_reads _ framesOffset) ?_
  refine Reads.bind (readU32_reads _ framesLen) ?_
  refine Reads.bind (readU32_reads _ frameCount) ?_
  refine Reads.bind (readU64_reads _ createdAtMicros) ?_
  exact (readU32_reads ChunkError.truncated indexCrc).map _

@[simp] theorem encodeHeader_length (header : ChunkHeader) (layout : ChunkLayout) :
    (encodeHeader header layout).length = headerLen := by
  simp [encodeHeader, headerMagic, headerLen, header.chunkId.bytes.property,
    header.cohortId.bytes.property, header.writerId.bytes.property]

theorem readSubmissionRef_reads (submission : SubmissionRef) :
    Reads readSubmissionRef (encodeSubmissionRef submission) submission := by
  obtain ⟨⟨producerId⟩, producerEpoch, sequence, firstRecord, recordCount⟩ := submission
  refine Reads.bind (readFixed_reads _ producerId) ?_
  refine Reads.bind (readU32_reads _ producerEpoch) ?_
  refine Reads.bind (readU64_reads _ sequence) ?_
  refine Reads.bind (readU32_reads _ firstRecord) ?_
  exact (readU32_reads ChunkError.truncated recordCount).map _

@[simp] theorem encodeSubmissionRef_length (submission : SubmissionRef) :
    (encodeSubmissionRef submission).length = submissionRefLen := by
  simp [encodeSubmissionRef, submissionRefLen, submission.producerId.bytes.property]

theorem submissions_length (submissions : List SubmissionRef) :
    (submissions.flatMap encodeSubmissionRef).length = submissions.length * submissionRefLen := by
  induction submissions with
  | nil => simp
  | cons submission rest ih =>
      simp only [List.flatMap_cons, List.length_append, encodeSubmissionRef_length, ih,
        List.length_cons, Nat.add_mul, Nat.one_mul]
      omega

theorem encodeFrameRef_length (entry : FrameRef) :
    (encodeFrameRef entry).length =
      indexEntryFixedLen + entry.submissions.length * submissionRefLen := by
  simp only [encodeFrameRef, List.length_append, entry.journalId.bytes.property, putU64_length,
    putU32_length, submissions_length, indexEntryFixedLen]
  omega

/-- An entry reads back when it continues the canonical order and the frame regions. -/
theorem readIndexEntry_reads (entry : FrameRef) (framesEnd : Nat)
    (previous : Option (JournalId × RecordOffset)) (regionEnd : Nat)
    (ordered : follows previous entry.journalId entry.baseOffset = true)
    (starts : entry.frameOffset.toNat = regionEnd)
    (within : entry.frameOffset.toNat + entry.frameLen.toNat ≤ framesEnd)
    (counted : entry.submissions.length < 2 ^ 32)
    (tiled : validateSubmissionTiling entry.submissions entry.recordCount.toNat = .ok ()) :
    Reads (readIndexEntry framesEnd previous regionEnd) (encodeFrameRef entry) entry := by
  obtain ⟨⟨journalId⟩, ⟨baseOffset⟩, recordCount, frameOffset, frameLen, frameCrc, submissions⟩ :=
    entry
  have spans := Reads.many encodeSubmissionRef submissions
    fun submission _ => readSubmissionRef_reads submission
  refine Reads.bind (readFixed_reads _ journalId) ?_
  refine Reads.bind (readU64_reads _ baseOffset) ?_
  refine Reads.bind (readU32_reads _ recordCount) ?_
  refine Reads.bind (readU32_reads _ frameOffset) ?_
  refine Reads.bind (readU32_reads _ frameLen) ?_
  refine Reads.bind (readU32_reads _ frameCrc) ?_
  refine Reads.bind (readU32_reads _ (UInt32.ofNat submissions.length)) ?_
  refine Reads.after (Reads.require ordered) ?_
  refine Reads.after (Reads.require (by simpa using ⟨starts, within⟩)) ?_
  rw [toNat_u32OfNat counted, ← List.append_nil (submissions.flatMap encodeSubmissionRef)]
  refine Reads.bind spans ?_
  exact Reads.after (Reads.lift tiled) (Reads.pure _)

/-- The index entries of frames whose bodies are laid out from `cursor` on. -/
def frameRefs [Digests] : List Frame → List Bytes → Nat → List FrameRef
  | frame :: frames, body :: bodies, cursor =>
      frameRefOf frame body cursor :: frameRefs frames bodies (cursor + body.length)
  | _, _, _ => []

/-- Frames in the canonical order: strictly by journal. -/
def Canonical (frames : List Frame) : Prop :=
  frames.Pairwise fun left right => left.journalId.value < right.journalId.value

variable {frames : List Frame}

theorem encodeIndex_cons [Digests] {frame : Frame} {body : Bytes} {bodies : List Bytes}
    {cursor last : Nat} {index : Bytes}
    (encoded : encodeIndex (frame :: frames) (body :: bodies) cursor = .ok (index, last)) :
    (frame.records.length < 2 ^ 32 ∧ cursor < 2 ^ 32 ∧ body.length < 2 ^ 32 ∧
        frame.submissions.length < 2 ^ 32) ∧
      ∃ rest, encodeIndex frames bodies (cursor + body.length) = .ok (rest, last) ∧
        index = encodeFrameRef (frameRefOf frame body cursor) ++ rest := by
  unfold encodeIndex at encoded
  obtain ⟨_, records, encoded⟩ := bind_eq_ok.mp encoded
  obtain ⟨_, start, encoded⟩ := bind_eq_ok.mp encoded
  obtain ⟨_, length, encoded⟩ := bind_eq_ok.mp encoded
  obtain ⟨_, submissions, encoded⟩ := bind_eq_ok.mp encoded
  refine ⟨⟨(u32Len_eq_ok.mp records).1, (u32Len_eq_ok.mp start).1, (u32Len_eq_ok.mp length).1,
    (u32Len_eq_ok.mp submissions).1⟩, ?_⟩
  cases sum : Usize.checkedAdd cursor body.length with
  | none => simp [sum] at encoded
  | some next =>
      simp only [sum] at encoded
      obtain ⟨⟨rest, stop⟩, restEncoded, encoded⟩ := bind_eq_ok.mp encoded
      cases encoded
      rw [(Usize.checkedAdd_eq_some.mp sum).1]
      exact ⟨rest, restEncoded, rfl⟩

theorem encodeIndex_lengths [Digests] (frames : List Frame) (bodies : List Bytes)
    (paired : bodies.length = frames.length) (cursor : Nat) (index : Bytes) (last : Nat)
    (encoded : encodeIndex frames bodies cursor = .ok (index, last)) :
    index.length = indexLenOf frames ∧ last = cursor + bodies.flatten.length := by
  induction frames generalizing bodies cursor index with
  | nil =>
      cases List.length_eq_zero_iff.mp paired
      cases encoded
      exact ⟨rfl, rfl⟩
  | cons frame frames ih =>
      cases bodies with
      | nil => simp at paired
      | cons body bodies =>
          obtain ⟨-, rest, restEncoded, rfl⟩ := encodeIndex_cons encoded
          have lengths : bodies.length = frames.length := by simpa using paired
          obtain ⟨remaining, total⟩ := ih bodies lengths _ rest restEncoded
          rw [List.length_append, encodeFrameRef_length, remaining, List.flatten_cons,
            List.length_append]
          exact ⟨rfl, by omega⟩

theorem validateFrames_cons {frame : Frame} (valid : validateFrames (frame :: frames) = .ok ()) :
    validateSubmissionTiling frame.submissions frame.records.length = .ok () ∧
      frame.baseOffset.toNat + frame.records.length < 2 ^ 64 ∧ validateFrames frames = .ok () := by
  unfold validateFrames at valid
  obtain ⟨_, tiled, valid⟩ := bind_eq_ok.mp valid
  cases next : frame.baseOffset.checkedAdd frame.records.length with
  | none => simp [next] at valid
  | some stop =>
      simp only [next] at valid
      exact ⟨tiled, RecordOffset.checkedAdd_isSome.mp (by simp [next]), valid⟩

/-- The index loop reads back the entries, given that each continues the one before it. -/
theorem readIndexEntries_reads [Digests] (frames : List Frame) (bodies : List Bytes)
    (paired : bodies.length = frames.length) (cursor : Nat) (index : Bytes)
    (last framesEnd : Nat) (previous : Option (JournalId × RecordOffset))
    (encoded : encodeIndex frames bodies cursor = .ok (index, last)) (within : last ≤ framesEnd)
    (valid : validateFrames frames = .ok ()) (canonical : Canonical frames)
    (after : ∀ front ∈ previous, ∀ frame ∈ frames, front.1.value < frame.journalId.value) :
    Reads (readIndexEntries framesEnd frames.length previous cursor) index
      (frameRefs frames bodies cursor, last) := by
  induction frames generalizing bodies cursor index previous with
  | nil =>
      cases List.length_eq_zero_iff.mp paired
      cases encoded
      exact Reads.pure _
  | cons frame frames ih =>
      cases bodies with
      | nil => simp at paired
      | cons body bodies =>
          have total := (encodeIndex_lengths _ _ paired _ _ _ encoded).2
          obtain ⟨⟨records, start, length, submissions⟩, rest, restEncoded, rfl⟩ :=
            encodeIndex_cons encoded
          have lengths : bodies.length = frames.length := by simpa using paired
          obtain ⟨tiled, -, remaining⟩ := validateFrames_cons valid
          obtain ⟨above, canonical⟩ := List.pairwise_cons.mp canonical
          have offset : (frameRefOf frame body cursor).frameOffset.toNat = cursor :=
            toNat_u32OfNat start
          have width : (frameRefOf frame body cursor).frameLen.toNat = body.length :=
            toNat_u32OfNat length
          have ordered : follows previous frame.journalId frame.baseOffset = true := by
            cases previous with
            | none => rfl
            | some front => simp [follows, after front rfl frame (by simp)]
          have entry := readIndexEntry_reads (frameRefOf frame body cursor) framesEnd previous
            cursor ordered offset
            (by simp only [offset, width, List.flatten_cons, List.length_append] at total ⊢; omega)
            submissions (by simpa only [frameRefOf, toNat_u32OfNat records] using tiled)
          have others := ih bodies lengths (cursor + body.length) rest
            (some (frame.journalId, frame.baseOffset)) restEncoded remaining canonical
            (by simpa using above)
          refine Reads.bind entry ?_
          rw [offset, width]
          exact others.map fun read => (frameRefOf frame body cursor :: read.1, read.2)

theorem encodeBodies_length {bodies : List Bytes} (encoded : encodeBodies frames = .ok bodies) :
    bodies.length = frames.length := by
  induction frames generalizing bodies with
  | nil =>
      cases encoded
      rfl
  | cons frame frames ih =>
      unfold encodeBodies at encoded
      obtain ⟨body, -, encoded⟩ := bind_eq_ok.mp encoded
      obtain ⟨rest, restEncoded, encoded⟩ := bind_eq_ok.mp encoded
      cases encoded
      simp [ih restEncoded]

theorem frameRefs_submissions [Digests] (frames : List Frame) (bodies : List Bytes)
    (paired : bodies.length = frames.length) (cursor : Nat) :
    (frameRefs frames bodies cursor).map FrameRef.submissions = frames.map Frame.submissions := by
  induction frames generalizing bodies cursor with
  | nil => simp [frameRefs]
  | cons frame frames ih =>
      cases bodies with
      | nil => simp at paired
      | cons body bodies =>
          simp only [frameRefs, List.map_cons]
          rw [ih bodies (by simpa using paired)]
          rfl

theorem decodeFrames_frameRefs [Digests] (frames : List Frame) (bodies : List Bytes)
    (front back index : Bytes) (cursor last : Nat)
    (bodiesEncoded : encodeBodies frames = .ok bodies)
    (encoded : encodeIndex frames bodies cursor = .ok (index, last))
    (starts : front.length = cursor) :
    decodeFrames (front ++ (bodies.flatten ++ back)) (frameRefs frames bodies cursor) =
      .ok frames := by
  induction frames generalizing bodies front index cursor with
  | nil => cases bodiesEncoded; rfl
  | cons frame frames ih =>
      unfold encodeBodies at bodiesEncoded
      obtain ⟨body, bodyEncoded, bodiesEncoded⟩ := bind_eq_ok.mp bodiesEncoded
      obtain ⟨others, othersEncoded, bodiesEncoded⟩ := bind_eq_ok.mp bodiesEncoded
      cases bodiesEncoded
      obtain ⟨⟨-, start, length, -⟩, rest, restEncoded, -⟩ := encodeIndex_cons encoded
      have found : slice (front ++ (body ++ others.flatten ++ back)) cursor
          (cursor + body.length) = some body := by
        have := slice_middle front body (others.flatten ++ back)
        rwa [starts, List.append_assoc, ← List.append_assoc body] at this
      have remaining := ih others (front ++ body) rest (cursor + body.length) othersEncoded
        restEncoded (by simp [starts])
      rw [List.append_assoc, ← List.append_assoc body] at remaining
      simp only [frameRefs, List.flatten_cons, decodeFrames, frameRefOf, toNat_u32OfNat start,
        toNat_u32OfNat length, found]
      have records := decodeFrame_frameRefOf frame body cursor bodyEncoded
      simp only [frameRefOf] at records
      rw [records]
      show (decodeFrames _ _ >>= _) = _
      rw [remaining]
      rfl

theorem JournalId.value_inj {left right : JournalId} (same : left.value = right.value) :
    left = right := by
  obtain ⟨left, leftWidth⟩ := left
  obtain ⟨right, rightWidth⟩ := right
  have bytes := bigEndianValue_injective _ _ (leftWidth.trans rightWidth.symm) same
  exact congrArg JournalId.mk (Subtype.ext bytes)

theorem frameLe_iff {left right : Frame} :
    frameLe left right = true ↔ left.journalId.value < right.journalId.value ∨
      (left.journalId.value = right.journalId.value ∧
        left.baseOffset.toNat ≤ right.baseOffset.toNat) := by
  simp [frameLe]

theorem mergeSort_ordered (frames : List Frame) :
    (frames.mergeSort frameLe).Pairwise fun left right => frameLe left right = true := by
  apply List.pairwise_mergeSort
  · intro first second third
    simp only [frameLe_iff]
    omega
  · intro left right
    simp only [Bool.or_eq_true, frameLe_iff]
    omega

/-- Sorted frames none of which repeats its neighbour's journal are in canonical order. -/
theorem canonical_of_ordered (frames : List Frame)
    (ordered : frames.Pairwise fun left right => frameLe left right = true)
    (distinct : repeatsJournal frames = false) : Canonical frames := by
  induction frames with
  | nil => exact List.Pairwise.nil
  | cons frame rest ih =>
      obtain ⟨below, ordered⟩ := List.pairwise_cons.mp ordered
      cases rest with
      | nil => exact List.pairwise_singleton _ _
      | cons second rest =>
          simp only [repeatsJournal, Bool.or_eq_false_iff, decide_eq_false_iff_not] at distinct
          have remaining := ih ordered distinct.2
          have differs : frame.journalId.value ≠ second.journalId.value :=
            fun same => distinct.1 (JournalId.value_inj same)
          have first : frame.journalId.value < second.journalId.value := by
            have := frameLe_iff.mp (below second (by simp))
            omega
          refine List.pairwise_cons.mpr ⟨?_, remaining⟩
          intro other member
          rcases List.mem_cons.mp member with rfl | later
          · exact first
          · exact lt_trans first ((List.pairwise_cons.mp remaining).1 other later)

/-- What a successful `seal_chunk` has established about its sorted frames. -/
structure Sealing [Digests] (header : ChunkHeader) (frames : List Frame) (bodies : List Bytes)
    (index : Bytes) (layout : ChunkLayout) : Prop where
  nonempty : frames ≠ []
  canonical : Canonical frames
  valid : validateFrames frames = .ok ()
  bodiesEncoded : encodeBodies frames = .ok bodies
  indexEncoded : encodeIndex frames bodies (headerLen + indexLenOf frames) =
    .ok (index, headerLen + indexLenOf frames + bodies.flatten.length)
  indexOffset : layout.indexOffset.toNat = headerLen
  indexLen : layout.indexLen.toNat = indexLenOf frames
  framesOffset : layout.framesOffset.toNat = headerLen + indexLenOf frames
  framesLen : layout.framesLen.toNat = bodies.flatten.length
  frameCount : layout.frameCount.toNat = frames.length
  indexCrc : layout.indexCrc = Digests.crc32c index

def sealedBytes (header : ChunkHeader) (layout : ChunkLayout) (index frames : Bytes) : Bytes :=
  encodeHeader header layout ++
    (index ++ (frames ++ encodeTrailer layout.indexOffset layout.indexLen))

theorem sealChunk_eq_ok [Digests] {header : ChunkHeader} {result : SealedChunk}
    (success : sealChunk header frames = .ok result) :
    ∃ bodies index layout, Sealing header (frames.mergeSort frameLe) bodies index layout ∧
      result.chunkId = header.chunkId ∧ result.digest = ChunkDigest.of result.bytes ∧
      result.bytes = sealedBytes header layout index bodies.flatten := by
  unfold sealChunk at success
  obtain ⟨nonempty, success⟩ := checked_eq_ok.mp success
  obtain ⟨distinct, success⟩ := checked_eq_ok.mp success
  obtain ⟨_, valid, success⟩ := bind_eq_ok.mp success
  obtain ⟨bodies, bodiesEncoded, success⟩ := bind_eq_ok.mp success
  cases start : Usize.checkedAdd headerLen (indexLenOf (frames.mergeSort frameLe)) with
  | none => simp [start, throw, throwThe, MonadExceptOf.throw] at success
  | some framesOffset =>
      simp only [start] at success
      obtain ⟨⟨index, cursor⟩, indexEncoded, success⟩ := bind_eq_ok.mp success
      obtain ⟨indexOffset, indexOffsetFits, success⟩ := bind_eq_ok.mp success
      obtain ⟨indexLen, indexLenFits, success⟩ := bind_eq_ok.mp success
      obtain ⟨framesStart, framesStartFits, success⟩ := bind_eq_ok.mp success
      obtain ⟨framesLen, framesLenFits, success⟩ := bind_eq_ok.mp success
      obtain ⟨frameCount, frameCountFits, success⟩ := bind_eq_ok.mp success
      cases success
      obtain ⟨rfl, -⟩ := Usize.checkedAdd_eq_some.mp start
      have paired := encodeBodies_length bodiesEncoded
      have total := (encodeIndex_lengths _ _ paired _ _ _ indexEncoded).2
      refine ⟨bodies, index, _, ?_, rfl, rfl, rfl⟩
      exact {
        nonempty := by simpa [← List.length_eq_zero_iff] using nonempty
        canonical := canonical_of_ordered _ (mergeSort_ordered frames) (by simpa using distinct)
        valid := valid
        bodiesEncoded := bodiesEncoded
        indexEncoded := by rw [← total]; exact indexEncoded
        indexOffset := (u32Len_eq_ok.mp indexOffsetFits).2
        indexLen := (u32Len_eq_ok.mp indexLenFits).2
        framesOffset := (u32Len_eq_ok.mp framesStartFits).2
        framesLen := by
          rw [(u32Len_eq_ok.mp framesLenFits).2]
          simp only [total]
          omega
        frameCount := (u32Len_eq_ok.mp frameCountFits).2
        indexCrc := rfl }

theorem encodeTrailer_length (indexOffset indexLen : UInt32) :
    (encodeTrailer indexOffset indexLen).length = trailerLen := by
  simp [encodeTrailer, trailerMagic, trailerLen]

theorem readTrailer_reads (indexOffset indexLen : UInt32) :
    Reads readTrailer (encodeTrailer indexOffset indexLen) (indexOffset, indexLen) := by
  refine Reads.bind (readU32_reads _ indexOffset) ?_
  refine Reads.bind (readU32_reads _ indexLen) ?_
  rw [← List.append_nil trailerMagic]
  refine Reads.bind (Reads.take_of_length _ rfl) ?_
  exact Reads.after (Reads.require (by simp)) (Reads.pure _)

section sealing

variable [Digests] {header : ChunkHeader} {frames : List Frame} {bodies : List Bytes}
  {index : Bytes} {layout : ChunkLayout}

theorem Sealing.index_length (sealing : Sealing header frames bodies index layout) :
    index.length = indexLenOf frames :=
  (encodeIndex_lengths _ _ (encodeBodies_length sealing.bodiesEncoded) _ _ _ sealing.indexEncoded).1

theorem Sealing.sealedBytes_length (sealing : Sealing header frames bodies index layout) :
    (sealedBytes header layout index bodies.flatten).length =
      headerLen + indexLenOf frames + bodies.flatten.length + trailerLen := by
  simp only [sealedBytes, List.length_append, encodeHeader_length, sealing.index_length,
    encodeTrailer_length]
  omega

theorem frameRefs_length (frames : List Frame) (bodies : List Bytes)
    (paired : bodies.length = frames.length) (cursor : Nat) :
    (frameRefs frames bodies cursor).length = frames.length := by
  have := congrArg List.length (frameRefs_submissions frames bodies paired cursor)
  simpa using this

/-- The header and index suffice: whatever follows them, they read back. -/
theorem Sealing.decodeIndex_front (sealing : Sealing header frames bodies index layout)
    (rest : Bytes) :
    decodeIndex (encodeHeader header layout ++ (index ++ rest)) =
      .ok ⟨header, frameRefs frames bodies (headerLen + indexLenOf frames)⟩ := by
  have paired := encodeBodies_length sealing.bodiesEncoded
  have found : slice (encodeHeader header layout ++ (index ++ rest)) headerLen
      (headerLen + indexLenOf frames) = some index := by
    have middle := slice_middle (encodeHeader header layout) index rest
    rwa [encodeHeader_length, sealing.index_length, List.append_assoc] at middle
  have entries := Reads.all (readIndexEntries_reads frames bodies paired _ index _ _ none
    sealing.indexEncoded (le_refl _) sealing.valid sealing.canonical (by simp))
  have populated : (frameRefs frames bodies (headerLen + indexLenOf frames)).isEmpty = false := by
    have lengths := frameRefs_length frames bodies paired (headerLen + indexLenOf frames)
    have := List.length_pos_iff.mpr sealing.nonempty
    rw [← lengths] at this
    simpa using List.length_pos_iff.mp this
  unfold decodeIndex
  rw [readHeader_reads header layout (index ++ rest)]
  refine checked_eq_ok.mpr ⟨by simp [sealing.indexOffset], ?_⟩
  refine checked_eq_ok.mpr
    ⟨by simp [sealing.indexOffset, sealing.indexLen, sealing.framesOffset], ?_⟩
  rw [sealing.indexOffset, sealing.indexLen, found]
  refine checked_eq_ok.mpr ⟨by simp [sealing.indexCrc], ?_⟩
  rw [sealing.framesOffset, sealing.framesLen, sealing.frameCount]
  refine bind_eq_ok.mpr ⟨_, entries, ?_⟩
  refine checked_eq_ok.mpr ⟨by simp, ?_⟩
  refine checked_eq_ok.mpr ⟨by simp, ?_⟩
  refine checked_eq_ok.mpr ⟨by simp [populated], ?_⟩
  rfl

/-- The last region ends where the frames end. -/
theorem frameRefs_getLast (frames : List Frame) (bodies : List Bytes) (index : Bytes)
    (cursor last : Nat) (nonempty : frames ≠ []) (paired : bodies.length = frames.length)
    (encoded : encodeIndex frames bodies cursor = .ok (index, last)) :
    ∃ entry, (frameRefs frames bodies cursor).getLast? = some entry ∧
      entry.frameOffset.toNat + entry.frameLen.toNat = last := by
  induction frames generalizing bodies cursor index with
  | nil => exact absurd rfl nonempty
  | cons frame frames ih =>
      cases bodies with
      | nil => simp at paired
      | cons body bodies =>
          have total := (encodeIndex_lengths _ _ paired _ _ _ encoded).2
          obtain ⟨⟨-, start, length, -⟩, rest, restEncoded, -⟩ := encodeIndex_cons encoded
          have lengths : bodies.length = frames.length := by simpa using paired
          cases frames with
          | nil =>
              cases List.length_eq_zero_iff.mp lengths
              refine ⟨frameRefOf frame body cursor, rfl, ?_⟩
              simpa [frameRefOf, toNat_u32OfNat start, toNat_u32OfNat length] using total.symm
          | cons second frames =>
              obtain ⟨entry, found, ends⟩ :=
                ih bodies rest (cursor + body.length) (by simp) lengths restEncoded
              refine ⟨entry, ?_, ends⟩
              rw [frameRefs, List.getLast?_cons, found]
              rfl

theorem Sealing.indexSpan (sealing : Sealing header frames bodies index layout) :
    ((frameRefs frames bodies (headerLen + indexLenOf frames)).map fun frame =>
      indexEntryFixedLen + frame.submissions.length * submissionRefLen).sum =
        indexLenOf frames := by
  have same := congrArg (List.map fun submissions : List SubmissionRef =>
    indexEntryFixedLen + submissions.length * submissionRefLen)
    (frameRefs_submissions frames bodies (encodeBodies_length sealing.bodiesEncoded)
      (headerLen + indexLenOf frames))
  rw [List.map_map, List.map_map] at same
  exact congrArg List.sum same

theorem Sealing.decodeChunk_sealedBytes (sealing : Sealing header frames bodies index layout) :
    decodeChunk (sealedBytes header layout index bodies.flatten) = .ok ⟨header, frames⟩ := by
  have paired := encodeBodies_length sealing.bodiesEncoded
  have total := sealing.sealedBytes_length
  have start : (sealedBytes header layout index bodies.flatten).length - trailerLen =
      headerLen + indexLenOf frames + bodies.flatten.length := by omega
  have trailer : (sealedBytes header layout index bodies.flatten).drop
      (headerLen + indexLenOf frames + bodies.flatten.length) =
        encodeTrailer layout.indexOffset layout.indexLen := by
    unfold sealedBytes
    rw [← List.append_assoc, ← List.append_assoc, List.drop_left']
    simp only [List.length_append, encodeHeader_length, sealing.index_length]
  have trailerRead := Reads.all (readTrailer_reads layout.indexOffset layout.indexLen)
  have indexRead := sealing.decodeIndex_front
    (bodies.flatten ++ encodeTrailer layout.indexOffset layout.indexLen)
  have spans := sealing.indexSpan
  obtain ⟨last, found, ends⟩ := frameRefs_getLast frames bodies index _ _ sealing.nonempty paired
    sealing.indexEncoded
  have framesRead := decodeFrames_frameRefs frames bodies (encodeHeader header layout ++ index)
    (encodeTrailer layout.indexOffset layout.indexLen) index _ _ sealing.bodiesEncoded
    sealing.indexEncoded (by simp [sealing.index_length])
  rw [List.append_assoc] at framesRead
  unfold decodeChunk
  refine checked_eq_ok.mpr ⟨by omega, ?_⟩
  rw [start]
  refine bind_eq_ok.mpr ⟨_, (congrArg readTrailer trailer).trans trailerRead, ?_⟩
  refine bind_eq_ok.mpr ⟨_, indexRead, ?_⟩
  refine checked_eq_ok.mpr ⟨by simp [sealing.indexOffset, sealing.indexLen, spans], ?_⟩
  rw [found]
  refine checked_eq_ok.mpr ⟨by simp [ends], ?_⟩
  refine bind_eq_ok.mpr ⟨_, framesRead, rfl⟩

end sealing

end Scripture
