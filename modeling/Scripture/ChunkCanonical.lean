import Scripture.ChunkSeal

set_option autoImplicit false

/- The decoder of chunks read backwards: which bytes it accepts, and which of them the encoder
writes. -/
namespace Scripture

open ByteFormat
open ByteFormat.Reader (bind_reads take_eq_ok require_eq_ok lift_eq_ok)

variable {input rest bytes : Bytes} {start : Nat} {previous : Option (JournalId × RecordOffset)}
  {entries : List FrameRef} {header : ChunkHeader} {frames : List Frame}

theorem readLenBytes_eq_ok {value : Bytes} :
    readLenBytes input = .ok (value, rest) ↔
      ∃ bytes, putLenBytes value = .ok bytes ∧ input = bytes ++ rest := by
  constructor
  · intro read
    obtain ⟨length, middle, counted, taken⟩ := bind_reads read
    obtain ⟨width, rfl⟩ := take_eq_ok.mp taken
    rw [readU32_eq_ok.mp counted]
    refine ⟨putU32 length ++ value, putLenBytes_eq_ok.mpr ⟨?_, ?_⟩, ?_⟩
    · rw [width]
      exact length.toNat_lt
    · rw [width, UInt32.ofNat_toNat]
    · rw [List.append_assoc]
  · rintro ⟨bytes, encoded, rfl⟩
    exact readLenBytes_reads encoded rest

theorem decodeKey_eq_ok {key : String} : decodeKey bytes = .ok key ↔ utf8 key = bytes := by
  unfold decodeKey
  rw [← fromUtf8_eq_some]
  cases fromUtf8 bytes <;> simp [Pure.pure, Except.pure, throw, throwThe, MonadExceptOf.throw]

theorem encodeAttribute_decoded {name : String} {typed : AttributeValue} {tag : UInt8}
    {key value valueBytes : Bytes} (keyed : putLenBytes (utf8 name) = .ok key)
    (valued : putLenBytes value = .ok valueBytes)
    (decoded : decodeAttributeValue tag value = .ok typed) :
    encodeAttribute (name, typed) = .ok (key ++ ([tag] ++ valueBytes)) := by
  unfold decodeAttributeValue at decoded
  split at decoded
  · rename_i isString
    split at decoded
    · rename_i text found
      cases decoded
      rw [fromUtf8_eq_some] at found
      subst found isString
      exact bind_eq_ok.mpr ⟨key, keyed, bind_eq_ok.mpr ⟨valueBytes, valued, rfl⟩⟩
    · cases decoded
  · split at decoded
    · rename_i isNumber
      split at decoded
      · rename_i wide
        cases decoded
        obtain ⟨-, rfl⟩ := putLenBytes_eq_ok.mp valued
        have fits : bigEndianValue value < 2 ^ 64 := by
          have bound := bigEndianValue_lt value
          rw [wide] at bound
          exact bound
        have same : putU64 (UInt64.ofNat (bigEndianValue value)) = value := by
          rw [putU64, UInt64.toNat_ofNat_of_lt' fits, ← wide, bigEndian_bigEndianValue]
        refine bind_eq_ok.mpr ⟨key, keyed, ?_⟩
        subst isNumber
        simp [same, wide, Pure.pure, Except.pure]
      · cases decoded
    · split at decoded
      · rename_i isBool
        split at decoded
        · rename_i byte
          obtain ⟨-, rfl⟩ := putLenBytes_eq_ok.mp valued
          refine bind_eq_ok.mpr ⟨key, keyed, ?_⟩
          subst isBool
          split at decoded
          · rename_i zero
            cases decoded
            simp [zero, Pure.pure, Except.pure]
          · split at decoded
            · rename_i one
              cases decoded
              simp [one, Pure.pure, Except.pure]
            · cases decoded
        · cases decoded
      · cases decoded

/-- The attributes read are those already collected and the ones whose bytes were taken. -/
theorem readAttributes_spells {count : Nat} {previous : Option String}
    {collected attributes : AttributeMap}
    (latest : ∀ entry ∈ collected.entries, ∃ last ∈ previous, entry.1 ≤ last)
    (read : readAttributes count previous collected input = .ok (attributes, rest)) :
    ∃ entries bytes, attributes.entries = collected.entries ++ entries ∧ entries.length = count ∧
      encodeAttributes entries = .ok bytes ∧ input = bytes ++ rest := by
  induction count generalizing previous collected input with
  | zero =>
      cases read
      exact ⟨[], [], by simp, rfl, rfl, rfl⟩
  | succ count ih =>
      obtain ⟨keyBytes, _, keyRead, read⟩ := bind_reads read
      obtain ⟨name, _, named, read⟩ := bind_reads read
      obtain ⟨_, _, ordered, read⟩ := bind_reads read
      obtain ⟨tag, _, tagRead, read⟩ := bind_reads read
      obtain ⟨value, _, valueRead, read⟩ := bind_reads read
      obtain ⟨typed, _, decoded, read⟩ := bind_reads read
      obtain ⟨_, _, fresh, remaining⟩ := bind_reads read
      obtain ⟨key, keyed, rfl⟩ := readLenBytes_eq_ok.mp keyRead
      obtain ⟨keyDecoded, rfl⟩ := lift_eq_ok.mp named
      obtain ⟨above, rfl⟩ := require_eq_ok.mp ordered
      obtain rfl := readU8_eq_ok.mp tagRead
      obtain ⟨valueBytes, valued, rfl⟩ := readLenBytes_eq_ok.mp valueRead
      obtain ⟨typedDecoded, rfl⟩ := lift_eq_ok.mp decoded
      obtain ⟨-, rfl⟩ := require_eq_ok.mp fresh
      rw [decodeKey_eq_ok] at keyDecoded
      subst keyDecoded
      have greater : ∀ entry ∈ collected.entries, entry.1 < name := by
        intro entry member
        obtain ⟨last, held, below⟩ := latest entry member
        exact lt_of_le_of_lt below (of_decide_eq_true above last held)
      obtain ⟨-, inserted⟩ := AttributeMap.insert_of_above typed greater
      have next : ∀ entry ∈ (collected.insert name typed).2.entries,
          ∃ last ∈ some name, entry.1 ≤ last := by
        intro entry member
        rw [inserted] at member
        refine ⟨name, rfl, ?_⟩
        rcases List.mem_append.mp member with old | new
        · exact le_of_lt (greater entry old)
        · rw [List.mem_singleton.mp new]
      obtain ⟨entries, bytes, whole, counted, encoded, rfl⟩ := ih next remaining
      have first := encodeAttribute_decoded keyed valued typedDecoded
      refine ⟨(name, typed) :: entries, key ++ ([tag] ++ valueBytes) ++ bytes, ?_, ?_, ?_, ?_⟩
      · rw [whole, inserted, List.append_assoc]
        rfl
      · rw [List.length_cons, counted]
      · exact bind_eq_ok.mpr ⟨_, first, bind_eq_ok.mpr ⟨_, encoded, rfl⟩⟩
      · simp

theorem readRecord_spells {record : Record} (read : readRecord input = .ok (record, rest)) :
    ∃ bytes, encodeRecord record = .ok bytes ∧ input = bytes ++ rest := by
  obtain ⟨count, _, counted, read⟩ := bind_reads read
  obtain ⟨attributes, _, attributesRead, read⟩ := bind_reads read
  obtain ⟨payload, _, payloadRead, read⟩ := bind_reads read
  cases read
  obtain rfl := readU32_eq_ok.mp counted
  obtain ⟨payloadBytes, written, rfl⟩ := readLenBytes_eq_ok.mp payloadRead
  obtain ⟨entries, bytes, whole, length, encoded, rfl⟩ :=
    readAttributes_spells (by simp [OrderedMap.empty]) attributesRead
  rw [OrderedMap.empty, List.nil_append] at whole
  subst whole
  refine ⟨putU32 count ++ (bytes ++ payloadBytes), ?_, by simp⟩
  have size : u32Len attributes.entries.length = .ok count :=
    u32Len_eq_ok.mpr ⟨length ▸ count.toNat_lt, length.symm⟩
  exact bind_eq_ok.mpr ⟨_, size, bind_eq_ok.mpr ⟨_, encoded, bind_eq_ok.mpr ⟨_, written, rfl⟩⟩⟩

theorem encodeRecords_of_pieces {records : List Record} {pieces : List Bytes}
    (each : List.Forall₂ (fun record piece => encodeRecord record = .ok piece) records pieces) :
    encodeRecords records = .ok pieces.flatten := by
  induction each with
  | nil => rfl
  | cons first _ ih => exact bind_eq_ok.mpr ⟨_, first, bind_eq_ok.mpr ⟨_, ih, rfl⟩⟩

/-- A frame that decodes is the encoding of its records, with the count and the checksum of its
index entry. -/
theorem decodeFrame_spells [Digests] {entry : FrameRef} {body : Bytes} {records : List Record}
    (decoded : decodeFrame entry body = .ok records) : encodeFrameRecords records = .ok body ∧
      entry.frameCrc = Digests.crc32c body ∧ entry.recordCount.toNat = records.length := by
  obtain ⟨crc, decoded⟩ := checked_eq_ok.mp decoded
  obtain ⟨⟨count, rest⟩, counted, decoded⟩ := bind_eq_ok.mp decoded
  obtain ⟨same, decoded⟩ := checked_eq_ok.mp decoded
  obtain ⟨⟨found, unread⟩, read, decoded⟩ := bind_eq_ok.mp decoded
  obtain ⟨finished, decoded⟩ := checked_eq_ok.mp decoded
  cases decoded
  have same := not_not.mp same
  have length := Reader.many_length read
  obtain ⟨pieces, each, rfl⟩ := Reader.many_pieces (fun _ _ _ => readRecord_spells) read
  obtain rfl := readU32_eq_ok.mp counted
  obtain rfl : unread = [] := by simpa using finished
  have size : u32Len records.length = .ok count :=
    u32Len_eq_ok.mpr ⟨length ▸ count.toNat_lt, length.symm⟩
  refine ⟨?_, (not_not.mp crc).symm, by rw [← same, length]⟩
  rw [List.append_nil]
  exact bind_eq_ok.mpr ⟨_, size, bind_eq_ok.mpr ⟨_, encodeRecords_of_pieces each, rfl⟩⟩

theorem readSubmissionRef_spells {submission : SubmissionRef}
    (read : readSubmissionRef input = .ok (submission, rest)) :
    input = encodeSubmissionRef submission ++ rest := by
  obtain ⟨producerId, _, idRead, read⟩ := bind_reads read
  obtain ⟨epoch, _, epochRead, read⟩ := bind_reads read
  obtain ⟨sequence, _, sequenceRead, read⟩ := bind_reads read
  obtain ⟨first, _, firstRead, read⟩ := bind_reads read
  obtain ⟨count, _, countRead, read⟩ := bind_reads read
  cases read
  rw [readFixed_eq_ok.mp idRead, readU32_eq_ok.mp epochRead, readU64_eq_ok.mp sequenceRead,
    readU32_eq_ok.mp firstRead, readU32_eq_ok.mp countRead]
  simp [encodeSubmissionRef]

/-- What an accepted index entry says of itself. -/
structure Entered (previous : Option (JournalId × RecordOffset)) (start : Nat) (entry : FrameRef) :
    Prop where
  ordered : follows previous entry.journalId entry.baseOffset = true
  starts : entry.frameOffset.toNat = start
  spans : entry.submissions.length < 2 ^ 32
  tiled : validateSubmissionTiling entry.submissions entry.recordCount.toNat = .ok ()

theorem readIndexEntry_spells {framesEnd : Nat} {entry : FrameRef}
    (read : readIndexEntry framesEnd previous start input = .ok (entry, rest)) :
    Entered previous start entry ∧ input = encodeFrameRef entry ++ rest := by
  obtain ⟨journalId, _, idRead, read⟩ := bind_reads read
  obtain ⟨base, _, baseRead, read⟩ := bind_reads read
  obtain ⟨count, _, countRead, read⟩ := bind_reads read
  obtain ⟨offset, _, offsetRead, read⟩ := bind_reads read
  obtain ⟨length, _, lengthRead, read⟩ := bind_reads read
  obtain ⟨crc, _, crcRead, read⟩ := bind_reads read
  obtain ⟨spans, _, spansRead, read⟩ := bind_reads read
  obtain ⟨_, _, orderCheck, read⟩ := bind_reads read
  obtain ⟨_, _, regionCheck, read⟩ := bind_reads read
  obtain ⟨submissions, _, many, read⟩ := bind_reads read
  obtain ⟨_, _, tilingCheck, read⟩ := bind_reads read
  cases read
  obtain ⟨ordered, rfl⟩ := require_eq_ok.mp orderCheck
  obtain ⟨regions, rfl⟩ := require_eq_ok.mp regionCheck
  obtain ⟨tiled, rfl⟩ := lift_eq_ok.mp tilingCheck
  have counted := Reader.many_length many
  refine ⟨⟨ordered, (of_decide_eq_true regions).1, counted ▸ spans.toNat_lt, tiled⟩, ?_⟩
  rw [readFixed_eq_ok.mp idRead, readU64_eq_ok.mp baseRead, readU32_eq_ok.mp countRead,
    readU32_eq_ok.mp offsetRead, readU32_eq_ok.mp lengthRead, readU32_eq_ok.mp crcRead,
    readU32_eq_ok.mp spansRead, Reader.many_flatMap (fun _ _ _ => readSubmissionRef_spells) many]
  simp [encodeFrameRef, counted, UInt32.ofNat_toNat]

/-- Accepted entries, each behind the one before it, from one end of the frames to the other. -/
def EntriesChained : Option (JournalId × RecordOffset) → Nat → List FrameRef → Nat → Prop
  | _, start, [], stop => start = stop
  | previous, start, entry :: rest, stop => Entered previous start entry ∧
      EntriesChained (some (entry.journalId, entry.baseOffset))
        (start + entry.frameLen.toNat) rest stop

theorem readIndexEntries_spells {framesEnd count stop : Nat}
    (read : readIndexEntries framesEnd count previous start input = .ok ((entries, stop), rest)) :
    EntriesChained previous start entries stop ∧ entries.length = count ∧
      input = entries.flatMap encodeFrameRef ++ rest := by
  induction count generalizing previous start input entries with
  | zero =>
      cases read
      exact ⟨rfl, rfl, rfl⟩
  | succ count ih =>
      obtain ⟨entry, _, first, read⟩ := bind_reads read
      obtain ⟨⟨others, last⟩, _, remaining, read⟩ := bind_reads read
      cases read
      obtain ⟨entered, rfl⟩ := readIndexEntry_spells first
      rw [entered.starts] at remaining
      obtain ⟨chained, counted, rfl⟩ := ih remaining
      exact ⟨⟨entered, chained⟩, by rw [List.length_cons, counted], by simp⟩

theorem readHeader_spells {layout : ChunkLayout}
    (read : readHeader input = .ok ((header, layout), rest)) :
    input = encodeHeader header layout ++ rest := by
  obtain ⟨magic, _, magicRead, read⟩ := bind_reads read
  obtain ⟨_, _, magicCheck, read⟩ := bind_reads read
  obtain ⟨major, _, majorRead, read⟩ := bind_reads read
  obtain ⟨_, _, majorCheck, read⟩ := bind_reads read
  obtain ⟨minor, _, minorRead, read⟩ := bind_reads read
  obtain ⟨_, _, minorCheck, read⟩ := bind_reads read
  obtain ⟨chunkId, _, chunkRead, read⟩ := bind_reads read
  obtain ⟨cohortId, _, cohortRead, read⟩ := bind_reads read
  obtain ⟨generation, _, generationRead, read⟩ := bind_reads read
  obtain ⟨writerId, _, writerRead, read⟩ := bind_reads read
  obtain ⟨indexOffset, _, indexOffsetRead, read⟩ := bind_reads read
  obtain ⟨indexLen, _, indexLenRead, read⟩ := bind_reads read
  obtain ⟨framesOffset, _, framesOffsetRead, read⟩ := bind_reads read
  obtain ⟨framesLen, _, framesLenRead, read⟩ := bind_reads read
  obtain ⟨frameCount, _, frameCountRead, read⟩ := bind_reads read
  obtain ⟨created, _, createdRead, read⟩ := bind_reads read
  obtain ⟨crc, _, crcRead, read⟩ := bind_reads read
  cases read
  obtain ⟨isMagic, rfl⟩ := require_eq_ok.mp magicCheck
  obtain ⟨isMajor, rfl⟩ := require_eq_ok.mp majorCheck
  obtain ⟨isMinor, rfl⟩ := require_eq_ok.mp minorCheck
  obtain rfl : magic = headerMagic := of_decide_eq_true isMagic
  obtain rfl : major = majorVersion := of_decide_eq_true isMajor
  obtain rfl : minor = minorVersion := UInt8.le_zero_iff.mp (of_decide_eq_true isMinor)
  rw [(take_eq_ok.mp magicRead).2, readU8_eq_ok.mp majorRead, readU8_eq_ok.mp minorRead,
    readFixed_eq_ok.mp chunkRead, readFixed_eq_ok.mp cohortRead, readU64_eq_ok.mp generationRead,
    readFixed_eq_ok.mp writerRead, readU32_eq_ok.mp indexOffsetRead, readU32_eq_ok.mp indexLenRead,
    readU32_eq_ok.mp framesOffsetRead, readU32_eq_ok.mp framesLenRead,
    readU32_eq_ok.mp frameCountRead, readU64_eq_ok.mp createdRead, readU32_eq_ok.mp crcRead]
  simp [encodeHeader]

theorem readTrailer_spells {indexOffset indexLen : UInt32}
    (read : readTrailer input = .ok ((indexOffset, indexLen), rest)) :
    input = encodeTrailer indexOffset indexLen ++ rest := by
  obtain ⟨offset, _, offsetRead, read⟩ := bind_reads read
  obtain ⟨length, _, lengthRead, read⟩ := bind_reads read
  obtain ⟨magic, _, magicRead, read⟩ := bind_reads read
  obtain ⟨_, _, magicCheck, read⟩ := bind_reads read
  cases read
  obtain ⟨isMagic, rfl⟩ := require_eq_ok.mp magicCheck
  obtain rfl : magic = trailerMagic := of_decide_eq_true isMagic
  rw [readU32_eq_ok.mp offsetRead, readU32_eq_ok.mp lengthRead, (take_eq_ok.mp magicRead).2]
  simp [encodeTrailer]

/-- The trailer is all that stands behind the place where it is read. -/
theorem trailer_spells {lead back : Bytes} {indexOffset indexLen : UInt32}
    (split : bytes = lead ++ back) (ends : lead.length = bytes.length - trailerLen)
    (long : trailerLen ≤ bytes.length)
    (read : readTrailer (bytes.drop (bytes.length - trailerLen)) =
      .ok ((indexOffset, indexLen), rest)) : back = encodeTrailer indexOffset indexLen := by
  have short : back.length = trailerLen := by
    have total := congrArg List.length split
    rw [List.length_append, ends] at total
    omega
  have trailer : bytes.drop (bytes.length - trailerLen) = back := by
    rw [← ends, split]
    exact List.drop_left
  have spelled := readTrailer_spells (trailer ▸ read)
  have total := congrArg List.length spelled
  rw [List.length_append, encodeTrailer_length, short] at total
  obtain rfl : rest = [] := List.length_eq_zero_iff.mp (by omega)
  rw [spelled, List.append_nil]

/-- The order of an accepted index: by journal, then by base offset, and strict. -/
def Increasing (left right : Frame) : Prop :=
  left.journalId.value < right.journalId.value ∨
    (left.journalId.value = right.journalId.value ∧ left.baseOffset.toNat < right.baseOffset.toNat)

theorem follows_some {journalId nextId : JournalId} {baseOffset nextOffset : RecordOffset} :
    follows (some (journalId, baseOffset)) nextId nextOffset = true ↔
      journalId.value < nextId.value ∨
        (journalId.value = nextId.value ∧ baseOffset.toNat < nextOffset.toNat) := by
  simp [follows]

theorem follows_trans {journalId nextId : JournalId} {baseOffset nextOffset : RecordOffset}
    (first : follows previous journalId baseOffset = true)
    (second : follows (some (journalId, baseOffset)) nextId nextOffset = true) :
    follows previous nextId nextOffset = true := by
  cases previous with
  | none => rfl
  | some last =>
      obtain ⟨lastId, lastOffset⟩ := last
      rw [follows_some] at first second ⊢
      omega

theorem decodeFrames_cons [Digests] {entry : FrameRef}
    (decoded : decodeFrames bytes (entry :: entries) = .ok frames) :
    ∃ body records others, slice bytes entry.frameOffset.toNat
        (entry.frameOffset.toNat + entry.frameLen.toNat) = some body ∧
      decodeFrame entry body = .ok records ∧ decodeFrames bytes entries = .ok others ∧
      frames = ⟨entry.journalId, entry.baseOffset, records, entry.submissions⟩ :: others := by
  unfold decodeFrames at decoded
  dsimp only at decoded
  cases found : slice bytes entry.frameOffset.toNat
      (entry.frameOffset.toNat + entry.frameLen.toNat) with
  | none =>
      rw [found] at decoded
      cases decoded
  | some body =>
      rw [found] at decoded
      obtain ⟨records, framed, decoded⟩ := bind_eq_ok.mp decoded
      obtain ⟨others, othersDecoded, decoded⟩ := bind_eq_ok.mp decoded
      cases decoded
      exact ⟨body, records, others, rfl, framed, othersDecoded, rfl⟩

theorem decodeFrames_length [Digests] (decoded : decodeFrames bytes entries = .ok frames) :
    frames.length = entries.length := by
  induction entries generalizing frames with
  | nil =>
      cases decoded
      rfl
  | cons entry rest ih =>
      obtain ⟨body, records, others, -, -, othersDecoded, rfl⟩ := decodeFrames_cons decoded
      rw [List.length_cons, List.length_cons, ih othersDecoded]

/-- The bodies and the index that are written for these frames. -/
structure LaidDown [Digests] (frames : List Frame) (bodies : List Bytes) (index : Bytes)
    (start stop : Nat) : Prop where
  bodiesEncoded : encodeBodies frames = .ok bodies
  indexEncoded : encodeIndex frames bodies start = .ok (index, stop)
  ends : stop = start + bodies.flatten.length

/-- The frames behind an accepted index: their bodies follow each other, and the index is the one
that is written for them. -/
theorem decodeFrames_spells [Digests] {front remaining : Bytes} {stop : Nat}
    (whole : bytes = front ++ remaining) (starts : front.length = start)
    (chained : EntriesChained previous start entries stop)
    (decoded : decodeFrames bytes entries = .ok frames) :
    ∃ bodies back, LaidDown frames bodies (entries.flatMap encodeFrameRef) start stop ∧
      remaining = bodies.flatten ++ back := by
  induction entries generalizing front remaining frames previous start with
  | nil =>
      cases decoded
      cases chained
      exact ⟨[], remaining, ⟨rfl, rfl, rfl⟩, rfl⟩
  | cons entry rest ih =>
      obtain ⟨entered, chained⟩ := chained
      obtain ⟨body, records, others, found, framed, othersDecoded, rfl⟩ := decodeFrames_cons decoded
      obtain ⟨lead, back, split, leads, length⟩ := slice_eq_some.mp found
      have width : body.length = entry.frameLen.toNat := by omega
      obtain ⟨rfl, rfl⟩ : front = lead ∧ remaining = body ++ back := by
        refine List.append_inj (whole.symm.trans split) ?_
        rw [starts, leads, entered.starts]
      obtain ⟨bodies, back, written, rfl⟩ := ih
        (show bytes = (front ++ body) ++ back by rw [whole, List.append_assoc])
        (by rw [List.length_append, starts, width]) chained othersDecoded
      obtain ⟨encoded, crc, count⟩ := decodeFrame_spells framed
      have small : start < 2 ^ 32 := entered.starts ▸ entry.frameOffset.toNat_lt
      have bodySmall : body.length < 2 ^ 32 := width ▸ entry.frameLen.toNat_lt
      have recordsSmall : records.length < 2 ^ 32 := count ▸ entry.recordCount.toNat_lt
      have same : frameRefOf ⟨entry.journalId, entry.baseOffset, records, entry.submissions⟩
          body start = entry := by
        unfold frameRefOf
        dsimp only
        rw [← count, ← entered.starts, width, ← crc, UInt32.ofNat_toNat, UInt32.ofNat_toNat,
          UInt32.ofNat_toNat]
      have next := checkedAdd_of_le start body.length (by simp only [Usize.max]; omega)
      have rest := written.indexEncoded
      rw [← width] at rest
      refine ⟨body :: bodies, back, ⟨?_, ?_, ?_⟩, by simp⟩
      · exact bind_eq_ok.mpr ⟨_, encoded, bind_eq_ok.mpr ⟨_, written.bodiesEncoded, rfl⟩⟩
      · simp only [encodeIndex, u32Len_of_lt recordsSmall, u32Len_of_lt small,
          u32Len_of_lt bodySmall, u32Len_of_lt entered.spans, same, next, rest, Bind.bind,
          Except.bind]
        rfl
      · rw [written.ends, List.flatten_cons, List.length_append, width]
        omega

/-- The frames behind an accepted index are in its order, and their submissions tile them. -/
theorem decodeFrames_ordered [Digests] {stop : Nat}
    (chained : EntriesChained previous start entries stop)
    (decoded : decodeFrames bytes entries = .ok frames) :
    (∀ frame ∈ frames, follows previous frame.journalId frame.baseOffset = true) ∧
      frames.Pairwise Increasing ∧ ∀ frame ∈ frames,
        validateSubmissionTiling frame.submissions frame.records.length = .ok () := by
  induction entries generalizing frames previous start with
  | nil =>
      cases decoded
      simp
  | cons entry rest ih =>
      obtain ⟨entered, chained⟩ := chained
      obtain ⟨body, records, others, -, framed, othersDecoded, rfl⟩ := decodeFrames_cons decoded
      obtain ⟨behind, ordered, tiled⟩ := ih chained othersDecoded
      refine ⟨?_, List.pairwise_cons.mpr ⟨?_, ordered⟩, ?_⟩
      · intro frame member
        rcases List.mem_cons.mp member with rfl | later
        · exact entered.ordered
        · exact follows_trans entered.ordered (behind frame later)
      · intro frame member
        exact follows_some.mp (behind frame member)
      · intro frame member
        rcases List.mem_cons.mp member with rfl | later
        · rw [← (decodeFrame_spells framed).2.2]
          exact entered.tiled
        · exact tiled frame later

theorem decodeIndex_spells [Digests] {index : ChunkIndex}
    (decoded : decodeIndex bytes = .ok index) :
    ∃ layout rest, bytes = encodeHeader index.header layout ++
        (index.frames.flatMap encodeFrameRef ++ rest) ∧
      layout.indexOffset.toNat = headerLen ∧
      layout.indexLen.toNat = (index.frames.flatMap encodeFrameRef).length ∧
      layout.framesOffset.toNat = headerLen + layout.indexLen.toNat ∧
      layout.frameCount.toNat = index.frames.length ∧
      layout.indexCrc = Digests.crc32c (index.frames.flatMap encodeFrameRef) ∧
      index.frames ≠ [] ∧ EntriesChained none layout.framesOffset.toNat index.frames
        (layout.framesOffset.toNat + layout.framesLen.toNat) := by
  obtain ⟨⟨⟨header, layout⟩, rest⟩, headed, decoded⟩ := bind_eq_ok.mp decoded
  obtain ⟨indexOffset, decoded⟩ := checked_eq_ok.mp decoded
  obtain ⟨framesOffset, decoded⟩ := checked_eq_ok.mp decoded
  have indexOffset := not_not.mp indexOffset
  have framesOffset := not_not.mp framesOffset
  obtain rfl := readHeader_spells headed
  dsimp only at decoded
  cases found : slice (encodeHeader header layout ++ rest) layout.indexOffset.toNat
      (layout.indexOffset.toNat + layout.indexLen.toNat) with
  | none =>
      rw [found] at decoded
      cases decoded
  | some indexBytes =>
      rw [found] at decoded
      obtain ⟨crc, decoded⟩ := checked_eq_ok.mp decoded
      obtain ⟨⟨⟨entries, regionEnd⟩, unread⟩, read, decoded⟩ := bind_eq_ok.mp decoded
      dsimp only at decoded
      obtain ⟨finished, decoded⟩ := checked_eq_ok.mp decoded
      obtain ⟨ends, decoded⟩ := checked_eq_ok.mp decoded
      obtain ⟨nonempty, decoded⟩ := checked_eq_ok.mp decoded
      cases decoded
      have ends := not_not.mp ends
      obtain ⟨chained, counted, spelled⟩ := readIndexEntries_spells read
      obtain rfl : unread = [] := by simpa using finished
      rw [List.append_nil] at spelled
      subst spelled
      obtain ⟨front, back, split, fronts, length⟩ := slice_eq_some.mp found
      obtain ⟨-, rfl⟩ := List.append_inj split (by rw [fronts, indexOffset, encodeHeader_length])
      have sized : layout.indexLen.toNat = (entries.flatMap encodeFrameRef).length := by omega
      refine ⟨layout, back, rfl, indexOffset, sized, by omega, counted.symm,
        (not_not.mp crc).symm, by simpa using nonempty, ?_⟩
      rw [ends] at chained
      exact chained

theorem EntriesChained.last {stop : Nat} {last : FrameRef}
    (chained : EntriesChained previous start entries stop) (found : entries.getLast? = some last) :
    last.frameOffset.toNat + last.frameLen.toNat = stop := by
  induction entries generalizing previous start with
  | nil => cases found
  | cons entry rest ih =>
      obtain ⟨entered, chained⟩ := chained
      cases rest with
      | nil =>
          obtain rfl : entry = last := by simpa using found
          rw [entered.starts]
          exact chained
      | cons next rest =>
          rw [List.getLast?_cons_cons] at found
          exact ih chained found

theorem frameRefs_spelled_length (entries : List FrameRef) :
    (entries.flatMap encodeFrameRef).length = (entries.map fun entry =>
      indexEntryFixedLen + entry.submissions.length * submissionRefLen).sum := by
  rw [List.length_flatMap]
  congr 1
  exact List.map_congr_left fun entry _ => encodeFrameRef_length entry

/-- An accepted byte string is the layout of its header and frames. The frames are in order and
tiled; only a journal that comes twice or offsets that run over keep it from being sealed. -/
theorem decodeChunk_spells [Digests] {chunk : Chunk} (decoded : decodeChunk bytes = .ok chunk) :
    chunk.frames.Pairwise Increasing ∧
      (∀ frame ∈ chunk.frames,
        validateSubmissionTiling frame.submissions frame.records.length = .ok ()) ∧
      ∃ bodies index layout, bytes = sealedBytes chunk.header layout index bodies.flatten ∧
        (Canonical chunk.frames → validateFrames chunk.frames = .ok () →
          Sealing chunk.header chunk.frames bodies index layout) := by
  obtain ⟨long, decoded⟩ := checked_eq_ok.mp decoded
  obtain ⟨⟨⟨trailerOffset, trailerIndexLen⟩, rest⟩, trailed, decoded⟩ := bind_eq_ok.mp decoded
  obtain ⟨index, indexed, decoded⟩ := bind_eq_ok.mp decoded
  dsimp only at decoded
  obtain ⟨agrees, decoded⟩ := checked_eq_ok.mp decoded
  cases found : index.frames.getLast? with
  | none =>
      rw [found] at decoded
      cases decoded
  | some last =>
      rw [found] at decoded
      obtain ⟨ends, decoded⟩ := checked_eq_ok.mp decoded
      obtain ⟨frames, framed, decoded⟩ := bind_eq_ok.mp decoded
      cases decoded
      obtain ⟨layout, remaining, whole, indexOffset, indexLen, framesOffset, frameCount,
        crc, nonempty,
        chained⟩ := decodeIndex_spells indexed
      have ends := not_not.mp ends
      have stop := chained.last found
      obtain ⟨-, ordered⟩ := decodeFrames_ordered chained framed
      refine ⟨ordered.1, ordered.2, ?_⟩
      have headed : bytes = (encodeHeader index.header layout ++
          index.frames.flatMap encodeFrameRef) ++ remaining := by
        rw [whole, List.append_assoc]
      have starts : (encodeHeader index.header layout ++
          index.frames.flatMap encodeFrameRef).length = layout.framesOffset.toNat := by
        rw [List.length_append, encodeHeader_length, framesOffset, indexLen]
      obtain ⟨bodies, back, written, rfl⟩ := decodeFrames_spells headed starts chained framed
      have paired := encodeBodies_length written.bodiesEncoded
      have sum := (encodeIndex_lengths frames bodies paired _ _ _ written.indexEncoded).1
      rw [framesOffset, indexLen, sum] at written
      have split : bytes = (encodeHeader index.header layout ++
          index.frames.flatMap encodeFrameRef ++ bodies.flatten) ++ back := by
        rw [headed, List.append_assoc _ _ back]
      have length : (encodeHeader index.header layout ++
          index.frames.flatMap encodeFrameRef ++ bodies.flatten).length =
            bytes.length - trailerLen := by
        rw [List.length_append, starts, ← ends, stop, framesOffset, indexLen, sum]
        exact written.ends.symm
      have spelled := trailer_spells split length (by omega) trailed
      obtain ⟨sameOffset, sameLen⟩ := not_or.mp agrees
      have sameOffset : trailerOffset = layout.indexOffset :=
        UInt32.toNat_inj.mp ((not_not.mp sameOffset).trans indexOffset.symm)
      have sameLen : trailerIndexLen = layout.indexLen :=
        UInt32.toNat_inj.mp (((not_not.mp sameLen).trans
          (frameRefs_spelled_length index.frames).symm).trans indexLen.symm)
      rw [sameOffset, sameLen] at spelled
      refine ⟨bodies, index.frames.flatMap encodeFrameRef, layout, ?_, ?_⟩
      · rw [split, spelled, sealedBytes]
        simp only [List.append_assoc]
      · intro canonical valid
        have counted := decodeFrames_length framed
        have ends := written.ends
        exact {
          nonempty := by
            rintro rfl
            exact nonempty (List.length_eq_zero_iff.mp counted.symm)
          canonical := canonical
          valid := valid
          bodiesEncoded := written.bodiesEncoded
          indexEncoded := by rw [← ends]; exact written.indexEncoded
          indexOffset := indexOffset
          indexLen := indexLen.trans sum
          framesOffset := by rw [framesOffset, indexLen, sum]
          framesLen := by omega
          frameCount := frameCount.trans counted.symm
          indexCrc := crc }

theorem validateFrames_eq_ok :
    validateFrames frames = .ok () ↔ ∀ frame ∈ frames,
      validateSubmissionTiling frame.submissions frame.records.length = .ok () ∧
        frame.baseOffset.toNat + frame.records.length < 2 ^ 64 := by
  induction frames with
  | nil => simp [validateFrames, Pure.pure, Except.pure]
  | cons frame rest ih =>
      rw [List.forall_mem_cons, ← ih]
      constructor
      · intro valid
        obtain ⟨tiled, offsets, valid⟩ := validateFrames_cons valid
        exact ⟨⟨tiled, offsets⟩, valid⟩
      · rintro ⟨⟨tiled, offsets⟩, valid⟩
        obtain ⟨next, advanced⟩ := Option.isSome_iff_exists.mp
          (RecordOffset.checkedAdd_isSome.mpr offsets)
        simp only [validateFrames, tiled, advanced, Bind.bind, Except.bind]
        exact valid

theorem repeatsJournal_canonical (canonical : Canonical frames) :
    repeatsJournal frames = false := by
  induction frames with
  | nil => rfl
  | cons first rest ih =>
      obtain ⟨above, canonical⟩ := List.pairwise_cons.mp canonical
      cases rest with
      | nil => rfl
      | cons second rest =>
          have different : first.journalId ≠ second.journalId := by
            intro same
            have below := above second (by simp)
            rw [same] at below
            exact lt_irrefl _ below
          simp only [repeatsJournal, different, decide_false, Bool.false_or]
          exact ih canonical

theorem mergeSort_canonical (canonical : Canonical frames) : frames.mergeSort frameLe = frames := by
  apply List.mergeSort_of_pairwise
  refine canonical.imp ?_
  intro left right below
  exact frameLe_iff.mpr (.inl below)

theorem Sealing.sealChunk_eq [Digests] {bodies : List Bytes} {index : Bytes}
    {layout : ChunkLayout} (sealing : Sealing header frames bodies index layout) :
    sealChunk header frames = .ok ⟨header.chunkId,
      ChunkDigest.of (sealedBytes header layout index bodies.flatten),
      sealedBytes header layout index bodies.flatten⟩ := by
  have sorted := mergeSort_canonical sealing.canonical
  have distinct := repeatsJournal_canonical sealing.canonical
  have indexOffset := u32Len_eq_ok.mpr ⟨sealing.indexOffset ▸ layout.indexOffset.toNat_lt,
    sealing.indexOffset⟩
  have indexLen := u32Len_eq_ok.mpr ⟨sealing.indexLen ▸ layout.indexLen.toNat_lt, sealing.indexLen⟩
  have framesOffset := u32Len_eq_ok.mpr ⟨sealing.framesOffset ▸ layout.framesOffset.toNat_lt,
    sealing.framesOffset⟩
  have framesLen := u32Len_eq_ok.mpr ⟨sealing.framesLen ▸ layout.framesLen.toNat_lt,
    sealing.framesLen⟩
  have frameCount := u32Len_eq_ok.mpr ⟨sealing.frameCount ▸ layout.frameCount.toNat_lt,
    sealing.frameCount⟩
  have start := checkedAdd_of_le headerLen (indexLenOf frames) (by
    have small := layout.framesOffset.toNat_lt
    rw [sealing.framesOffset] at small
    have wide : 2 ^ 32 ≤ Usize.max := by decide
    omega)
  have nonempty : frames.isEmpty = false := by simpa using sealing.nonempty
  unfold sealChunk
  simp only [nonempty, Bool.false_eq_true, ↓reduceIte, sorted, distinct, sealing.valid,
    sealing.bodiesEncoded, start, sealing.indexEncoded, Nat.add_sub_cancel_left, indexOffset,
    indexLen, framesOffset, framesLen, frameCount, ← sealing.indexCrc, Bind.bind, Except.bind]
  rfl

/-- Frames in the order of an index are canonical when no journal comes twice. -/
theorem canonical_of_increasing (increasing : frames.Pairwise Increasing)
    (distinct : (frames.map Frame.journalId).Nodup) : Canonical frames := by
  have different := List.pairwise_map.mp distinct
  refine (increasing.and different).imp ?_
  rintro left right ⟨below | ⟨same, -⟩, apart⟩
  · exact below
  · exact absurd (JournalId.value_inj same) apart

/-- Sealed frames have different journals, and their offsets do not run over. -/
theorem sealChunk_distinct [Digests] {result : SealedChunk}
    (success : sealChunk header frames = .ok result) :
    (frames.map Frame.journalId).Nodup ∧
      ∀ frame ∈ frames, frame.baseOffset.toNat + frame.records.length < 2 ^ 64 := by
  obtain ⟨_, _, _, sealing, -⟩ := sealChunk_eq_ok success
  have same := List.mergeSort_perm frames frameLe
  constructor
  · rw [← (same.map Frame.journalId).nodup_iff]
    refine List.pairwise_map.mpr (sealing.canonical.imp ?_)
    intro left right below equal
    rw [equal] at below
    exact lt_irrefl _ below
  · intro frame member
    exact (validateFrames_eq_ok.mp sealing.valid frame (same.mem_iff.mpr member)).2

/-- An accepted byte string with different journals and offsets that fit is what its frames are
sealed to. -/
theorem sealChunk_of_decoded [Digests] {chunk : Chunk} (decoded : decodeChunk bytes = .ok chunk)
    (distinct : (chunk.frames.map Frame.journalId).Nodup)
    (offsets : ∀ frame ∈ chunk.frames,
      frame.baseOffset.toNat + frame.records.length < 2 ^ 64) :
    ∃ result, sealChunk chunk.header chunk.frames = .ok result ∧ result.bytes = bytes := by
  obtain ⟨increasing, tiled, bodies, index, layout, rfl, seals⟩ := decodeChunk_spells decoded
  have canonical := canonical_of_increasing increasing distinct
  have valid := validateFrames_eq_ok.mpr fun frame member =>
    ⟨tiled frame member, offsets frame member⟩
  exact ⟨_, (seals canonical valid).sealChunk_eq, rfl⟩

/-- The decoder accepts a byte string that the encoder writes exactly when no journal has two
frames in it and no frame's offsets run over. -/
theorem decodeChunk_sealed_iff [Digests] {bytes : Bytes} {chunk : Chunk}
    (decoded : decodeChunk bytes = .ok chunk) :
    (∃ result, sealChunk chunk.header chunk.frames = .ok result ∧ result.bytes = bytes) ↔
      (chunk.frames.map Frame.journalId).Nodup ∧
        ∀ frame ∈ chunk.frames, frame.baseOffset.toNat + frame.records.length < 2 ^ 64 := by
  constructor
  · rintro ⟨result, success, -⟩
    exact sealChunk_distinct success
  · rintro ⟨distinct, offsets⟩
    exact sealChunk_of_decoded decoded distinct offsets

/-- The bytes of these frames in this order, without the checks of a seal. -/
def laidOut [Digests] (header : ChunkHeader) (frames : List Frame) : Except ChunkError Bytes := do
  let bodies ← encodeBodies frames
  let start := headerLen + indexLenOf frames
  let (index, stop) ← encodeIndex frames bodies start
  return sealedBytes header ⟨.ofNat headerLen, .ofNat (indexLenOf frames), .ofNat start,
    .ofNat (stop - start), .ofNat frames.length, Digests.crc32c index⟩ index bodies.flatten

def tinyHeader : ChunkHeader := ⟨⟨repeated 16 1⟩, ⟨repeated 16 2⟩, 1, ⟨repeated 16 3⟩, 0⟩

/-- A frame of one record. -/
def tinyFrame (journal : UInt8) (base : Nat) (producer : UInt8) : Frame where
  journalId := ⟨repeated 16 journal⟩
  baseOffset := .ofNat base
  records := [⟨.empty, [producer]⟩]
  submissions := [⟨⟨repeated 16 producer⟩, 0, 0, 0, 1⟩]

/-- Two journals in one chunk. -/
def tinyFrames : List Frame := [tinyFrame 1 0 1, tinyFrame 2 0 2]

set_option maxRecDepth 2000 in
theorem tinyFrames_decoded : ∃ bytes, @decodeChunk sampleDigests bytes =
    .ok ⟨tinyHeader, tinyFrames⟩ := by
  have laid : ((@laidOut sampleDigests tinyHeader tinyFrames).bind (@decodeChunk sampleDigests)) =
      .ok ⟨tinyHeader, tinyFrames⟩ := by decide +kernel
  obtain ⟨bytes, -, decoded⟩ := bind_eq_ok.mp laid
  exact ⟨bytes, decoded⟩

theorem decodeChunk_sealed_iff_tiny : ∃ (_ : Digests) (bytes : Bytes),
    decodeChunk bytes = .ok ⟨tinyHeader, tinyFrames⟩ ∧
      ∃ result, sealChunk tinyHeader tinyFrames = .ok result ∧ result.bytes = bytes := by
  obtain ⟨bytes, decoded⟩ := tinyFrames_decoded
  exact ⟨sampleDigests, bytes, decoded,
    (@decodeChunk_sealed_iff sampleDigests _ _ decoded).mpr ⟨by decide, by decide⟩⟩

set_option maxRecDepth 2000 in
/-- The decoder accepts a chunk with two frames of one journal, and a frame whose last offset does
not exist. -/
theorem decodeChunk_unsealable : ∃ _ : Digests,
    (∃ bytes, decodeChunk bytes = .ok ⟨tinyHeader, [tinyFrame 1 0 1, tinyFrame 1 1 2]⟩ ∧
      ∀ result, sealChunk tinyHeader [tinyFrame 1 0 1, tinyFrame 1 1 2] ≠ .ok result) ∧
    (∃ bytes, decodeChunk bytes = .ok ⟨tinyHeader, [tinyFrame 1 (2 ^ 64 - 1) 1]⟩ ∧
      ∀ result, sealChunk tinyHeader [tinyFrame 1 (2 ^ 64 - 1) 1] ≠ .ok result) := by
  let digests := sampleDigests
  refine ⟨digests, ?_, ?_⟩
  · have laid : (laidOut tinyHeader [tinyFrame 1 0 1, tinyFrame 1 1 2]).bind decodeChunk =
        .ok ⟨tinyHeader, [tinyFrame 1 0 1, tinyFrame 1 1 2]⟩ := by decide +kernel
    obtain ⟨bytes, -, decoded⟩ := bind_eq_ok.mp laid
    refine ⟨bytes, decoded, ?_⟩
    intro result success
    exact absurd (sealChunk_distinct success).1 (by decide)
  · have laid : (laidOut tinyHeader [tinyFrame 1 (2 ^ 64 - 1) 1]).bind decodeChunk =
        .ok ⟨tinyHeader, [tinyFrame 1 (2 ^ 64 - 1) 1]⟩ := by decide +kernel
    obtain ⟨bytes, -, decoded⟩ := bind_eq_ok.mp laid
    refine ⟨bytes, decoded, ?_⟩
    intro result success
    exact absurd (sealChunk_distinct success).2 (by decide)

theorem encodeBodies_eq_ok {bodies : List Bytes} :
    encodeBodies frames = .ok bodies ↔
      List.Forall₂ (fun frame body => encodeFrameRecords frame.records = .ok body)
        frames bodies := by
  induction frames generalizing bodies with
  | nil =>
      rw [List.forall₂_nil_left_iff]
      constructor
      · intro encoded
        cases encoded
        rfl
      · rintro rfl
        rfl
  | cons frame rest ih =>
      constructor
      · intro encoded
        obtain ⟨body, first, encoded⟩ := bind_eq_ok.mp encoded
        obtain ⟨others, remaining, encoded⟩ := bind_eq_ok.mp encoded
        cases encoded
        exact .cons first (ih.mp remaining)
      · intro each
        cases each with
        | cons first remaining =>
            exact bind_eq_ok.mpr ⟨_, first, bind_eq_ok.mpr ⟨_, ih.mpr remaining, rfl⟩⟩

/-- The two lengths of a chunk, when its whole length fits. -/
theorem encodedLengths_of_bodies {frames : List Frame} {bodies : List Bytes}
    {indexLen framesLen : Nat}
    (encoded : encodeBodies frames = .ok bodies)
    (indexFits : indexLen + indexLenOf frames ≤ Usize.max)
    (framesFit : framesLen + bodies.flatten.length ≤ Usize.max) :
    encodedLengths frames indexLen framesLen =
      .ok (indexLen + indexLenOf frames, framesLen + bodies.flatten.length) := by
  induction frames generalizing bodies indexLen framesLen with
  | nil =>
      cases encoded
      rfl
  | cons frame rest ih =>
      obtain ⟨body, first, encoded⟩ := bind_eq_ok.mp encoded
      obtain ⟨others, remaining, encoded⟩ := bind_eq_ok.mp encoded
      cases encoded
      have index : indexLenOf (frame :: rest) = indexEntryFixedLen +
          frame.submissions.length * submissionRefLen + indexLenOf rest := by
        simp [indexLenOf]
      have flat : (body :: others).flatten.length = body.length + others.flatten.length := by simp
      rw [index] at indexFits ⊢
      rw [flat] at framesFit ⊢
      have spans := checkedMul_of_le frame.submissions.length submissionRefLen (by omega)
      have fixed := checkedAdd_of_le indexLen indexEntryFixedLen (by omega)
      have entry := checkedAdd_of_le (indexLen + indexEntryFixedLen)
        (frame.submissions.length * submissionRefLen) (by omega)
      have bodies := checkedAdd_of_le framesLen body.length (by omega)
      have others := @ih others (indexLen + indexEntryFixedLen +
        frame.submissions.length * submissionRefLen) (framesLen + body.length) remaining (by omega)
        (by omega)
      simp only [encodedLengths, spans, fixed, entry, first, bodies, others, Bind.bind, Except.bind]
      congr 2 <;> omega

/-- The exact size of a chunk does not depend on the order of its frames. -/
theorem Sealing.encodedChunkLen_eq [Digests] {sorted : List Frame} {bodies : List Bytes}
    {index : Bytes} {layout : ChunkLayout} (sealing : Sealing header sorted bodies index layout)
    (same : frames.Perm sorted) :
    encodedChunkLen frames = .ok (sealedBytes header layout index bodies.flatten).length := by
  obtain ⟨others, each, permuted⟩ :=
    List.perm_comp_forall₂ same (encodeBodies_eq_ok.mp sealing.bodiesEncoded)
  have indexLen : indexLenOf frames = indexLenOf sorted := (same.map _).sum_nat
  have framesLen : others.flatten.length = bodies.flatten.length := permuted.flatten.length_eq
  have start := sealing.framesOffset ▸ layout.framesOffset.toNat_lt
  have length := sealing.framesLen ▸ layout.framesLen.toNat_lt
  have lengths := @encodedLengths_of_bodies frames others 0 0 (encodeBodies_eq_ok.mpr each)
    (by simp only [Usize.max]; omega) (by simp only [Usize.max]; omega)
  rw [Nat.zero_add, Nat.zero_add, indexLen, framesLen] at lengths
  have withIndex := checkedAdd_of_le headerLen (indexLenOf sorted)
    (by simp only [Usize.max]; omega)
  have withFrames := checkedAdd_of_le (headerLen + indexLenOf sorted) bodies.flatten.length
    (by simp only [Usize.max]; omega)
  have total := checkedAdd_of_le (headerLen + indexLenOf sorted + bodies.flatten.length) trailerLen
    (by simp only [Usize.max, trailerLen]; omega)
  simp only [encodedChunkLen, lengths, withIndex, withFrames, total, Bind.bind, Except.bind]
  rw [sealing.sealedBytes_length]
  rfl

/-- Sealed bytes decode to their header and their frames in the order of the journals, and are as
long as announced. Equal bytes have equal headers and the same frames. -/
theorem sealChunk_round_trip [Digests] {header : ChunkHeader} {frames : List Frame}
    {result : SealedChunk} (success : sealChunk header frames = .ok result) :
    (∃ sorted, sorted.Perm frames ∧ Canonical sorted ∧
        decodeChunk result.bytes = .ok ⟨header, sorted⟩) ∧
      encodedChunkLen frames = .ok result.bytes.length ∧
      ∀ otherHeader otherFrames other, sealChunk otherHeader otherFrames = .ok other →
        other.bytes = result.bytes → otherHeader = header ∧ otherFrames.Perm frames := by
  obtain ⟨bodies, index, layout, sealing, -, -, bytes⟩ := sealChunk_eq_ok success
  have sorted := List.mergeSort_perm frames frameLe
  have decoded := sealing.decodeChunk_sealedBytes
  rw [← bytes] at decoded
  refine ⟨⟨_, sorted, sealing.canonical, decoded⟩, ?_, ?_⟩
  · rw [bytes]
    exact sealing.encodedChunkLen_eq sorted.symm
  · intro otherHeader otherFrames other otherSuccess same
    obtain ⟨_, _, _, otherSealing, -, -, otherBytes⟩ := sealChunk_eq_ok otherSuccess
    have otherDecoded := otherSealing.decodeChunk_sealedBytes
    rw [← otherBytes, same, decoded] at otherDecoded
    simp only [Except.ok.injEq, Chunk.mk.injEq] at otherDecoded
    obtain ⟨rfl, frames⟩ := otherDecoded
    exact ⟨rfl, ((List.mergeSort_perm otherFrames frameLe).symm.trans (frames ▸ sorted))⟩

theorem sealChunk_round_trip_tiny : ∃ (_ : Digests) (result : SealedChunk) (sorted : List Frame),
    sealChunk tinyHeader tinyFrames = .ok result ∧ sorted.Perm tinyFrames ∧
      decodeChunk result.bytes = .ok ⟨tinyHeader, sorted⟩ ∧
      encodedChunkLen tinyFrames = .ok result.bytes.length := by
  let digests := sampleDigests
  obtain ⟨bytes, decoded⟩ := tinyFrames_decoded
  obtain ⟨result, success, -⟩ := sealChunk_of_decoded decoded (by decide) (by decide)
  obtain ⟨⟨sorted, same, -, decoded⟩, length, -⟩ := sealChunk_round_trip success
  exact ⟨digests, result, sorted, success, same, decoded, length⟩

end Scripture
