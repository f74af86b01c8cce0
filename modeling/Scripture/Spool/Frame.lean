import Scripture.Driver.State

set_option autoImplicit false

/- Spool frames: a length, a marker, a kind and its payload, and a checksum over all but the
length. -/
namespace Scripture.Spool

open ByteFormat
open ByteFormat.Reader (Reads)

/-- What a submission frame and its progress frame share. -/
structure ProgressIdentity where
  journalId : JournalId
  producerId : ProducerId
  producerEpoch : UInt32
  sequence : UInt64
  deriving DecidableEq

/-- A durable submission, an envelope before its seal, or the evidence of a commit. -/
inductive SpoolFrame where
  | submission (journalId : JournalId) (submission : Submission)
  | preCommit (verseKey : String) (chunkId : ChunkId) (journalId : JournalId)
      (cohortId : CohortId) (submission : Submission)
  | progress (identity : ProgressIdentity)
  deriving DecidableEq

inductive SpoolFrameError where
  | truncated
  | invalidMagic
  | unsupportedVersion (version : UInt8)
  | unsupportedKind (kind : UInt8)
  | checksumMismatch
  | corruptPayload
  | invalidUtf8
  | invalidBool (value : UInt8)
  | nonCanonicalAttributes
  | oversized
  | trailingBytes
  deriving DecidableEq

/-- "SSWF". -/
def frameMagic : Bytes := [0x53, 0x53, 0x57, 0x46]
def frameVersion : UInt8 := 1
def kindSubmission : UInt8 := 1
def kindProgress : UInt8 := 2
def kindPreCommit : UInt8 := 3

def progressIdentity (journalId : JournalId) (submission : Submission) : ProgressIdentity :=
  ⟨journalId, submission.producerId, submission.producerEpoch, submission.sequence⟩

def SpoolFrame.identity : SpoolFrame → ProgressIdentity
  | .submission journalId held => progressIdentity journalId held
  | .preCommit _ _ journalId _ held => progressIdentity journalId held
  | .progress identity => identity

/-- Records are spelled as in a chunk; the only failure of either is a length over 32 bits. -/
def encodeRecords (records : List Record) : Except SpoolFrameError Bytes :=
  (encodeFrameRecords records).mapError fun _ => .oversized

def encodeText (text : String) : Except SpoolFrameError Bytes :=
  (putLenBytes (utf8 text)).mapError fun _ => .oversized

def encodeIdentity (identity : ProgressIdentity) : Bytes :=
  identity.journalId.bytes.val ++ (identity.producerId.bytes.val ++
    (putU32 identity.producerEpoch ++ putU64 identity.sequence))

/-- The kind of a frame and its payload. -/
def encodeContent : SpoolFrame → Except SpoolFrameError Bytes
  | .submission journalId submission => do
      let records ← encodeRecords submission.records
      return [kindSubmission] ++ (encodeIdentity (progressIdentity journalId submission) ++ records)
  | .progress identity => return [kindProgress] ++ encodeIdentity identity
  | .preCommit verseKey chunkId journalId cohortId submission => do
      let verse ← encodeText verseKey
      let records ← encodeRecords submission.records
      return [kindPreCommit] ++ (verse ++ (chunkId.bytes.val ++ (cohortId.bytes.val ++
        (encodeIdentity (progressIdentity journalId submission) ++ records))))

def takeLenBytes : Reader SpoolFrameError Bytes := do
  let length ← readU32 .truncated
  Reader.take .truncated length.toNat

def decodeText (bytes : Bytes) : Except SpoolFrameError String :=
  match fromUtf8 bytes with
  | some text => return text
  | none => throw .invalidUtf8

def readText : Reader SpoolFrameError String := do
  let bytes ← takeLenBytes
  Reader.lift (decodeText bytes)

def decodeFlag (value : UInt8) : Except SpoolFrameError AttributeValue :=
  if value = 0 then return .bool false
  else if value = 1 then return .bool true
  else throw (.invalidBool value)

def readValue : Reader SpoolFrameError AttributeValue := do
  let tag ← readU8 .truncated
  if tag = stringTag then
    let text ← readText
    return .string text
  else if tag = i64Tag then
    let length ← readU32 .truncated
    Reader.require (length = 8) .corruptPayload
    let number ← readU64 .truncated
    return .i64 number.toInt64
  else if tag = boolTag then
    let length ← readU32 .truncated
    Reader.require (length = 1) .corruptPayload
    let flag ← readU8 .truncated
    Reader.lift (decodeFlag flag)
  else Reader.fail .corruptPayload

def readRecord : Reader SpoolFrameError Record := do
  let count ← readU32 .truncated
  let attributes ← AttributeMap.readWith .nonCanonicalAttributes readText readValue count.toNat
    none .empty
  let payload ← takeLenBytes
  return { attributes, payload }

def readRecords : Reader SpoolFrameError (List Record) := do
  let count ← readU32 .truncated
  Reader.many readRecord count.toNat

def readIdentity : Reader SpoolFrameError ProgressIdentity := do
  let journalId ← readFixed .truncated 16
  let producerId ← readFixed .truncated 16
  let producerEpoch ← readU32 .truncated
  let sequence ← readU64 .truncated
  return ⟨⟨journalId⟩, ⟨producerId⟩, producerEpoch, sequence⟩

def submissionOf (identity : ProgressIdentity) (records : List Record) : Submission :=
  ⟨identity.producerId, identity.producerEpoch, identity.sequence, records⟩

def readPayload (kind : UInt8) : Reader SpoolFrameError SpoolFrame :=
  if kind = kindSubmission then do
    let identity ← readIdentity
    let records ← readRecords
    return .submission identity.journalId (submissionOf identity records)
  else if kind = kindProgress then do
    let identity ← readIdentity
    return .progress identity
  else if kind = kindPreCommit then do
    let verseKey ← readText
    let chunkId ← readFixed .truncated 16
    let cohortId ← readFixed .truncated 16
    let identity ← readIdentity
    let records ← readRecords
    return .preCommit verseKey ⟨chunkId⟩ identity.journalId ⟨cohortId⟩
      (submissionOf identity records)
  else Reader.fail (.unsupportedKind kind)

def readBody : Reader SpoolFrameError SpoolFrame := do
  let magic ← Reader.take .truncated 4
  Reader.require (magic = frameMagic) .invalidMagic
  let version ← readU8 .truncated
  Reader.require (version = frameVersion) (.unsupportedVersion version)
  let kind ← readU8 .truncated
  readPayload kind

section digests

variable [Digests]

def encodeFrame (frame : SpoolFrame) : Except SpoolFrameError Bytes := do
  let content ← encodeContent frame
  let checked := frameMagic ++ ([frameVersion] ++ content)
  let body := checked ++ putU32 (Digests.crc32c checked)
  if 2 ^ 32 ≤ body.length then throw .oversized
  return putU32 (UInt32.ofNat body.length) ++ body

/-- A body without its length: the checksum at its end, and the frame it covers. -/
def decodeBody (body : Bytes) : Except SpoolFrameError SpoolFrame := do
  if body.length < 10 then throw .truncated
  let checked := body.take (body.length - 4)
  if Digests.crc32c checked ≠ UInt32.ofNat (bigEndianValue (body.drop (body.length - 4))) then
    throw .checksumMismatch
  let (frame, unread) ← readBody checked
  if ¬ unread.isEmpty then throw .trailingBytes
  return frame

/-- The length a frame claims, with its own four bytes. -/
def claimedLen (bytes : Bytes) : Nat := 4 + bigEndianValue (bytes.take 4)

/-- Decodes the frame at the start of the bytes, and says how many of them it takes. -/
def decodeFrame (bytes : Bytes) : Except SpoolFrameError (SpoolFrame × Nat) := do
  if bytes.length < 4 then throw .truncated
  if bytes.length < claimedLen bytes then throw .truncated
  let frame ← decodeBody ((bytes.take (claimedLen bytes)).drop 4)
  return (frame, claimedLen bytes)

end digests

variable {bytes : Bytes}

theorem encodeRecords_eq_ok {records : List Record} (encoded : encodeRecords records = .ok bytes) :
    encodeFrameRecords records = .ok bytes :=
  mapError_eq_ok.mp encoded

theorem takeLenBytes_reads {value : Bytes} (encoded : putLenBytes value = .ok bytes) :
    Reads takeLenBytes bytes value := by
  obtain ⟨fits, rfl⟩ := putLenBytes_eq_ok.mp encoded
  refine Reads.bind (readU32_reads _ _) (Reads.take_of_length _ ?_)
  rw [toNat_u32OfNat fits]

theorem readText_reads {text : String} (encoded : putLenBytes (utf8 text) = .ok bytes) :
    Reads readText bytes text := by
  refine Reads.last (takeLenBytes_reads encoded) (Reads.lift ?_)
  unfold decodeText
  rw [fromUtf8_utf8]
  rfl

theorem readAttribute_reads {entry : String × AttributeValue}
    (encoded : encodeAttribute entry = .ok bytes) :
    ∃ key value, bytes = key ++ value ∧ Reads readText key entry.1 ∧
      Reads readValue value entry.2 := by
  obtain ⟨name, typed⟩ := entry
  unfold encodeAttribute at encoded
  obtain ⟨key, keyed, encoded⟩ := bind_eq_ok.mp encoded
  cases typed with
  | string text =>
      obtain ⟨value, written, encoded⟩ := bind_eq_ok.mp encoded
      cases encoded
      refine ⟨key, _, rfl, readText_reads keyed, ?_⟩
      refine Reads.bind (readU8_reads _ stringTag) ?_
      exact Reads.map _ (readText_reads written)
  | i64 number =>
      cases encoded
      refine ⟨key, _, rfl, readText_reads keyed, ?_⟩
      refine Reads.bind (readU8_reads _ i64Tag) ?_
      refine Reads.bind (readU32_reads _ 8) ?_
      refine Reads.after (Reads.require rfl) ?_
      have read := Reads.map (fun value => AttributeValue.i64 value.toInt64)
        (readU64_reads SpoolFrameError.truncated number.toUInt64)
      rw [Int64.toInt64_toUInt64] at read
      exact read
  | bool flag =>
      cases encoded
      refine ⟨key, _, rfl, readText_reads keyed, ?_⟩
      refine Reads.bind (readU8_reads _ boolTag) ?_
      refine Reads.bind (readU32_reads _ 1) ?_
      refine Reads.after (Reads.require rfl) ?_
      refine Reads.last (readU8_reads _ _) (Reads.lift ?_)
      cases flag <;> rfl

theorem readRecord_reads {record : Record} (encoded : encodeRecord record = .ok bytes) :
    Reads readRecord bytes record := by
  unfold encodeRecord at encoded
  obtain ⟨count, counted, encoded⟩ := bind_eq_ok.mp encoded
  obtain ⟨entries, entriesEncoded, encoded⟩ := bind_eq_ok.mp encoded
  obtain ⟨payload, payloadEncoded, encoded⟩ := bind_eq_ok.mp encoded
  cases encoded
  obtain ⟨pieces, rfl, spelled⟩ := encodeAttributes_eq_ok _ _ entriesEncoded
  have length := (u32Len_eq_ok.mp counted).2
  have attributesRead := @AttributeMap.readWith_reads _ SpoolFrameError.nonCanonicalAttributes
    readText readValue _ _ (spelled.imp fun _ _ written => readAttribute_reads written)
    .empty none (by simp) record.attributes.sorted
  rw [← length] at attributesRead
  refine Reads.bind (readU32_reads _ count) ?_
  refine Reads.bind attributesRead ?_
  exact (takeLenBytes_reads payloadEncoded).map fun payload => Record.mk record.attributes payload

theorem readRecords_reads {records : List Record} (encoded : encodeRecords records = .ok bytes) :
    Reads readRecords bytes records := by
  obtain ⟨fits, rest, restEncoded, rfl⟩ := encodeFrameRecords_eq_ok (encodeRecords_eq_ok encoded)
  refine Reads.bind (readU32_reads _ _) ?_
  rw [toNat_u32OfNat fits]
  exact readMany_reads (fun _ _ written => readRecord_reads written) records rest restEncoded

theorem readIdentity_reads (identity : ProgressIdentity) :
    Reads readIdentity (encodeIdentity identity) identity := by
  refine Reads.bind (readFixed_reads _ _) ?_
  refine Reads.bind (readFixed_reads _ _) ?_
  refine Reads.bind (readU32_reads _ _) ?_
  exact Reads.map _ (readU64_reads _ _)

theorem encodeIdentity_injective : Function.Injective encodeIdentity := by
  intro left right same
  have read := Reads.all (readIdentity_reads left)
  rw [same, Reads.all (readIdentity_reads right)] at read
  cases read
  rfl

@[simp] theorem encodeIdentity_length (identity : ProgressIdentity) :
    (encodeIdentity identity).length = 44 := by
  simp [encodeIdentity, identity.journalId.bytes.2, identity.producerId.bytes.2]

/-- The fields compare one after the other, hence as one big-endian number. -/
def ProgressIdentity.rank (identity : ProgressIdentity) : Nat :=
  bigEndianValue (encodeIdentity identity)

theorem ProgressIdentity.rank_injective : Function.Injective ProgressIdentity.rank := by
  intro left right same
  exact encodeIdentity_injective (bigEndianValue_injective _ _ (by simp) same)

instance : LinearOrder ProgressIdentity :=
  OrderedMap.orderOfRank ProgressIdentity.rank ProgressIdentity.rank_injective

variable {frame : SpoolFrame}

theorem readBody_reads {content : Bytes} (encoded : encodeContent frame = .ok content) :
    Reads readBody (frameMagic ++ ([frameVersion] ++ content)) frame := by
  refine Reads.bind (Reads.take_of_length _ rfl) ?_
  refine Reads.after (Reads.require (by simp)) ?_
  refine Reads.bind (readU8_reads _ _) ?_
  refine Reads.after (Reads.require (by simp)) ?_
  cases frame with
  | submission journalId held =>
      obtain ⟨records, written, encoded⟩ := bind_eq_ok.mp encoded
      cases encoded
      refine Reads.bind (readU8_reads _ kindSubmission) ?_
      refine Reads.bind (readIdentity_reads _) ?_
      exact Reads.map _ (readRecords_reads written)
  | progress identity =>
      cases encoded
      refine Reads.bind (readU8_reads _ kindProgress) ?_
      exact Reads.map _ (readIdentity_reads identity)
  | preCommit verseKey chunkId journalId cohortId held =>
      obtain ⟨verse, verseWritten, encoded⟩ := bind_eq_ok.mp encoded
      obtain ⟨records, written, encoded⟩ := bind_eq_ok.mp encoded
      cases encoded
      refine Reads.bind (readU8_reads _ kindPreCommit) ?_
      refine Reads.bind (readText_reads (mapError_eq_ok.mp verseWritten)) ?_
      refine Reads.bind (readFixed_reads _ _) ?_
      refine Reads.bind (readFixed_reads _ _) ?_
      refine Reads.bind (readIdentity_reads _) ?_
      exact Reads.map _ (readRecords_reads written)

theorem encodeContent_nonempty {content : Bytes} (encoded : encodeContent frame = .ok content) :
    1 ≤ content.length := by
  cases frame with
  | submission journalId held =>
      obtain ⟨records, -, encoded⟩ := bind_eq_ok.mp encoded
      cases encoded
      simp
  | progress identity =>
      cases encoded
      simp
  | preCommit verseKey chunkId journalId cohortId held =>
      obtain ⟨verse, -, encoded⟩ := bind_eq_ok.mp encoded
      obtain ⟨records, -, encoded⟩ := bind_eq_ok.mp encoded
      cases encoded
      simp

theorem claimedLen_append {front : Bytes} (long : 4 ≤ front.length) (rest : Bytes) :
    claimedLen (front ++ rest) = claimedLen front := by
  unfold claimedLen
  rw [List.take_append_of_le_length long]

variable [Digests]

/-- The bytes are exactly one frame. -/
def Spells (frame : SpoolFrame) (bytes : Bytes) : Prop :=
  decodeFrame bytes = .ok (frame, bytes.length)

theorem decodeFrame_eq_ok {total : Nat} :
    decodeFrame bytes = .ok (frame, total) ↔
      4 ≤ bytes.length ∧ total = claimedLen bytes ∧ total ≤ bytes.length ∧
        decodeBody ((bytes.take total).drop 4) = .ok frame := by
  unfold decodeFrame
  rw [checked_eq_ok, checked_eq_ok, bind_eq_ok]
  constructor
  · rintro ⟨long, enough, found, decoded, returned⟩
    cases returned
    exact ⟨by omega, rfl, by omega, decoded⟩
  · rintro ⟨long, rfl, enough, decoded⟩
    exact ⟨by omega, by omega, frame, decoded, rfl⟩

/-- What follows a frame is not looked at. -/
theorem Spells.decode_append {piece : Bytes} (spelled : Spells frame piece) (rest : Bytes) :
    decodeFrame (piece ++ rest) = .ok (frame, piece.length) := by
  obtain ⟨long, total, enough, decoded⟩ := decodeFrame_eq_ok.mp spelled
  refine decodeFrame_eq_ok.mpr ⟨?_, ?_, ?_, ?_⟩
  · rw [List.length_append]
    omega
  · rw [claimedLen_append long]
    exact total
  · rw [List.length_append]
    omega
  · rw [List.take_append_of_le_length (Nat.le_refl _)]
    exact decoded

/-- A frame that is cut off is reported as truncated. -/
theorem Spells.decode_torn {part more : Bytes} (spelled : Spells frame (part ++ more))
    (cut : more ≠ []) :
    decodeFrame part = .error .truncated := by
  obtain ⟨-, total, -, -⟩ := decodeFrame_eq_ok.mp spelled
  have missing : 0 < more.length := List.length_pos_of_ne_nil cut
  unfold decodeFrame
  by_cases long : part.length < 4
  · rw [if_pos long]
    rfl
  · rw [if_neg long]
    rw [claimedLen_append (by omega), List.length_append] at total
    rw [if_pos (by omega)]
    rfl

theorem encodeFrame_eq_ok (encoded : encodeFrame frame = .ok bytes) :
    ∃ content, encodeContent frame = .ok content ∧
      let checked := frameMagic ++ ([frameVersion] ++ content)
      let body := checked ++ putU32 (Digests.crc32c checked)
      body.length < 2 ^ 32 ∧ bytes = putU32 (UInt32.ofNat body.length) ++ body := by
  obtain ⟨content, written, encoded⟩ := bind_eq_ok.mp encoded
  obtain ⟨small, encoded⟩ := checked_eq_ok.mp encoded
  cases encoded
  exact ⟨content, written, by omega, rfl⟩

theorem encodeFrame_spells (encoded : encodeFrame frame = .ok bytes) : Spells frame bytes := by
  obtain ⟨content, written, small, rfl⟩ := encodeFrame_eq_ok encoded
  have nonempty := encodeContent_nonempty written
  have read := readBody_reads written
  generalize checkedIs : frameMagic ++ ([frameVersion] ++ content) = checked at small read ⊢
  have long : 6 ≤ checked.length := by
    rw [← checkedIs]
    simp only [frameMagic, List.length_append, List.length_cons, List.length_nil]
    omega
  generalize bodyIs : checked ++ putU32 (Digests.crc32c checked) = body at small ⊢
  have bodyLength : body.length = checked.length + 4 := by
    rw [← bodyIs, List.length_append, putU32_length]
  have claimed : claimedLen (putU32 (UInt32.ofNat body.length) ++ body) = 4 + body.length := by
    unfold claimedLen
    rw [List.take_append_of_le_length (by rw [putU32_length]),
      List.take_of_length_le (by rw [putU32_length]), putU32,
      bigEndianValue_bigEndian_of_lt 4 _ (UInt32.toNat_lt _), toNat_u32OfNat small]
  refine decodeFrame_eq_ok.mpr ⟨?_, ?_, Nat.le_refl _, ?_⟩
  · rw [List.length_append, putU32_length]
    omega
  · rw [claimed, List.length_append, putU32_length]
  · rw [List.take_length, List.drop_append_of_le_length (by rw [putU32_length]),
      List.drop_of_length_le (by rw [putU32_length]), List.nil_append]
    have front : body.take (body.length - 4) = checked := by
      rw [bodyLength, Nat.add_sub_cancel, ← bodyIs, List.take_left]
    have back : body.drop (body.length - 4) = putU32 (Digests.crc32c checked) := by
      rw [bodyLength, Nat.add_sub_cancel, ← bodyIs, List.drop_left]
    unfold decodeBody
    refine checked_eq_ok.mpr ⟨by omega, ?_⟩
    rw [front, back, putU32, bigEndianValue_bigEndian_of_lt 4 _ (UInt32.toNat_lt _),
      UInt32.ofNat_toNat]
    refine checked_eq_ok.mpr ⟨not_not.mpr rfl, ?_⟩
    exact bind_eq_ok.mpr ⟨_, Reads.all read, checked_eq_ok.mpr ⟨by simp, rfl⟩⟩

def sampleJournal : JournalId := ⟨repeated 16 9⟩

def oneRecord (producer : UInt8) (sequence : UInt64) : Submission :=
  ⟨⟨repeated 16 producer⟩, 1, sequence, [⟨.empty, [0x78]⟩]⟩

end Scripture.Spool
