import Scripture.ChunkRoundTrip

set_option autoImplicit false

/- The frames of Producer Wire and their codec. -/
namespace Scripture.Producer

open ByteFormat
open ByteFormat.Reader (Reads)

def maxFrameBytes : Nat := 4 * 1024 * 1024

def maxRecordsPerSubmit : Nat := 1024

def maxErrorMessageBytes : Nat := 1024

def magic : Bytes := [0x53, 0x50, 0x57, 0x31]

def typeHello : UInt8 := 1

def typeSubmit : UInt8 := 2

def typeAck : UInt8 := 3

def typeError : UInt8 := 4

def typeClose : UInt8 := 5

inductive ProducerWireErrorCode where
  | notServing
  | backpressure
  | identityConflict
  | unsupported
  | ambiguous
  deriving DecidableEq

inductive ProducerWireError where
  | invalidFrameLength
  | truncated
  | invalidMagic
  | unknownFrameType (kind : UInt8)
  | invalidField (field : String)
  | unknownErrorCode (code : UInt8)
  | invalidDiagnosticUtf8
  | trailingBytes
  deriving DecidableEq

def ProducerWireErrorCode.raw : ProducerWireErrorCode → UInt8
  | .notServing => 1
  | .backpressure => 2
  | .identityConflict => 3
  | .unsupported => 4
  | .ambiguous => 5

def ProducerWireErrorCode.decode (raw : UInt8) : Except ProducerWireError ProducerWireErrorCode :=
  if raw = 1 then return .notServing
  else if raw = 2 then return .backpressure
  else if raw = 3 then return .identityConflict
  else if raw = 4 then return .unsupported
  else if raw = 5 then return .ambiguous
  else throw (.unknownErrorCode raw)

inductive ProducerWireFrame where
  | hello (producerId : ProducerId) (producerEpoch : UInt32)
  | submit (sequence : UInt64) (records : List Bytes)
  | ack (producerEpoch : UInt32) (sequence firstOffset nextOffset : UInt64)
  | error (producerEpoch : UInt32) (sequence : UInt64) (code : ProducerWireErrorCode)
      (message : String)
  | close
  deriving DecidableEq

def lenPrefixed (value : Bytes) : Bytes := putU32 (UInt32.ofNat value.length) ++ value

def pushLenPrefixed (value : Bytes) : Except ProducerWireError Bytes := do
  if 2 ^ 32 ≤ value.length then throw .invalidFrameLength
  return lenPrefixed value

def pushRecords : List Bytes → Except ProducerWireError Bytes
  | [] => return []
  | record :: rest => do
      let first ← pushLenPrefixed record
      let later ← pushRecords rest
      return first ++ later

/-- The type of a frame and what follows it. -/
def encodeFields : ProducerWireFrame → Except ProducerWireError Bytes
  | .hello producerId producerEpoch => do
      if producerEpoch = 0 then throw (.invalidField "producer_epoch")
      return [typeHello] ++ (producerId.bytes.val ++ putU32 producerEpoch)
  | .submit sequence records => do
      if records = [] ∨ maxRecordsPerSubmit < records.length then
        throw (.invalidField "record_count")
      let pieces ← pushRecords records
      return [typeSubmit] ++ (putU64 sequence ++ (putU32 (UInt32.ofNat records.length) ++ pieces))
  | .ack producerEpoch sequence firstOffset nextOffset => do
      if producerEpoch = 0 ∨ nextOffset ≤ firstOffset then throw (.invalidField "ack")
      return [typeAck] ++ (putU32 producerEpoch ++ (putU64 sequence ++
        (putU64 firstOffset ++ putU64 nextOffset)))
  | .error producerEpoch sequence code message => do
      if producerEpoch = 0 ∨ maxErrorMessageBytes < (utf8 message).length then
        throw (.invalidField "error")
      let diagnostic ← pushLenPrefixed (utf8 message)
      return [typeError] ++
        (putU32 producerEpoch ++ (putU64 sequence ++ ([code.raw] ++ diagnostic)))
  | .close => return [typeClose]

def encodeProducerWireFrame (frame : ProducerWireFrame) : Except ProducerWireError Bytes := do
  let fields ← encodeFields frame
  let body := magic ++ fields
  if maxFrameBytes < body.length then throw .invalidFrameLength
  return lenPrefixed body

def readBytes : Reader ProducerWireError Bytes := do
  let length ← readU32 .truncated
  Reader.require (length.toNat ≤ maxFrameBytes) .invalidFrameLength
  Reader.take .truncated length.toNat

def decodeDiagnostic (diagnostic : Bytes) : Except ProducerWireError String :=
  match fromUtf8 diagnostic with
  | some message => return message
  | none => throw .invalidDiagnosticUtf8

def readFields (kind : UInt8) : Reader ProducerWireError ProducerWireFrame :=
  if kind = typeHello then do
    let producerId ← readFixed .truncated 16
    let producerEpoch ← readU32 .truncated
    Reader.require (producerEpoch ≠ 0) (.invalidField "producer_epoch")
    return .hello ⟨producerId⟩ producerEpoch
  else if kind = typeSubmit then do
    let sequence ← readU64 .truncated
    let count ← readU32 .truncated
    Reader.require (count ≠ 0 ∧ count.toNat ≤ maxRecordsPerSubmit) (.invalidField "record_count")
    let records ← Reader.many readBytes count.toNat
    return .submit sequence records
  else if kind = typeAck then do
    let producerEpoch ← readU32 .truncated
    let sequence ← readU64 .truncated
    let firstOffset ← readU64 .truncated
    let nextOffset ← readU64 .truncated
    Reader.require (producerEpoch ≠ 0 ∧ firstOffset < nextOffset) (.invalidField "ack")
    return .ack producerEpoch sequence firstOffset nextOffset
  else if kind = typeError then do
    let producerEpoch ← readU32 .truncated
    let sequence ← readU64 .truncated
    let raw ← readU8 .truncated
    let code ← Reader.lift (ProducerWireErrorCode.decode raw)
    let diagnostic ← readBytes
    Reader.require (producerEpoch ≠ 0 ∧ diagnostic.length ≤ maxErrorMessageBytes)
      (.invalidField "error")
    let message ← Reader.lift (decodeDiagnostic diagnostic)
    return .error producerEpoch sequence code message
  else if kind = typeClose then return .close
  else Reader.fail (.unknownFrameType kind)

def readBody : Reader ProducerWireError ProducerWireFrame := do
  let found ← Reader.take .truncated 4
  Reader.require (found = magic) .invalidMagic
  let kind ← readU8 .truncated
  readFields kind

def decodeBody (body : Bytes) : Except ProducerWireError ProducerWireFrame := do
  let (frame, unread) ← readBody body
  if ¬ unread.isEmpty then throw .trailingBytes
  return frame

def decodeProducerWireFrame (bytes : Bytes) : Except ProducerWireError ProducerWireFrame := do
  if bytes.length < 4 then throw .truncated
  let length := bigEndianValue (bytes.take 4)
  if maxFrameBytes < length ∨ bytes.length ≠ length + 4 then throw .invalidFrameLength
  decodeBody (bytes.drop 4)

theorem length_of_decode {bytes : Bytes} {frame : ProducerWireFrame}
    (decoded : decodeProducerWireFrame bytes = .ok frame) : bytes.length ≤ maxFrameBytes + 4 := by
  obtain ⟨-, decoded⟩ := checked_eq_ok.mp decoded
  obtain ⟨fits, -⟩ := checked_eq_ok.mp decoded
  omega

theorem ProducerWireErrorCode.decode_raw (code : ProducerWireErrorCode) :
    ProducerWireErrorCode.decode code.raw = .ok code := by
  cases code <;> rfl

theorem pushLenPrefixed_eq_ok {value bytes : Bytes} :
    pushLenPrefixed value = .ok bytes ↔ value.length < 2 ^ 32 ∧ bytes = lenPrefixed value := by
  unfold pushLenPrefixed
  rw [checked_eq_ok, Nat.not_le]
  exact and_congr_right fun _ => ⟨fun same => (Except.ok.inj same).symm, fun same => same ▸ rfl⟩

theorem pushRecords_eq_ok {records : List Bytes} {bytes : Bytes}
    (pushed : pushRecords records = .ok bytes) : bytes = records.flatMap lenPrefixed := by
  induction records generalizing bytes with
  | nil =>
      cases pushed
      rfl
  | cons record rest ih =>
      obtain ⟨first, written, pushed⟩ := bind_eq_ok.mp pushed
      obtain ⟨later, following, pushed⟩ := bind_eq_ok.mp pushed
      cases pushed
      rw [(pushLenPrefixed_eq_ok.mp written).2, ih following, List.flatMap_cons]

theorem readBytes_reads {value : Bytes} (fits : value.length ≤ maxFrameBytes) :
    Reads readBytes (lenPrefixed value) value := by
  have width : (UInt32.ofNat value.length).toNat = value.length := by
    refine toNat_u32OfNat ?_
    unfold maxFrameBytes at fits
    omega
  refine Reads.bind (readU32_reads _ _) ?_
  refine Reads.after (Reads.require (by rw [width, decide_eq_true_iff]; exact fits)) ?_
  exact Reads.take_of_length _ width.symm

theorem le_length_flatMap {records : List Bytes} {record : Bytes} (member : record ∈ records) :
    record.length ≤ (records.flatMap lenPrefixed).length := by
  obtain ⟨front, back, rfl⟩ := List.append_of_mem member
  rw [List.flatMap_append, List.flatMap_cons, lenPrefixed]
  simp only [List.length_append]
  omega

theorem readFields_reads {frame : ProducerWireFrame} {fields : Bytes}
    (encoded : encodeFields frame = .ok fields) (fits : fields.length ≤ maxFrameBytes) :
    Reads (readU8 .truncated >>= readFields) fields frame := by
  cases frame with
  | hello producerId producerEpoch =>
      obtain ⟨valid, encoded⟩ := checked_eq_ok.mp encoded
      cases encoded
      refine Reads.bind (readU8_reads _ typeHello) ?_
      refine Reads.bind (readFixed_reads _ _) ?_
      refine Reads.last (readU32_reads _ _) ?_
      exact Reads.after (Reads.require (decide_eq_true valid)) (Reads.pure _)
  | submit sequence records =>
      obtain ⟨valid, encoded⟩ := checked_eq_ok.mp encoded
      obtain ⟨pieces, pushed, encoded⟩ := bind_eq_ok.mp encoded
      cases encoded
      rw [not_or, Nat.not_lt] at valid
      rw [pushRecords_eq_ok pushed] at fits ⊢
      simp only [List.length_append] at fits
      have count : (UInt32.ofNat records.length).toNat = records.length := by
        have bounded := valid.2
        refine toNat_u32OfNat ?_
        unfold maxRecordsPerSubmit at bounded
        omega
      have some_record : UInt32.ofNat records.length ≠ 0 := by
        intro none
        have empty := congrArg UInt32.toNat none
        rw [count] at empty
        exact valid.1 (List.length_eq_zero_iff.mp empty)
      refine Reads.bind (readU8_reads _ typeSubmit) ?_
      refine Reads.bind (readU64_reads _ _) ?_
      refine Reads.bind (readU32_reads _ _) ?_
      refine Reads.after (Reads.require ?_) ?_
      · rw [count]
        exact decide_eq_true ⟨some_record, valid.2⟩
      · rw [count]
        refine Reads.map _ (Reads.many lenPrefixed records fun record member => ?_)
        refine readBytes_reads (Nat.le_trans (le_length_flatMap member) ?_)
        omega
  | ack producerEpoch sequence firstOffset nextOffset =>
      obtain ⟨valid, encoded⟩ := checked_eq_ok.mp encoded
      cases encoded
      rw [not_or, UInt64.not_le] at valid
      refine Reads.bind (readU8_reads _ typeAck) ?_
      refine Reads.bind (readU32_reads _ _) ?_
      refine Reads.bind (readU64_reads _ _) ?_
      refine Reads.bind (readU64_reads _ _) ?_
      refine Reads.last (readU64_reads _ _) ?_
      exact Reads.after (Reads.require (decide_eq_true valid)) (Reads.pure _)
  | error producerEpoch sequence code message =>
      obtain ⟨valid, encoded⟩ := checked_eq_ok.mp encoded
      obtain ⟨diagnostic, pushed, encoded⟩ := bind_eq_ok.mp encoded
      cases encoded
      rw [not_or, Nat.not_lt] at valid
      rw [(pushLenPrefixed_eq_ok.mp pushed).2] at fits ⊢
      refine Reads.bind (readU8_reads _ typeError) ?_
      refine Reads.bind (readU32_reads _ _) ?_
      refine Reads.bind (readU64_reads _ _) ?_
      refine Reads.bind (readU8_reads _ _) ?_
      refine Reads.after (Reads.lift code.decode_raw) ?_
      refine Reads.last (readBytes_reads ?_) ?_
      · simp only [lenPrefixed, List.length_append] at fits
        omega
      · refine Reads.after (Reads.require (decide_eq_true valid)) ?_
        refine Reads.after (Reads.lift ?_) (Reads.pure _)
        rw [decodeDiagnostic, fromUtf8_utf8]
        rfl
  | close =>
      cases encoded
      exact Reads.last (readU8_reads _ typeClose) (Reads.pure _)

theorem decode_encodeProducerWireFrame {frame : ProducerWireFrame} {bytes : Bytes}
    (encoded : encodeProducerWireFrame frame = .ok bytes) :
    decodeProducerWireFrame bytes = .ok frame := by
  obtain ⟨fields, written, encoded⟩ := bind_eq_ok.mp encoded
  obtain ⟨fits, encoded⟩ := checked_eq_ok.mp encoded
  cases encoded
  rw [Nat.not_lt] at fits
  have body : Reads readBody (magic ++ fields) frame := by
    refine Reads.bind (Reads.take_of_length _ rfl) ?_
    refine Reads.after (Reads.require (decide_eq_true rfl)) (readFields_reads written ?_)
    rw [List.length_append] at fits
    omega
  have width : bigEndianValue ((lenPrefixed (magic ++ fields)).take 4) =
      (magic ++ fields).length := by
    rw [lenPrefixed, List.take_left' (putU32_length _), putU32,
      bigEndianValue_bigEndian_of_lt 4 _ (UInt32.toNat_lt _), toNat_u32OfNat]
    unfold maxFrameBytes at fits
    omega
  have long : (lenPrefixed (magic ++ fields)).length = (magic ++ fields).length + 4 := by
    rw [lenPrefixed, List.length_append, putU32_length, Nat.add_comm]
  unfold decodeProducerWireFrame
  refine checked_eq_ok.mpr ⟨by omega, ?_⟩
  dsimp only
  rw [width]
  refine checked_eq_ok.mpr ⟨by omega, ?_⟩
  rw [lenPrefixed, List.drop_left' (putU32_length _)]
  exact bind_eq_ok.mpr ⟨_, body.all, checked_eq_ok.mpr ⟨by simp, rfl⟩⟩

end Scripture.Producer
