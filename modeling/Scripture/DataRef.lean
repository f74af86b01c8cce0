import Scripture.ChunkRoundTrip

set_option autoImplicit false

/- A log payload is a sealed chunk, a pointer at a chunk inside a stored object, or an ordered
batch of pointers. -/
namespace Scripture

open ByteFormat ByteFormat.Reader

def dataRefMagic : Bytes := [0x53, 0x52, 0x44, 0x46]
def referenceBatchMagic : Bytes := [0x53, 0x52, 0x52, 0x42]
def dataRefVersion : UInt8 := 2
def referenceBatchVersion : UInt8 := 1
def maxBlobKeyBytes : Nat := 1024

structure DataRef where
  blobKey : String
  offset : UInt64
  length : UInt64
  recordCount : UInt32
  chunkId : ChunkId
  chunkDigest : ChunkDigest
  blobDigest : ChunkDigest
  deriving DecidableEq

inductive DataRefError where
  | emptyBlobKey
  | blobKeyTooLong (len : Nat)
  | zeroLength
  | zeroRecordCount
  | rangeOverflow
  | lengthMismatch (expected actual : Nat)
  | chunkDigestMismatch
  | blobDigestMismatch
  | truncated
  | invalidMagic
  | unsupportedVersion (version : UInt8)
  | trailingBytes
  | invalidUtf8
  | unrecognizedPayload
  | emptyBatch
  | batchTooLarge (len : Nat)
  | batchCountMismatch (expected actual : Nat)
  deriving DecidableEq

inductive LogPayload where
  | inlineChunk (bytes : Bytes)
  | dataRef (pointer : DataRef)
  | referenceBatch (pointers : List DataRef)
  deriving DecidableEq

/-- Nonempty key of bounded length, positive length and count, and a range that does not wrap. -/
def DataRef.validate (pointer : DataRef) : Except DataRefError Unit := do
  let keyLen := (utf8 pointer.blobKey).length
  if keyLen = 0 then throw .emptyBlobKey
  if maxBlobKeyBytes < keyLen then throw (.blobKeyTooLong keyLen)
  if pointer.length = 0 then throw .zeroLength
  if pointer.recordCount = 0 then throw .zeroRecordCount
  if 2 ^ 64 ≤ pointer.offset.toNat + pointer.length.toNat then throw .rangeOverflow

/-- Checks fetched chunk bytes against the evidence the pointer carries. -/
def DataRef.verifyChunkBytes [Digests] (pointer : DataRef) (bytes : Bytes) :
    Except DataRefError Unit := do
  pointer.validate
  if bytes.length ≠ pointer.length.toNat then
    throw (.lengthMismatch pointer.length.toNat bytes.length)
  if ChunkDigest.of bytes ≠ pointer.chunkDigest then throw .chunkDigestMismatch

/-- The fixed-width fields behind the key. -/
def dataRefFixedLen : Nat := 8 + 8 + 4 + 16 + 32 + 32

def dataRefBytes (pointer : DataRef) : Bytes :=
  dataRefMagic ++ ([dataRefVersion] ++ (putU16 (UInt16.ofNat (utf8 pointer.blobKey).length) ++
    (utf8 pointer.blobKey ++ (putU64 pointer.offset ++ (putU64 pointer.length ++
      (putU32 pointer.recordCount ++ (pointer.chunkId.bytes.val ++
        (pointer.chunkDigest.bytes.val ++ pointer.blobDigest.bytes.val))))))))

/-- Encodes a pointer. The bound on the key is below what its length field can hold. -/
def encodeDataRef (pointer : DataRef) : Except DataRefError Bytes := do
  pointer.validate
  let keyLen := (utf8 pointer.blobKey).length
  if 2 ^ 16 ≤ keyLen then throw (.blobKeyTooLong keyLen)
  return dataRefBytes pointer

def decodeBlobKey (bytes : Bytes) : Except DataRefError String :=
  match fromUtf8 bytes with
  | some key => return key
  | none => throw .invalidUtf8

/-- Decodes one pointer from the front of the bytes. -/
def decodeDataRefPrefix : Reader DataRefError DataRef := do
  Reader.available .truncated (4 + 1 + 2 + dataRefFixedLen)
  let magic ← Reader.take .truncated 4
  Reader.require (magic = dataRefMagic) .invalidMagic
  let version ← readU8 .truncated
  Reader.require (version = dataRefVersion) (.unsupportedVersion version)
  let keyLen ← readU16 .truncated
  Reader.available .truncated (keyLen.toNat + dataRefFixedLen)
  let keyBytes ← Reader.take .truncated keyLen.toNat
  let blobKey ← Reader.lift (decodeBlobKey keyBytes)
  let offset ← readU64 .truncated
  let length ← readU64 .truncated
  let recordCount ← readU32 .truncated
  let chunkId ← readFixed .truncated 16
  let chunkDigest ← readFixed .truncated 32
  let blobDigest ← readFixed .truncated 32
  let pointer : DataRef :=
    ⟨blobKey, offset, length, recordCount, ⟨chunkId⟩, ⟨chunkDigest⟩, ⟨blobDigest⟩⟩
  Reader.lift pointer.validate
  return pointer

def decodeDataRef (bytes : Bytes) : Except DataRefError DataRef := do
  let (pointer, unread) ← decodeDataRefPrefix bytes
  if ¬ unread.isEmpty then throw .trailingBytes
  return pointer

def encodeDataRefs : List DataRef → Except DataRefError Bytes
  | [] => return []
  | pointer :: rest => do
      let first ← encodeDataRef pointer
      let remaining ← encodeDataRefs rest
      return first ++ remaining

def encodeReferenceBatch (pointers : List DataRef) : Except DataRefError Bytes := do
  if pointers.isEmpty then throw .emptyBatch
  if 2 ^ 16 ≤ pointers.length then throw (.batchTooLarge pointers.length)
  let members ← encodeDataRefs pointers
  return referenceBatchMagic ++ ([referenceBatchVersion] ++
    (putU16 (UInt16.ofNat pointers.length) ++ members))

/-- The member loop of `decode_reference_batch`: `missing` members are still expected. -/
def readDataRefs (expected : Nat) : Nat → Reader DataRefError (List DataRef)
  | 0 => return []
  | missing + 1 => fun input =>
      if input.isEmpty then .error (.batchCountMismatch expected (expected - (missing + 1)))
      else (do
        let pointer ← decodeDataRefPrefix
        let rest ← readDataRefs expected missing
        return pointer :: rest : Reader DataRefError (List DataRef)) input

def readBatchHeader : Reader DataRefError Nat := do
  Reader.available .truncated (4 + 1 + 2)
  let magic ← Reader.take .truncated 4
  Reader.require (magic = referenceBatchMagic) .invalidMagic
  let version ← readU8 .truncated
  Reader.require (version = referenceBatchVersion) (.unsupportedVersion version)
  let expected ← readU16 .truncated
  Reader.require (expected ≠ 0) .emptyBatch
  return expected.toNat

def decodeReferenceBatch (bytes : Bytes) : Except DataRefError (List DataRef) := do
  let (expected, members) ← readBatchHeader bytes
  let (pointers, unread) ← readDataRefs expected expected members
  if ¬ unread.isEmpty then throw .trailingBytes
  return pointers

/-- Dispatches a payload on its first four bytes. -/
def decodeLogPayload (bytes : Bytes) : Except DataRefError LogPayload := do
  if bytes.length < 4 then throw .truncated
  if bytes.take 4 = dataRefMagic then return .dataRef (← decodeDataRef bytes)
  else if bytes.take 4 = referenceBatchMagic then
    return .referenceBatch (← decodeReferenceBatch bytes)
  else if bytes.take 4 = headerMagic then return .inlineChunk bytes
  else throw .unrecognizedPayload

/-- What `validate` accepts. -/
structure DataRef.Valid (pointer : DataRef) : Prop where
  key : 0 < (utf8 pointer.blobKey).length
  keyBounded : (utf8 pointer.blobKey).length ≤ maxBlobKeyBytes
  length : pointer.length ≠ 0
  records : pointer.recordCount ≠ 0
  range : pointer.offset.toNat + pointer.length.toNat < 2 ^ 64

variable {pointer : DataRef} {bytes : Bytes}

theorem DataRef.validate_eq_ok : pointer.validate = .ok () ↔ pointer.Valid := by
  constructor
  · intro valid
    obtain ⟨key, valid⟩ := checked_eq_ok.mp valid
    obtain ⟨bounded, valid⟩ := checked_eq_ok.mp valid
    obtain ⟨length, valid⟩ := checked_eq_ok.mp valid
    obtain ⟨records, valid⟩ := checked_eq_ok.mp valid
    have range : ¬ 2 ^ 64 ≤ pointer.offset.toNat + pointer.length.toNat := by
      intro wraps
      rw [if_pos wraps] at valid
      cases valid
    exact ⟨by omega, by omega, length, records, by omega⟩
  · intro valid
    refine checked_eq_ok.mpr ⟨by have := valid.key; omega, ?_⟩
    refine checked_eq_ok.mpr ⟨by have := valid.keyBounded; omega, ?_⟩
    refine checked_eq_ok.mpr ⟨valid.length, ?_⟩
    refine checked_eq_ok.mpr ⟨valid.records, ?_⟩
    exact if_neg (by have := valid.range; omega)

theorem encodeDataRef_eq_ok :
    encodeDataRef pointer = .ok bytes ↔ pointer.Valid ∧ bytes = dataRefBytes pointer := by
  unfold encodeDataRef
  rw [bind_eq_ok]
  constructor
  · rintro ⟨_, valid, encoded⟩
    obtain ⟨-, encoded⟩ := checked_eq_ok.mp encoded
    cases encoded
    exact ⟨DataRef.validate_eq_ok.mp valid, rfl⟩
  · rintro ⟨valid, rfl⟩
    have bounded := valid.keyBounded
    simp only [maxBlobKeyBytes] at bounded
    exact ⟨(), DataRef.validate_eq_ok.mpr valid, checked_eq_ok.mpr ⟨by omega, rfl⟩⟩

theorem dataRefBytes_length (pointer : DataRef) :
    (dataRefBytes pointer).length =
      4 + 1 + 2 + (utf8 pointer.blobKey).length + dataRefFixedLen := by
  simp only [dataRefBytes, List.length_append, dataRefMagic, List.length_cons, List.length_nil,
    putU16_length, putU64_length, putU32_length, pointer.chunkId.bytes.property,
    pointer.chunkDigest.bytes.property, pointer.blobDigest.bytes.property, dataRefFixedLen]
  omega

theorem toNat_u16OfNat {value : Nat} (fits : value < 2 ^ 16) :
    (UInt16.ofNat value).toNat = value := by
  rw [UInt16.toNat_ofNat']
  omega

theorem decodeDataRefPrefix_reads (valid : pointer.Valid) :
    Reads decodeDataRefPrefix (dataRefBytes pointer) pointer := by
  have total := dataRefBytes_length pointer
  have bounded := valid.keyBounded
  have keyLen : (UInt16.ofNat (utf8 pointer.blobKey).length).toNat =
      (utf8 pointer.blobKey).length :=
    toNat_u16OfNat (by simp only [maxBlobKeyBytes] at bounded; omega)
  refine Reads.afterAvailable (by omega) ?_
  refine Reads.bind (Reads.take_of_length _ rfl) ?_
  refine Reads.after (Reads.require (by simp)) ?_
  refine Reads.bind (readU8_reads _ dataRefVersion) ?_
  refine Reads.after (Reads.require (by simp)) ?_
  refine Reads.bind (readU16_reads _ _) ?_
  rw [keyLen]
  refine Reads.afterAvailable ?_ ?_
  · simp [dataRefFixedLen, pointer.chunkId.bytes.property, pointer.chunkDigest.bytes.property,
      pointer.blobDigest.bytes.property]
  refine Reads.bind (Reads.take _ (utf8 pointer.blobKey)) ?_
  refine Reads.after (Reads.lift (by simp [decodeBlobKey]; rfl)) ?_
  obtain ⟨blobKey, offset, length, recordCount, ⟨chunkId⟩, ⟨chunkDigest⟩, ⟨blobDigest⟩⟩ := pointer
  refine Reads.bind (readU64_reads _ offset) ?_
  refine Reads.bind (readU64_reads _ length) ?_
  refine Reads.bind (readU32_reads _ recordCount) ?_
  refine Reads.bind (readFixed_reads _ chunkId) ?_
  refine Reads.bind (readFixed_reads _ chunkDigest) ?_
  refine Reads.last (readFixed_reads _ blobDigest) ?_
  exact Reads.after (Reads.lift (DataRef.validate_eq_ok.mpr valid)) (Reads.pure _)

theorem dataRefBytes_magic (pointer : DataRef) : (dataRefBytes pointer).take 4 = dataRefMagic := by
  rw [dataRefBytes, List.take_left']
  rfl

theorem decodeLogPayload_dataRef (encoded : encodeDataRef pointer = .ok bytes) :
    decodeLogPayload bytes = .ok (.dataRef pointer) := by
  obtain ⟨valid, rfl⟩ := encodeDataRef_eq_ok.mp encoded
  have total := dataRefBytes_length pointer
  have read := Reads.all (decodeDataRefPrefix_reads valid)
  have decoded : decodeDataRef (dataRefBytes pointer) = .ok pointer :=
    bind_eq_ok.mpr ⟨_, read, checked_eq_ok.mpr ⟨by simp, rfl⟩⟩
  unfold decodeLogPayload
  refine checked_eq_ok.mpr ⟨by omega, ?_⟩
  rw [if_pos (dataRefBytes_magic pointer)]
  exact bind_eq_ok.mpr ⟨_, decoded, rfl⟩

variable {pointers : List DataRef}

theorem encodeDataRefs_cons (encoded : encodeDataRefs (pointer :: pointers) = .ok bytes) :
    pointer.Valid ∧ ∃ rest, encodeDataRefs pointers = .ok rest ∧
      bytes = dataRefBytes pointer ++ rest := by
  unfold encodeDataRefs at encoded
  obtain ⟨first, firstEncoded, encoded⟩ := bind_eq_ok.mp encoded
  obtain ⟨rest, restEncoded, encoded⟩ := bind_eq_ok.mp encoded
  cases encoded
  obtain ⟨valid, rfl⟩ := encodeDataRef_eq_ok.mp firstEncoded
  exact ⟨valid, rest, restEncoded, rfl⟩

theorem readDataRefs_reads (expected : Nat) (pointers : List DataRef) (bytes : Bytes)
    (encoded : encodeDataRefs pointers = .ok bytes) :
    Reads (readDataRefs expected pointers.length) bytes pointers := by
  induction pointers generalizing bytes with
  | nil =>
      cases encoded
      exact Reads.pure []
  | cons pointer pointers ih =>
      obtain ⟨valid, rest, restEncoded, rfl⟩ := encodeDataRefs_cons encoded
      have total := dataRefBytes_length pointer
      intro after
      have present : (dataRefBytes pointer ++ rest ++ after).isEmpty = false := by
        cases front : dataRefBytes pointer with
        | nil =>
            rw [front, List.length_nil] at total
            omega
        | cons byte tail => rfl
      rw [List.length_cons, readDataRefs]
      dsimp only
      rw [present, if_neg Bool.false_ne_true]
      have members : Reads (Reader.bind decodeDataRefPrefix fun first =>
          Reader.bind (readDataRefs expected pointers.length) fun others =>
            Reader.pure (first :: others)) (dataRefBytes pointer ++ rest) (pointer :: pointers) :=
        Reads.bind (decodeDataRefPrefix_reads valid)
          (Reads.map (pointer :: ·) (ih rest restEncoded))
      exact members after

theorem decodeLogPayload_referenceBatch (encoded : encodeReferenceBatch pointers = .ok bytes) :
    decodeLogPayload bytes = .ok (.referenceBatch pointers) := by
  unfold encodeReferenceBatch at encoded
  obtain ⟨nonempty, encoded⟩ := checked_eq_ok.mp encoded
  obtain ⟨fits, encoded⟩ := checked_eq_ok.mp encoded
  obtain ⟨members, membersEncoded, encoded⟩ := bind_eq_ok.mp encoded
  cases encoded
  have count : (UInt16.ofNat pointers.length).toNat = pointers.length :=
    toNat_u16OfNat (by omega)
  have positive : UInt16.ofNat pointers.length ≠ 0 := by
    intro zero
    rw [zero] at count
    simp [← List.length_eq_zero_iff, ← count] at nonempty
  have header : Reads readBatchHeader
      (referenceBatchMagic ++ ([referenceBatchVersion] ++ (putU16 (UInt16.ofNat pointers.length) ++
        []))) pointers.length := by
    refine Reads.afterAvailable (by simp [referenceBatchMagic]) ?_
    refine Reads.bind (Reads.take_of_length _ rfl) ?_
    refine Reads.after (Reads.require (by simp)) ?_
    refine Reads.bind (readU8_reads _ referenceBatchVersion) ?_
    refine Reads.after (Reads.require (by simp)) ?_
    refine Reads.bind (readU16_reads _ _) ?_
    refine Reads.after (Reads.require (by simpa using positive)) ?_
    rw [count]
    exact Reads.pure _
  have headerRead := header members
  simp only [List.append_assoc, List.nil_append] at headerRead
  have membersRead := Reads.all (readDataRefs_reads pointers.length pointers members membersEncoded)
  have decoded : decodeReferenceBatch (referenceBatchMagic ++ ([referenceBatchVersion] ++
      (putU16 (UInt16.ofNat pointers.length) ++ members))) = .ok pointers := by
    refine bind_eq_ok.mpr ⟨_, headerRead, ?_⟩
    exact bind_eq_ok.mpr ⟨_, membersRead, checked_eq_ok.mpr ⟨by simp, rfl⟩⟩
  have magic : (referenceBatchMagic ++ ([referenceBatchVersion] ++
      (putU16 (UInt16.ofNat pointers.length) ++ members))).take 4 = referenceBatchMagic :=
    List.take_left' rfl
  unfold decodeLogPayload
  refine checked_eq_ok.mpr ⟨by simp [referenceBatchMagic], ?_⟩
  rw [magic, if_neg (by decide), if_pos rfl]
  exact bind_eq_ok.mpr ⟨_, decoded, rfl⟩

theorem decodeLogPayload_sealedBytes (header : ChunkHeader) (layout : ChunkLayout)
    (index frames : Bytes) :
    decodeLogPayload (sealedBytes header layout index frames) =
      .ok (.inlineChunk (sealedBytes header layout index frames)) := by
  have magic : (sealedBytes header layout index frames).take 4 = headerMagic := by
    rw [sealedBytes, encodeHeader, List.append_assoc]
    exact List.take_left' rfl
  have length : ¬ (sealedBytes header layout index frames).length < 4 := by
    rw [sealedBytes, List.length_append, encodeHeader_length]
    simp only [headerLen]
    omega
  unfold decodeLogPayload
  refine checked_eq_ok.mpr ⟨length, ?_⟩
  rw [magic, if_neg (by decide), if_neg (by decide), if_pos rfl]
  rfl

theorem decodeDataRefPrefix_spells {input rest : Bytes}
    (read : decodeDataRefPrefix input = .ok (pointer, rest)) :
    pointer.Valid ∧ input = dataRefBytes pointer ++ rest := by
  obtain ⟨_, _, long, read⟩ := bind_reads read
  obtain ⟨magic, _, magicRead, read⟩ := bind_reads read
  obtain ⟨_, _, magicCheck, read⟩ := bind_reads read
  obtain ⟨version, _, versionRead, read⟩ := bind_reads read
  obtain ⟨_, _, versionCheck, read⟩ := bind_reads read
  obtain ⟨keyLen, _, keyLenRead, read⟩ := bind_reads read
  obtain ⟨_, _, present, read⟩ := bind_reads read
  obtain ⟨keyBytes, _, keyRead, read⟩ := bind_reads read
  obtain ⟨blobKey, _, keyDecoded, read⟩ := bind_reads read
  obtain ⟨offset, _, offsetRead, read⟩ := bind_reads read
  obtain ⟨length, _, lengthRead, read⟩ := bind_reads read
  obtain ⟨count, _, countRead, read⟩ := bind_reads read
  obtain ⟨chunkId, _, chunkRead, read⟩ := bind_reads read
  obtain ⟨chunkDigest, _, chunkDigestRead, read⟩ := bind_reads read
  obtain ⟨blobDigest, _, blobDigestRead, read⟩ := bind_reads read
  obtain ⟨_, _, validated, read⟩ := bind_reads read
  cases read
  obtain ⟨-, rfl⟩ := available_eq_ok.mp long
  obtain ⟨isMagic, rfl⟩ := require_eq_ok.mp magicCheck
  obtain ⟨isVersion, rfl⟩ := require_eq_ok.mp versionCheck
  obtain ⟨-, rfl⟩ := available_eq_ok.mp present
  obtain ⟨key, rfl⟩ := lift_eq_ok.mp keyDecoded
  obtain ⟨valid, rfl⟩ := lift_eq_ok.mp validated
  obtain rfl : magic = dataRefMagic := of_decide_eq_true isMagic
  obtain rfl : version = dataRefVersion := of_decide_eq_true isVersion
  obtain ⟨width, taken⟩ := take_eq_ok.mp keyRead
  obtain rfl : utf8 blobKey = keyBytes := by
    unfold decodeBlobKey at key
    split at key
    · rename_i found
      cases key
      exact fromUtf8_eq_some.mp found
    · cases key
  refine ⟨DataRef.validate_eq_ok.mp valid, ?_⟩
  rw [(take_eq_ok.mp magicRead).2, readU8_eq_ok.mp versionRead, readU16_eq_ok.mp keyLenRead, taken,
    readU64_eq_ok.mp offsetRead, readU64_eq_ok.mp lengthRead, readU32_eq_ok.mp countRead,
    readFixed_eq_ok.mp chunkRead, readFixed_eq_ok.mp chunkDigestRead,
    readFixed_eq_ok.mp blobDigestRead]
  simp [dataRefBytes, width, UInt16.ofNat_toNat]

theorem decodeDataRef_spells (decoded : decodeDataRef bytes = .ok pointer) :
    encodeDataRef pointer = .ok bytes := by
  obtain ⟨⟨found, unread⟩, read, decoded⟩ := bind_eq_ok.mp decoded
  obtain ⟨finished, decoded⟩ := checked_eq_ok.mp decoded
  cases decoded
  obtain rfl : unread = [] := by simpa using finished
  obtain ⟨valid, rfl⟩ := decodeDataRefPrefix_spells read
  rw [List.append_nil]
  exact encodeDataRef_eq_ok.mpr ⟨valid, rfl⟩

theorem readDataRefs_spells {expected missing : Nat} {input rest : Bytes}
    (read : readDataRefs expected missing input = .ok (pointers, rest)) :
    pointers.length = missing ∧
      ∃ bytes, encodeDataRefs pointers = .ok bytes ∧ input = bytes ++ rest := by
  induction missing generalizing pointers input with
  | zero =>
      cases read
      exact ⟨rfl, [], rfl, rfl⟩
  | succ missing ih =>
      unfold readDataRefs at read
      split at read
      · cases read
      · obtain ⟨pointer, _, first, read⟩ := bind_reads read
        obtain ⟨others, _, remaining, read⟩ := bind_reads read
        cases read
        obtain ⟨valid, rfl⟩ := decodeDataRefPrefix_spells first
        obtain ⟨counted, bytes, encoded, rfl⟩ := ih remaining
        refine ⟨by rw [List.length_cons, counted], dataRefBytes pointer ++ bytes, ?_, by simp⟩
        have written := encodeDataRef_eq_ok.mpr ⟨valid, rfl⟩
        exact bind_eq_ok.mpr ⟨_, written, bind_eq_ok.mpr ⟨_, encoded, rfl⟩⟩

theorem readBatchHeader_spells {input rest : Bytes} {expected : Nat}
    (read : readBatchHeader input = .ok (expected, rest)) :
    0 < expected ∧ expected < 2 ^ 16 ∧ input = referenceBatchMagic ++ ([referenceBatchVersion] ++
      (putU16 (UInt16.ofNat expected) ++ rest)) := by
  obtain ⟨_, _, long, read⟩ := bind_reads read
  obtain ⟨magic, _, magicRead, read⟩ := bind_reads read
  obtain ⟨_, _, magicCheck, read⟩ := bind_reads read
  obtain ⟨version, _, versionRead, read⟩ := bind_reads read
  obtain ⟨_, _, versionCheck, read⟩ := bind_reads read
  obtain ⟨count, _, countRead, read⟩ := bind_reads read
  obtain ⟨_, _, countCheck, read⟩ := bind_reads read
  cases read
  obtain ⟨-, rfl⟩ := available_eq_ok.mp long
  obtain ⟨isMagic, rfl⟩ := require_eq_ok.mp magicCheck
  obtain ⟨isVersion, rfl⟩ := require_eq_ok.mp versionCheck
  obtain ⟨nonzero, rfl⟩ := require_eq_ok.mp countCheck
  obtain rfl : magic = referenceBatchMagic := of_decide_eq_true isMagic
  obtain rfl : version = referenceBatchVersion := of_decide_eq_true isVersion
  have positive : 0 < count.toNat := by
    apply Nat.pos_of_ne_zero
    intro zero
    exact of_decide_eq_true nonzero (UInt16.toNat_inj.mp zero)
  refine ⟨positive, count.toNat_lt, ?_⟩
  rw [(take_eq_ok.mp magicRead).2, readU8_eq_ok.mp versionRead, readU16_eq_ok.mp countRead,
    UInt16.ofNat_toNat]
  rfl

theorem encodeReferenceBatch_of_members {members : Bytes} (nonempty : pointers ≠ [])
    (small : pointers.length < 2 ^ 16) (encoded : encodeDataRefs pointers = .ok members) :
    encodeReferenceBatch pointers = .ok (referenceBatchMagic ++ ([referenceBatchVersion] ++
      (putU16 (UInt16.ofNat pointers.length) ++ members))) := by
  refine checked_eq_ok.mpr ⟨by simpa using nonempty, checked_eq_ok.mpr ⟨by omega, ?_⟩⟩
  exact bind_eq_ok.mpr ⟨_, encoded, rfl⟩

theorem decodeReferenceBatch_spells (decoded : decodeReferenceBatch bytes = .ok pointers) :
    encodeReferenceBatch pointers = .ok bytes := by
  obtain ⟨⟨expected, members⟩, headed, decoded⟩ := bind_eq_ok.mp decoded
  obtain ⟨⟨found, unread⟩, read, decoded⟩ := bind_eq_ok.mp decoded
  obtain ⟨finished, decoded⟩ := checked_eq_ok.mp decoded
  cases decoded
  obtain rfl : unread = [] := by simpa using finished
  obtain ⟨positive, small, rfl⟩ := readBatchHeader_spells headed
  obtain ⟨rfl, body, encoded, rfl⟩ := readDataRefs_spells read
  rw [List.append_nil]
  exact encodeReferenceBatch_of_members (List.length_pos_iff.mp positive) small encoded

theorem decodeLogPayload_dataRef_iff :
    decodeLogPayload bytes = .ok (.dataRef pointer) ↔ encodeDataRef pointer = .ok bytes := by
  constructor
  · intro decoded
    obtain ⟨-, decoded⟩ := checked_eq_ok.mp decoded
    split at decoded
    · obtain ⟨found, read, decoded⟩ := bind_eq_ok.mp decoded
      cases decoded
      exact decodeDataRef_spells read
    · split at decoded
      · obtain ⟨found, -, decoded⟩ := bind_eq_ok.mp decoded
        cases decoded
      · split at decoded <;> cases decoded
  · exact decodeLogPayload_dataRef

theorem decodeLogPayload_referenceBatch_iff :
    decodeLogPayload bytes = .ok (.referenceBatch pointers) ↔
      encodeReferenceBatch pointers = .ok bytes := by
  constructor
  · intro decoded
    obtain ⟨-, decoded⟩ := checked_eq_ok.mp decoded
    split at decoded
    · obtain ⟨found, -, decoded⟩ := bind_eq_ok.mp decoded
      cases decoded
    · split at decoded
      · obtain ⟨found, read, decoded⟩ := bind_eq_ok.mp decoded
        cases decoded
        exact decodeReferenceBatch_spells read
      · split at decoded <;> cases decoded
  · exact decodeLogPayload_referenceBatch

theorem encodeDataRefs_valid (valid : ∀ pointer ∈ pointers, pointer.validate = .ok ()) :
    ∃ bytes, encodeDataRefs pointers = .ok bytes := by
  induction pointers with
  | nil => exact ⟨[], rfl⟩
  | cons pointer rest ih =>
      obtain ⟨first, others⟩ := List.forall_mem_cons.mp valid
      obtain ⟨bytes, encoded⟩ := ih others
      have written := encodeDataRef_eq_ok.mpr ⟨DataRef.validate_eq_ok.mp first, rfl⟩
      exact ⟨_, bind_eq_ok.mpr ⟨_, written, bind_eq_ok.mpr ⟨_, encoded, rfl⟩⟩⟩

/-- The payloads of the log: valid pointers and batches of them can be written, a payload is a
pointer or a batch exactly when it is written for it, and sealed chunks are neither. -/
theorem decodeLogPayload_exact [Digests] :
    (∀ pointer : DataRef, pointer.validate = .ok () → ∃ bytes, encodeDataRef pointer = .ok bytes) ∧
      (∀ pointers : List DataRef, pointers ≠ [] → pointers.length ≤ 65535 →
        (∀ pointer ∈ pointers, pointer.validate = .ok ()) →
          ∃ bytes, encodeReferenceBatch pointers = .ok bytes) ∧
      (∀ bytes pointer, decodeLogPayload bytes = .ok (.dataRef pointer) ↔
        encodeDataRef pointer = .ok bytes) ∧
      (∀ bytes pointers, decodeLogPayload bytes = .ok (.referenceBatch pointers) ↔
        encodeReferenceBatch pointers = .ok bytes) ∧
      (∀ bytes pointer, decodeDataRef bytes = .ok pointer → encodeDataRef pointer = .ok bytes) ∧
      (∀ bytes pointers, decodeReferenceBatch bytes = .ok pointers →
        encodeReferenceBatch pointers = .ok bytes) ∧
      ∀ header frames result, sealChunk header frames = .ok result →
        decodeLogPayload result.bytes = .ok (.inlineChunk result.bytes) := by
  refine ⟨?_, ?_, fun _ _ => decodeLogPayload_dataRef_iff,
    fun _ _ => decodeLogPayload_referenceBatch_iff, fun _ _ => decodeDataRef_spells,
    fun _ _ => decodeReferenceBatch_spells, ?_⟩
  · intro pointer valid
    exact ⟨_, encodeDataRef_eq_ok.mpr ⟨DataRef.validate_eq_ok.mp valid, rfl⟩⟩
  · intro pointers nonempty small valid
    obtain ⟨members, encoded⟩ := encodeDataRefs_valid valid
    exact ⟨_, encodeReferenceBatch_of_members nonempty (by omega) encoded⟩
  · intro header frames result success
    obtain ⟨bodies, index, layout, -, -, -, bytes⟩ := sealChunk_eq_ok success
    rw [bytes]
    exact decodeLogPayload_sealedBytes header layout index _

/-- A pointer at the first bytes of an object. -/
def smallPointer : DataRef where
  blobKey := "blobs/v1/abc"
  offset := 0
  length := 64
  recordCount := 3
  chunkId := ⟨repeated 16 7⟩
  chunkDigest := ⟨repeated 32 8⟩
  blobDigest := ⟨repeated 32 9⟩

theorem decodeLogPayload_exact_small : ∃ (_ : Digests) (bytes batch : Bytes),
    decodeLogPayload bytes = .ok (.dataRef smallPointer) ∧
      decodeLogPayload batch = .ok (.referenceBatch [smallPointer, smallPointer]) := by
  have valid : smallPointer.validate = .ok () := by decide
  obtain ⟨single, batched, pointer, batch, -⟩ := @decodeLogPayload_exact sampleDigests
  obtain ⟨bytes, written⟩ := single smallPointer valid
  obtain ⟨members, together⟩ := batched [smallPointer, smallPointer] (by simp) (by simp)
    (by simp [valid])
  exact ⟨sampleDigests, bytes, members, (pointer _ _).mpr written, (batch _ _).mpr together⟩

end Scripture
