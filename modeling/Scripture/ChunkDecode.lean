import Scripture.ChunkFormat

set_option autoImplicit false

/- Decoding of the immutable chunk. A cursor of the source is the list of bytes it has not yet
taken, so `position == len` is "nothing left". -/
namespace Scripture

open ByteFormat

structure ChunkIndex where
  header : ChunkHeader
  frames : List FrameRef
  deriving DecidableEq

def readId : Reader ChunkError (FixedBytes 16) := readFixed .truncated 16

def readLenBytes : Reader ChunkError Bytes := do
  let length ← readU32 .truncated
  Reader.take .truncated length.toNat

def readHeader : Reader ChunkError (ChunkHeader × ChunkLayout) := do
  let magic ← Reader.take .truncated 4
  Reader.require (magic = headerMagic) .invalidMagic
  let major ← readU8 .truncated
  Reader.require (major = majorVersion) (.unsupportedMajor major)
  let minor ← readU8 .truncated
  Reader.require (minor ≤ minorVersion) (.unsupportedMinor minor)
  let chunkId ← readId
  let cohortId ← readId
  let generation ← readU64 .truncated
  let writerId ← readId
  let indexOffset ← readU32 .truncated
  let indexLen ← readU32 .truncated
  let framesOffset ← readU32 .truncated
  let framesLen ← readU32 .truncated
  let frameCount ← readU32 .truncated
  let createdAtMicros ← readU64 .truncated
  let indexCrc ← readU32 .truncated
  return (⟨⟨chunkId⟩, ⟨cohortId⟩, generation, ⟨writerId⟩, createdAtMicros⟩,
    ⟨indexOffset, indexLen, framesOffset, framesLen, frameCount, indexCrc⟩)

def readSubmissionRef : Reader ChunkError SubmissionRef := do
  let producerId ← readId
  let producerEpoch ← readU32 .truncated
  let sequence ← readU64 .truncated
  let firstRecord ← readU32 .truncated
  let recordCount ← readU32 .truncated
  return ⟨⟨producerId⟩, producerEpoch, sequence, firstRecord, recordCount⟩

/-- The canonical order is strict: no journal twice. -/
def follows (previous : Option (JournalId × RecordOffset)) (journalId : JournalId)
    (baseOffset : RecordOffset) : Bool :=
  match previous with
  | none => true
  | some (lastJournal, lastBase) =>
      lastJournal.value < journalId.value ∨
        (lastJournal.value = journalId.value ∧ lastBase.toNat < baseOffset.toNat)

/-- One index entry, checked against the entry before it and the end of the region before it. -/
def readIndexEntry (framesEnd : Nat) (previous : Option (JournalId × RecordOffset))
    (regionEnd : Nat) : Reader ChunkError FrameRef := do
  let journalId ← readId
  let baseOffset ← readU64 .truncated
  let recordCount ← readU32 .truncated
  let frameOffset ← readU32 .truncated
  let frameLen ← readU32 .truncated
  let frameCrc ← readU32 .truncated
  let submissionCount ← readU32 .truncated
  Reader.require (follows previous ⟨journalId⟩ ⟨baseOffset⟩) .nonCanonicalIndex
  Reader.require (frameOffset.toNat = regionEnd ∧ frameOffset.toNat + frameLen.toNat ≤ framesEnd)
    .invalidFrameRegions
  let submissions ← Reader.many readSubmissionRef submissionCount.toNat
  Reader.lift (validateSubmissionTiling submissions recordCount.toNat)
  return ⟨⟨journalId⟩, ⟨baseOffset⟩, recordCount, frameOffset, frameLen, frameCrc, submissions⟩

/-- The entry loop of `decode_index`: the entries and the end of the last region. -/
def readIndexEntries (framesEnd : Nat) :
    Nat → Option (JournalId × RecordOffset) → Nat → Reader ChunkError (List FrameRef × Nat)
  | 0, _, regionEnd => return ([], regionEnd)
  | count + 1, previous, regionEnd => do
      let entry ← readIndexEntry framesEnd previous regionEnd
      let (rest, last) ← readIndexEntries framesEnd count
        (some (entry.journalId, entry.baseOffset)) (entry.frameOffset.toNat + entry.frameLen.toNat)
      return (entry :: rest, last)

/-- Decodes the header and index from the prefix of a chunk. -/
def decodeIndex [Digests] (front : Bytes) : Except ChunkError ChunkIndex := do
  let ((header, layout), _) ← readHeader front
  if layout.indexOffset.toNat ≠ headerLen then throw .corruptIndex
  let indexEnd := layout.indexOffset.toNat + layout.indexLen.toNat
  if layout.framesOffset.toNat ≠ indexEnd then throw .corruptIndex
  let some indexBytes := slice front layout.indexOffset.toNat indexEnd | throw .truncated
  if Digests.crc32c indexBytes ≠ layout.indexCrc then throw .corruptIndex
  let framesEnd := layout.framesOffset.toNat + layout.framesLen.toNat
  let ((frames, regionEnd), unread) ← readIndexEntries framesEnd layout.frameCount.toNat none
    layout.framesOffset.toNat indexBytes
  if ¬ unread.isEmpty then throw .corruptIndex
  if regionEnd ≠ framesEnd then throw .invalidFrameRegions
  if frames.isEmpty then throw .emptyChunk
  return { header, frames }

/-- The value of one attribute, by its type tag. -/
def decodeAttributeValue (tag : UInt8) (bytes : Bytes) : Except ChunkError AttributeValue :=
  if tag = stringTag then
    match fromUtf8 bytes with
    | some text => return .string text
    | none => throw .invalidUtf8
  else if tag = i64Tag then
    if bytes.length = 8 then return .i64 (UInt64.ofNat (bigEndianValue bytes)).toInt64
    else throw .truncated
  else if tag = boolTag then
    match bytes with
    | [value] =>
        if value = 0 then return .bool false
        else if value = 1 then return .bool true
        else throw (.invalidBool value)
    | _ => throw .truncated
  else throw (.unsupportedAttributeType tag)

def decodeKey (bytes : Bytes) : Except ChunkError String :=
  match fromUtf8 bytes with
  | some key => return key
  | none => throw .invalidUtf8

/-- The attribute loop of one record. -/
def readAttributes : Nat → Option String → AttributeMap → Reader ChunkError AttributeMap
  | 0, _, attributes => return attributes
  | count + 1, previous, attributes => do
      let keyBytes ← readLenBytes
      let key ← Reader.lift (decodeKey keyBytes)
      Reader.require (∀ last ∈ previous, last < key) .nonCanonicalAttributes
      let tag ← readU8 .truncated
      let valueBytes ← readLenBytes
      let value ← Reader.lift (decodeAttributeValue tag valueBytes)
      Reader.require (attributes.insert key value).1.isNone .nonCanonicalAttributes
      readAttributes count (some key) (attributes.insert key value).2

def readRecord : Reader ChunkError Record := do
  let count ← readU32 .truncated
  let attributes ← readAttributes count.toNat none .empty
  let payload ← readLenBytes
  return { attributes, payload }

/-- Decodes one frame's records from exactly its own bytes. -/
def decodeFrame [Digests] (entry : FrameRef) (frameBytes : Bytes) :
    Except ChunkError (List Record) := do
  if Digests.crc32c frameBytes ≠ entry.frameCrc then throw (.corruptFrame entry.journalId)
  let (count, body) ← readU32 .truncated frameBytes
  if count ≠ entry.recordCount then throw (.corruptFrame entry.journalId)
  let (records, unread) ← Reader.many readRecord count.toNat body
  if ¬ unread.isEmpty then throw .trailingBytes
  return records

def decodeFrames [Digests] (bytes : Bytes) : List FrameRef → Except ChunkError (List Frame)
  | [] => return []
  | entry :: rest => do
      let start := entry.frameOffset.toNat
      let some frameBytes := slice bytes start (start + entry.frameLen.toNat) | throw .truncated
      let records ← decodeFrame entry frameBytes
      let frames ← decodeFrames bytes rest
      return ⟨entry.journalId, entry.baseOffset, records, entry.submissions⟩ :: frames

def readTrailer : Reader ChunkError (UInt32 × UInt32) := do
  let indexOffset ← readU32 .truncated
  let indexLen ← readU32 .truncated
  let magic ← Reader.take .truncated 4
  Reader.require (magic = trailerMagic) .invalidMagic
  return (indexOffset, indexLen)

/-- Decodes and fully validates a complete chunk. -/
def decodeChunk [Digests] (bytes : Bytes) : Except ChunkError Chunk := do
  if bytes.length < headerLen + trailerLen then throw .truncated
  let trailerStart := bytes.length - trailerLen
  let ((trailerIndexOffset, trailerIndexLen), _) ← readTrailer (bytes.drop trailerStart)
  let index ← decodeIndex bytes
  let indexLen := (index.frames.map fun frame =>
    indexEntryFixedLen + frame.submissions.length * submissionRefLen).sum
  if trailerIndexOffset.toNat ≠ headerLen ∨ trailerIndexLen.toNat ≠ indexLen then
    throw .corruptIndex
  let some last := index.frames.getLast? | throw .emptyChunk
  if last.frameOffset.toNat + last.frameLen.toNat ≠ trailerStart then throw .trailingBytes
  let frames ← decodeFrames bytes index.frames
  return { header := index.header, frames }

end Scripture
