import Scripture.Authority.Record

set_option autoImplicit false

/- The Canon fence: the owner of a verse, in three format versions. Which one is written follows
from the optional fields that are present. -/
namespace Scripture

open ByteFormat ByteFormat.Reader

inductive CanonFenceError where
  | truncated
  | badMagic
  | unsupportedVersion (version : UInt8)
  | unknownOwnerTag (tag : UInt8)
  | endpointNotUtf8
  | emptyEndpoint
  | endpointTooLong (actual maximum : Nat)
  | controlCharacterInEndpoint
  | trailingBytes
  | revisionMismatch (fenceRevision stateRevision : UInt64)
  | invalidWriterTerm
  | unknownSequencerTag (tag : UInt8)
  deriving DecidableEq

/-- A route a node advertises. -/
structure OwnerEndpoint where
  text : String
  nonempty : text ≠ ""
  short : (utf8 text).length ≤ 1024
  plain : text.toList.any isControl = false

instance : DecidableEq OwnerEndpoint := fun left right =>
  decidable_of_iff (left.text = right.text) (by cases left; cases right; simp)

def OwnerEndpoint.new (text : String) : Except CanonFenceError OwnerEndpoint :=
  if nonempty : text ≠ "" then
    if short : (utf8 text).length ≤ 1024 then
      if plain : text.toList.any isControl = false then .ok ⟨text, nonempty, short, plain⟩
      else .error .controlCharacterInEndpoint
    else .error (.endpointTooLong (utf8 text).length 1024)
  else .error .emptyEndpoint

theorem OwnerEndpoint.new_eq_ok {text : String} {endpoint : OwnerEndpoint} :
    OwnerEndpoint.new text = .ok endpoint ↔ endpoint.text = text := by
  constructor
  · intro accepted
    unfold OwnerEndpoint.new at accepted
    split at accepted
    · split at accepted
      · split at accepted
        · cases accepted
          rfl
        · cases accepted
      · cases accepted
    · cases accepted
  · rintro rfl
    unfold OwnerEndpoint.new
    rw [dif_pos endpoint.nonempty, dif_pos endpoint.short, dif_pos endpoint.plain]

structure OwnedSequencerBinding where
  epoch : FixedBytes 16
  sequencerEndpoint : OwnerEndpoint
  deriving DecidableEq

inductive CanonOwner where
  | unowned
  | owned (ownerId : OwnerId) (endpoint : OwnerEndpoint)
      (sequencer : Option OwnedSequencerBinding) (writerTerm : Option WriterTerm)
  deriving DecidableEq

def CanonOwner.ownerId : CanonOwner → Option OwnerId
  | .unowned => none
  | .owned ownerId _ _ _ => some ownerId

structure CanonFence where
  revision : UInt64
  journalId : JournalId
  verseId : VerseId
  owner : CanonOwner
  deriving DecidableEq

/-- "SCNF". -/
def fenceMagic : Bytes := [0x53, 0x43, 0x4e, 0x46]
def fenceVersionLegacy : UInt8 := 1
def fenceVersionV2 : UInt8 := 2
def fenceVersionV3 : UInt8 := 3
def unownedTag : UInt8 := 0
def ownedTag : UInt8 := 1

def encodeEndpoint (endpoint : OwnerEndpoint) : Bytes :=
  putU16 (UInt16.ofNat (utf8 endpoint.text).length) ++ utf8 endpoint.text

def encodeSequencer (binding : OwnedSequencerBinding) : Bytes :=
  binding.epoch.val ++ encodeEndpoint binding.sequencerEndpoint

/-- The format an owner is written in. -/
def CanonOwner.formatVersion : CanonOwner → UInt8
  | .unowned => fenceVersionV3
  | .owned _ _ sequencer writerTerm =>
      if writerTerm.isSome then fenceVersionV3
      else match sequencer with
        | none => fenceVersionLegacy
        | some _ => fenceVersionV2

/-- What follows the endpoint of an owner. -/
def encodeOwnedTail (sequencer : Option OwnedSequencerBinding) (writerTerm : Option WriterTerm) :
    Bytes :=
  match writerTerm, sequencer with
  | some term, some binding => putU64 term.get ++ ([1] ++ encodeSequencer binding)
  | some term, none => putU64 term.get ++ [0]
  | none, some binding => encodeSequencer binding
  | none, none => []

def encodeOwner : CanonOwner → Bytes
  | .unowned => [unownedTag]
  | .owned ownerId endpoint sequencer writerTerm =>
      [ownedTag] ++ (ownerId.bytes.val ++ (encodeEndpoint endpoint ++
        encodeOwnedTail sequencer writerTerm))

def CanonFence.encode (fence : CanonFence) : Bytes :=
  fenceMagic ++ ([fence.owner.formatVersion] ++ (putU64 fence.revision ++
    (fence.journalId.bytes.val ++ (fence.verseId.bytes.val ++ encodeOwner fence.owner))))

def decodeEndpointText (bytes : Bytes) : Except CanonFenceError String :=
  match fromUtf8 bytes with
  | none => .error .endpointNotUtf8
  | some text => .ok text

def readEndpointText : Reader CanonFenceError String := do
  let length ← readU16 .truncated
  let bytes ← Reader.take .truncated length.toNat
  Reader.lift (decodeEndpointText bytes)

def readSequencer : Reader CanonFenceError OwnedSequencerBinding := do
  let epoch ← readFixed .truncated 16
  let text ← readEndpointText
  let endpoint ← Reader.lift (OwnerEndpoint.new text)
  return ⟨epoch, endpoint⟩

def decodeTerm (value : UInt64) : Except CanonFenceError WriterTerm :=
  (WriterTerm.new value).mapError fun _ => .invalidWriterTerm

/-- What follows the endpoint, by version. The first version ends there. -/
def readOwnedTail (version : UInt8) :
    Reader CanonFenceError (Option OwnedSequencerBinding × Option WriterTerm) :=
  if version = fenceVersionV3 then do
    let value ← readU64 .truncated
    let term ← Reader.lift (decodeTerm value)
    let presence ← readU8 .truncated
    if presence = 1 then
      let binding ← readSequencer
      return (some binding, some term)
    else if presence = 0 then return (none, some term)
    else Reader.fail (.unknownSequencerTag presence)
  else if version = fenceVersionV2 then do
    let binding ← readSequencer
    return (some binding, none)
  else fun input => if input.isEmpty then .ok ((none, none), input) else .error .trailingBytes

def readOwner (version : UInt8) : Reader CanonFenceError CanonOwner := do
  let tag ← readU8 .truncated
  if tag = unownedTag then return .unowned
  else if tag = ownedTag then
    let ownerId ← readFixed .truncated 16
    let text ← readEndpointText
    let (sequencer, writerTerm) ← readOwnedTail version
    let endpoint ← Reader.lift (OwnerEndpoint.new text)
    return .owned ⟨ownerId⟩ endpoint sequencer writerTerm
  else Reader.fail (.unknownOwnerTag tag)

def readFence : Reader CanonFenceError CanonFence := do
  let magic ← Reader.take .truncated 4
  Reader.require (magic = fenceMagic) .badMagic
  let version ← readU8 .truncated
  Reader.require (version = fenceVersionLegacy ∨ version = fenceVersionV2 ∨
    version = fenceVersionV3) (.unsupportedVersion version)
  let revision ← readU64 .truncated
  let journal ← readFixed .truncated 16
  let verse ← readFixed .truncated 16
  let owner ← readOwner version
  return ⟨revision, ⟨journal⟩, ⟨verse⟩, owner⟩

def CanonFence.decode (bytes : Bytes) : Except CanonFenceError CanonFence := do
  let (fence, unread) ← readFence bytes
  if ¬ unread.isEmpty then throw .trailingBytes
  return fence

theorem decodeEndpointText_eq_ok {bytes : Bytes} {text : String} :
    decodeEndpointText bytes = .ok text ↔ utf8 text = bytes := by
  unfold decodeEndpointText
  rw [← fromUtf8_eq_some]
  cases fromUtf8 bytes <;> simp

theorem readEndpointText_reads (endpoint : OwnerEndpoint) :
    Reads readEndpointText (encodeEndpoint endpoint) endpoint.text := by
  have short := endpoint.short
  have length := toNat_u16OfNat (by omega : (utf8 endpoint.text).length < 2 ^ 16)
  refine Reads.bind (readU16_reads _ _) ?_
  rw [length]
  exact Reads.last (Reads.take _ _) (Reads.lift (decodeEndpointText_eq_ok.mpr rfl))

theorem readSequencer_reads (binding : OwnedSequencerBinding) :
    Reads readSequencer (encodeSequencer binding) binding := by
  refine Reads.bind (readFixed_reads _ _) ?_
  refine Reads.last (readEndpointText_reads _) ?_
  exact Reads.after (Reads.lift (OwnerEndpoint.new_eq_ok.mpr rfl)) (Reads.pure _)

theorem decodeTerm_eq_ok {value : UInt64} {term : WriterTerm} :
    decodeTerm value = .ok term ↔ term.get = value := by
  unfold decodeTerm
  rw [mapError_eq_ok]
  constructor
  · exact WriterTerm.new_eq_ok
  · rintro rfl
    exact term.new_get

theorem readOwnedTail_all (ownerId : OwnerId) (endpoint : OwnerEndpoint)
    (sequencer : Option OwnedSequencerBinding) (writerTerm : Option WriterTerm) :
    readOwnedTail (CanonOwner.owned ownerId endpoint sequencer writerTerm).formatVersion
      (encodeOwnedTail sequencer writerTerm) = .ok ((sequencer, writerTerm), []) := by
  cases writerTerm with
  | none =>
      cases sequencer with
      | none => rfl
      | some binding =>
          have read : Reads (readOwnedTail fenceVersionV2) (encodeSequencer binding)
              (some binding, none) := Reads.map _ (readSequencer_reads binding)
          exact read.all
  | some term =>
      have accepted := decodeTerm_eq_ok.mpr (rfl : term.get = term.get)
      cases sequencer with
      | none =>
          have read : Reads (readOwnedTail fenceVersionV3) (putU64 term.get ++ [0])
              (none, some term) := by
            refine Reads.bind (readU64_reads _ _) ?_
            refine Reads.after (Reads.lift accepted) ?_
            exact Reads.last (readU8_reads _ 0) (Reads.pure _)
          exact read.all
      | some binding =>
          have read : Reads (readOwnedTail fenceVersionV3)
              (putU64 term.get ++ ([1] ++ encodeSequencer binding)) (some binding, some term) := by
            refine Reads.bind (readU64_reads _ _) ?_
            refine Reads.after (Reads.lift accepted) ?_
            exact Reads.bind (readU8_reads _ 1) (Reads.map _ (readSequencer_reads binding))
          exact read.all

theorem readOwner_all (owner : CanonOwner) :
    readOwner owner.formatVersion (encodeOwner owner) = .ok (owner, []) := by
  cases owner with
  | unowned => rfl
  | owned ownerId endpoint sequencer writerTerm =>
      refine Reads.andThen (readU8_reads _ ownedTag) ?_
      refine Reads.andThen (readFixed_reads _ _) ?_
      refine Reads.andThen (readEndpointText_reads _) ?_
      have tail := readOwnedTail_all ownerId endpoint sequencer writerTerm
      have accepted := OwnerEndpoint.new_eq_ok.mpr (rfl : endpoint.text = endpoint.text)
      show Reader.bind (readOwnedTail _) _ _ = _
      simp only [Reader.bind, tail]
      exact Reads.andThen_nil (Reads.lift accepted) rfl

theorem CanonOwner.formatVersion_known (owner : CanonOwner) :
    owner.formatVersion = fenceVersionLegacy ∨ owner.formatVersion = fenceVersionV2 ∨
      owner.formatVersion = fenceVersionV3 := by
  cases owner with
  | unowned => exact .inr (.inr rfl)
  | owned ownerId endpoint sequencer writerTerm =>
      cases writerTerm with
      | some term => exact .inr (.inr rfl)
      | none =>
          cases sequencer with
          | none => exact .inl rfl
          | some binding => exact .inr (.inl rfl)

theorem CanonFence.decode_encode (fence : CanonFence) :
    CanonFence.decode fence.encode = .ok fence := by
  have read : readFence fence.encode = .ok (fence, []) := by
    refine Reads.andThen (Reads.take_of_length _ rfl) ?_
    refine Reads.andThen_nil (Reads.require (decide_eq_true rfl)) ?_
    refine Reads.andThen (readU8_reads _ _) ?_
    refine Reads.andThen_nil (Reads.require (decide_eq_true fence.owner.formatVersion_known)) ?_
    refine Reads.andThen (readU64_reads _ _) ?_
    refine Reads.andThen (readFixed_reads _ _) ?_
    refine Reads.andThen (readFixed_reads _ _) ?_
    show Reader.bind (readOwner _) _ _ = _
    simp only [Reader.bind, readOwner_all]
    rfl
  exact bind_eq_ok.mpr ⟨_, read, checked_eq_ok.mpr ⟨by simp, rfl⟩⟩

theorem readEndpointText_spells {input rest : Bytes} {text : String} {endpoint : OwnerEndpoint}
    (read : readEndpointText input = .ok (text, rest)) (accepted : endpoint.text = text) :
    input = encodeEndpoint endpoint ++ rest := by
  obtain ⟨length, _, lengthRead, read⟩ := bind_reads read
  obtain ⟨bytes, _, taken, lifted⟩ := bind_reads read
  obtain ⟨decoded, rfl⟩ := lift_eq_ok.mp lifted
  obtain ⟨width, split⟩ := take_eq_ok.mp taken
  obtain rfl := decodeEndpointText_eq_ok.mp decoded
  rw [readU16_eq_ok.mp lengthRead, split, encodeEndpoint, accepted, width, UInt16.ofNat_toNat]
  exact (List.append_assoc _ _ _).symm

theorem readSequencer_spells {input rest : Bytes} {binding : OwnedSequencerBinding}
    (read : readSequencer input = .ok (binding, rest)) :
    input = encodeSequencer binding ++ rest := by
  obtain ⟨epoch, _, epochRead, read⟩ := bind_reads read
  obtain ⟨text, _, textRead, read⟩ := bind_reads read
  obtain ⟨endpoint, _, lifted, read⟩ := bind_reads read
  cases read
  obtain ⟨accepted, rfl⟩ := lift_eq_ok.mp lifted
  have named := OwnerEndpoint.new_eq_ok.mp accepted
  rw [readFixed_eq_ok.mp epochRead, readEndpointText_spells textRead named]
  exact (List.append_assoc _ _ _).symm

theorem readOwnedTail_spells {version : UInt8} {input rest : Bytes}
    {sequencer : Option OwnedSequencerBinding} {writerTerm : Option WriterTerm}
    (known : version = fenceVersionLegacy ∨ version = fenceVersionV2 ∨ version = fenceVersionV3)
    (read : readOwnedTail version input = .ok ((sequencer, writerTerm), rest))
    (ownerId : OwnerId) (endpoint : OwnerEndpoint) :
    version = (CanonOwner.owned ownerId endpoint sequencer writerTerm).formatVersion ∧
      input = encodeOwnedTail sequencer writerTerm ++ rest := by
  rcases known with rfl | rfl | rfl
  · change (if input.isEmpty then Except.ok ((none, none), input) else .error _) = _ at read
    split at read
    · cases read
      exact ⟨rfl, rfl⟩
    · cases read
  · obtain ⟨binding, _, bindingRead, read⟩ := bind_reads read
    cases read
    exact ⟨rfl, readSequencer_spells bindingRead⟩
  · obtain ⟨value, _, valueRead, read⟩ := bind_reads read
    obtain ⟨term, _, lifted, read⟩ := bind_reads read
    obtain ⟨presence, _, presenceRead, chosen⟩ := bind_reads read
    obtain ⟨accepted, rfl⟩ := lift_eq_ok.mp lifted
    obtain rfl := decodeTerm_eq_ok.mp accepted
    rw [readU64_eq_ok.mp valueRead, readU8_eq_ok.mp presenceRead]
    split at chosen
    · rename_i present
      obtain ⟨binding, _, bindingRead, chosen⟩ := bind_reads chosen
      cases chosen
      rw [readSequencer_spells bindingRead, present]
      exact ⟨rfl, by simp [encodeOwnedTail]⟩
    · split at chosen
      · rename_i absent
        cases chosen
        rw [absent]
        exact ⟨rfl, by simp [encodeOwnedTail]⟩
      · cases chosen

theorem readOwner_spells {version : UInt8} {input rest : Bytes} {owner : CanonOwner}
    (known : version = fenceVersionLegacy ∨ version = fenceVersionV2 ∨ version = fenceVersionV3)
    (read : readOwner version input = .ok (owner, rest)) (owned : owner ≠ .unowned) :
    version = owner.formatVersion ∧ input = encodeOwner owner ++ rest := by
  obtain ⟨tag, _, tagRead, chosen⟩ := bind_reads read
  rw [readU8_eq_ok.mp tagRead]
  split at chosen
  · cases chosen
    exact absurd rfl owned
  · split at chosen
    · rename_i isOwned
      obtain ⟨ownerId, _, ownerRead, chosen⟩ := bind_reads chosen
      obtain ⟨text, _, textRead, chosen⟩ := bind_reads chosen
      obtain ⟨⟨sequencer, writerTerm⟩, _, tailRead, chosen⟩ := bind_reads chosen
      obtain ⟨endpoint, _, lifted, chosen⟩ := bind_reads chosen
      cases chosen
      obtain ⟨accepted, rfl⟩ := lift_eq_ok.mp lifted
      have named := OwnerEndpoint.new_eq_ok.mp accepted
      obtain ⟨same, tail⟩ := readOwnedTail_spells known tailRead ⟨ownerId⟩ endpoint
      refine ⟨same, ?_⟩
      rw [readFixed_eq_ok.mp ownerRead, readEndpointText_spells textRead named, tail, isOwned]
      simp [encodeOwner]
    · cases chosen

theorem CanonFence.encode_of_decode {bytes : Bytes} {fence : CanonFence}
    (decoded : CanonFence.decode bytes = .ok fence) (owned : fence.owner ≠ .unowned) :
    fence.encode = bytes := by
  obtain ⟨⟨found, unread⟩, read, decoded⟩ := bind_eq_ok.mp decoded
  obtain ⟨finished, decoded⟩ := checked_eq_ok.mp decoded
  cases decoded
  obtain rfl : unread = [] := by simpa using finished
  obtain ⟨magic, _, magicRead, read⟩ := bind_reads read
  obtain ⟨_, _, magicCheck, read⟩ := bind_reads read
  obtain ⟨version, _, versionRead, read⟩ := bind_reads read
  obtain ⟨_, _, versionCheck, read⟩ := bind_reads read
  obtain ⟨revision, _, revisionRead, read⟩ := bind_reads read
  obtain ⟨journal, _, journalRead, read⟩ := bind_reads read
  obtain ⟨verse, _, verseRead, read⟩ := bind_reads read
  obtain ⟨owner, _, ownerRead, read⟩ := bind_reads read
  cases read
  obtain ⟨isMagic, rfl⟩ := require_eq_ok.mp magicCheck
  obtain ⟨known, rfl⟩ := require_eq_ok.mp versionCheck
  obtain rfl : magic = fenceMagic := of_decide_eq_true isMagic
  have spelled : version = owner.formatVersion ∧ _ = encodeOwner owner ++ [] :=
    readOwner_spells (of_decide_eq_true known) ownerRead owned
  rw [(take_eq_ok.mp magicRead).2, readU8_eq_ok.mp versionRead, readU64_eq_ok.mp revisionRead,
    readFixed_eq_ok.mp journalRead, readFixed_eq_ok.mp verseRead, spelled.2, spelled.1]
  simp [CanonFence.encode]

/-- Both formats are exact: a record and a fence are read back from their bytes, and the bytes that
are accepted are those that are written. A fence without an owner is accepted in all three versions
and written in the last. -/
theorem authorityCodecs_exact [LogletNames] :
    (∀ record : ServingAuthorityRecord, record.formatVersion = authorityFormatVersion →
      (∀ bytes, record.encode = .ok bytes → ServingAuthorityRecord.decode bytes = .ok record) ∧
        ((∀ loglet ∈ record.state.loglets, (utf8 loglet.text).length < 2 ^ 16) →
          ∃ bytes, record.encode = .ok bytes)) ∧
    (∀ bytes (record : ServingAuthorityRecord), ServingAuthorityRecord.decode bytes = .ok record →
      record.encode = .ok bytes) ∧
    (∀ fence : CanonFence, CanonFence.decode fence.encode = .ok fence) ∧
    (∀ bytes fence, CanonFence.decode bytes = .ok fence → fence.owner ≠ .unowned →
      fence.encode = bytes) := by
  refine ⟨?_, ?_, CanonFence.decode_encode, ?_⟩
  · intro record current
    exact ⟨fun bytes encoded => ServingAuthorityRecord.decode_encode current encoded,
      ServingAuthorityRecord.encode_succeeds⟩
  · intro bytes record decoded
    exact ServingAuthorityRecord.encode_of_decode decoded
  · intro bytes fence decoded owned
    exact CanonFence.encode_of_decode decoded owned

def sampleEndpoint : OwnerEndpoint := ⟨"tcp://a:1", by decide, by decide, by decide⟩

/-- A fence of the second version. -/
def boundFence : CanonFence :=
  ⟨7, ⟨⟨List.replicate 16 1, rfl⟩⟩, ⟨⟨List.replicate 16 2, rfl⟩⟩,
    .owned ⟨⟨List.replicate 16 3, rfl⟩⟩ sampleEndpoint
      (some ⟨⟨List.replicate 16 4, rfl⟩, "tcp://b:1", by decide, by decide, by decide⟩) none⟩

theorem authorityCodecs_exact_bound :
    let names := nonemptyNames
    let record : ServingAuthorityRecord :=
      .new ⟨boundFence.journalId, boundFence.verseId⟩ (.serving ⟨⟨⟨List.replicate 16 3, rfl⟩⟩,
        ⟨1, by decide⟩, ⟨4, @LogletId.mk names "g0" rfl, 9, ⟨List.replicate 32 5, rfl⟩⟩⟩
          ⟨"tcp://a:1", by decide, by decide⟩)
    (∃ bytes, record.encode = .ok bytes ∧ ServingAuthorityRecord.decode bytes = .ok record) ∧
      boundFence.owner.formatVersion = fenceVersionV2 ∧
      CanonFence.decode boundFence.encode = .ok boundFence := by
  intro names record
  obtain ⟨records, _, fences, _⟩ := @authorityCodecs_exact names
  obtain ⟨back, written⟩ := records record rfl
  obtain ⟨bytes, encoded⟩ := written (by
    intro loglet member
    rw [List.mem_singleton.mp member]
    decide)
  exact ⟨⟨bytes, encoded, back bytes encoded⟩, rfl, fences boundFence⟩

end Scripture
