import Scripture.DataRef

set_option autoImplicit false

/- The Serving Authority record: who may serve a journal, under which term and on which generation
of its log, and the transition in progress. The record is the application fence of the root
register, in a canonical binary form. -/
namespace Scripture

open ByteFormat ByteFormat.Reader

structure OwnerId where
  bytes : FixedBytes 16
  deriving DecidableEq

structure VerseId where
  bytes : FixedBytes 16
  deriving DecidableEq

structure TransitionId where
  bytes : FixedBytes 16
  deriving DecidableEq

/-- The names of loglets come from a crate outside the repository: what its constructor accepts,
or the text of its refusal. -/
class LogletNames where
  check : String → Except String Unit

/-- Every name but the empty one. -/
@[reducible] def nonemptyNames : LogletNames where
  check name := if name = "" then .error "empty loglet id" else .ok ()

structure LogletId [LogletNames] where
  text : String
  accepted : LogletNames.check text = .ok ()
  deriving DecidableEq

inductive ServingAuthorityError where
  | invalidWriterTerm
  | stringTooLong (actual maximum : Nat)
  | controlCharacterInText
  | badMagic
  | unsupportedVersion (expected actual : UInt32)
  | unknownTag (tag : UInt8)
  | invalidLogletId (message : String)
  | truncated
  | trailingBytes
  | malformedState (message : String)
  deriving DecidableEq

/-- `char::is_control`. -/
def isControl (character : Char) : Bool :=
  character.toNat < 0x20 ∨ (0x7f ≤ character.toNat ∧ character.toNat < 0xa0)

/-- Advisory route text. -/
structure RouteHint where
  text : String
  short : (utf8 text).length ≤ 1024
  plain : text.toList.any isControl = false
  deriving DecidableEq

def RouteHint.new (text : String) : Except ServingAuthorityError RouteHint :=
  if short : (utf8 text).length ≤ 1024 then
    if plain : text.toList.any isControl = false then .ok ⟨text, short, plain⟩
    else .error .controlCharacterInText
  else .error (.stringTooLong (utf8 text).length 1024)

theorem RouteHint.new_text (hint : RouteHint) : RouteHint.new hint.text = .ok hint := by
  unfold RouteHint.new
  rw [dif_pos hint.short, dif_pos hint.plain]

/-- The term of a writer's authority, never zero. -/
structure WriterTerm where
  get : UInt64
  nonzero : get ≠ 0
  deriving DecidableEq

def WriterTerm.new (value : UInt64) : Except ServingAuthorityError WriterTerm :=
  if nonzero : value ≠ 0 then .ok ⟨value, nonzero⟩ else .error .invalidWriterTerm

theorem WriterTerm.new_get (term : WriterTerm) : WriterTerm.new term.get = .ok term := by
  unfold WriterTerm.new
  rw [dif_pos term.nonzero]

structure GenerationDescriptor [LogletNames] where
  logletId : LogletId
  start : UInt64
  deriving DecidableEq

/-- What the root register of a log holds: the revision, the generations, the last one active, and
the bytes of the application's fence. -/
structure VirtualLogState [LogletNames] where
  revision : UInt64
  generations : List GenerationDescriptor
  applicationFence : Bytes
  deriving DecidableEq

def VirtualLogState.active [LogletNames] (state : VirtualLogState) : Option GenerationDescriptor :=
  state.generations.getLast?

structure JournalGenerationRef [LogletNames] where
  virtualLogRevision : UInt64
  activeLogletId : LogletId
  activeStart : UInt64
  canonFenceDigest : FixedBytes 32
  deriving DecidableEq

section names

variable [LogletNames]

namespace JournalGenerationRef

/-- `u16::try_from(len).unwrap_or(u16::MAX)`. -/
def logletLen (loglet : LogletId) : UInt16 :=
  UInt16.ofNat (min (utf8 loglet.text).length (2 ^ 16 - 1))

/-- Binds a generation, with the digest of what names it. -/
def fromActiveGeneration [Digests] (revision : UInt64) (loglet : LogletId) (start : UInt64) :
    JournalGenerationRef where
  virtualLogRevision := revision
  activeLogletId := loglet
  activeStart := start
  canonFenceDigest := Digests.blake3
    (putU64 revision ++ putU16 (logletLen loglet) ++ utf8 loglet.text ++ putU64 start)

def fromVirtualLogState [Digests] (state : VirtualLogState) :
    Except ServingAuthorityError JournalGenerationRef :=
  match state.active with
  | none => throw (.malformedState "VirtualLogState has no active generation descriptor")
  | some active => return fromActiveGeneration state.revision active.logletId active.start

end JournalGenerationRef

inductive TransitionKind where
  | plannedHandoff
  | recoveryPromotion
  deriving DecidableEq

inductive FoundationPrecondition where
  | empty
  | expected (generation : JournalGenerationRef)
  deriving DecidableEq

structure TransitionIntent where
  transitionId : TransitionId
  kind : TransitionKind
  precondition : FoundationPrecondition
  candidateOwnerId : OwnerId
  nextWriterTerm : WriterTerm
  deriving DecidableEq

structure WriterAuthority where
  ownerId : OwnerId
  writerTerm : WriterTerm
  generationRef : JournalGenerationRef
  deriving DecidableEq

inductive AuthorityState where
  | unassigned
  | transitioning (intent : TransitionIntent)
  | serving (authority : WriterAuthority) (routeHint : RouteHint)
  | reconciliationRequired (intent : TransitionIntent)
      (observedGeneration : Option JournalGenerationRef)
  deriving DecidableEq

structure AuthorityKey where
  journalId : JournalId
  verseId : VerseId
  deriving DecidableEq

structure ServingAuthorityRecord where
  formatVersion : UInt32
  key : AuthorityKey
  state : AuthorityState
  deriving DecidableEq

/-- "SCAR". -/
def authorityMagic : Bytes := [0x53, 0x43, 0x41, 0x52]
def authorityFormatVersion : UInt32 := 3

def ServingAuthorityRecord.new (key : AuthorityKey) (state : AuthorityState) :
    ServingAuthorityRecord :=
  ⟨authorityFormatVersion, key, state⟩

def encodeGenerationRef (generation : JournalGenerationRef) :
    Except ServingAuthorityError Bytes := do
  let text := utf8 generation.activeLogletId.text
  if 2 ^ 16 ≤ text.length then throw (.stringTooLong text.length (2 ^ 16 - 1))
  return putU64 generation.virtualLogRevision ++ (putU16 (UInt16.ofNat text.length) ++ (text ++
    (putU64 generation.activeStart ++ generation.canonFenceDigest.val)))

def encodePrecondition : FoundationPrecondition → Except ServingAuthorityError Bytes
  | .empty => return [0]
  | .expected generation => do return [1] ++ (← encodeGenerationRef generation)

def TransitionKind.tag : TransitionKind → UInt8
  | .plannedHandoff => 0
  | .recoveryPromotion => 1

def encodeIntent (intent : TransitionIntent) : Except ServingAuthorityError Bytes := do
  let precondition ← encodePrecondition intent.precondition
  return intent.transitionId.bytes.val ++ ([intent.kind.tag] ++ (precondition ++
    (intent.candidateOwnerId.bytes.val ++ putU64 intent.nextWriterTerm.get)))

def encodeObserved : Option JournalGenerationRef → Except ServingAuthorityError Bytes
  | none => return [0]
  | some generation => do return [1] ++ (← encodeGenerationRef generation)

def encodeState : AuthorityState → Except ServingAuthorityError Bytes
  | .unassigned => return [0]
  | .transitioning intent => do return [1] ++ (← encodeIntent intent)
  | .serving authority routeHint => do
      let generation ← encodeGenerationRef authority.generationRef
      let route := utf8 routeHint.text
      if 2 ^ 16 ≤ route.length then throw (.stringTooLong route.length (2 ^ 16 - 1))
      return [2] ++ (authority.ownerId.bytes.val ++ (putU64 authority.writerTerm.get ++
        (generation ++ (putU16 (UInt16.ofNat route.length) ++ route))))
  | .reconciliationRequired intent observed => do
      let intent ← encodeIntent intent
      let observed ← encodeObserved observed
      return [3] ++ (intent ++ observed)

def ServingAuthorityRecord.encode (record : ServingAuthorityRecord) :
    Except ServingAuthorityError Bytes := do
  let state ← encodeState record.state
  return authorityMagic ++ (putU32 record.formatVersion ++ (record.key.journalId.bytes.val ++
    (record.key.verseId.bytes.val ++ state)))

def decodeLogletId (bytes : Bytes) : Except ServingAuthorityError LogletId :=
  match fromUtf8 bytes with
  | none => .error (.malformedState "Loglet ID not UTF-8")
  | some text =>
      match accepted : LogletNames.check text with
      | .error message => .error (.invalidLogletId message)
      | .ok () => .ok ⟨text, accepted⟩

def decodeGenerationRef : Reader ServingAuthorityError JournalGenerationRef := do
  let revision ← readU64 .truncated
  let length ← readU16 .truncated
  let text ← Reader.take .truncated length.toNat
  let loglet ← Reader.lift (decodeLogletId text)
  let start ← readU64 .truncated
  let digest ← readFixed .truncated 32
  return ⟨revision, loglet, start, digest⟩

def decodePrecondition : Reader ServingAuthorityError FoundationPrecondition := do
  let tag ← readU8 .truncated
  if tag = 0 then return .empty
  else if tag = 1 then
    let generation ← decodeGenerationRef
    return .expected generation
  else Reader.fail (.unknownTag tag)

def decodeKind (tag : UInt8) : Except ServingAuthorityError TransitionKind :=
  if tag = 0 then .ok .plannedHandoff
  else if tag = 1 then .ok .recoveryPromotion
  else .error (.unknownTag tag)

def decodeIntent : Reader ServingAuthorityError TransitionIntent := do
  let transition ← readFixed .truncated 16
  let tag ← readU8 .truncated
  let kind ← Reader.lift (decodeKind tag)
  let precondition ← decodePrecondition
  let candidate ← readFixed .truncated 16
  let value ← readU64 .truncated
  let term ← Reader.lift (WriterTerm.new value)
  return ⟨⟨transition⟩, kind, precondition, ⟨candidate⟩, term⟩

def decodeRoute (bytes : Bytes) : Except ServingAuthorityError RouteHint :=
  match fromUtf8 bytes with
  | none => .error (.malformedState "RouteHint not UTF-8")
  | some text => RouteHint.new text

def decodeServing : Reader ServingAuthorityError AuthorityState := do
  let owner ← readFixed .truncated 16
  let value ← readU64 .truncated
  let term ← Reader.lift (WriterTerm.new value)
  let generation ← decodeGenerationRef
  let length ← readU16 .truncated
  let text ← Reader.take .truncated length.toNat
  let route ← Reader.lift (decodeRoute text)
  return .serving ⟨⟨owner⟩, term, generation⟩ route

def decodeObserved : Reader ServingAuthorityError (Option JournalGenerationRef) := do
  let tag ← readU8 .truncated
  if tag = 0 then return none
  else if tag = 1 then
    let generation ← decodeGenerationRef
    return some generation
  else Reader.fail (.unknownTag tag)

def decodeState : Reader ServingAuthorityError AuthorityState := do
  let tag ← readU8 .truncated
  if tag = 0 then return .unassigned
  else if tag = 1 then
    let intent ← decodeIntent
    return .transitioning intent
  else if tag = 2 then decodeServing
  else if tag = 3 then
    let intent ← decodeIntent
    let observed ← decodeObserved
    return .reconciliationRequired intent observed
  else Reader.fail (.unknownTag tag)

def decodeRecord : Reader ServingAuthorityError ServingAuthorityRecord := do
  let magic ← Reader.take .truncated 4
  Reader.require (magic = authorityMagic) .badMagic
  let version ← readU32 .truncated
  Reader.require (version = authorityFormatVersion)
    (.unsupportedVersion authorityFormatVersion version)
  let journal ← readFixed .truncated 16
  let verse ← readFixed .truncated 16
  let state ← decodeState
  return ⟨version, ⟨⟨journal⟩, ⟨verse⟩⟩, state⟩

def ServingAuthorityRecord.decode (bytes : Bytes) :
    Except ServingAuthorityError ServingAuthorityRecord := do
  let (record, unread) ← decodeRecord bytes
  if ¬ unread.isEmpty then throw .trailingBytes
  return record

/-- One-record rule: the record on the root itself, serving, with this owner on the root's own
generation, and a process that holds an unsealed writable. -/
def ServingAuthorityRecord.isEffectiveWriter [Digests] (record : ServingAuthorityRecord)
    (witnessed : VirtualLogState) (localOwner : OwnerId) (isWritable isSealed : Bool) : Bool :=
  if isSealed ∨ ¬ isWritable then false
  else match ServingAuthorityRecord.decode witnessed.applicationFence with
    | .error _ => false
    | .ok fromRoot =>
        if fromRoot ≠ record then false
        else match record.state with
          | .serving authority _ =>
              if authority.ownerId ≠ localOwner then false
              else match JournalGenerationRef.fromVirtualLogState witnessed with
                | .error _ => false
                | .ok generation => decide (authority.generationRef = generation)
          | _ => false

theorem decodeLogletId_utf8 (loglet : LogletId) :
    decodeLogletId (utf8 loglet.text) = .ok loglet := by
  unfold decodeLogletId
  rw [fromUtf8_utf8]
  dsimp only
  split
  · rename_i refused
    rw [loglet.accepted] at refused
    cases refused
  · rfl

variable {generation : JournalGenerationRef} {bytes input rest : Bytes}

theorem decodeGenerationRef_reads (encoded : encodeGenerationRef generation = .ok bytes) :
    Reads decodeGenerationRef bytes generation := by
  obtain ⟨short, encoded⟩ := checked_eq_ok.mp encoded
  cases encoded
  have length := toNat_u16OfNat (by omega : (utf8 generation.activeLogletId.text).length < 2 ^ 16)
  refine Reads.bind (readU64_reads _ _) ?_
  refine Reads.bind (readU16_reads _ _) ?_
  rw [length]
  refine Reads.bind (Reads.take _ _) ?_
  refine Reads.after (Reads.lift (decodeLogletId_utf8 _)) ?_
  refine Reads.bind (readU64_reads _ _) ?_
  exact Reads.map _ (readFixed_reads _ _)

theorem decodePrecondition_reads {precondition : FoundationPrecondition}
    (encoded : encodePrecondition precondition = .ok bytes) :
    Reads decodePrecondition bytes precondition := by
  cases precondition with
  | empty =>
      cases encoded
      exact Reads.bind (readU8_reads _ 0) (Reads.pure _)
  | expected generation =>
      obtain ⟨body, written, encoded⟩ := bind_eq_ok.mp encoded
      cases encoded
      exact Reads.bind (readU8_reads _ 1) (Reads.map _ (decodeGenerationRef_reads written))

theorem decodeObserved_reads {observed : Option JournalGenerationRef}
    (encoded : encodeObserved observed = .ok bytes) : Reads decodeObserved bytes observed := by
  cases observed with
  | none =>
      cases encoded
      exact Reads.bind (readU8_reads _ 0) (Reads.pure _)
  | some generation =>
      obtain ⟨body, written, encoded⟩ := bind_eq_ok.mp encoded
      cases encoded
      exact Reads.bind (readU8_reads _ 1) (Reads.map _ (decodeGenerationRef_reads written))

omit [LogletNames] in
theorem decodeKind_tag (kind : TransitionKind) : decodeKind kind.tag = .ok kind := by
  cases kind <;> rfl

theorem decodeIntent_reads {intent : TransitionIntent} (encoded : encodeIntent intent = .ok bytes) :
    Reads decodeIntent bytes intent := by
  obtain ⟨precondition, written, encoded⟩ := bind_eq_ok.mp encoded
  cases encoded
  refine Reads.bind (readFixed_reads _ _) ?_
  refine Reads.bind (readU8_reads _ _) ?_
  refine Reads.after (Reads.lift (decodeKind_tag _)) ?_
  refine Reads.bind (decodePrecondition_reads written) ?_
  refine Reads.bind (readFixed_reads _ _) ?_
  refine Reads.last (readU64_reads _ _) ?_
  exact Reads.after (Reads.lift (WriterTerm.new_get _)) (Reads.pure _)

theorem decodeState_reads {state : AuthorityState} (encoded : encodeState state = .ok bytes) :
    Reads decodeState bytes state := by
  cases state with
  | unassigned =>
      cases encoded
      exact Reads.bind (readU8_reads _ 0) (Reads.pure _)
  | transitioning intent =>
      obtain ⟨body, written, encoded⟩ := bind_eq_ok.mp encoded
      cases encoded
      exact Reads.bind (readU8_reads _ 1) (Reads.map _ (decodeIntent_reads written))
  | serving authority route =>
      obtain ⟨generation, written, encoded⟩ := bind_eq_ok.mp encoded
      obtain ⟨short, encoded⟩ := checked_eq_ok.mp encoded
      cases encoded
      have length := toNat_u16OfNat (by omega : (utf8 route.text).length < 2 ^ 16)
      have hint : decodeRoute (utf8 route.text) = .ok route := by
        unfold decodeRoute
        rw [fromUtf8_utf8]
        exact route.new_text
      refine Reads.bind (readU8_reads _ 2) ?_
      refine Reads.bind (readFixed_reads _ _) ?_
      refine Reads.bind (readU64_reads _ _) ?_
      refine Reads.after (Reads.lift (WriterTerm.new_get _)) ?_
      refine Reads.bind (decodeGenerationRef_reads written) ?_
      refine Reads.bind (readU16_reads _ _) ?_
      rw [length]
      refine Reads.last (Reads.take _ _) ?_
      exact Reads.after (Reads.lift hint) (Reads.pure _)
  | reconciliationRequired intent observed =>
      obtain ⟨body, written, encoded⟩ := bind_eq_ok.mp encoded
      obtain ⟨tail, followed, encoded⟩ := bind_eq_ok.mp encoded
      cases encoded
      refine Reads.bind (readU8_reads _ 3) ?_
      refine Reads.bind (decodeIntent_reads written) ?_
      exact Reads.map _ (decodeObserved_reads followed)

variable {record : ServingAuthorityRecord}

theorem ServingAuthorityRecord.decode_encode
    (current : record.formatVersion = authorityFormatVersion)
    (encoded : record.encode = .ok bytes) :
    ServingAuthorityRecord.decode bytes = .ok record := by
  obtain ⟨state, written, encoded⟩ := bind_eq_ok.mp encoded
  cases encoded
  have read : Reads decodeRecord (authorityMagic ++ (putU32 record.formatVersion ++
      (record.key.journalId.bytes.val ++ (record.key.verseId.bytes.val ++ state)))) record := by
    refine Reads.bind (Reads.take_of_length _ rfl) ?_
    refine Reads.after (Reads.require (by simp)) ?_
    refine Reads.bind (readU32_reads _ _) ?_
    refine Reads.after (Reads.require (by simp [current])) ?_
    refine Reads.bind (readFixed_reads _ _) ?_
    refine Reads.bind (readFixed_reads _ _) ?_
    exact Reads.map _ (decodeState_reads written)
  exact bind_eq_ok.mpr ⟨_, Reads.all read, checked_eq_ok.mpr ⟨by simp, rfl⟩⟩

theorem decodeLogletId_eq_ok {loglet : LogletId} :
    decodeLogletId bytes = .ok loglet ↔ utf8 loglet.text = bytes := by
  constructor
  · intro decoded
    unfold decodeLogletId at decoded
    split at decoded
    · cases decoded
    · rename_i text found
      split at decoded
      · cases decoded
      · cases decoded
        exact fromUtf8_eq_some.mp found
  · rintro rfl
    exact decodeLogletId_utf8 loglet

theorem decodeGenerationRef_spells (read : decodeGenerationRef input = .ok (generation, rest)) :
    ∃ bytes, encodeGenerationRef generation = .ok bytes ∧ input = bytes ++ rest := by
  obtain ⟨revision, _, revisionRead, read⟩ := bind_reads read
  obtain ⟨length, _, lengthRead, read⟩ := bind_reads read
  obtain ⟨text, _, textRead, read⟩ := bind_reads read
  obtain ⟨loglet, _, logletRead, read⟩ := bind_reads read
  obtain ⟨start, _, startRead, read⟩ := bind_reads read
  obtain ⟨digest, _, digestRead, read⟩ := bind_reads read
  cases read
  obtain ⟨decoded, rfl⟩ := lift_eq_ok.mp logletRead
  obtain ⟨width, taken⟩ := take_eq_ok.mp textRead
  obtain rfl := decodeLogletId_eq_ok.mp decoded
  have short : ¬ 2 ^ 16 ≤ (utf8 loglet.text).length := by
    have := length.toNat_lt
    omega
  refine ⟨_, checked_eq_ok.mpr ⟨short, rfl⟩, ?_⟩
  rw [readU64_eq_ok.mp revisionRead, readU16_eq_ok.mp lengthRead, taken,
    readU64_eq_ok.mp startRead, readFixed_eq_ok.mp digestRead]
  simp [width, UInt16.ofNat_toNat]

theorem decodePrecondition_spells {precondition : FoundationPrecondition}
    (read : decodePrecondition input = .ok (precondition, rest)) :
    ∃ bytes, encodePrecondition precondition = .ok bytes ∧ input = bytes ++ rest := by
  obtain ⟨tag, _, tagRead, chosen⟩ := bind_reads read
  obtain rfl := readU8_eq_ok.mp tagRead
  clear read tagRead
  split at chosen
  · rename_i isEmpty
    cases chosen
    exact ⟨[0], rfl, by rw [isEmpty]; rfl⟩
  · split at chosen
    · rename_i isExpected
      obtain ⟨generation, _, generationRead, chosen⟩ := bind_reads chosen
      cases chosen
      obtain ⟨bytes, encoded, rfl⟩ := decodeGenerationRef_spells generationRead
      exact ⟨_, bind_eq_ok.mpr ⟨_, encoded, rfl⟩, by rw [isExpected]; rfl⟩
    · cases chosen

theorem decodeObserved_spells {observed : Option JournalGenerationRef}
    (read : decodeObserved input = .ok (observed, rest)) :
    ∃ bytes, encodeObserved observed = .ok bytes ∧ input = bytes ++ rest := by
  obtain ⟨tag, _, tagRead, chosen⟩ := bind_reads read
  obtain rfl := readU8_eq_ok.mp tagRead
  clear read tagRead
  split at chosen
  · rename_i isNone
    cases chosen
    exact ⟨[0], rfl, by rw [isNone]; rfl⟩
  · split at chosen
    · rename_i isSome
      obtain ⟨generation, _, generationRead, chosen⟩ := bind_reads chosen
      cases chosen
      obtain ⟨bytes, encoded, rfl⟩ := decodeGenerationRef_spells generationRead
      exact ⟨_, bind_eq_ok.mpr ⟨_, encoded, rfl⟩, by rw [isSome]; rfl⟩
    · cases chosen

omit [LogletNames] in
theorem decodeKind_eq_ok {tag : UInt8} {kind : TransitionKind}
    (decoded : decodeKind tag = .ok kind) : kind.tag = tag := by
  unfold decodeKind at decoded
  split at decoded
  · rename_i isPlanned
    cases decoded
    exact isPlanned.symm
  · split at decoded
    · rename_i isRecovery
      cases decoded
      exact isRecovery.symm
    · cases decoded

omit [LogletNames] in
theorem WriterTerm.new_eq_ok {value : UInt64} {term : WriterTerm}
    (accepted : WriterTerm.new value = .ok term) : term.get = value := by
  unfold WriterTerm.new at accepted
  split at accepted
  · cases accepted
    rfl
  · cases accepted

theorem decodeIntent_spells {intent : TransitionIntent}
    (read : decodeIntent input = .ok (intent, rest)) :
    ∃ bytes, encodeIntent intent = .ok bytes ∧ input = bytes ++ rest := by
  obtain ⟨transition, _, transitionRead, read⟩ := bind_reads read
  obtain ⟨tag, _, tagRead, read⟩ := bind_reads read
  obtain ⟨kind, _, kindRead, read⟩ := bind_reads read
  obtain ⟨precondition, _, preconditionRead, read⟩ := bind_reads read
  obtain ⟨candidate, _, candidateRead, read⟩ := bind_reads read
  obtain ⟨value, _, valueRead, read⟩ := bind_reads read
  obtain ⟨term, _, termRead, read⟩ := bind_reads read
  cases read
  obtain ⟨kindDecoded, rfl⟩ := lift_eq_ok.mp kindRead
  obtain ⟨termAccepted, rfl⟩ := lift_eq_ok.mp termRead
  obtain ⟨bytes, encoded, rfl⟩ := decodePrecondition_spells preconditionRead
  refine ⟨_, bind_eq_ok.mpr ⟨_, encoded, rfl⟩, ?_⟩
  rw [readFixed_eq_ok.mp transitionRead, readU8_eq_ok.mp tagRead, readFixed_eq_ok.mp candidateRead,
    readU64_eq_ok.mp valueRead, ← decodeKind_eq_ok kindDecoded, ← WriterTerm.new_eq_ok termAccepted]
  simp

omit [LogletNames] in
theorem decodeRoute_eq_ok {route : RouteHint} (decoded : decodeRoute bytes = .ok route) :
    utf8 route.text = bytes := by
  unfold decodeRoute RouteHint.new at decoded
  split at decoded
  · cases decoded
  · rename_i text found
    split at decoded
    · split at decoded
      · cases decoded
        exact fromUtf8_eq_some.mp found
      · cases decoded
    · cases decoded

theorem decodeServing_spells {state : AuthorityState}
    (read : decodeServing input = .ok (state, rest)) :
    ∃ bytes, encodeState state = .ok ([2] ++ bytes) ∧ input = bytes ++ rest := by
  obtain ⟨owner, _, ownerRead, read⟩ := bind_reads read
  obtain ⟨value, _, valueRead, read⟩ := bind_reads read
  obtain ⟨term, _, termRead, read⟩ := bind_reads read
  obtain ⟨generation, _, generationRead, read⟩ := bind_reads read
  obtain ⟨length, _, lengthRead, read⟩ := bind_reads read
  obtain ⟨text, _, textRead, read⟩ := bind_reads read
  obtain ⟨route, _, routeRead, read⟩ := bind_reads read
  cases read
  obtain ⟨termAccepted, rfl⟩ := lift_eq_ok.mp termRead
  obtain ⟨routeDecoded, rfl⟩ := lift_eq_ok.mp routeRead
  obtain ⟨width, taken⟩ := take_eq_ok.mp textRead
  obtain rfl := decodeRoute_eq_ok routeDecoded
  obtain ⟨bytes, encoded, rfl⟩ := decodeGenerationRef_spells generationRead
  have short : ¬ 2 ^ 16 ≤ (utf8 route.text).length := by
    have := length.toNat_lt
    omega
  refine ⟨_, bind_eq_ok.mpr ⟨_, encoded, checked_eq_ok.mpr ⟨short, rfl⟩⟩, ?_⟩
  rw [readFixed_eq_ok.mp ownerRead, readU64_eq_ok.mp valueRead, readU16_eq_ok.mp lengthRead, taken,
    ← WriterTerm.new_eq_ok termAccepted]
  simp [width, UInt16.ofNat_toNat]

theorem decodeState_spells {state : AuthorityState} (read : decodeState input = .ok (state, rest)) :
    ∃ bytes, encodeState state = .ok bytes ∧ input = bytes ++ rest := by
  obtain ⟨tag, _, tagRead, chosen⟩ := bind_reads read
  obtain rfl := readU8_eq_ok.mp tagRead
  clear read tagRead
  split at chosen
  · rename_i isUnassigned
    cases chosen
    exact ⟨[0], rfl, by rw [isUnassigned]; rfl⟩
  · split at chosen
    · rename_i isTransitioning
      obtain ⟨intent, _, intentRead, chosen⟩ := bind_reads chosen
      cases chosen
      obtain ⟨bytes, encoded, rfl⟩ := decodeIntent_spells intentRead
      exact ⟨_, bind_eq_ok.mpr ⟨_, encoded, rfl⟩, by rw [isTransitioning]; rfl⟩
    · split at chosen
      · rename_i isServing
        obtain ⟨bytes, encoded, rfl⟩ := decodeServing_spells chosen
        exact ⟨_, encoded, by rw [isServing]; rfl⟩
      · split at chosen
        · rename_i isReconciliation
          obtain ⟨intent, _, intentRead, chosen⟩ := bind_reads chosen
          obtain ⟨observed, _, observedRead, chosen⟩ := bind_reads chosen
          cases chosen
          obtain ⟨bytes, encoded, rfl⟩ := decodeIntent_spells intentRead
          obtain ⟨tail, followed, rfl⟩ := decodeObserved_spells observedRead
          refine ⟨_, bind_eq_ok.mpr ⟨_, encoded, bind_eq_ok.mpr ⟨_, followed, rfl⟩⟩, ?_⟩
          rw [isReconciliation]
          simp
        · cases chosen

theorem ServingAuthorityRecord.encode_of_decode
    (decoded : ServingAuthorityRecord.decode bytes = .ok record) : record.encode = .ok bytes := by
  obtain ⟨⟨found, unread⟩, read, decoded⟩ := bind_eq_ok.mp decoded
  obtain ⟨finished, decoded⟩ := checked_eq_ok.mp decoded
  cases decoded
  obtain rfl : unread = [] := by simpa using finished
  obtain ⟨magic, _, magicRead, read⟩ := bind_reads read
  obtain ⟨_, _, magicCheck, read⟩ := bind_reads read
  obtain ⟨version, _, versionRead, read⟩ := bind_reads read
  obtain ⟨_, _, versionCheck, read⟩ := bind_reads read
  obtain ⟨journal, _, journalRead, read⟩ := bind_reads read
  obtain ⟨verse, _, verseRead, read⟩ := bind_reads read
  obtain ⟨state, _, stateRead, read⟩ := bind_reads read
  cases read
  obtain ⟨isMagic, rfl⟩ := require_eq_ok.mp magicCheck
  obtain ⟨-, rfl⟩ := require_eq_ok.mp versionCheck
  obtain rfl : magic = authorityMagic := of_decide_eq_true isMagic
  obtain ⟨body, encoded, rfl⟩ := decodeState_spells stateRead
  refine bind_eq_ok.mpr ⟨_, encoded, ?_⟩
  rw [(take_eq_ok.mp magicRead).2, readU32_eq_ok.mp versionRead, readFixed_eq_ok.mp journalRead,
    readFixed_eq_ok.mp verseRead]
  simp [Pure.pure, Except.pure]

/-- The loglets a state names. -/
def FoundationPrecondition.loglets : FoundationPrecondition → List LogletId
  | .empty => []
  | .expected generation => [generation.activeLogletId]

def AuthorityState.loglets : AuthorityState → List LogletId
  | .unassigned => []
  | .transitioning intent => intent.precondition.loglets
  | .serving authority _ => [authority.generationRef.activeLogletId]
  | .reconciliationRequired intent observed =>
      intent.precondition.loglets ++ (observed.map JournalGenerationRef.activeLogletId).toList

theorem encodeGenerationRef_succeeds
    (short : (utf8 generation.activeLogletId.text).length < 2 ^ 16) :
    ∃ bytes, encodeGenerationRef generation = .ok bytes :=
  ⟨_, checked_eq_ok.mpr ⟨by omega, rfl⟩⟩

theorem encodeIntent_succeeds {intent : TransitionIntent}
    (short : ∀ loglet ∈ intent.precondition.loglets, (utf8 loglet.text).length < 2 ^ 16) :
    ∃ bytes, encodeIntent intent = .ok bytes := by
  have written : ∃ bytes, encodePrecondition intent.precondition = .ok bytes := by
    cases given : intent.precondition with
    | empty => exact ⟨_, rfl⟩
    | expected generation =>
        rw [given] at short
        obtain ⟨bytes, encoded⟩ :=
          encodeGenerationRef_succeeds (short _ (List.mem_singleton_self _))
        exact ⟨_, bind_eq_ok.mpr ⟨_, encoded, rfl⟩⟩
  obtain ⟨bytes, encoded⟩ := written
  exact ⟨_, bind_eq_ok.mpr ⟨_, encoded, rfl⟩⟩

/-- Only the name of a loglet can be too long for a record. -/
theorem ServingAuthorityRecord.encode_succeeds
    (short : ∀ loglet ∈ record.state.loglets, (utf8 loglet.text).length < 2 ^ 16) :
    ∃ bytes, record.encode = .ok bytes := by
  have written : ∃ bytes, encodeState record.state = .ok bytes := by
    cases given : record.state with
    | unassigned => exact ⟨_, rfl⟩
    | transitioning intent =>
        rw [given] at short
        obtain ⟨bytes, encoded⟩ := encodeIntent_succeeds short
        exact ⟨_, bind_eq_ok.mpr ⟨_, encoded, rfl⟩⟩
    | serving authority route =>
        rw [given] at short
        obtain ⟨bytes, encoded⟩ :=
          encodeGenerationRef_succeeds (short _ (List.mem_singleton_self _))
        have hint := route.short
        exact ⟨_, bind_eq_ok.mpr ⟨_, encoded, checked_eq_ok.mpr ⟨by omega, rfl⟩⟩⟩
    | reconciliationRequired intent observed =>
        rw [given] at short
        obtain ⟨bytes, encoded⟩ := encodeIntent_succeeds fun loglet member =>
          short loglet (List.mem_append_left _ member)
        have followed : ∃ tail, encodeObserved observed = .ok tail := by
          cases observed with
          | none => exact ⟨_, rfl⟩
          | some generation =>
              obtain ⟨tail, written⟩ := encodeGenerationRef_succeeds
                (short _ (List.mem_append_right _ (List.mem_singleton_self _)))
              exact ⟨_, bind_eq_ok.mpr ⟨_, written, rfl⟩⟩
        obtain ⟨tail, followed⟩ := followed
        exact ⟨_, bind_eq_ok.mpr ⟨_, encoded, bind_eq_ok.mpr ⟨_, followed, rfl⟩⟩⟩
  obtain ⟨bytes, encoded⟩ := written
  exact ⟨_, bind_eq_ok.mpr ⟨_, encoded, rfl⟩⟩

end names

end Scripture
