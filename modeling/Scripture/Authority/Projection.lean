import Scripture.Authority.Gate

set_option autoImplicit false

/- The Canon fence that recovery and startup read off a root. A root that carries a serving
authority record is projected: a serving record becomes an owned fence, every other one an unowned
fence. The gate reads the same root by its own rule. -/
namespace Scripture

open ByteFormat ByteFormat.Reader

/-- The fence error a failure of the record is reported as. -/
def scarToCanonFenceError : ServingAuthorityError → CanonFenceError
  | .badMagic => .badMagic
  | .truncated | .trailingBytes => .truncated
  | .unsupportedVersion _ actual => .unsupportedVersion (UInt8.ofNat (min actual.toNat 255))
  | .controlCharacterInText | .stringTooLong _ _ => .emptyEndpoint
  | .invalidWriterTerm => .invalidWriterTerm
  | .unknownTag tag => .unknownOwnerTag tag
  | .invalidLogletId _ | .malformedState _ => .badMagic

theorem OwnerEndpoint.exists_new_iff (route : RouteHint) :
    (∃ endpoint, OwnerEndpoint.new route.text = .ok endpoint) ↔ route.text ≠ "" := by
  constructor
  · rintro ⟨endpoint, accepted⟩
    rw [← OwnerEndpoint.new_eq_ok.mp accepted]
    exact endpoint.nonempty
  · intro nonempty
    exact ⟨⟨route.text, nonempty, route.short, route.plain⟩, OwnerEndpoint.new_eq_ok.mpr rfl⟩

section names

variable [LogletNames] [Digests]

def CanonFence.fromServingAuthorityRoot (state : VirtualLogState) :
    Except CanonFenceError CanonFence := do
  let record ← (ServingAuthorityRecord.decode state.applicationFence).mapError
    scarToCanonFenceError
  match record.state with
  | .serving authority routeHint =>
      let generation ← (JournalGenerationRef.fromVirtualLogState state).mapError
        scarToCanonFenceError
      if authority.generationRef ≠ generation then
        throw (.revisionMismatch authority.generationRef.virtualLogRevision state.revision)
      let endpoint ← OwnerEndpoint.new routeHint.text
      return ⟨state.revision, record.key.journalId, record.key.verseId,
        .owned authority.ownerId endpoint none (some authority.writerTerm)⟩
  | .transitioning _ | .unassigned | .reconciliationRequired _ _ =>
      return ⟨state.revision, record.key.journalId, record.key.verseId, .unowned⟩

def CanonFence.fromVirtualLogState (state : VirtualLogState) :
    Except CanonFenceError CanonFence := do
  if authorityMagic.isPrefixOf state.applicationFence then
    CanonFence.fromServingAuthorityRoot state
  else
    let fence ← CanonFence.decode state.applicationFence
    if fence.revision ≠ state.revision then
      throw (.revisionMismatch fence.revision state.revision)
    return fence

omit [Digests] in
theorem ServingAuthorityRecord.magic_of_decode {record : ServingAuthorityRecord} {bytes : Bytes}
    (decoded : ServingAuthorityRecord.decode bytes = .ok record) :
    authorityMagic.isPrefixOf bytes = true := by
  have encoded := ServingAuthorityRecord.encode_of_decode decoded
  obtain ⟨state, -, encoded⟩ := bind_eq_ok.mp encoded
  cases encoded
  exact List.isPrefixOf_iff_prefix.mpr ⟨_, rfl⟩

/-- What an owned projection says of the root, and what it takes. -/
theorem CanonFence.fromServingAuthorityRoot_owned_iff {state : VirtualLogState} {fence : CanonFence}
    {owner : OwnerId} :
    (CanonFence.fromServingAuthorityRoot state = .ok fence ∧ fence.owner.ownerId = some owner) ↔
      ∃ record authority route endpoint,
        ServingAuthorityRecord.decode state.applicationFence = .ok record ∧
        record.state = .serving authority route ∧ authority.ownerId = owner ∧
        JournalGenerationRef.fromVirtualLogState state = .ok authority.generationRef ∧
        OwnerEndpoint.new route.text = .ok endpoint ∧
        fence = ⟨state.revision, record.key.journalId, record.key.verseId,
          .owned owner endpoint none (some authority.writerTerm)⟩ := by
  constructor
  · rintro ⟨projected, owned⟩
    obtain ⟨record, decoded, projected⟩ := bind_eq_ok.mp projected
    have decoded := mapError_eq_ok.mp decoded
    split at projected
    · rename_i authority route serving
      obtain ⟨generation, bound, projected⟩ := bind_eq_ok.mp projected
      have bound := mapError_eq_ok.mp bound
      obtain ⟨same, projected⟩ := checked_eq_ok.mp projected
      obtain ⟨endpoint, accepted, projected⟩ := bind_eq_ok.mp projected
      cases projected
      cases owned
      rw [← not_not.mp same] at bound
      exact ⟨record, authority, route, endpoint, decoded, serving, rfl, bound, accepted, rfl⟩
    all_goals
      cases projected
      cases owned
  · rintro ⟨record, authority, route, endpoint, decoded, serving, rfl, bound, accepted, rfl⟩
    refine ⟨bind_eq_ok.mpr ⟨record, mapError_eq_ok.mpr decoded, ?_⟩, rfl⟩
    rw [serving]
    refine bind_eq_ok.mpr ⟨_, mapError_eq_ok.mpr bound, checked_eq_ok.mpr ⟨not_not.mpr rfl, ?_⟩⟩
    exact bind_eq_ok.mpr ⟨endpoint, accepted, rfl⟩

/-- The gate and the projection agree about an owner. The rule of the gate holds only for the record
that the root itself decodes to. -/
structure ProjectionAgrees (state : VirtualLogState) (owner : OwnerId) : Prop where
  admits : ∀ record : ServingAuthorityRecord,
    record.isEffectiveWriter state owner true false = true →
    ∃ authority route endpoint, record.state = .serving authority route ∧
      CanonFence.fromVirtualLogState state = .ok ⟨state.revision, record.key.journalId,
        record.key.verseId, .owned owner endpoint none (some authority.writerTerm)⟩
  grounds : authorityMagic.isPrefixOf state.applicationFence = true →
    ∀ fence, CanonFence.fromVirtualLogState state = .ok fence → fence.owner.ownerId = some owner →
    ∃ record : ServingAuthorityRecord,
      ServingAuthorityRecord.decode state.applicationFence = .ok record ∧
      record.isEffectiveWriter state owner true false = true

theorem CanonFence.fromVirtualLogState_scar {state : VirtualLogState}
    (scar : authorityMagic.isPrefixOf state.applicationFence = true) :
    CanonFence.fromVirtualLogState state = CanonFence.fromServingAuthorityRoot state := by
  unfold CanonFence.fromVirtualLogState
  rw [if_pos scar]

/-- A route hint may be empty, an owner's endpoint may not. The gate and the projection agree but
for an effective writer that published an empty route. -/
theorem projectionAgrees_iff (state : VirtualLogState) (owner : OwnerId) :
    ProjectionAgrees state owner ↔
      ∀ (record : ServingAuthorityRecord) (authority : WriterAuthority) (route : RouteHint),
        record.isEffectiveWriter state owner true false = true →
        record.state = .serving authority route → route.text ≠ "" := by
  constructor
  · intro agrees record authority route effective serving
    obtain ⟨_, _, endpoint, -, projected⟩ := agrees.admits record effective
    obtain ⟨-, -, decoded, -⟩ := isEffectiveWriter_iff.mp effective
    rw [CanonFence.fromVirtualLogState_scar (ServingAuthorityRecord.magic_of_decode decoded)]
      at projected
    obtain ⟨found, _, published, accepted, again, names, -, -, new, -⟩ :=
      CanonFence.fromServingAuthorityRoot_owned_iff.mp ⟨projected, rfl⟩
    rw [decoded] at again
    cases again
    rw [serving] at names
    cases names
    exact (OwnerEndpoint.exists_new_iff route).mp ⟨accepted, new⟩
  · intro routed
    constructor
    · intro record effective
      obtain ⟨-, -, decoded, authority, route, serving, owned, bound⟩ :=
        isEffectiveWriter_iff.mp effective
      obtain ⟨endpoint, accepted⟩ :=
        (OwnerEndpoint.exists_new_iff route).mpr (routed record authority route effective serving)
      refine ⟨authority, route, endpoint, serving, ?_⟩
      rw [CanonFence.fromVirtualLogState_scar (ServingAuthorityRecord.magic_of_decode decoded)]
      exact (CanonFence.fromServingAuthorityRoot_owned_iff.mpr
        ⟨record, authority, route, endpoint, decoded, serving, owned, bound, accepted, rfl⟩).1
    · intro scar fence projected owned
      rw [CanonFence.fromVirtualLogState_scar scar] at projected
      obtain ⟨record, authority, route, -, decoded, serving, named, bound, -, -⟩ :=
        CanonFence.fromServingAuthorityRoot_owned_iff.mp ⟨projected, owned⟩
      exact ⟨record, decoded, isEffectiveWriter_iff.mpr
        ⟨rfl, rfl, decoded, authority, route, serving, named, bound⟩⟩

/-- Any route can be published with the generation of a root. -/
theorem exists_effectiveWriter (loglet : LogletId) (short : (utf8 loglet.text).length < 2 ^ 16)
    (owner : OwnerId) (route : RouteHint) :
    ∃ (state : VirtualLogState) (record : ServingAuthorityRecord) (authority : WriterAuthority),
      record.state = .serving authority route ∧
      record.isEffectiveWriter state owner true false = true := by
  let authority : WriterAuthority :=
    ⟨owner, firstTerm, JournalGenerationRef.fromActiveGeneration 0 loglet 0⟩
  let record : ServingAuthorityRecord := .new sampleKey (.serving authority route)
  have named : ∀ other ∈ record.state.loglets, (utf8 other.text).length < 2 ^ 16 := by
    intro other member
    rw [List.mem_singleton.mp member]
    exact short
  obtain ⟨bytes, encoded⟩ := ServingAuthorityRecord.encode_succeeds named
  have decoded := ServingAuthorityRecord.decode_encode rfl encoded
  exact ⟨⟨0, [⟨loglet, 0⟩], bytes⟩, record, authority, rfl, isEffectiveWriter_iff.mpr
    ⟨rfl, rfl, decoded, authority, route, rfl, rfl, rfl⟩⟩

omit [LogletNames] [Digests] in
/-- An effective writer of an empty route, whom the projection refuses. -/
theorem emptyRoute_refused : ∃ (_ : LogletNames) (_ : Digests) (state : VirtualLogState)
    (record : ServingAuthorityRecord) (owner : OwnerId),
    ServingAuthorityRecord.decode state.applicationFence = .ok record ∧
    record.isEffectiveWriter state owner true false = true ∧
    CanonFence.fromVirtualLogState state = .error .emptyEndpoint ∧
    ¬ ProjectionAgrees state owner := by
  let names := nonemptyNames
  let digests := sampleDigests
  let loglet : LogletId := ⟨"g0", rfl⟩
  obtain ⟨state, record, authority, serving, effective⟩ := exists_effectiveWriter loglet (by decide)
    ⟨repeated 16 1⟩ ⟨"", by decide, by decide⟩
  obtain ⟨-, -, decoded, found, route, names, -, bound⟩ := isEffectiveWriter_iff.mp effective
  rw [serving] at names
  cases names
  have refused : CanonFence.fromVirtualLogState state = .error .emptyEndpoint := by
    rw [CanonFence.fromVirtualLogState_scar (ServingAuthorityRecord.magic_of_decode decoded)]
    unfold CanonFence.fromServingAuthorityRoot
    rw [decoded]
    simp only [Except.mapError, Bind.bind, Except.bind, serving, bound]
    rw [if_neg (not_not.mpr rfl)]
    rfl
  refine ⟨_, _, state, record, ⟨repeated 16 1⟩, decoded, effective, refused, ?_⟩
  intro agrees
  obtain ⟨_, _, _, -, projected⟩ := agrees.admits record effective
  rw [refused] at projected
  cases projected

end names

end Scripture
