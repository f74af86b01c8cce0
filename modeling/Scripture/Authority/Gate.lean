import Scripture.Authority.Promotion

set_option autoImplicit false

/- The admission gate of a serving session. The record is read afresh from the root, the capability
from the process's resolver, and nothing compares the two: a session whose generation was replaced
passes again once its owner serves a later one. -/
namespace Scripture

open ByteFormat Interleaving

inductive AuthorityGateDenial where
  | authorityAbsent
  | authorityMalformed (message : String)
  | foundationUnavailable (message : String)
  | foundationUninitialized
  | notEffectiveWriter (state : String)
  deriving DecidableEq

section names

variable [LogletNames]

inductive AuthorityGateDecision where
  | effectiveWriter (record : ServingAuthorityRecord)
  | denied (reason : AuthorityGateDenial) (servingEndpoint : Option String)
  deriving DecidableEq

def AuthorityState.servingEndpoint : AuthorityState → Option String
  | .serving _ route => some route.text
  | _ => none

/-- `E` is what the runtime answers when it refuses. -/
inductive HaAdmissionError (E : Type) where
  | gateDenied (reason : AuthorityGateDenial) (servingEndpoint : Option String)
  | runtime (error : E)
  deriving DecidableEq

inductive HaActivationError (E : Type) where
  | coordinator (error : CoordinatorError)
  | gateDenied (reason : AuthorityGateDenial)
  | runtime (error : E)
  | notServing
  | missingWritable (loglet : String)
  deriving DecidableEq

/-- What a session remembers of its activation; `process` names the resolver it shares. -/
structure AuthorityAdmission where
  key : AuthorityKey
  process : Nat
  ownerId : OwnerId
  generation : JournalGenerationRef

/-- A session is only made from a serving record, and holds that record's generation. -/
structure HaServingSession where
  record : ServingAuthorityRecord
  authority : WriterAuthority
  route : RouteHint
  admission : AuthorityAdmission
  serving : record.state = .serving authority route
  generation : admission.generation = authority.generationRef

variable [Digests]

/-- The gate, given what the observation of the root answered. -/
def evaluateAuthorityGate (key : AuthorityKey) (localOwner : OwnerId) (isWritable isSealed : Bool) :
    Except VirtualLogError VirtualLogState → AuthorityGateDecision
  | .error .uninitialized => .denied .foundationUninitialized none
  | .error error => .denied (.foundationUnavailable error.text) none
  | .ok observed =>
      if observed.applicationFence = [] then .denied .authorityAbsent none
      else match ServingAuthorityRecord.decode observed.applicationFence with
        | .error error => .denied (.authorityMalformed error.text) none
        | .ok record =>
            if record.key ≠ key then
              .denied (.authorityMalformed "root fence AuthorityKey does not match gate key") none
            else if record.isEffectiveWriter observed localOwner isWritable isSealed then
              .effectiveWriter record
            else .denied (.notEffectiveWriter (stateTag record.state)) record.state.servingEndpoint

/-- The check of a session. The resolver is asked first, in `world`; the root answers later. -/
def AuthorityAdmission.ensureRootAuthority {E : Type} (admission : AuthorityAdmission)
    (world : World) (answer : Except VirtualLogError VirtualLogState) :
    Except (HaAdmissionError E) Unit :=
  let held := world.isWritable admission.process admission.generation.activeLogletId
  match evaluateAuthorityGate admission.key admission.ownerId held false answer with
  | .effectiveWriter _ => .ok ()
  | .denied reason servingEndpoint => .error (.gateDenied reason servingEndpoint)

/-- Activation after a promotion has published `record`. The root is observed before the runtime
starts and after it; a started runtime has an owner and says whether it serves. -/
def activateAfterServingCas {E : Type} (key : AuthorityKey) (record : ServingAuthorityRecord)
    (configured : OwnerId) (process : Nat) (world : World)
    (before : Except VirtualLogError VirtualLogState) (runtime : Except E (OwnerId × Bool))
    (after : Except VirtualLogError VirtualLogState) :
    Except (HaActivationError E) HaServingSession :=
  match serving : record.state with
  | .serving authority route =>
      let generation := authority.generationRef
      if world.isWritable process generation.activeLogletId = false then
        .error (.missingWritable generation.activeLogletId.text)
      else match evaluateAuthorityGate key configured true false before with
        | .denied reason _ => .error (.gateDenied reason)
        | .effectiveWriter _ => match runtime with
          | .error error => .error (.runtime error)
          | .ok (owner, isServing) =>
              if isServing = false then .error .notServing
              else match evaluateAuthorityGate key owner true false after with
                | .denied reason _ => .error (.gateDenied reason)
                | .effectiveWriter _ =>
                    .ok ⟨record, authority, route, ⟨key, process, owner, generation⟩, serving, rfl⟩
  | _ => .error .notServing

variable {record : ServingAuthorityRecord}

/-- The rule of the record, as one statement about the root. -/
theorem isEffectiveWriter_iff {root : VirtualLogState} {owner : OwnerId}
    {isWritable isSealed : Bool} :
    record.isEffectiveWriter root owner isWritable isSealed = true ↔
      isWritable = true ∧ isSealed = false ∧
      ServingAuthorityRecord.decode root.applicationFence = .ok record ∧
      ∃ authority route, record.state = .serving authority route ∧ authority.ownerId = owner ∧
        JournalGenerationRef.fromVirtualLogState root = .ok authority.generationRef := by
  constructor
  · intro effective
    unfold ServingAuthorityRecord.isEffectiveWriter at effective
    split at effective
    · cases effective
    · rename_i held
      split at effective
      · cases effective
      · rename_i fromRoot decoded
        split at effective
        · cases effective
        · rename_i same
          have same : fromRoot = record := not_not.mp same
          rw [same] at decoded
          split at effective
          · rename_i authority route serving
            split at effective
            · cases effective
            · rename_i owned
              split at effective
              · cases effective
              · rename_i generation bound
                have named := of_decide_eq_true effective
                simp only [not_or, Bool.not_eq_true] at held
                refine ⟨by simpa using held.2, held.1, decoded, authority, route, serving,
                  not_not.mp owned, ?_⟩
                rw [bound, named]
          · cases effective
  · rintro ⟨rfl, rfl, decoded, authority, route, serving, rfl, bound⟩
    simp [ServingAuthorityRecord.isEffectiveWriter, decoded, serving, bound]

/-- The gate lets a writer pass whom the root itself names. -/
theorem evaluateAuthorityGate_passes_iff {key : AuthorityKey} {owner : OwnerId}
    {isWritable isSealed : Bool} {answer : Except VirtualLogError VirtualLogState} :
    evaluateAuthorityGate key owner isWritable isSealed answer = .effectiveWriter record ↔
      ∃ root, answer = .ok root ∧ record.key = key ∧
        record.isEffectiveWriter root owner isWritable isSealed = true := by
  constructor
  · intro passes
    cases answer with
    | error error => cases error <;> cases passes
    | ok root =>
        unfold evaluateAuthorityGate at passes
        dsimp only at passes
        split at passes
        · cases passes
        · split at passes
          · cases passes
          · split at passes
            · cases passes
            · rename_i keyed
              split at passes
              · rename_i effective
                cases passes
                exact ⟨root, rfl, not_not.mp keyed, effective⟩
              · cases passes
  · rintro ⟨root, rfl, rfl, effective⟩
    obtain ⟨-, -, decoded, -⟩ := isEffectiveWriter_iff.mp effective
    have present : root.applicationFence ≠ [] := by
      intro empty
      have truncated : ServingAuthorityRecord.decode [] = .error .truncated := rfl
      rw [empty, truncated] at decoded
      cases decoded
    simp [evaluateAuthorityGate, present, decoded, effective]

theorem ensureRootAuthority_eq_ok {E : Type} {admission : AuthorityAdmission} {world : World}
    {answer : Except VirtualLogError VirtualLogState} :
    (admission.ensureRootAuthority world answer : Except (HaAdmissionError E) Unit) = .ok () ↔
      ∃ root record authority route, answer = .ok root ∧
        ServingAuthorityRecord.decode root.applicationFence = .ok record ∧
        record.key = admission.key ∧ record.state = .serving authority route ∧
        authority.ownerId = admission.ownerId ∧
        JournalGenerationRef.fromVirtualLogState root = .ok authority.generationRef ∧
        world.isWritable admission.process admission.generation.activeLogletId = true := by
  constructor
  · intro checked
    unfold AuthorityAdmission.ensureRootAuthority at checked
    dsimp only at checked
    split at checked
    · rename_i record passes
      obtain ⟨root, answered, keyed, effective⟩ := evaluateAuthorityGate_passes_iff.mp passes
      obtain ⟨held, -, decoded, authority, route, serving, owned, bound⟩ :=
        isEffectiveWriter_iff.mp effective
      exact ⟨root, record, authority, route, answered, decoded, keyed, serving, owned, bound, held⟩
    · cases checked
  · rintro ⟨root, record, authority, route, answered, decoded, keyed, serving, owned, bound, held⟩
    have effective : record.isEffectiveWriter root admission.ownerId
        (world.isWritable admission.process admission.generation.activeLogletId) false = true :=
      isEffectiveWriter_iff.mpr ⟨held, rfl, decoded, authority, route, serving, owned, bound⟩
    have passes := evaluateAuthorityGate_passes_iff.mpr ⟨root, answered, keyed, effective⟩
    unfold AuthorityAdmission.ensureRootAuthority
    dsimp only
    rw [passes]

namespace HaServingSession

variable {E : Type} (session : HaServingSession)

/-- The check is exact unless the root serves the session's owner elsewhere, on another generation
or under another term, while the process still holds the session's own loglet. -/
theorem ensureRootAuthority_exact_iff (world : World)
    (answer : Except VirtualLogError VirtualLogState) :
    ((session.admission.ensureRootAuthority world answer : Except (HaAdmissionError E) Unit) =
        .ok () →
      ∃ root record authority route, answer = .ok root ∧
        ServingAuthorityRecord.decode root.applicationFence = .ok record ∧
        record.state = .serving authority route ∧
        authority.generationRef = session.authority.generationRef ∧
        authority.writerTerm = session.authority.writerTerm) ↔
    ¬ ∃ root record authority route, answer = .ok root ∧
        ServingAuthorityRecord.decode root.applicationFence = .ok record ∧
        record.key = session.admission.key ∧ record.state = .serving authority route ∧
        authority.ownerId = session.admission.ownerId ∧
        JournalGenerationRef.fromVirtualLogState root = .ok authority.generationRef ∧
        world.isWritable session.admission.process
          session.authority.generationRef.activeLogletId = true ∧
        (authority.generationRef ≠ session.authority.generationRef ∨
          authority.writerTerm ≠ session.authority.writerTerm) := by
  rw [ensureRootAuthority_eq_ok, session.generation]
  constructor
  · rintro exact' ⟨root, record, authority, route, answered, decoded, keyed, serving, owned, bound,
      held, other⟩
    obtain ⟨found, carried, named, hint, again, shows, serves, generation, term⟩ :=
      exact' ⟨root, record, authority, route, answered, decoded, keyed, serving, owned, bound, held⟩
    rw [answered] at again
    cases again
    rw [decoded] at shows
    cases shows
    rw [serving] at serves
    cases serves
    rcases other with other | other
    · exact other generation
    · exact other term
  · rintro never ⟨root, record, authority, route, answered, decoded, keyed, serving, owned, bound,
      held⟩
    by_cases generation : authority.generationRef = session.authority.generationRef
    · by_cases term : authority.writerTerm = session.authority.writerTerm
      · exact ⟨root, record, authority, route, answered, decoded, serving, generation, term⟩
      · exact absurd ⟨root, record, authority, route, answered, decoded, keyed, serving, owned,
          bound, held, .inr term⟩ never
    · exact absurd ⟨root, record, authority, route, answered, decoded, keyed, serving, owned, bound,
        held, .inl generation⟩ never

end HaServingSession

/-- The root's record, and whom it serves. -/
def World.serving (world : World) : Option (VirtualLogState × ServingAuthorityRecord ×
    WriterAuthority × RouteHint) := do
  let root ← world.current
  let record ← root.record
  let .serving authority route := record.state | none
  return (root, record, authority, route)

omit [Digests] in
theorem World.serving_eq_some {world : World} {root : VirtualLogState} {authority : WriterAuthority}
    {route : RouteHint} (found : world.serving = some (root, record, authority, route)) :
    world.current = some root ∧ ServingAuthorityRecord.decode root.applicationFence = .ok record ∧
      record.state = .serving authority route := by
  obtain ⟨held, current, found⟩ := Option.bind_eq_some_iff.mp found
  obtain ⟨carried, decoded, found⟩ := Option.bind_eq_some_iff.mp found
  split at found
  · rename_i serves
    cases found
    exact ⟨current, toOption_eq_some.mp decoded, serves⟩
  · cases found

omit [LogletNames] [Digests] in
/-- A second process promotes under the owner id of the first. The session of the first generation
still passes its check, by the record of the second. -/
theorem replaced_session_passes : ∃ (_ : LogletNames) (_ : Digests) (world later : World)
    (first root : VirtualLogState) (record serving : ServingAuthorityRecord)
    (session : HaServingSession) (authority : WriterAuthority) (route : RouteHint),
    World.Reached later ∧ world.current = some first ∧
    (activateAfterServingCas sampleKey record ⟨repeated 16 1⟩ 1 world (.ok first)
      (.ok (⟨repeated 16 1⟩, true)) (.ok first) : Except (HaActivationError Unit) _) = .ok session ∧
    Ends (World.until none) ((sampleCoordinator 2 1).promote sampleKey secondTerm
      (.expected session.authority.generationRef) ⟨true, false⟩ (.ok ⟨repeated 16 9⟩)) world
      (later, .ok serving) ∧
    later.current = some root ∧
    (session.admission.ensureRootAuthority later (.ok root) :
      Except (HaAdmissionError Unit) Unit) = .ok () ∧
    ServingAuthorityRecord.decode root.applicationFence = .ok serving ∧
    serving.state = .serving authority route ∧
    authority.generationRef ≠ session.authority.generationRef ∧
    authority.writerTerm ≠ session.authority.writerTerm := by
  let names := nonemptyNames
  let digests := valueDigests
  have facts : (do
      let (first, record, _) ← firstWorld.serving
      let session ← (activateAfterServingCas sampleKey record ⟨repeated 16 1⟩ 1 firstWorld
        (.ok first) (.ok (⟨repeated 16 1⟩, true)) (.ok first) :
          Except (HaActivationError Unit) _).toOption
      let after := exec (World.until none) ((sampleCoordinator 2 1).promote sampleKey secondTerm
        (.expected session.authority.generationRef) ⟨true, false⟩ (.ok ⟨repeated 16 9⟩)).run
          firstWorld
      let (root, record, authority, _) ← after.1.serving
      return decide (after.2.toOption = some record ∧
        (session.admission.ensureRootAuthority after.1 (.ok root) :
          Except (HaAdmissionError Unit) Unit).toOption = some () ∧
        authority.generationRef ≠ session.authority.generationRef ∧
        authority.writerTerm ≠ session.authority.writerTerm)) = some true := by
    decide +kernel
  obtain ⟨⟨first, record, authority, route⟩, served, facts⟩ := Option.bind_eq_some_iff.mp facts
  obtain ⟨session, activated, facts⟩ := Option.bind_eq_some_iff.mp facts
  obtain ⟨⟨root, serving, next, hint⟩, shown, facts⟩ := Option.bind_eq_some_iff.mp facts
  obtain ⟨ends, passes, elsewhere, higher⟩ := of_decide_eq_true (Option.some.inj facts)
  have promoted : Ends (World.until none) ((sampleCoordinator 2 1).promote sampleKey secondTerm
      (.expected session.authority.generationRef) ⟨true, false⟩ (.ok ⟨repeated 16 9⟩)) firstWorld
      (_, .ok serving) := Prod.ext rfl (toOption_eq_some.mp ends)
  obtain ⟨current, -, -⟩ := World.serving_eq_some served
  obtain ⟨latest, decoded, serves⟩ := World.serving_eq_some shown
  exact ⟨names, digests, firstWorld, _, first, root, record, serving, session, next, hint,
    (firstWorld_alone.ends (.promote _ _ _ _ _ _) promoted).reached, current,
    toOption_eq_some.mp activated, promoted, latest, toOption_eq_some.mp passes, decoded, serves,
    elsewhere, higher⟩

end names

end Scripture
