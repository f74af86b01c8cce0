import Scripture.Authority.Foundation

set_option autoImplicit false

/- The authority coordinator: a process promotes itself over a generation by first making its
intent durable on the root and then driving the foundation, and completes a durable intent of its
own after an interruption. The root's fence is the only record of who may serve. -/
namespace Scripture

open ByteFormat Interleaving

structure LocalServingEligibility where
  isWritable : Bool
  isSealed : Bool
  deriving DecidableEq

def LocalServingEligibility.permitsServing (eligibility : LocalServingEligibility) : Bool :=
  eligibility.isWritable && !eligibility.isSealed

inductive CoordinatorError where
  | root (error : VirtualLogError)
  | transitionId (message : String)
  | foundationFailed (error : FoundationTransitionError)
  | contenderConflict
  | conflict (message : String)
  | unwritable
  | invalidInput (message : String)
  deriving DecidableEq

section names

variable [LogletNames]

inductive ObservedRootAuthority where
  | uninitialized
  | absentOrMalformed (message : Option String)
  | record (record : ServingAuthorityRecord)
  deriving DecidableEq

def stateTag : AuthorityState → String
  | .unassigned => "Unassigned"
  | .transitioning _ => "Transitioning"
  | .serving _ _ => "Serving"
  | .reconciliationRequired _ _ => "ReconciliationRequired"

/-- A call of the coordinator in progress. -/
abbrev CoordinatorRun := ExceptT CoordinatorError (Program Op Op.Reply)

structure AuthorityCoordinator where
  foundation : HolylogJournalFoundation
  localOwnerId : OwnerId
  routeHint : RouteHint

namespace AuthorityCoordinator

/-- What an observation of the root says of the authority. -/
def rootAuthority (answer : Except VirtualLogError VirtualLogState) :
    Except CoordinatorError ObservedRootAuthority :=
  match answer with
  | .error .uninitialized => .ok .uninitialized
  | .error error => .error (.root error)
  | .ok observed =>
      if observed.applicationFence.isEmpty then .ok (.absentOrMalformed none)
      else match ServingAuthorityRecord.decode observed.applicationFence with
        | .ok record => .ok (.record record)
        | .error error => .ok (.absentOrMalformed (some error.text))

def observeRootAuthority : CoordinatorRun ObservedRootAuthority := do
  let answer ← ask Op.observeMembership
  ofExcept (rootAuthority answer)

variable [Digests] (coordinator : AuthorityCoordinator)

/-- The generation a publication names before there is one. -/
def provisionalGeneration : Except CoordinatorError JournalGenerationRef :=
  match accepted : LogletNames.check "provisional" with
  | .error message => .error (.invalidInput message)
  | .ok () => .ok (.fromActiveGeneration 0 ⟨"provisional", accepted⟩ 0)

def provisionalPublication (key : AuthorityKey) (term : WriterTerm) :
    Except CoordinatorError ServingPublication := do
  let generation ← provisionalGeneration
  (ServingPublication.new key ⟨coordinator.localOwnerId, term, generation⟩
    coordinator.routeHint).mapError fun error => .invalidInput error.text

/-- The root serves this owner, in this term, on this generation. -/
def localServing (key : AuthorityKey) (term : WriterTerm) (generation : JournalGenerationRef)
    (observed : ObservedRootAuthority) : Except CoordinatorError ServingAuthorityRecord :=
  let elsewhere : CoordinatorError :=
    .conflict "foundation Applied but root is not local Serving for generation"
  match observed with
  | .record record =>
      match record.state with
      | .serving authority _ =>
          if record.key = key ∧ authority.ownerId = coordinator.localOwnerId ∧
              authority.writerTerm = term ∧ authority.generationRef = generation then .ok record
          else .error .contenderConflict
      | _ => .error elsewhere
  | _ => .error elsewhere

def requireLocalServing (key : AuthorityKey) (term : WriterTerm)
    (generation : JournalGenerationRef) : CoordinatorRun ServingAuthorityRecord := do
  let observed ← observeRootAuthority
  ofExcept (coordinator.localServing key term generation observed)

/-- The record already installed for an owner and a term. -/
def installedFor (owner : OwnerId) (term : WriterTerm) (observed : ObservedRootAuthority) :
    Option ServingAuthorityRecord :=
  match observed with
  | .record record =>
      match record.state with
      | .serving authority _ =>
          if authority.ownerId = owner ∧ authority.writerTerm = term then some record else none
      | _ => none
  | _ => none

/-- The root holds exactly this intent. -/
def isIntent (key : AuthorityKey) (intent : TransitionIntent) (observed : ObservedRootAuthority) :
    Bool :=
  match observed with
  | .record record => record.key = key ∧ record.state = .transitioning intent
  | _ => false

def completeAfterIntent (key : AuthorityKey) (term : WriterTerm)
    (precondition : FoundationPrecondition) (intent : TransitionIntent) :
    CoordinatorRun ServingAuthorityRecord := do
  let observed ← observeRootAuthority
  match installedFor intent.candidateOwnerId intent.nextWriterTerm observed with
  | some record => return record
  | none =>
      let publication ← ofExcept (coordinator.provisionalPublication key term)
      let generation ← (coordinator.foundation.drive key publication precondition).adapt
        .foundationFailed
      coordinator.requireLocalServing key term generation

/-- The intent is durable: the root holds it, or the foundation has raced ahead of it. -/
def durableIntent (key : AuthorityKey) (intent : TransitionIntent)
    (observed : ObservedRootAuthority) : Except CoordinatorError Unit :=
  if isIntent key intent observed then .ok ()
  else if (installedFor intent.candidateOwnerId intent.nextWriterTerm observed).isSome then .ok ()
  else .error (.conflict "intent CAS did not establish planned Transitioning")

def confirmDurableIntent (key : AuthorityKey) (intent : TransitionIntent) :
    CoordinatorRun Unit := do
  let observed ← observeRootAuthority
  ofExcept (durableIntent key intent observed)

def resolveIntentAfterUncertainty (key : AuthorityKey) (term : WriterTerm)
    (precondition : FoundationPrecondition) (intent : TransitionIntent) :
    CoordinatorRun ServingAuthorityRecord := do
  let observed ← observeRootAuthority
  if isIntent key intent observed then
    coordinator.completeAfterIntent key term precondition intent
  else match installedFor coordinator.localOwnerId term observed with
    | some record => return record
    | none => throw (.conflict "CAS to Transitioning conflicted; fresh root is not our intent")

def promoteEmpty (key : AuthorityKey) (term : WriterTerm) :
    CoordinatorRun ServingAuthorityRecord := do
  let observed ← observeRootAuthority
  match observed with
  | .record record => throw (.invalidInput
      ("Empty precondition requires uninitialized root; observed " ++ stateTag record.state))
  | .absentOrMalformed message => throw (.invalidInput
      ("Empty precondition requires uninitialized root; fence present (" ++
        message.getD "undecodable" ++ ")"))
  | .uninitialized =>
      let publication ← ofExcept (coordinator.provisionalPublication key term)
      let generation ← (coordinator.foundation.drive key publication .empty).adapt
        .foundationFailed
      coordinator.requireLocalServing key term generation

/-- What a promotion over an expected generation does on the root it observes. -/
inductive PromotionStart where
  | resume (intent : TransitionIntent)
  | propose

def promotionStart (key : AuthorityKey) (term : WriterTerm) (expected : JournalGenerationRef)
    (current : ServingAuthorityRecord) : Except CoordinatorError PromotionStart :=
  if current.key ≠ key then
    .error (.invalidInput "root authority key does not match promote key")
  else match current.state with
    | .serving authority _ =>
        if term.get ≤ authority.writerTerm.get then
          .error (.invalidInput ("candidate term " ++ toString term.get ++
            " is not strictly greater than serving term " ++ toString authority.writerTerm.get))
        else if authority.generationRef ≠ expected then
          .error (.invalidInput
            "current serving generation ref does not match expected precondition")
        else .ok .propose
    | .transitioning intent =>
        if intent.candidateOwnerId = coordinator.localOwnerId ∧ intent.nextWriterTerm = term ∧
            intent.precondition = .expected expected then .ok (.resume intent)
        else .error (.conflict "a live transition is already in progress")
    | state => .error (.conflict ("root fence is " ++ stateTag state ++
        "; promote requires Serving or our Transitioning"))

/-- The intent of a promotion, with the identity its generator drew. -/
def intentOf (term : WriterTerm) (expected : JournalGenerationRef) (drawn : TransitionId) :
    TransitionIntent :=
  ⟨drawn, .recoveryPromotion, .expected expected, coordinator.localOwnerId, term⟩

def intentFence (key : AuthorityKey) (intent : TransitionIntent) : Except CoordinatorError Bytes :=
  (ServingAuthorityRecord.new key (.transitioning intent)).encode.mapError fun error =>
    .invalidInput error.text

def decodeRoot (observed : VirtualLogState) : Except CoordinatorError ServingAuthorityRecord :=
  (ServingAuthorityRecord.decode observed.applicationFence).mapError fun error =>
    .invalidInput ("root fence is not a Scripture authority record: " ++ error.text)

/-- Makes an intent durable over the observed root and drives it. -/
def proposeIntent (key : AuthorityKey) (term : WriterTerm) (expected : JournalGenerationRef)
    (observed : VirtualLogState) (intent : TransitionIntent) :
    CoordinatorRun ServingAuthorityRecord := do
  let fence ← ofExcept (intentFence key intent)
  let updated ← ask (Op.updateApplicationFence observed fence)
  let update ← ofExcept (updated.mapError CoordinatorError.root)
  match update with
  | .conflict =>
      coordinator.resolveIntentAfterUncertainty key term (.expected expected) intent
  | .applied =>
      confirmDurableIntent key intent
      coordinator.completeAfterIntent key term (.expected expected) intent

/-- `promote_expected`; `drawn` is what the generator of transition ids answers. -/
def promoteExpected (key : AuthorityKey) (term : WriterTerm) (expected : JournalGenerationRef)
    (drawn : Except String TransitionId) : CoordinatorRun ServingAuthorityRecord := do
  let answer ← ask Op.observeMembership
  let observed ← ofExcept (answer.mapError CoordinatorError.root)
  let current ← ofExcept (decodeRoot observed)
  let start ← ofExcept (coordinator.promotionStart key term expected current)
  match start with
  | .resume intent => coordinator.completeAfterIntent key term (.expected expected) intent
  | .propose =>
      let drawn ← ofExcept (drawn.mapError CoordinatorError.transitionId)
      coordinator.proposeIntent key term expected observed
        (coordinator.intentOf term expected drawn)

def promote (key : AuthorityKey) (term : WriterTerm) (precondition : FoundationPrecondition)
    (eligibility : LocalServingEligibility) (drawn : Except String TransitionId) :
    CoordinatorRun ServingAuthorityRecord :=
  if ¬ eligibility.permitsServing then throw .unwritable
  else match precondition with
    | .empty => coordinator.promoteEmpty key term
    | .expected expected => coordinator.promoteExpected key term expected drawn

/-- The record a reconciliation finds, of this key. -/
def ownRecord (key : AuthorityKey) (observed : ObservedRootAuthority) :
    Except CoordinatorError ServingAuthorityRecord :=
  match observed with
  | .uninitialized => .error (.invalidInput "reconcile failed: root uninitialized")
  | .absentOrMalformed _ =>
      .error (.invalidInput "reconcile failed: no authority record on root")
  | .record record =>
      if record.key = key then .ok record
      else .error (.invalidInput "reconcile failed: no authority record on root")

def reconcileIntent (key : AuthorityKey) (intent : TransitionIntent) :
    CoordinatorRun ServingAuthorityRecord := do
  let classification ← (coordinator.foundation.classifyTransition key intent).adapt
    .foundationFailed
  match classification with
  | .intendedSuccessor generation =>
      coordinator.requireLocalServing key intent.nextWriterTerm generation
  | .stillPredecessor =>
      coordinator.completeAfterIntent key intent.nextWriterTerm intent.precondition intent
  | .divergent _ => throw (.conflict
      "foundation diverged from durable intent; remain fail-closed Transitioning")

def reconcile (key : AuthorityKey) (eligibility : LocalServingEligibility) :
    CoordinatorRun ServingAuthorityRecord := do
  let observed ← observeRootAuthority
  let record ← ofExcept (ownRecord key observed)
  match record.state with
  | .serving _ _ => return record
  | .transitioning intent =>
      if coordinator.localOwnerId ≠ intent.candidateOwnerId then
        throw (.conflict "non-candidate cannot complete another owner's transition")
      else if ¬ eligibility.permitsServing then throw .unwritable
      else coordinator.reconcileIntent key intent
  | state => throw (.conflict
      ("reconcile requires Transitioning or Serving; observed " ++ stateTag state))

end AuthorityCoordinator

end names

end Scripture
