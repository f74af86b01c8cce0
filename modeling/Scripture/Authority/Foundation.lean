import Scripture.Interleaving
import Scripture.Authority.Fence

set_option autoImplicit false

/- The journal foundation: what a candidate does to the virtual log to replace a generation. It
seals the predecessor, reads its tail, provisions a successor under a name never claimed before and
installs it, with the record that serves it, by one swap of the root register. Each operation on
what the processes share is one step of a program, and other programs act in between. -/
namespace Scripture

open ByteFormat Interleaving

/-- `u64::checked_add`. -/
def checkedAdd64 (left right : UInt64) : Option UInt64 :=
  if left.toNat + right.toNat < 2 ^ 64 then some (left + right) else none

structure NodeIdentity where
  ownerId : OwnerId
  endpoint : OwnerEndpoint
  deriving DecidableEq

inductive FoundationTransitionError where
  | conflict (message : String)
  | unavailable (message : String)
  | indeterminate (message : String)
  deriving DecidableEq

inductive FoundationTransitionCheckpoint where
  | predecessorSealed
  | sealedTailObserved
  | successorProvisioned
  deriving DecidableEq

inductive VirtualLogError where
  | uninitialized
  | other (message : String)
  deriving DecidableEq

def VirtualLogError.text : VirtualLogError → String
  | .uninitialized => "uninitialized"
  | .other message => message

inductive FenceUpdate where
  | applied
  | conflict
  deriving DecidableEq

inductive ReceiptReconfiguration where
  | applied
  | conflict
  deriving DecidableEq

inductive ProvisionError where
  | namespaceAlreadyClaimed
  | other (message : String)
  deriving DecidableEq

/-- What is durable of a loglet whose namespace has been claimed. -/
structure Loglet where
  tail : UInt64
  isSealed : Bool
  deriving DecidableEq

/-- What a process holds of a loglet. -/
inductive ResolvedLoglet where
  | writable
  | readSeal
  deriving DecidableEq

inductive PartsFactory where
  | sharedMemory
  | objectStore
  deriving DecidableEq

/-- A record to publish: always a serving one, and never of the zero owner. -/
structure ServingPublication [LogletNames] where
  key : AuthorityKey
  authority : WriterAuthority
  routeHint : RouteHint
  owned : authority.ownerId.bytes ≠ repeated 16 0
  deriving DecidableEq

section names

variable [LogletNames]

def ServingPublication.new (key : AuthorityKey) (authority : WriterAuthority)
    (routeHint : RouteHint) : Except ServingAuthorityError ServingPublication :=
  if owned : authority.ownerId.bytes ≠ repeated 16 0 then .ok ⟨key, authority, routeHint, owned⟩
  else .error (.malformedState "Serving publication requires a non-zero owner id")

def ServingPublication.record (publication : ServingPublication) : ServingAuthorityRecord :=
  .new publication.key (.serving publication.authority publication.routeHint)

/-- What the processes share: every state the root register has held, oldest first, and the
claimed loglets; and what each process has resolved. -/
structure World where
  register : List VirtualLogState
  loglets : LogletId → Option Loglet
  resolvers : Nat → LogletId → Option ResolvedLoglet
  factory : PartsFactory

/-- The register holds the last of its states. -/
def World.current (world : World) : Option VirtualLogState := world.register.getLast?

inductive Op where
  | observeMembership
  | updateApplicationFence (observed : VirtualLogState) (fence : Bytes)
  | bootstrapWithReceipt (loglet : LogletId) (fence : Bytes)
  | reconfigureWithReceipt (observed : VirtualLogState) (loglet : LogletId) (fence : Bytes)
  | openParts (loglet : LogletId)
  | freshParts (loglet : LogletId)
  | resolveReadSeal (loglet : LogletId)
  | observeDurable (loglet : LogletId)
  | sealLoglet (loglet : LogletId)
  | checkTailIfSealed (loglet : LogletId)
  | provisionFresh (loglet : LogletId)
  | checkpoint (reached : FoundationTransitionCheckpoint)
  | contains (process : Nat) (loglet : LogletId)
  | insertReadSeal (process : Nat) (loglet : LogletId)
  | insertWritable (process : Nat) (loglet : LogletId)

/-- What an operation answers. Errors of the stores outside the repository are their texts. -/
def Op.Reply : Op → Type
  | .observeMembership => Except VirtualLogError VirtualLogState
  | .updateApplicationFence _ _ => Except VirtualLogError FenceUpdate
  | .bootstrapWithReceipt _ _ => Except VirtualLogError Unit
  | .reconfigureWithReceipt _ _ _ => Except VirtualLogError ReceiptReconfiguration
  | .openParts _ => Except String Unit
  | .freshParts _ => Except String Unit
  | .resolveReadSeal _ => Except String Unit
  | .observeDurable _ => Except String Bool
  | .sealLoglet _ => Except String Unit
  | .checkTailIfSealed _ => Except String (Option UInt64)
  | .provisionFresh _ => Except ProvisionError Unit
  | .checkpoint _ => Except FoundationTransitionError Unit
  | .contains _ _ => Bool
  | .insertReadSeal _ _ => Unit
  | .insertWritable _ _ => Unit

inductive Answer where
  | truthful
  | conflict
  | error (message : String)
  deriving DecidableEq

/-- What becomes of one operation: whether a change it may make takes effect, and whether its
answer is the true one, a conflict, or an error. A change with an error for an answer is a lost
reply. -/
structure Outcome where
  takesEffect : Bool
  answer : Answer
  deriving DecidableEq

def Outcome.faultFree : Outcome := ⟨true, .truthful⟩

/-- An answer that is not truthful is an error, for the operations that know no conflict. -/
def Outcome.reply {ε α : Type} (outcome : Outcome) (failure : String → ε) (truth : Except ε α) :
    Except ε α :=
  match outcome.answer with
  | .truthful => truth
  | .conflict => .error (failure "conflict")
  | .error message => .error (failure message)

namespace World

def install (world : World) (state : VirtualLogState) : World :=
  { world with register := world.register ++ [state] }

def setLoglet (world : World) (loglet : LogletId) (durable : Loglet) : World :=
  { world with loglets := Function.update world.loglets loglet (some durable) }

def setResolved (world : World) (process : Nat) (loglet : LogletId) (resolved : ResolvedLoglet) :
    World :=
  let held := Function.update (world.resolvers process) loglet (some resolved)
  { world with resolvers := Function.update world.resolvers process held }

def isWritable (world : World) (process : Nat) (loglet : LogletId) : Bool :=
  world.resolvers process loglet = some .writable

/-- The state a fence update installs: the same generations, one revision later. -/
def fenced (observed : VirtualLogState) (fence : Bytes) : Option VirtualLogState :=
  (checkedAdd64 observed.revision 1).map fun revision =>
    { observed with revision, applicationFence := fence }

/-- The state a reconfiguration installs: the successor starts where the sealed predecessor
ends. -/
def reconfigured (world : World) (observed : VirtualLogState) (loglet : LogletId) (fence : Bytes) :
    Option VirtualLogState := do
  let active ← observed.active
  let predecessor ← world.loglets active.logletId
  guard predecessor.isSealed
  let start ← checkedAdd64 active.start predecessor.tail
  let revision ← checkedAdd64 observed.revision 1
  return ⟨revision, observed.generations ++ [⟨loglet, start⟩], fence⟩

/-- Swaps the register from the observed state to the next one. -/
def swap {α : Type} (world : World) (observed : VirtualLogState) (next : Option VirtualLogState)
    (outcome : Outcome) (applied conflict : α) : World × Except VirtualLogError α :=
  if world.current = some observed ∧ outcome.takesEffect then
    match next with
    | none => (world, outcome.reply .other (.error (.other "no next state")))
    | some state => (world.install state,
        match outcome.answer with
        | .truthful => .ok applied
        | .conflict => .ok conflict
        | .error message => .error (.other message))
  else (world,
    match outcome.answer with
    | .truthful => .ok conflict
    | .conflict => .ok conflict
    | .error message => .error (.other message))

def act (world : World) : (op : Op) → Outcome → World × op.Reply
  | .observeMembership, outcome => (world, outcome.reply .other
      (match world.current with
        | none => .error .uninitialized
        | some state => .ok state))
  | .updateApplicationFence observed fence, outcome =>
      world.swap observed (fenced observed fence) outcome FenceUpdate.applied .conflict
  | .bootstrapWithReceipt loglet fence, outcome =>
      if world.register = [] ∧ outcome.takesEffect then
        (world.install ⟨0, [⟨loglet, 0⟩], fence⟩, outcome.reply .other (.ok ()))
      else (world, outcome.reply .other (.error (.other "already initialized")))
  | .reconfigureWithReceipt observed loglet fence, outcome =>
      world.swap observed (world.reconfigured observed loglet fence) outcome
        ReceiptReconfiguration.applied .conflict
  | .openParts loglet, outcome => (world, outcome.reply id
      (match world.loglets loglet with
        | none => .error ("no durable parts for Loglet " ++ loglet.text)
        | some _ => .ok ()))
  | .freshParts loglet, outcome => (world, outcome.reply id
      (if world.factory = .sharedMemory ∧ (world.loglets loglet).isSome then
        .error ("Loglet " ++ loglet.text ++ " already has durable parts")
      else .ok ()))
  | .resolveReadSeal _, outcome => (world, outcome.reply id (.ok ()))
  | .observeDurable loglet, outcome => (world, outcome.reply id
      (.ok ((world.loglets loglet).any (·.isSealed))))
  | .sealLoglet loglet, outcome =>
      match world.loglets loglet with
      | none => (world, outcome.reply id (.error "no loglet"))
      | some durable =>
          if outcome.takesEffect then
            (world.setLoglet loglet { durable with isSealed := true }, outcome.reply id (.ok ()))
          else (world, outcome.reply id (.error "not performed"))
  | .checkTailIfSealed loglet, outcome => (world, outcome.reply id
      (.ok (match world.loglets loglet with
        | none => none
        | some durable => if durable.isSealed then some durable.tail else none)))
  | .provisionFresh loglet, outcome =>
      match world.loglets loglet with
      | some _ => (world, outcome.reply .other (.error .namespaceAlreadyClaimed))
      | none =>
          if outcome.takesEffect then
            (world.setLoglet loglet ⟨0, false⟩, outcome.reply .other (.ok ()))
          else (world, outcome.reply .other (.error (.other "not performed")))
  | .checkpoint _, outcome => (world, outcome.reply .unavailable (.ok ()))
  | .contains process loglet, _ => (world, (world.resolvers process loglet).isSome)
  | .insertReadSeal process loglet, _ => (world.setResolved process loglet .readSeal, ())
  | .insertWritable process loglet, _ => (world.setResolved process loglet .writable, ())

end World

/-- A call into the foundation in progress. -/
abbrev FoundationRun := ExceptT FoundationTransitionError (Program Op Op.Reply)

/-- Continues with a value, or throws. -/
def ofExcept {ε α : Type} (result : Except ε α) : ExceptT ε (Program Op Op.Reply) α :=
  ExceptT.mk (.done result)

def sameActiveMembership (left right : JournalGenerationRef) : Bool :=
  left.activeLogletId = right.activeLogletId ∧ left.activeStart = right.activeStart

/-- How a successor's loglet is named after its revision, its term, its owner and the attempt. -/
abbrev FreshLogletIdPolicy :=
  UInt64 → WriterTerm → OwnerId → Nat → Except FoundationTransitionError LogletId

/-- The text of a default name, which only its end tells from those of the other attempts. -/
def candidateName (revision : UInt64) (term : WriterTerm) (owner : OwnerId) (attempt : Nat) :
    String :=
  "g" ++ toString revision.toNat ++ "-t" ++ toString term.get.toNat ++ "-" ++
    String.join ((owner.bytes.val.take 4).map hexByte) ++ "-a" ++ toString attempt

/-- `DefaultFreshLogletIdPolicy`. -/
def defaultFreshLogletIdPolicy : FreshLogletIdPolicy := fun revision term owner attempt =>
  match accepted : LogletNames.check (candidateName revision term owner attempt) with
  | .error message => .error (.unavailable message)
  | .ok () => .ok ⟨candidateName revision term owner attempt, accepted⟩

def maxCandidateAttempts : Nat := 8

structure HolylogJournalFoundation where
  key : AuthorityKey
  identity : NodeIdentity
  logletIds : FreshLogletIdPolicy
  process : Nat

/-- The texts of the record's errors. -/
def ServingAuthorityError.text : ServingAuthorityError → String
  | .invalidWriterTerm => "invalid writer term: must be non-zero"
  | .stringTooLong actual maximum =>
      "string is too long: " ++ toString actual ++ " > " ++ toString maximum
  | .controlCharacterInText => "text contains control characters"
  | .badMagic => "invalid Serving Authority record magic"
  | .unsupportedVersion expected actual =>
      "unsupported Serving Authority record format version: expected " ++ toString expected ++
        ", got " ++ toString actual
  | .unknownTag tag => "unknown Serving Authority enum tag: " ++ toString tag
  | .invalidLogletId message => "invalid Loglet ID: " ++ message
  | .truncated => "truncated Serving Authority payload"
  | .trailingBytes => "trailing bytes after Serving Authority payload"
  | .malformedState message => "malformed Serving Authority state: " ++ message

def unavailableText (error : ServingAuthorityError) : FoundationTransitionError :=
  .unavailable error.text

def servingPublicationFor (key : AuthorityKey) (owner : OwnerId) (endpoint : OwnerEndpoint)
    (term : WriterTerm) (generation : JournalGenerationRef) :
    Except FoundationTransitionError ServingPublication := do
  let route ← (RouteHint.new endpoint.text).mapError unavailableText
  (ServingPublication.new key ⟨owner, term, generation⟩ route).mapError unavailableText

namespace HolylogJournalFoundation

variable [Digests] (foundation : HolylogJournalFoundation)

def requireConfiguredKey (key : AuthorityKey) : Except FoundationTransitionError Unit :=
  if key ≠ foundation.key then .error (.conflict "Foundation key mismatch") else .ok ()

def requireLocalCandidate (target : OwnerId) : Except FoundationTransitionError Unit :=
  if target ≠ foundation.identity.ownerId then
    .error (.conflict "Foundation adapter refuses foreign candidate owner")
  else .ok ()

/-- What an observation of the root says of the live generation. -/
def live (answer : Except VirtualLogError VirtualLogState) :
    Except FoundationTransitionError (Option (VirtualLogState × JournalGenerationRef)) :=
  match answer with
  | .error .uninitialized => .ok none
  | .error error => .error (.unavailable error.text)
  | .ok observed =>
      if observed.generations.isEmpty then
        .error (.conflict "VirtualLog membership is present but has no generations")
      else if (ServingAuthorityRecord.decode observed.applicationFence).toOption.any
          (fun record => record.key ≠ foundation.key) then
        .error (.conflict "root authority fence journal/verse disagree with AuthorityKey")
      else do
        let generation ←
          (JournalGenerationRef.fromVirtualLogState observed).mapError unavailableText
        return some (observed, generation)

def observeLive : FoundationRun (Option (VirtualLogState × JournalGenerationRef)) := do
  let answer ← ask Op.observeMembership
  ofExcept (foundation.live answer)

/-- An operation whose error makes the foundation unavailable. -/
def orUnavailable {α : Type} (answer : Except String α) : Except FoundationTransitionError α :=
  answer.mapError .unavailable

/-- Resolves every generation the process does not yet hold, as sealed history. -/
def ensureMembershipResolvable : List GenerationDescriptor → FoundationRun Unit
  | [] => return ()
  | generation :: rest => do
      let present : Bool ← ask (Op.contains foundation.process generation.logletId)
      if present then ensureMembershipResolvable rest
      else
        let parts ← ask (Op.openParts generation.logletId)
        ofExcept (orUnavailable parts)
        let historical ← ask (Op.resolveReadSeal generation.logletId)
        ofExcept (orUnavailable historical)
        ask (Op.insertReadSeal foundation.process generation.logletId)
        ensureMembershipResolvable rest

def ensurePredecessorSealed (predecessor : LogletId) : FoundationRun Unit := do
  let parts ← ask (Op.openParts predecessor)
  ofExcept (orUnavailable parts)
  let historical ← ask (Op.resolveReadSeal predecessor)
  ofExcept (orUnavailable historical)
  let durable ← ask (Op.observeDurable predecessor)
  let isSealed ← ofExcept (orUnavailable durable)
  if isSealed then ask (Op.insertReadSeal foundation.process predecessor)
  else
    let done ← ask (Op.sealLoglet predecessor)
    ofExcept (orUnavailable done)
    ask (Op.insertReadSeal foundation.process predecessor)

/-- Tries the names of the attempts in turn until one can be claimed. A name claimed before is
never taken up again: the receipt that goes with it is lost. -/
def provisionFrom (revision : UInt64) (term : WriterTerm) :
    List Nat → Option String → FoundationRun LogletId
  | [], lastError => throw (.unavailable
      ("could not provision a fresh successor after 8 attempts: " ++
        lastError.getD "no candidate error"))
  | attempt :: rest, _ => do
      let successor ←
        ofExcept (foundation.logletIds revision term foundation.identity.ownerId attempt)
      let parts ← ask (Op.freshParts successor)
      match parts with
      | .error message => provisionFrom revision term rest (some message)
      | .ok () =>
          let provisioned ← ask (Op.provisionFresh successor)
          match provisioned with
          | .ok () => return successor
          | .error .namespaceAlreadyClaimed =>
              provisionFrom revision term rest (some "candidate namespace already claimed")
          | .error (.other message) => throw (.unavailable message)

def provisionSuccessorUninstalled (revision : UInt64) (term : WriterTerm) :
    FoundationRun LogletId :=
  foundation.provisionFrom revision term (List.range maxCandidateAttempts) none

/-- The fence that serves a generation under this node's own identity. -/
def servingFence (owner : OwnerId) (term : WriterTerm) (generation : JournalGenerationRef) :
    Except FoundationTransitionError Bytes := do
  let publish ← servingPublicationFor foundation.key owner foundation.identity.endpoint term
    generation
  publish.record.encode.mapError unavailableText

def installed (live : Option (VirtualLogState × JournalGenerationRef)) (message : String) :
    Except FoundationTransitionError JournalGenerationRef :=
  match live with
  | none => .error (.indeterminate message)
  | some (_, generation) => .ok generation

def bootstrapEmpty (publication : ServingPublication) : FoundationRun JournalGenerationRef := do
  let term := publication.authority.writerTerm
  let successor ← foundation.provisionSuccessorUninstalled 0 term
  let fence ← ofExcept (foundation.servingFence publication.authority.ownerId term
    (.fromActiveGeneration 0 successor 0))
  let published ← ask (Op.bootstrapWithReceipt successor fence)
  ofExcept (published.mapError fun error => .indeterminate error.text)
  ask (Op.insertWritable foundation.process successor)
  let live ← foundation.observeLive
  ofExcept (installed live "bootstrap Applied but VirtualLog observe reports uninitialized")

/-- Where the successor starts: the predecessor's start and its sealed tail. -/
def boundary (start : UInt64) (answer : Except String (Option UInt64)) :
    Except FoundationTransitionError UInt64 :=
  match answer with
  | .error message => .error (.unavailable message)
  | .ok none => .error (.conflict "predecessor seal/tail not observed for successor boundary")
  | .ok (some tail) =>
      match checkedAdd64 start tail with
      | none => .error (.unavailable "successor boundary address overflow")
      | some boundary => .ok boundary

def sealedPredecessorStart (predecessor : LogletId) (start : UInt64) : FoundationRun UInt64 := do
  let parts ← ask (Op.openParts predecessor)
  ofExcept (orUnavailable parts)
  let historical ← ask (Op.resolveReadSeal predecessor)
  ofExcept (orUnavailable historical)
  let answer ← ask (Op.checkTailIfSealed predecessor)
  ofExcept (boundary start answer)

def atCheckpoint (reached : FoundationTransitionCheckpoint) : FoundationRun Unit := do
  let answer ← ask (Op.checkpoint reached)
  ofExcept answer

def nextRevision (observed : VirtualLogState) : Except FoundationTransitionError UInt64 :=
  match checkedAdd64 observed.revision 1 with
  | none => .error (.unavailable "VirtualLog revision overflow")
  | some revision => .ok revision

/-- The swap of the root from the observed generation to the provisioned successor. -/
def publishSuccessor (observed : VirtualLogState) (owner : OwnerId) (term : WriterTerm)
    (generation : JournalGenerationRef) : FoundationRun JournalGenerationRef := do
  let fence ← ofExcept (foundation.servingFence owner term generation)
  let outcome ← ask (Op.reconfigureWithReceipt observed generation.activeLogletId fence)
  match outcome with
  | .error error => throw (.indeterminate error.text)
  | .ok .conflict => throw (.conflict
      "VirtualLog reconfigure CAS conflict; candidate retained for inspect")
  | .ok .applied =>
      ask (Op.insertWritable foundation.process generation.activeLogletId)
      let live ← foundation.observeLive
      ofExcept (installed live "reconfigure Applied but VirtualLog observe reports uninitialized")

/-- From the boundary on: the successor is provisioned and installed. -/
def installSuccessor (observed : VirtualLogState) (publication : ServingPublication)
    (revision start : UInt64) : FoundationRun JournalGenerationRef := do
  let term := publication.authority.writerTerm
  atCheckpoint .sealedTailObserved
  let successor ← foundation.provisionSuccessorUninstalled revision term
  atCheckpoint .successorProvisioned
  foundation.publishSuccessor observed publication.authority.ownerId term
    (.fromActiveGeneration revision successor start)

def replaceExpected (observed : VirtualLogState) (publication : ServingPublication) :
    FoundationRun JournalGenerationRef :=
  match observed.active with
  | none => throw (.conflict "no active generation to seal")
  | some predecessor => do
      foundation.ensureMembershipResolvable observed.generations
      foundation.ensurePredecessorSealed predecessor.logletId
      atCheckpoint .predecessorSealed
      let revision ← ofExcept (nextRevision observed)
      let start ← sealedPredecessorStart predecessor.logletId predecessor.start
      foundation.installSuccessor observed publication revision start

/-- `drive_foundation_transition`. -/
def drive (key : AuthorityKey) (publication : ServingPublication)
    (precondition : FoundationPrecondition) : FoundationRun JournalGenerationRef := do
  ofExcept (foundation.requireConfiguredKey key)
  ofExcept (foundation.requireLocalCandidate publication.authority.ownerId)
  if publication.key ≠ key then
    throw (.conflict "ServingPublication key disagrees with Foundation key")
  else
    let live ← foundation.observeLive
    match precondition, live with
    | .empty, some _ =>
        throw (.conflict "precondition Empty but VirtualLog register is present")
    | .empty, none => foundation.bootstrapEmpty publication
    | .expected _, none =>
        throw (.conflict "precondition Expected but VirtualLog register is absent")
    | .expected expected, some (observed, generation) =>
        if sameActiveMembership generation expected then
          foundation.replaceExpected observed publication
        else
          throw (.conflict "precondition Expected generation does not match live Foundation")

end HolylogJournalFoundation

inductive TransitionClassification where
  | stillPredecessor
  | intendedSuccessor (generation : JournalGenerationRef)
  | divergent (observedGeneration : Option JournalGenerationRef)
  deriving DecidableEq

namespace HolylogJournalFoundation

variable [Digests] (foundation : HolylogJournalFoundation)

def matchesPrecondition (precondition : FoundationPrecondition)
    (live : Option (VirtualLogState × JournalGenerationRef)) : Bool :=
  match precondition with
  | .empty => live.isNone
  | .expected expected => live.any fun found => sameActiveMembership found.2 expected

def isSuccessor (precondition : FoundationPrecondition) (generation : JournalGenerationRef) :
    Bool :=
  match precondition with
  | .empty => true
  | .expected expected => ¬ sameActiveMembership generation expected ∧
      expected.virtualLogRevision < generation.virtualLogRevision

/-- The live foundation, seen from an intent. -/
def classified (key : AuthorityKey) (intent : TransitionIntent)
    (live : Option (VirtualLogState × JournalGenerationRef)) :
    Except FoundationTransitionError TransitionClassification :=
  if matchesPrecondition intent.precondition live then .ok .stillPredecessor
  else match live with
    | none => .ok (.divergent none)
    | some (observed, generation) =>
        if ¬ isSuccessor intent.precondition generation then .ok (.divergent (some generation))
        else match ServingAuthorityRecord.decode observed.applicationFence with
          | .error error => .error (unavailableText error)
          | .ok record =>
              if record.key ≠ key then .ok (.divergent (some generation))
              else match record.state with
                | .serving authority _ =>
                    if authority.ownerId = intent.candidateOwnerId ∧
                        authority.writerTerm = intent.nextWriterTerm then
                      .ok (.intendedSuccessor generation)
                    else .ok (.divergent (some generation))
                | _ => .ok (.divergent (some generation))

def classifyTransition (key : AuthorityKey) (intent : TransitionIntent) :
    FoundationRun TransitionClassification := do
  ofExcept (foundation.requireConfiguredKey key)
  let live ← foundation.observeLive
  ofExcept (classified key intent live)

end HolylogJournalFoundation

end names

end Scripture
