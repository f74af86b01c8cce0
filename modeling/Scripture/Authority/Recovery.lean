import Scripture.Authority.Safety

set_option autoImplicit false

/- The foundation run by one process alone, to its end or to a checkpoint. A run that is interrupted
leaves the root as it is: the predecessor may have been sealed, whose tail is then fixed, and one
more name may have been claimed. The next run seals again, reads the same tail and takes the next
free name. -/
namespace Scripture

open ByteFormat Interleaving

section names

variable [LogletNames]

/-- No operation of a run fails, but it may be interrupted at one checkpoint. -/
def outcomeAt (stop : Option FoundationTransitionCheckpoint) : Op → Outcome
  | .checkpoint reached =>
      if stop = some reached then ⟨true, .error "interrupted"⟩ else .faultFree
  | _ => .faultFree

/-- The world as a run finds it that is alone and stops at a checkpoint, or nowhere. -/
def World.until (stop : Option FoundationTransitionCheckpoint) (world : World) (op : Op) :
    World × op.Reply :=
  world.act op (outcomeAt stop op)

section programs

variable {stop : Option FoundationTransitionCheckpoint} {ε α β : Type} {world : World}

theorem ends_ofExcept {result : Except ε β} {value : β}
    {rest : β → ExceptT ε (Program Op Op.Reply) α} {after : World × Except ε α}
    (success : result = .ok value) (ends : Ends (World.until stop) (rest value) world after) :
    Ends (World.until stop) (ofExcept result >>= rest) world after := by
  subst success
  exact Ends.bind rfl ends

theorem ends_ask {op : Op} {later : World} {reply : op.Reply}
    {rest : op.Reply → ExceptT ε (Program Op Op.Reply) α} {after : World × Except ε α}
    (answered : world.until stop op = (later, reply))
    (ends : Ends (World.until stop) (rest reply) later after) :
    Ends (World.until stop) (ask op >>= rest) world after := by
  have asked : Ends (World.until stop) (ask op : ExceptT ε (Program Op Op.Reply) op.Reply) world
      ((world.until stop op).1, .ok (world.until stop op).2) := Ends.ask op world
  rw [answered] at asked
  exact Ends.bind asked ends

theorem ends_checked {op : Op} {later : World} {reply : op.Reply}
    {check : op.Reply → Except ε β} {value : β} {rest : β → ExceptT ε (Program Op Op.Reply) α}
    {after : World × Except ε α} (answered : world.until stop op = (later, reply))
    (success : check reply = .ok value)
    (ends : Ends (World.until stop) (rest value) later after) :
    Ends (World.until stop) (do
      let answer ← ask op
      let value ← ofExcept (check answer)
      rest value) world after :=
  ends_ask answered (ends_ofExcept success ends)

variable (stop) in
theorem until_resolveReadSeal (world : World) (id : LogletId) :
    world.until stop (.resolveReadSeal id) = (world, .ok ()) := rfl

variable (stop) in
theorem until_observe {root : VirtualLogState} (current : world.current = some root) :
    world.until stop .observeMembership = (world, .ok root) := by
  simp [World.until, outcomeAt, World.act, Outcome.reply, Outcome.faultFree, current]

variable {id : LogletId}

variable (stop) in
theorem until_openParts (claimed : (world.loglets id).isSome) :
    world.until stop (.openParts id) = (world, .ok ()) := by
  obtain ⟨loglet, found⟩ := Option.isSome_iff_exists.mp claimed
  simp [World.until, outcomeAt, World.act, Outcome.reply, Outcome.faultFree, found]

variable (stop) in
theorem until_observeDurable {loglet : Loglet} (found : world.loglets id = some loglet) :
    world.until stop (.observeDurable id) = (world, .ok loglet.isSealed) := by
  simp [World.until, outcomeAt, World.act, Outcome.reply, Outcome.faultFree, found]

variable (stop) in
theorem until_sealLoglet {loglet : Loglet} (found : world.loglets id = some loglet) :
    world.until stop (.sealLoglet id) =
      (world.setLoglet id { loglet with isSealed := true }, .ok ()) := by
  simp [World.until, outcomeAt, World.act, Outcome.reply, Outcome.faultFree, found]

variable (stop) in
theorem until_provisionFresh (free : world.loglets id = none) :
    world.until stop (.provisionFresh id) = (world.setLoglet id ⟨0, false⟩, .ok ()) := by
  simp [World.until, outcomeAt, World.act, Outcome.reply, Outcome.faultFree, free]

variable (stop) in
theorem until_provisionClaimed {loglet : Loglet} (found : world.loglets id = some loglet) :
    world.until stop (.provisionFresh id) = (world, .error .namespaceAlreadyClaimed) := by
  simp [World.until, outcomeAt, World.act, Outcome.reply, Outcome.faultFree, found]

variable (stop) in
/-- Only the shared memory refuses a name, and only one that has been claimed. -/
theorem until_freshParts (world : World) (id : LogletId) :
    world.until stop (.freshParts id) = (world, .ok ()) ∨
      ((world.loglets id).isSome ∧ ∃ message, world.until stop (.freshParts id) =
        (world, .error message)) := by
  by_cases refused : world.factory = .sharedMemory ∧ (world.loglets id).isSome
  · right
    refine ⟨refused.2, "Loglet " ++ id.text ++ " already has durable parts", ?_⟩
    simp only [World.until, outcomeAt, World.act, Outcome.reply, Outcome.faultFree, if_pos refused]
  · left
    simp only [World.until, outcomeAt, World.act, Outcome.reply, Outcome.faultFree,
      if_neg refused]

variable (stop) in
theorem until_reconfigure {observed next : VirtualLogState} {successor : LogletId} {fence : Bytes}
    (current : world.current = some observed)
    (reconfigured : world.reconfigured observed successor fence = some next) :
    world.until stop (.reconfigureWithReceipt observed successor fence) =
      (world.install next, .ok .applied) := by
  simp [World.until, outcomeAt, World.act, World.swap, Outcome.faultFree, current, reconfigured]
  rfl

end programs

/-- Two states of the resolvers that differ for one process only. -/
def OnlyOf (process : Nat) (before after : Nat → LogletId → Option ResolvedLoglet) : Prop :=
  ∀ other, other ≠ process → after other = before other

theorem OnlyOf.trans {process : Nat} {before between after : Nat → LogletId → Option ResolvedLoglet}
    (first : OnlyOf process before between) (second : OnlyOf process between after) :
    OnlyOf process before after := fun other apart =>
  (second other apart).trans (first other apart)

theorem onlyOf_setResolved (world : World) (process : Nat) (loglet : LogletId)
    (resolved : ResolvedLoglet) :
    OnlyOf process world.resolvers (world.setResolved process loglet resolved).resolvers :=
  fun _ apart => Function.update_of_ne apart _ _

namespace HolylogJournalFoundation

variable (foundation : HolylogJournalFoundation) {world : World}
variable {stop : Option FoundationTransitionCheckpoint}

variable (stop) in
theorem ensureMembershipResolvable_ends (generations : List GenerationDescriptor)
    (claimed : ∀ generation ∈ generations, (world.loglets generation.logletId).isSome) :
    ∃ resolvers, OnlyOf foundation.process world.resolvers resolvers ∧
      Ends (World.until stop) (foundation.ensureMembershipResolvable generations) world
        ({ world with resolvers }, .ok ()) := by
  induction generations generalizing world with
  | nil => exact ⟨world.resolvers, fun _ _ => rfl, rfl⟩
  | cons generation rest ih =>
      cases present : (world.resolvers foundation.process generation.logletId).isSome with
      | true =>
          obtain ⟨resolvers, others, ends⟩ := ih fun other member =>
            claimed other (by simp [member])
          refine ⟨resolvers, others, ?_⟩
          refine Ends.bind (Ends.ask _ _) ?_
          simp only [World.until, World.act, present, if_true]
          exact ends
      | false =>
          have next : ∀ other ∈ rest, ((world.setResolved foundation.process generation.logletId
              .readSeal).loglets other.logletId).isSome := fun other member =>
            claimed other (by simp [member])
          obtain ⟨resolvers, others, ends⟩ := ih next
          refine ⟨resolvers, (onlyOf_setResolved _ _ _ _).trans others, ?_⟩
          refine Ends.bind (Ends.ask _ _) ?_
          simp only [World.until, World.act, present, Bool.false_eq_true, if_false]
          have parts := until_openParts stop (claimed generation (by simp))
          refine ends_checked parts rfl ?_
          refine ends_checked (until_resolveReadSeal stop _ _) rfl ?_
          exact Ends.bind (Ends.ask _ _) ends

variable (stop) in
theorem ensurePredecessorSealed_ends {predecessor : LogletId} {loglet : Loglet}
    (found : world.loglets predecessor = some loglet) :
    ∃ resolvers, OnlyOf foundation.process world.resolvers resolvers ∧
      Ends (World.until stop) (foundation.ensurePredecessorSealed predecessor) world
        ({ world with
            resolvers
            loglets := Function.update world.loglets predecessor
              (some { loglet with isSealed := true }) }, .ok ()) := by
  have claimed : (world.loglets predecessor).isSome := by
    rw [found]
    rfl
  have parts := until_openParts stop claimed
  cases isSealed : loglet.isSealed with
  | true =>
      -- Sealed before: the loglet stays as it is.
      have same : Function.update world.loglets predecessor
          (some { loglet with isSealed := true }) = world.loglets := by
        rw [← isSealed, ← found]
        exact Function.update_eq_self _ _
      refine ⟨(world.setResolved foundation.process predecessor .readSeal).resolvers,
        onlyOf_setResolved _ _ _ _, ?_⟩
      rw [same]
      refine ends_checked parts rfl ?_
      refine ends_checked (until_resolveReadSeal stop _ _) rfl ?_
      have durable := until_observeDurable stop found
      rw [isSealed] at durable
      refine ends_checked durable rfl ?_
      exact Ends.ask _ _
  | false =>
      have durable := until_observeDurable stop found
      have done := until_sealLoglet stop found
      refine ⟨(world.setResolved foundation.process predecessor .readSeal).resolvers,
        onlyOf_setResolved _ _ _ _, ?_⟩
      refine ends_checked parts rfl ?_
      refine ends_checked (until_resolveReadSeal stop _ _) rfl ?_
      rw [isSealed] at durable
      refine ends_checked durable rfl ?_
      refine ends_checked done rfl ?_
      exact Ends.ask _ _

theorem sealedPredecessorStart_ends {predecessor : LogletId} {tail start value : UInt64}
    (found : world.loglets predecessor = some ⟨tail, true⟩)
    (sum : checkedAdd64 start tail = some value) :
    Ends (World.until stop) (sealedPredecessorStart predecessor start) world
      (world, .ok value) := by
  have claimed : (world.loglets predecessor).isSome := by
    rw [found]
    rfl
  have parts := until_openParts stop claimed
  refine ends_checked parts rfl ?_
  refine ends_checked (until_resolveReadSeal stop _ _) rfl ?_
  refine Ends.bind (Ends.ask _ _) ?_
  simp only [World.until, outcomeAt, World.act, Outcome.reply, Outcome.faultFree, found, if_true,
    boundary, sum]
  rfl

theorem atCheckpoint_ends {reached : FoundationTransitionCheckpoint}
    (passes : stop ≠ some reached) :
    Ends (World.until stop) (atCheckpoint reached) world (world, .ok ()) := by
  refine Ends.bind (Ends.ask _ _) ?_
  simp only [World.until, outcomeAt, if_neg passes]
  rfl

theorem atCheckpoint_stops (reached : FoundationTransitionCheckpoint) :
    Ends (World.until (some reached)) (atCheckpoint reached) world
      (world, .error (.unavailable "interrupted")) := by
  refine Ends.bind (Ends.ask _ _) ?_
  simp only [World.until, outcomeAt, if_true]
  rfl

variable (stop) in
theorem provisionFrom_ends {revision : UInt64} {term : WriterTerm} {name : Nat → LogletId}
    (attempts : List Nat) (lastError : Option String)
    (names : ∀ attempt ∈ attempts, foundation.logletIds revision term
      foundation.identity.ownerId attempt = .ok (name attempt))
    (free : ∃ attempt ∈ attempts, world.loglets (name attempt) = none) :
    ∃ attempt ∈ attempts, world.loglets (name attempt) = none ∧
      Ends (World.until stop) (foundation.provisionFrom revision term attempts lastError) world
        (world.setLoglet (name attempt) ⟨0, false⟩, .ok (name attempt)) := by
  induction attempts generalizing lastError with
  | nil =>
      obtain ⟨attempt, member, -⟩ := free
      cases member
  | cons attempt rest ih =>
      have own := names attempt (by simp)
      cases found : world.loglets (name attempt) with
      | none =>
          refine ⟨attempt, by simp, found, ?_⟩
          refine ends_ofExcept own ?_
          rcases until_freshParts stop world (name attempt) with fresh | ⟨claimed, -⟩
          · refine ends_ask fresh ?_
            refine ends_ask (until_provisionFresh stop found) ?_
            exact Ends.pure _ _
          · rw [found] at claimed
            cases claimed
      | some loglet =>
          have elsewhere : ∃ other ∈ rest, world.loglets (name other) = none := by
            obtain ⟨other, member, unclaimed⟩ := free
            rcases List.mem_cons.mp member with rfl | member
            · rw [found] at unclaimed
              cases unclaimed
            · exact ⟨other, member, unclaimed⟩
          have later : ∀ error, ∃ other ∈ rest, world.loglets (name other) = none ∧
              Ends (World.until stop) (foundation.provisionFrom revision term rest error) world
                (world.setLoglet (name other) ⟨0, false⟩, .ok (name other)) := fun error =>
            ih error (fun other member => names other (by simp [member])) elsewhere
          rcases until_freshParts stop world (name attempt) with fresh | ⟨-, message, refused⟩
          · obtain ⟨other, member, unclaimed, ends⟩ :=
              later (some "candidate namespace already claimed")
            refine ⟨other, by simp [member], unclaimed, ?_⟩
            refine ends_ofExcept own ?_
            refine ends_ask fresh ?_
            refine ends_ask (until_provisionClaimed stop found) ?_
            exact ends
          · obtain ⟨other, member, unclaimed, ends⟩ := later (some message)
            refine ⟨other, by simp [member], unclaimed, ?_⟩
            refine ends_ofExcept own ?_
            refine ends_ask refused ?_
            exact ends

omit [LogletNames] in
theorem routeHint_of_endpoint (endpoint : OwnerEndpoint) :
    ∃ route, RouteHint.new endpoint.text = .ok route := by
  unfold RouteHint.new
  rw [dif_pos endpoint.short, dif_pos endpoint.plain]
  exact ⟨_, rfl⟩

theorem encode_serving (key : AuthorityKey) (authority : WriterAuthority) (route : RouteHint)
    (short : (utf8 authority.generationRef.activeLogletId.text).length < 2 ^ 16) :
    ∃ fence, (ServingAuthorityRecord.new key (.serving authority route)).encode = .ok fence := by
  have named : ∃ bytes, encodeGenerationRef authority.generationRef = .ok bytes :=
    ⟨_, checked_eq_ok.mpr ⟨by omega, rfl⟩⟩
  obtain ⟨bytes, named⟩ := named
  have fits := route.short
  have written : ∃ state, encodeState (.serving authority route) = .ok state :=
    ⟨_, bind_eq_ok.mpr ⟨bytes, named, checked_eq_ok.mpr ⟨by omega, rfl⟩⟩⟩
  obtain ⟨state, written⟩ := written
  exact ⟨_, bind_eq_ok.mpr ⟨state, written, rfl⟩⟩

variable {generation : JournalGenerationRef} {resolvers : Nat → LogletId → Option ResolvedLoglet}

/-- The fence of a nonzero owner on a generation whose name fits its length field. -/
theorem servingFence_of_owned {owner : OwnerId} (term : WriterTerm)
    (owned : owner.bytes ≠ repeated 16 0)
    (short : (utf8 generation.activeLogletId.text).length < 2 ^ 16) :
    ∃ fence, foundation.servingFence owner term generation = .ok fence := by
  obtain ⟨route, hinted⟩ := routeHint_of_endpoint foundation.identity.endpoint
  obtain ⟨fence, encoded⟩ := encode_serving foundation.key ⟨owner, term, generation⟩ route short
  have made : servingPublicationFor foundation.key owner foundation.identity.endpoint term
      generation = .ok ⟨foundation.key, ⟨owner, term, generation⟩, route, owned⟩ := by
    refine bind_eq_ok.mpr ⟨route, by rw [hinted]; rfl, ?_⟩
    unfold ServingPublication.new
    rw [dif_pos owned]
    rfl
  refine ⟨fence, bind_eq_ok.mpr ⟨_, made, ?_⟩⟩
  unfold ServingPublication.record
  rw [encoded]
  rfl

variable [Digests]

theorem live_of_record {root : VirtualLogState} {record : ServingAuthorityRecord}
    (decoded : ServingAuthorityRecord.decode root.applicationFence = .ok record)
    (key : record.key = foundation.key)
    (bound : JournalGenerationRef.fromVirtualLogState root = .ok generation) :
    foundation.live (.ok root) = .ok (some (root, generation)) := by
  obtain ⟨earlier, last, -⟩ := fromVirtualLogState_eq_ok bound
  simp [live, decoded, key, bound, last, Except.toOption, Except.mapError, bind, Except.bind,
    pure, Except.pure]

theorem observeLive_ends {root : VirtualLogState} (current : world.current = some root)
    (live : foundation.live (.ok root) = .ok (some (root, generation))) :
    Ends (World.until stop) foundation.observeLive world
      (world, .ok (some (root, generation))) := by
  refine ends_ask (until_observe stop current) ?_
  rw [live]
  rfl

/-- What a run that publishes ends with. -/
structure Published (world later : World) (process : Nat) (key : AuthorityKey)
    (authority : WriterAuthority) : Prop where
  installed : ∃ root record route, later.register = world.register ++ [root] ∧
    ServingAuthorityRecord.decode root.applicationFence = .ok record ∧ record.key = key ∧
    record.state = .serving authority route ∧
    JournalGenerationRef.fromVirtualLogState root = .ok authority.generationRef
  writable : later.isWritable process authority.generationRef.activeLogletId = true
  others : OnlyOf process world.resolvers later.resolvers

variable (stop) in
theorem publishSuccessor_ends {observed : VirtualLogState} {owner : OwnerId} {term : WriterTerm}
    {revision start : UInt64} {successor : LogletId} (owned : owner.bytes ≠ repeated 16 0)
    (short : (utf8 successor.text).length < 2 ^ 16) (current : world.current = some observed)
    (ready : world.Successor observed revision successor start) :
    let generation := JournalGenerationRef.fromActiveGeneration revision successor start
    ∃ later, Ends (World.until stop)
        (foundation.publishSuccessor observed owner term generation) world (later, .ok generation) ∧
      Published world later foundation.process foundation.key ⟨owner, term, generation⟩ := by
  intro generation
  have fits : (utf8 generation.activeLogletId.text).length < 2 ^ 16 := short
  obtain ⟨fence, made⟩ := foundation.servingFence_of_owned term owned fits
  obtain ⟨route, decoded⟩ := foundation.servingFence_eq_ok made
  have next := ready.reconfigured fence
  have bound : JournalGenerationRef.fromVirtualLogState
      ⟨revision, observed.generations ++ [⟨successor, start⟩], fence⟩ = .ok generation := by
    simp [JournalGenerationRef.fromVirtualLogState, VirtualLogState.active]
    rfl
  have live := foundation.live_of_record decoded rfl bound
  refine ⟨(world.install
    ⟨revision, observed.generations ++ [⟨successor, start⟩], fence⟩).setResolved
    foundation.process successor .writable, ?_, ?_⟩
  · refine ends_ofExcept made ?_
    refine ends_ask (until_reconfigure stop current next) ?_
    refine ends_ask rfl ?_
    refine Ends.bind (foundation.observeLive_ends ?_ live) rfl
    simp [World.current, World.setResolved, World.install]
  · refine ⟨⟨_, _, route, rfl, decoded, rfl, rfl, bound⟩, ?_, onlyOf_setResolved _ _ _ _⟩
    simp [World.isWritable, World.setResolved, generation,
      JournalGenerationRef.fromActiveGeneration]

/-- A root whose active generation can be replaced: its loglets are there, and the next revision
and the boundary fit their fields. -/
structure Replaceable (world : World) (observed : VirtualLogState)
    (predecessor : GenerationDescriptor) (loglet : Loglet) (revision start : UInt64) : Prop where
  current : world.current = some observed
  active : observed.active = some predecessor
  claimed : ∀ generation ∈ observed.generations, (world.loglets generation.logletId).isSome
  found : world.loglets predecessor.logletId = some loglet
  revision : checkedAdd64 observed.revision 1 = some revision
  boundary : checkedAdd64 predecessor.start loglet.tail = some start

/-- The world with a predecessor sealed, whatever a process has resolved meanwhile. -/
def withSealed (world : World) (predecessor : LogletId) (loglet : Loglet)
    (resolvers : Nat → LogletId → Option ResolvedLoglet) : World :=
  { world with
    resolvers
    loglets := Function.update world.loglets predecessor (some { loglet with isSealed := true }) }

variable {observed : VirtualLogState} {predecessor : GenerationDescriptor} {loglet : Loglet}
variable {revision start : UInt64}

variable (stop) in
/-- Up to the first checkpoint a run seals the predecessor. -/
theorem replaceExpected_seals
    (replaceable : Replaceable world observed predecessor loglet revision start) :
    ∃ resolvers, OnlyOf foundation.process world.resolvers resolvers ∧
      ∀ (publication : ServingPublication)
      (after : World × Except FoundationTransitionError JournalGenerationRef),
      Ends (World.until stop) (do
        atCheckpoint .predecessorSealed
        let revision ← ofExcept (nextRevision observed)
        let start ← sealedPredecessorStart predecessor.logletId predecessor.start
        foundation.installSuccessor observed publication revision start)
        (withSealed world predecessor.logletId loglet resolvers) after →
      Ends (World.until stop) (foundation.replaceExpected observed publication) world after := by
  obtain ⟨resolvers, others, resolved⟩ :=
    foundation.ensureMembershipResolvable_ends stop observed.generations replaceable.claimed
  have found : ({ world with resolvers } : World).loglets predecessor.logletId = some loglet :=
    replaceable.found
  obtain ⟨later, kept, closed⟩ := foundation.ensurePredecessorSealed_ends stop found
  refine ⟨later, others.trans kept, ?_⟩
  intro publication after ends
  unfold replaceExpected
  rw [replaceable.active]
  refine Ends.bind resolved ?_
  exact Ends.bind closed ends

variable (stop) in
/-- Past the first checkpoint it reads the boundary. -/
theorem replaceExpected_bounds
    (replaceable : Replaceable world observed predecessor loglet revision start)
    (passes : stop ≠ some .predecessorSealed) :
    ∃ resolvers, OnlyOf foundation.process world.resolvers resolvers ∧
      ∀ (publication : ServingPublication)
      (after : World × Except FoundationTransitionError JournalGenerationRef),
      Ends (World.until stop) (foundation.installSuccessor observed publication revision start)
        (withSealed world predecessor.logletId loglet resolvers) after →
      Ends (World.until stop) (foundation.replaceExpected observed publication) world after := by
  obtain ⟨resolvers, others, reaches⟩ := foundation.replaceExpected_seals stop replaceable
  refine ⟨resolvers, others, ?_⟩
  intro publication after ends
  apply reaches
  refine Ends.bind (atCheckpoint_ends passes) ?_
  have next : nextRevision observed = .ok revision := by
    unfold nextRevision
    rw [replaceable.revision]
  refine ends_ofExcept next ?_
  refine Ends.bind (sealedPredecessorStart_ends ?_ replaceable.boundary) ends
  exact Function.update_self _ _ _

/-- The names of the attempts, each short enough for a record. -/
structure Names (revision : UInt64) (term : WriterTerm) (name : Nat → LogletId) : Prop where
  given : ∀ attempt ∈ List.range maxCandidateAttempts, foundation.logletIds revision term
    foundation.identity.ownerId attempt = .ok (name attempt)
  short : ∀ attempt ∈ List.range maxCandidateAttempts,
    (utf8 (name attempt).text).length < 2 ^ 16

/-- What an interrupted run leaves: the root, the predecessor sealed at its tail, and no more
claims than one, if it got that far. -/
structure Interrupted (world later : World) (predecessor : LogletId) (loglet : Loglet)
    (reached : FoundationTransitionCheckpoint) : Prop where
  register : later.register = world.register
  predecessor : later.loglets predecessor = some { loglet with isSealed := true }
  kept : ∀ id, (world.loglets id).isSome → (later.loglets id).isSome
  claims : ∃ names : List LogletId,
    names.length ≤ [reached].count .successorProvisioned ∧
    ∀ id, (later.loglets id).isSome → (world.loglets id).isSome ∨ id ∈ names

omit [Digests] in
theorem withSealed_claims {id target : LogletId} (found : world.loglets target = some loglet)
    (claimed : ((withSealed world target loglet resolvers).loglets id).isSome) :
    (world.loglets id).isSome := by
  by_cases same : id = target
  · subst same
    rw [found]
    rfl
  · simpa [withSealed, same] using claimed

omit [Digests] in
theorem withSealed_kept {id target : LogletId} (claimed : (world.loglets id).isSome) :
    ((withSealed world target loglet resolvers).loglets id).isSome := by
  by_cases same : id = target
  · simp [withSealed, same]
  · simpa [withSealed, same] using claimed

omit [Digests] in
theorem withSealed_free {id target : LogletId} (found : world.loglets target = some loglet)
    (free : world.loglets id = none) :
    (withSealed world target loglet resolvers).loglets id = none := by
  by_contra held
  have claimed := withSealed_claims found (Option.isSome_iff_ne_none.mpr held)
  rw [free] at claimed
  cases claimed

omit [Digests] in
variable (stop) in
/-- Over a sealed predecessor a successor is provisioned under a free name. -/
theorem provisionFrom_sealed {target : LogletId} {term : WriterTerm} {name : Nat → LogletId}
    (names : foundation.Names revision term name) (found : world.loglets target = some loglet)
    (free : ∃ attempt ∈ List.range maxCandidateAttempts, world.loglets (name attempt) = none) :
    ∃ attempt ∈ List.range maxCandidateAttempts, world.loglets (name attempt) = none ∧
      target ≠ name attempt ∧ Ends (World.until stop)
        (foundation.provisionFrom revision term (List.range maxCandidateAttempts) none)
        (withSealed world target loglet resolvers)
        ((withSealed world target loglet resolvers).setLoglet (name attempt) ⟨0, false⟩,
          .ok (name attempt)) := by
  obtain ⟨attempt, member, unclaimed⟩ := free
  obtain ⟨chosen, tried, fresh, provisioned⟩ := foundation.provisionFrom_ends stop _ none
    names.given ⟨attempt, member, withSealed_free found unclaimed⟩
  have apart : target ≠ name chosen := by
    intro same
    rw [← same] at fresh
    simp [withSealed] at fresh
  exact ⟨chosen, tried, by simpa [withSealed, apart.symm] using fresh, apart, provisioned⟩

theorem replaceExpected_stops {name : Nat → LogletId} (publication : ServingPublication)
    (replaceable : Replaceable world observed predecessor loglet revision start)
    (names : foundation.Names revision publication.authority.writerTerm name)
    (free : ∃ attempt ∈ List.range maxCandidateAttempts, world.loglets (name attempt) = none)
    (reached : FoundationTransitionCheckpoint) :
    ∃ later error, Ends (World.until (some reached))
        (foundation.replaceExpected observed publication) world (later, .error error) ∧
      Interrupted world later predecessor.logletId loglet reached := by
  have found := replaceable.found
  cases reached with
  | predecessorSealed =>
      obtain ⟨resolvers, -, reaches⟩ :=
        foundation.replaceExpected_seals (some .predecessorSealed) replaceable
      refine ⟨_, _, reaches publication _ (Ends.fail (atCheckpoint_stops _)), rfl, ?_,
        fun _ => withSealed_kept, [], ?_, ?_⟩
      · exact Function.update_self _ _ _
      · simp
      · intro id claimed
        exact .inl (withSealed_claims found claimed)
  | sealedTailObserved =>
      have passes : some FoundationTransitionCheckpoint.sealedTailObserved ≠
          some .predecessorSealed := by decide
      obtain ⟨resolvers, -, reaches⟩ := foundation.replaceExpected_bounds _ replaceable passes
      refine ⟨_, _, reaches publication _ (Ends.fail (atCheckpoint_stops _)), rfl, ?_,
        fun _ => withSealed_kept, [], ?_, ?_⟩
      · exact Function.update_self _ _ _
      · simp
      · intro id claimed
        exact .inl (withSealed_claims found claimed)
  | successorProvisioned =>
      have passes : some FoundationTransitionCheckpoint.successorProvisioned ≠
          some .predecessorSealed := by decide
      have passed : some FoundationTransitionCheckpoint.successorProvisioned ≠
          some .sealedTailObserved := by decide
      obtain ⟨resolvers, -, reaches⟩ := foundation.replaceExpected_bounds _ replaceable passes
      obtain ⟨chosen, -, -, apart, provisioned⟩ := foundation.provisionFrom_sealed
        (some .successorProvisioned) names found free
      refine ⟨_, _, reaches publication _ (Ends.bind (atCheckpoint_ends passed)
        (Ends.bind provisioned (Ends.fail (atCheckpoint_stops _)))), rfl, ?_, ?_, [name chosen],
        ?_, ?_⟩
      · simp [World.setLoglet, withSealed, apart]
      · intro id claimed
        by_cases same : id = name chosen
        · simp [World.setLoglet, same]
        · simpa [World.setLoglet, same] using withSealed_kept claimed
      · simp
      · intro id claimed
        by_cases same : id = name chosen
        · exact .inr (by simp [same])
        · left
          apply withSealed_claims found
          simpa [World.setLoglet, same] using claimed

/-- A run that is not interrupted installs a successor. -/
theorem replaceExpected_completes {name : Nat → LogletId} (publication : ServingPublication)
    (replaceable : Replaceable world observed predecessor loglet revision start)
    (names : foundation.Names revision publication.authority.writerTerm name)
    (free : ∃ attempt ∈ List.range maxCandidateAttempts, world.loglets (name attempt) = none) :
    ∃ later attempt, let generation :=
        JournalGenerationRef.fromActiveGeneration revision (name attempt) start
      Ends (World.until none) (foundation.replaceExpected observed publication) world
        (later, .ok generation) ∧
      Published world later foundation.process foundation.key
        ⟨publication.authority.ownerId, publication.authority.writerTerm, generation⟩ := by
  have found := replaceable.found
  obtain ⟨resolvers, others, reaches⟩ :=
    foundation.replaceExpected_bounds none replaceable (by decide)
  obtain ⟨chosen, tried, new, apart, provisioned⟩ :=
    foundation.provisionFrom_sealed none names found free
  have ready : ((withSealed world predecessor.logletId loglet resolvers).setLoglet (name chosen)
      ⟨0, false⟩).Successor observed revision (name chosen) start := by
    refine ⟨replaceable.revision, ⟨predecessor, { loglet with isSealed := true },
      replaceable.active, ?_, rfl, replaceable.boundary⟩, ?_, ?_⟩
    · simp [World.setLoglet, withSealed, apart]
    · intro named
      obtain ⟨generation, held, same⟩ := List.mem_map.mp named
      have claimed := replaceable.claimed generation held
      rw [same, new] at claimed
      cases claimed
    · simp [World.setLoglet]
  have current : ((withSealed world predecessor.logletId loglet resolvers).setLoglet (name chosen)
      ⟨0, false⟩).current = some observed := replaceable.current
  obtain ⟨later, published, outcome⟩ := foundation.publishSuccessor_ends none publication.owned
    (names.short chosen tried) current ready
  refine ⟨later, chosen, reaches publication _ (Ends.bind (atCheckpoint_ends (by decide))
    (Ends.bind provisioned (Ends.bind (atCheckpoint_ends (by decide)) published))), ?_⟩
  exact ⟨outcome.installed, outcome.writable, others.trans outcome.others⟩

theorem drive_ends {key : AuthorityKey} {publication : ServingPublication}
    {expected : JournalGenerationRef}
    {after : World × Except FoundationTransitionError JournalGenerationRef}
    (configured : key = foundation.key)
    (candidate : publication.authority.ownerId = foundation.identity.ownerId)
    (keyed : publication.key = key) (current : world.current = some observed)
    (live : foundation.live (.ok observed) = .ok (some (observed, generation)))
    (same : sameActiveMembership generation expected = true)
    (replaced : Ends (World.until stop) (foundation.replaceExpected observed publication) world
      after) :
    Ends (World.until stop) (foundation.drive key publication (.expected expected))
      world after := by
  have key' : foundation.requireConfiguredKey key = .ok () := by
    simp [requireConfiguredKey, configured]
  have owner : foundation.requireLocalCandidate publication.authority.ownerId = .ok () := by
    simp [requireLocalCandidate, candidate]
  refine ends_ofExcept key' (ends_ofExcept owner ?_)
  rw [if_neg (not_not.mpr keyed)]
  refine Ends.bind (foundation.observeLive_ends current live) ?_
  dsimp only
  rw [if_pos same]
  exact replaced

end HolylogJournalFoundation

end names

end Scripture
