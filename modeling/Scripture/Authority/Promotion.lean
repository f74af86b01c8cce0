import Scripture.Authority.Resume

set_option autoImplicit false

/- What holds of every register the coordinators reach, and of every intent on it: an intent is
carried out by the next run that is not interrupted. -/
namespace Scripture

open ByteFormat Interleaving

theorem nonemptyNames_accepts : @AcceptsNames nonemptyNames := by
  let names := nonemptyNames
  refine ⟨rfl, ?_⟩
  intro revision term owner attempt _
  apply if_neg
  intro empty
  have length := congrArg (fun name => (utf8 name).length) empty
  have first : (utf8 "g").length = 1 := by decide
  have none : (utf8 "").length = 0 := by decide
  simp only [candidateName, utf8_length_append] at length
  omega

section names

variable [LogletNames]

variable {world : World}

variable [Digests]

namespace AuthorityCoordinator

variable (coordinator : AuthorityCoordinator) {world : World}

/-- An intent on the root of a reachable world stands there. -/
theorem standing_of_reached {root : VirtualLogState} {record : ServingAuthorityRecord}
    {intent : TransitionIntent} {expected : JournalGenerationRef} (reached : world.Reached)
    (current : world.current = some root)
    (decoded : ServingAuthorityRecord.decode root.applicationFence = .ok record)
    (transitioning : record.state = .transitioning intent)
    (expects : intent.precondition = .expected expected)
    (candidate : coordinator.Candidate record.key intent.candidateOwnerId)
    (number : root.revision.toNat + 1 < 2 ^ 64)
    (boundary : ∀ loglet, world.loglets expected.activeLogletId = some loglet →
      expected.activeStart.toNat + loglet.tail.toNat < 2 ^ 64) :
    ∃ loglet start, coordinator.Standing world root record intent expected loglet
      (root.revision + 1) start := by
  have held : root ∈ world.register := List.mem_of_getLast? current
  have intends : Intends root record.key intent :=
    ⟨record, record_of_decode decoded, rfl, transitioning⟩
  have active := reached.sane.lawful.intends_active root held _ _ _ intends expects
  have claimed : ∀ generation ∈ root.generations, (world.loglets generation.logletId).isSome := by
    intro generation member
    exact reached.sane.claimed root held _ (List.mem_map_of_mem member)
  have present : (world.loglets expected.activeLogletId).isSome := by
    obtain ⟨earlier, generations⟩ := active
    exact claimed ⟨expected.activeLogletId, expected.activeStart⟩ (by simp [generations])
  obtain ⟨loglet, found⟩ := Option.isSome_iff_exists.mp present
  have next : checkedAdd64 root.revision 1 = some (root.revision + 1) := if_pos number
  have start : checkedAdd64 expected.activeStart loglet.tail =
      some (expected.activeStart + loglet.tail) := if_pos (boundary loglet found)
  exact ⟨loglet, _, current, decoded, transitioning, expects, candidate, active, claimed, found,
    next, start⟩

end AuthorityCoordinator

theorem HolylogJournalFoundation.Published.isEffectiveWriter {later : World} {process : Nat}
    {key : AuthorityKey} {authority : WriterAuthority} {serving : ServingAuthorityRecord}
    {installed : VirtualLogState} (published : Published world later process key authority)
    (current : later.current = some installed)
    (decoded : ServingAuthorityRecord.decode installed.applicationFence = .ok serving) :
    (∃ route, serving.state = .serving authority route) ∧
      serving.isEffectiveWriter installed authority.ownerId
        (later.isWritable process authority.generationRef.activeLogletId) false = true := by
  obtain ⟨root, record, route, register, held, -, state, bound⟩ := published.installed
  unfold World.current at current
  rw [register, List.getLast?_concat] at current
  cases current
  rw [decoded] at held
  cases held
  refine ⟨⟨route, state⟩, ?_⟩
  simp [ServingAuthorityRecord.isEffectiveWriter, published.writable, decoded, state, bound]

/-- A world that calls one after the other have led to from an empty register. -/
def World.Alone (world : World) : Prop :=
  ∃ initial, initial.register = [] ∧
    Reachable World.act World.Change AuthorityCall initial ⟨world, []⟩

namespace World.Alone

theorem reached {world : World} (alone : world.Alone) : world.Reached := by
  obtain ⟨initial, empty, led⟩ := alone
  exact ⟨initial, _, empty, rfl, led⟩

theorem empty {world : World} (empty : world.register = []) : world.Alone :=
  ⟨world, empty, .refl⟩

theorem ends {world later : World} {stop : Option FoundationTransitionCheckpoint}
    {program : CoordinatorRun ServingAuthorityRecord}
    {result : Except CoordinatorError ServingAuthorityRecord} (alone : world.Alone)
    (call : AuthorityCall program.run)
    (ends : Ends (World.until stop) program world (later, result)) : later.Alone := by
  obtain ⟨initial, empty, led⟩ := alone
  have run := Reachable.exec (outcomeAt stop) call led
  have same : exec (fun world op => World.act world op (outcomeAt stop op)) program.run world =
      (later, result) := ends
  rw [same] at run
  exact ⟨initial, empty, run⟩

end World.Alone

def sampleKey : AuthorityKey := ⟨⟨repeated 16 7⟩, ⟨repeated 16 8⟩⟩

/-- A process of one owner of the sample journal. -/
def sampleCoordinator (process : Nat) (owner : UInt8) : AuthorityCoordinator where
  foundation := {
    key := sampleKey
    identity := ⟨⟨repeated 16 owner⟩, ⟨"node", by decide, by decide, by decide⟩⟩
    logletIds := defaultFreshLogletIdPolicy
    process }
  localOwnerId := ⟨repeated 16 owner⟩
  routeHint := ⟨"node", by decide, by decide⟩

omit [Digests] in
theorem sampleCoordinator_candidate (process : Nat) (owner : UInt8) :
    (sampleCoordinator process owner).Candidate sampleKey ⟨repeated 16 owner⟩ :=
  ⟨rfl, rfl, rfl, rfl⟩

def blankWorld : World := ⟨[], fun _ => none, fun _ _ => none, .objectStore⟩

def firstTerm : WriterTerm := ⟨1, by decide⟩

def secondTerm : WriterTerm := ⟨2, by decide⟩

/-- The root's record and its intent, if there is one. -/
def World.proposal (world : World) : Option (VirtualLogState × ServingAuthorityRecord ×
    TransitionIntent × JournalGenerationRef) := do
  let root ← world.current
  let record ← root.record
  let .transitioning intent := record.state | none
  let .expected expected := intent.precondition | none
  return (root, record, intent, expected)

omit [Digests] in
theorem World.proposal_eq_some {root : VirtualLogState} {record : ServingAuthorityRecord}
    {intent : TransitionIntent} {expected : JournalGenerationRef}
    (found : world.proposal = some (root, record, intent, expected)) :
    world.current = some root ∧ ServingAuthorityRecord.decode root.applicationFence = .ok record ∧
      record.state = .transitioning intent ∧ intent.precondition = .expected expected := by
  obtain ⟨held, current, found⟩ := Option.bind_eq_some_iff.mp found
  obtain ⟨carried, decoded, found⟩ := Option.bind_eq_some_iff.mp found
  split at found
  · rename_i transitioning
    split at found
    · rename_i expects
      cases found
      exact ⟨current, toOption_eq_some.mp decoded, transitioning, expects⟩
    · cases found
  · cases found

/-- The first owner serves. -/
def firstWorld : World :=
  (exec (World.until none) ((sampleCoordinator 1 1).promote sampleKey firstTerm .empty ⟨true, false⟩
    (.error "")).run blankWorld).1

/-- A second owner has made its intent over the first one's generation durable. -/
@[irreducible] def secondWorld [AcceptsNames] (owner : UInt8) : World :=
  (exec (World.until (some .predecessorSealed)) ((sampleCoordinator 2 owner).promote sampleKey
    secondTerm (.expected (.fromActiveGeneration 0 (candidateId 0 firstTerm ⟨repeated 16 1⟩ 0) 0))
    ⟨true, false⟩ (.ok ⟨repeated 16 9⟩)).run firstWorld).1

theorem firstWorld_alone : firstWorld.Alone :=
  (World.Alone.empty rfl).ends (.promote _ _ _ _ _ _) rfl

theorem secondWorld_alone [AcceptsNames] (owner : UInt8) : (secondWorld owner).Alone := by
  unfold secondWorld
  exact firstWorld_alone.ends (.promote _ _ _ _ _ _) rfl

/-- The intent in that world. -/
structure Proposed [AcceptsNames] (owner : UInt8) (root : VirtualLogState)
    (record : ServingAuthorityRecord) (intent : TransitionIntent)
    (expected : JournalGenerationRef) : Prop where
  current : (secondWorld owner).current = some root
  decoded : ServingAuthorityRecord.decode root.applicationFence = .ok record
  transitioning : record.state = .transitioning intent
  expects : intent.precondition = .expected expected
  candidate : (sampleCoordinator 2 owner).Candidate record.key intent.candidateOwnerId
  owned : intent.candidateOwnerId = ⟨repeated 16 owner⟩
  number : root.revision.toNat + 1 < 2 ^ 64
  boundary : ∀ loglet, (secondWorld owner).loglets expected.activeLogletId = some loglet →
    expected.activeStart.toNat + loglet.tail.toNat < 2 ^ 64
  lost : (secondWorld owner).lostAttempts (root.revision + 1) intent.nextWriterTerm
    intent.candidateOwnerId ≤ 1

theorem Proposed.standing [AcceptsNames] {owner : UInt8} {root : VirtualLogState}
    {record : ServingAuthorityRecord} {intent : TransitionIntent} {expected : JournalGenerationRef}
    (proposed : Proposed owner root record intent expected) :
    ∃ loglet start, (sampleCoordinator 2 owner).Standing (secondWorld owner) root record intent
      expected loglet (root.revision + 1) start :=
  (sampleCoordinator 2 owner).standing_of_reached (secondWorld_alone owner).reached proposed.current
    proposed.decoded proposed.transitioning proposed.expects proposed.candidate proposed.number
    proposed.boundary

omit [LogletNames] [Digests] in
theorem exists_proposed (owner : UInt8) (known : owner = 0 ∨ owner = 2) :
    let _ := nonemptyNames
    let _ := nonemptyNames_accepts
    let _ := valueDigests
    ∃ root record intent expected, Proposed owner root record intent expected := by
  intro names accepts digests
  have facts : ((secondWorld owner).proposal.map fun (root, record, intent, expected) =>
      decide (record.key = sampleKey ∧ intent.candidateOwnerId = ⟨repeated 16 owner⟩ ∧
        root.revision.toNat + 1 < 2 ^ 64 ∧ (secondWorld owner).lostAttempts (root.revision + 1)
          intent.nextWriterTerm intent.candidateOwnerId ≤ 1) &&
      ((secondWorld owner).loglets expected.activeLogletId).all fun loglet =>
        decide (expected.activeStart.toNat + loglet.tail.toNat < 2 ^ 64)) = some true := by
    rcases known with rfl | rfl <;> decide +kernel
  obtain ⟨⟨root, record, intent, expected⟩, found, holds⟩ := Option.map_eq_some_iff.mp facts
  obtain ⟨holds, boundary⟩ := Bool.and_eq_true_iff.mp holds
  obtain ⟨key, owned, number, lost⟩ := of_decide_eq_true holds
  obtain ⟨current, decoded, transitioning, expects⟩ := World.proposal_eq_some found
  refine ⟨root, record, intent, expected, current, decoded, transitioning, expects, ?_,
    owned, number,
    ?_, lost⟩
  · rw [key, owned]
    exact sampleCoordinator_candidate 2 owner
  · intro loglet held
    rw [held] at boundary
    exact of_decide_eq_true boundary

/-- However often the runs of a candidate with a nonzero owner were interrupted, while one of the
names it may give a successor is left, its next run serves what the durable intent says. -/
theorem durable_intent_completes [AcceptsNames] (coordinator : AuthorityCoordinator) {world : World}
    {root : VirtualLogState} {record : ServingAuthorityRecord} {intent : TransitionIntent}
    {expected : JournalGenerationRef} (reached : world.Reached)
    (current : world.current = some root)
    (decoded : ServingAuthorityRecord.decode root.applicationFence = .ok record)
    (transitioning : record.state = .transitioning intent)
    (expects : intent.precondition = .expected expected)
    (candidate : coordinator.Candidate record.key intent.candidateOwnerId)
    (nonzero : intent.candidateOwnerId.bytes ≠ repeated 16 0)
    (number : root.revision.toNat + 1 < 2 ^ 64)
    (boundary : ∀ loglet, world.loglets expected.activeLogletId = some loglet →
      expected.activeStart.toNat + loglet.tail.toNat < 2 ^ 64)
    (interruptions : List (AuthorityCoordinator.Retry × FoundationTransitionCheckpoint))
    (few : world.lostAttempts (root.revision + 1) intent.nextWriterTerm intent.candidateOwnerId +
      (interruptions.map Prod.snd).count .successorProvisioned < maxCandidateAttempts)
    (retry : AuthorityCoordinator.Retry) :
    ∃ later serving authority route installed,
      Ends (World.until none) (retry.run coordinator record.key intent.nextWriterTerm expected)
        (coordinator.afterInterruptions record.key intent.nextWriterTerm expected
          interruptions world)
        (later, .ok serving) ∧
      serving.state = .serving authority route ∧
      authority.ownerId = intent.candidateOwnerId ∧
      authority.writerTerm = intent.nextWriterTerm ∧
      later.current = some installed ∧
      serving.isEffectiveWriter installed intent.candidateOwnerId
        (later.isWritable coordinator.foundation.process authority.generationRef.activeLogletId)
        false = true := by
  obtain ⟨loglet, start, standing⟩ := coordinator.standing_of_reached reached current decoded
    transitioning expects candidate number boundary
  obtain ⟨⟨found, stands⟩, left⟩ := standing.afterInterruptions interruptions nonzero few
  obtain ⟨later, serving, authority, ends, published, owner, term, installed, root, shows⟩ :=
    stands.completes nonzero left
  obtain ⟨⟨route, state⟩, effective⟩ := published.isEffectiveWriter root shows
  rw [owner] at effective
  exact ⟨later, serving, authority, route, installed, stands.resumes retry ends, state, owner, term,
    root, effective⟩

omit [LogletNames] [Digests] in
/-- The sample candidate, interrupted once before the intent's world and once after it. -/
theorem durable_intent_completes_second : ∃ (_ : LogletNames) (_ : AcceptsNames) (_ : Digests)
    (world later : World) (record serving : ServingAuthorityRecord)
    (intent : TransitionIntent) (expected : JournalGenerationRef) (authority : WriterAuthority)
    (route : RouteHint), world.Reached ∧ record.state = .transitioning intent ∧
      Ends (World.until none) ((sampleCoordinator 2 2).reconcile record.key ⟨true, false⟩)
        ((sampleCoordinator 2 2).afterInterruptions record.key intent.nextWriterTerm expected
          [(.reconcile, .successorProvisioned)] world) (later, .ok serving) ∧
      serving.state = .serving authority route ∧ authority.ownerId = ⟨repeated 16 2⟩ := by
  let names := nonemptyNames
  let accepts := nonemptyNames_accepts
  let digests := valueDigests
  obtain ⟨root, record, intent, expected, proposed⟩ := exists_proposed 2 (.inr rfl)
  have lost := proposed.lost
  have few : (secondWorld 2).lostAttempts (root.revision + 1) intent.nextWriterTerm
      intent.candidateOwnerId + ([(AuthorityCoordinator.Retry.reconcile,
        FoundationTransitionCheckpoint.successorProvisioned)].map Prod.snd).count
        .successorProvisioned < maxCandidateAttempts := by
    have one : ([(AuthorityCoordinator.Retry.reconcile,
        FoundationTransitionCheckpoint.successorProvisioned)].map Prod.snd).count
        .successorProvisioned = 1 := rfl
    unfold maxCandidateAttempts
    omega
  have reached := (secondWorld_alone 2).reached
  obtain ⟨later, serving, authority, route, installed, ends, serves, author, -⟩ :=
    durable_intent_completes (sampleCoordinator 2 2) reached proposed.current proposed.decoded
      proposed.transitioning proposed.expects proposed.candidate (by rw [proposed.owned]; decide)
      proposed.number proposed.boundary _ few .reconcile
  exact ⟨names, accepts, digests, _, later, record, serving, intent, expected, authority, route,
    reached, proposed.transitioning, ends, serves, author.trans proposed.owned⟩

omit [LogletNames] [Digests] in
/-- The intent of the zero owner is made durable, and no run of that owner carries it out. -/
theorem zero_owner_intent_stuck : ∃ (_ : LogletNames) (_ : AcceptsNames) (_ : Digests)
    (world : World) (root : VirtualLogState) (record : ServingAuthorityRecord)
    (intent : TransitionIntent) (expected : JournalGenerationRef),
    world.Reached ∧ world.current = some root ∧
      ServingAuthorityRecord.decode root.applicationFence = .ok record ∧
      record.state = .transitioning intent ∧ intent.precondition = .expected expected ∧
      (sampleCoordinator 2 0).Candidate record.key intent.candidateOwnerId ∧
      world.lostAttempts (root.revision + 1) intent.nextWriterTerm intent.candidateOwnerId <
        maxCandidateAttempts ∧
      ∀ retry : AuthorityCoordinator.Retry, ∃ message, Ends (World.until none)
        (retry.run (sampleCoordinator 2 0) record.key intent.nextWriterTerm expected) world
        (world, .error (.invalidInput message)) := by
  let names := nonemptyNames
  let accepts := nonemptyNames_accepts
  let digests := valueDigests
  obtain ⟨root, record, intent, expected, proposed⟩ := exists_proposed 0 (.inl rfl)
  have reached := (secondWorld_alone 0).reached
  obtain ⟨loglet, start, standing⟩ := proposed.standing
  have lost := proposed.lost
  refine ⟨names, accepts, digests, _, root, record, intent, expected, reached, proposed.current,
    proposed.decoded, proposed.transitioning, proposed.expects, proposed.candidate, ?_, ?_⟩
  · unfold maxCandidateAttempts
    omega
  · intro retry
    obtain ⟨message, ends⟩ := standing.fails (congrArg OwnerId.bytes proposed.owned)
    exact ⟨message, standing.resumes retry ends⟩

/-- The register holds a chain: an intent directly follows the serving generation it expects, under
a higher term, and the intended writer directly follows it, on a loglet that was in no earlier
generation. What a state serves is bound to the state's own generation. So writer terms increase,
and no earlier generation comes back. -/
theorem reached_register_chain {world : World} (reached : world.Reached) :
    (∀ state, world.register.head? = some state → ∃ key authority, Serves state key authority) ∧
    world.register.IsChain Follows ∧
    (∀ state ∈ world.register, ∀ record authority route, state.record = some record →
      record.state = .serving authority route →
      JournalGenerationRef.fromVirtualLogState state = .ok authority.generationRef) ∧
    ∀ past earlier future later, world.register = past ++ earlier :: future → later ∈ future →
      ∀ key other authority next, Serves earlier key authority → Serves later other next →
        authority.writerTerm.get < next.writerTerm.get ∧
        next.generationRef.activeLogletId ∉ earlier.logletIds := by
  have lawful := reached.sane.lawful
  refine ⟨fun state first => (lawful.first state first).1, lawful.chain, ?_, ?_⟩
  · intro state member record authority route carried serving
    exact (lawful.serves_of_record member carried serving).bound
  · intro past earlier future later split member key other authority next serves again
    rw [split] at lawful
    exact lawful.serves_again member serves again

omit [LogletNames] [Digests] in
/-- The second owner's register, with the intent carried out. -/
theorem reached_register_chain_second : ∃ (_ : LogletNames) (_ : Digests) (world : World)
    (past : List VirtualLogState) (before after : VirtualLogState), world.Reached ∧
      world.register = past ++ [before, after] ∧ Follows before after ∧
      ∃ key intent, Intends before key intent := by
  let names := nonemptyNames
  let accepts := nonemptyNames_accepts
  let digests := valueDigests
  obtain ⟨root, record, intent, expected, proposed⟩ := exists_proposed 2 (.inr rfl)
  obtain ⟨loglet, start, standing⟩ := proposed.standing
  have lost := proposed.lost
  have few : (secondWorld 2).lostAttempts (root.revision + 1) intent.nextWriterTerm
      intent.candidateOwnerId < maxCandidateAttempts := by
    unfold maxCandidateAttempts
    omega
  obtain ⟨later, serving, authority, ends, published, -⟩ :=
    standing.completes (by rw [proposed.owned]; decide) few
  have reached : later.Reached :=
    ((secondWorld_alone 2).ends (.reconcile _ _ _) (standing.resumes .reconcile ends)).reached
  obtain ⟨installed, -, -, register, -⟩ := published.installed
  obtain ⟨past, before⟩ := List.getLast?_eq_some_iff.mp standing.current
  have split : later.register = past ++ [root, installed] := by
    rw [register, before]
    simp
  have chain := (reached_register_chain reached).2.1
  rw [split] at chain
  refine ⟨names, digests, later, past, root, installed, reached, split, ?_, record.key, intent,
    record, record_of_decode standing.decoded, rfl, standing.transitioning⟩
  exact (List.isChain_cons_cons.mp (List.isChain_append.mp chain).2.1).1

end names

end Scripture
