import Scripture.Authority.History

set_option autoImplicit false

/- Any number of coordinators over one register, in any interleaving, with conflicts, lost replies
and interruptions everywhere: the register is lawful in every world they reach. A call that drives
the foundation rests on an intent that has been durable; the swap it ends with succeeds only on
the state that still holds the intent. -/
namespace Scripture

open ByteFormat Interleaving

section names

variable [LogletNames]

namespace World

/-- The register only grows, a claimed loglet stays claimed, and a sealed one stays as it is. -/
structure Grows (world later : World) : Prop where
  register : world.register <+: later.register
  loglets : ∀ id loglet, world.loglets id = some loglet →
    ∃ after, later.loglets id = some after ∧ (loglet.isSealed = true → after = loglet)

theorem Grows.refl (world : World) : Grows world world :=
  ⟨List.prefix_refl _, fun _ loglet found => ⟨loglet, found, fun _ => rfl⟩⟩

theorem Grows.trans {first second third : World} (one : Grows first second)
    (two : Grows second third) : Grows first third := by
  refine ⟨one.register.trans two.register, ?_⟩
  intro id loglet found
  obtain ⟨middle, held, same⟩ := one.loglets id loglet found
  obtain ⟨after, held, again⟩ := two.loglets id middle held
  refine ⟨after, held, ?_⟩
  intro isSealed
  obtain rfl := same isSealed
  exact again isSealed

theorem Grows.claimed {world later : World} (grows : Grows world later) {id : LogletId}
    (claimed : (world.loglets id).isSome) : (later.loglets id).isSome := by
  obtain ⟨loglet, found⟩ := Option.isSome_iff_exists.mp claimed
  obtain ⟨after, held, -⟩ := grows.loglets id loglet found
  rw [held]
  rfl

theorem Grows.mem {world later : World} (grows : Grows world later) {state : VirtualLogState}
    (member : state ∈ world.register) : state ∈ later.register :=
  grows.register.subset member

theorem current_mem {world : World} {state : VirtualLogState}
    (current : world.current = some state) :
    state ∈ world.register :=
  List.mem_of_getLast? current

variable [Digests]

/-- The register is lawful, and every loglet it names has been claimed. -/
structure Sane (world : World) : Prop where
  lawful : Lawful world.register
  claimed : ∀ state ∈ world.register, ∀ id ∈ state.logletIds, (world.loglets id).isSome

/-- How the shared world acts, and what every change of it keeps. -/
def rules : Rules World Op Op.Reply Outcome where
  act := act
  Invariant := Sane
  Grows := Grows
  refl := Grows.refl
  trans := Grows.trans

/-- A change that leaves the register alone. -/
theorem Sane.of_register {world later : World} (sane : Sane world) (grows : Grows world later)
    (same : later.register = world.register) : Sane later := by
  refine ⟨same ▸ sane.lawful, ?_⟩
  intro state member id held
  rw [same] at member
  exact grows.claimed (sane.claimed state member id held)

end World

/-- An operation that does not touch the register. -/
def Op.Quiet : Op → Prop
  | .updateApplicationFence _ _ => False
  | .bootstrapWithReceipt _ _ => False
  | .reconfigureWithReceipt _ _ _ => False
  | _ => True

namespace World

theorem setLoglet_grows {world : World} {id : LogletId} {durable : Loglet}
    (keeps : ∀ loglet, world.loglets id = some loglet → loglet.isSealed = true → durable = loglet) :
    Grows world (world.setLoglet id durable) := by
  refine ⟨List.prefix_refl _, ?_⟩
  intro other loglet found
  by_cases same : other = id
  · subst same
    exact ⟨durable, by simp [setLoglet], keeps loglet found⟩
  · exact ⟨loglet, by simp [setLoglet, same, found], fun _ => rfl⟩

theorem act_quiet {op : Op} (quiet : op.Quiet) (world : World) (outcome : Outcome) :
    (world.act op outcome).1.register = world.register ∧
      Grows world (world.act op outcome).1 := by
  cases op with
  | updateApplicationFence observed fence => cases quiet
  | bootstrapWithReceipt loglet fence => cases quiet
  | reconfigureWithReceipt observed loglet fence => cases quiet
  | sealLoglet loglet =>
      simp only [act]
      split
      · exact ⟨rfl, .refl _⟩
      · rename_i durable found
        split
        · refine ⟨rfl, setLoglet_grows ?_⟩
          intro held same isSealed
          rw [found] at same
          cases same
          rw [← isSealed]
        · exact ⟨rfl, .refl _⟩
  | provisionFresh loglet =>
      simp only [act]
      split
      · exact ⟨rfl, .refl _⟩
      · rename_i free
        split
        · refine ⟨rfl, setLoglet_grows ?_⟩
          intro held same
          rw [free] at same
          cases same
        · exact ⟨rfl, .refl _⟩
  | observeMembership => exact ⟨rfl, .refl _⟩
  | openParts loglet => exact ⟨rfl, .refl _⟩
  | freshParts loglet => exact ⟨rfl, .refl _⟩
  | resolveReadSeal loglet => exact ⟨rfl, .refl _⟩
  | observeDurable loglet => exact ⟨rfl, .refl _⟩
  | checkTailIfSealed loglet => exact ⟨rfl, .refl _⟩
  | checkpoint reached => exact ⟨rfl, .refl _⟩
  | contains process loglet => exact ⟨rfl, .refl _⟩
  | insertReadSeal process loglet =>
      exact ⟨rfl, List.prefix_refl _, fun _ held found => ⟨held, found, fun _ => rfl⟩⟩
  | insertWritable process loglet =>
      exact ⟨rfl, List.prefix_refl _, fun _ held found => ⟨held, found, fun _ => rfl⟩⟩

/-- A swap leaves the world as it is, or installs the next state over the observed one. An
applied answer means the latter. -/
theorem swap_cases {α : Type} (world : World) (observed : VirtualLogState)
    (next : Option VirtualLogState) (outcome : Outcome) {applied conflict : α}
    (distinct : applied ≠ conflict) :
    (∃ state, world.current = some observed ∧ next = some state ∧
      (world.swap observed next outcome applied conflict).1 = world.install state) ∨
    ((world.swap observed next outcome applied conflict).1 = world ∧
      (world.swap observed next outcome applied conflict).2 ≠ .ok applied) := by
  obtain ⟨takesEffect, answer⟩ := outcome
  unfold swap
  split
  · rename_i holds
    cases next with
    | none =>
        right
        cases answer <;> exact ⟨rfl, by simp [Outcome.reply]⟩
    | some state => exact .inl ⟨state, holds.1, rfl, rfl⟩
  · right
    cases answer <;> exact ⟨rfl, by simp [distinct.symm]⟩

variable [Digests]

theorem Sane.quiet {op : Op} (quiet : op.Quiet) (world : World) (outcome : Outcome)
    (sane : Sane world) :
    Sane (world.act op outcome).1 ∧ Grows world (world.act op outcome).1 := by
  obtain ⟨same, grows⟩ := act_quiet quiet world outcome
  exact ⟨sane.of_register grows same, grows⟩

/-- Installing a state that follows the current one, all of whose loglets are claimed. -/
theorem Sane.install {world : World} {next : VirtualLogState} (sane : Sane world)
    (lawful : Lawful (world.register ++ [next]))
    (claimed : ∀ id ∈ next.logletIds, (world.loglets id).isSome) :
    Sane (world.install next) ∧ Grows world (world.install next) := by
  refine ⟨⟨lawful, ?_⟩, List.prefix_append _ _, fun _ loglet found => ⟨loglet, found, fun _ => rfl⟩⟩
  intro state member id held
  rcases List.mem_append.mp member with member | member
  · exact sane.claimed state member id held
  · rw [List.mem_singleton.mp member] at held
    exact claimed id held

end World

section programs

variable [Digests] {ε α : Type} {post : World → α → Prop} {world : World}

theorem returns_quiet {op : Op} {rest : op.Reply → ExceptT ε (Program Op Op.Reply) α}
    (quiet : op.Quiet)
    (performed : ∀ later reply, world.Grows later → later.Sane →
      Returns World.rules post (rest reply) later) :
    Returns World.rules post (ask op >>= rest) world := by
  refine Returns.any ?_ performed
  intro later outcome sane
  exact World.Sane.quiet quiet later outcome sane

theorem returns_ofExcept {result : Except ε α}
    (holds : ∀ later value, world.Grows later → later.Sane → result = .ok value →
      post later value) : Returns World.rules post (ofExcept result) world := by
  intro later grows sane value same
  exact holds later value grows sane same

theorem returns_bind_ofExcept {β : Type} {result : Except ε β}
    {rest : β → ExceptT ε (Program Op Op.Reply) α}
    (holds : ∀ later value, world.Grows later → later.Sane → result = .ok value →
      Returns World.rules post (rest value) later) :
    Returns World.rules post (ofExcept result >>= rest) world := by
  have given : Returns World.rules (fun _ value => result = .ok value) (ofExcept result) world :=
    returns_ofExcept fun _ _ _ _ same => same
  apply Returns.bind given
  intro later value grows sane same
  exact holds later value grows sane same

theorem returns_observe
    {rest : Except VirtualLogError VirtualLogState → ExceptT ε (Program Op Op.Reply) α}
    (performed : ∀ later reply, world.Grows later → later.Sane →
      (∀ state, reply = .ok state → state ∈ later.register) →
      Returns World.rules post (rest reply) later) :
    Returns World.rules post (ask Op.observeMembership >>= rest) world := by
  apply Returns.read
  · intro later outcome
    rfl
  intro later grows sane outcome
  apply performed later _ grows sane
  intro state same
  obtain ⟨takesEffect, answer⟩ := outcome
  cases answer with
  | truthful =>
      cases current : later.current with
      | none =>
          simp [World.rules, World.act, Outcome.reply, current] at same
      | some held =>
          simp only [World.rules, World.act, Outcome.reply, current, Except.ok.injEq] at same
          rw [← same]
          exact World.current_mem current
  | conflict => cases same
  | error message => cases same

theorem returns_ask {op : Op} (quiet : op.Quiet) :
    Returns World.rules (fun _ _ => True)
      (ask op : ExceptT ε (Program Op Op.Reply) op.Reply) world := by
  intro later grows sane outcome
  obtain ⟨kept, grown⟩ := World.Sane.quiet quiet later outcome sane
  exact ⟨kept, grown, fun _ _ _ _ _ => trivial⟩

theorem returns_checked {β : Type} {op : Op} {check : op.Reply → Except ε β}
    {rest : β → ExceptT ε (Program Op Op.Reply) α} (quiet : op.Quiet)
    (performed : ∀ later value, world.Grows later → later.Sane →
      Returns World.rules post (rest value) later) :
    Returns World.rules post (do
      let answer ← ask op
      let value ← ofExcept (check answer)
      rest value) world := by
  apply returns_quiet quiet
  intro later reply grows sane
  apply returns_bind_ofExcept
  intro last value grown still same
  exact performed last value (grows.trans grown) still

end programs

namespace HolylogJournalFoundation

variable [Digests] (foundation : HolylogJournalFoundation) {world : World}

theorem observeLive_returns : Returns World.rules
    (fun later live => ∀ observed generation, live = some (observed, generation) →
      observed ∈ later.register ∧
        JournalGenerationRef.fromVirtualLogState observed = .ok generation)
    foundation.observeLive world := by
  apply returns_observe
  intro later reply grows sane held
  apply returns_ofExcept
  intro last live grown still same observed generation found
  subst found
  cases reply with
  | error error => cases error <;> cases same
  | ok state =>
      unfold live at same
      dsimp only at same
      split at same
      · cases same
      split at same
      · cases same
      obtain ⟨ref, bound, same⟩ := bind_eq_ok.mp same
      cases same
      exact ⟨grown.mem (held _ rfl), mapError_eq_ok.mp bound⟩

theorem ensureMembershipResolvable_returns (generations : List GenerationDescriptor) :
    Returns World.rules (fun _ _ => True)
      (foundation.ensureMembershipResolvable generations) world := by
  induction generations generalizing world with
  | nil => exact Returns.pure fun _ _ _ => trivial
  | cons generation rest ih =>
      apply returns_quiet (by trivial)
      intro later present _ _
      cases present with
      | true => exact ih
      | false =>
          apply returns_checked (by trivial)
          intro later _ _ _
          apply returns_checked (by trivial)
          intro later _ _ _
          apply returns_quiet (by trivial)
          intro later _ _ _
          exact ih

theorem ensurePredecessorSealed_returns (predecessor : LogletId) :
    Returns World.rules (fun _ _ => True)
      (foundation.ensurePredecessorSealed predecessor) world := by
  apply returns_checked (by trivial)
  intro later _ _ _
  apply returns_checked (by trivial)
  intro later _ _ _
  apply returns_checked (by trivial)
  intro later isSealed _ _
  cases isSealed with
  | true => exact returns_ask (by trivial)
  | false =>
      apply returns_checked (by trivial)
      intro later _ _ _
      exact returns_ask (by trivial)

theorem atCheckpoint_returns (reached : FoundationTransitionCheckpoint) :
    Returns World.rules (fun _ _ => True) (atCheckpoint reached) world := by
  apply returns_quiet (by trivial)
  intro later _ _ _
  exact returns_ofExcept fun _ _ _ _ _ => trivial

omit [Digests] in
theorem checkTailIfSealed_boundary {loglet : LogletId} {start value : UInt64} {outcome : Outcome}
    (success : boundary start (world.act (.checkTailIfSealed loglet) outcome).2 = .ok value) :
    ∃ durable, world.loglets loglet = some durable ∧ durable.isSealed = true ∧
      checkedAdd64 start durable.tail = some value := by
  obtain ⟨takesEffect, answer⟩ := outcome
  cases answer with
  | conflict => cases success
  | error message => cases success
  | truthful =>
      simp only [World.act, Outcome.reply] at success
      cases found : world.loglets loglet with
      | none => simp [found, boundary] at success
      | some durable =>
          cases isSealed : durable.isSealed with
          | false => simp [found, isSealed, boundary] at success
          | true =>
              cases sum : checkedAdd64 start durable.tail with
              | none => simp [found, isSealed, sum, boundary] at success
              | some total =>
                  simp only [found, isSealed, sum, boundary, if_true] at success
                  cases success
                  exact ⟨durable, rfl, isSealed, sum⟩

/-- The boundary read is that of a sealed predecessor, whose tail does not change any more. -/
theorem sealedPredecessorStart_returns (predecessor : LogletId) (start : UInt64) :
    Returns World.rules
      (fun later boundary => ∃ loglet, later.loglets predecessor = some loglet ∧
        loglet.isSealed = true ∧ checkedAdd64 start loglet.tail = some boundary)
      (sealedPredecessorStart predecessor start) world := by
  apply returns_checked (by trivial)
  intro later _ _ _
  apply returns_checked (by trivial)
  intro later _ _ _
  apply Returns.ask
  intro later _ sane outcome
  refine ⟨sane, World.Grows.refl _, ?_⟩
  apply returns_ofExcept
  intro last value grown still same
  obtain ⟨loglet, found, isSealed, sum⟩ := checkTailIfSealed_boundary same
  obtain ⟨after, held, kept⟩ := grown.loglets predecessor loglet found
  obtain rfl := kept isSealed
  exact ⟨after, held, isSealed, sum⟩

omit [Digests] in
theorem provisionFresh_ok {loglet : LogletId} {outcome : Outcome}
    (success : (world.act (.provisionFresh loglet) outcome).2 = .ok ()) :
    world.loglets loglet = none ∧
      ((world.act (.provisionFresh loglet) outcome).1.loglets loglet).isSome := by
  obtain ⟨takesEffect, answer⟩ := outcome
  cases found : world.loglets loglet with
  | some durable => cases answer <;> simp [World.act, found, Outcome.reply] at success
  | none =>
      cases takesEffect with
      | false => cases answer <;> simp [World.act, found, Outcome.reply] at success
      | true => exact ⟨rfl, by simp [World.act, found, World.setLoglet]⟩

/-- A successor is claimed, and under none of the names of the states the register held before. -/
theorem provisionFrom_returns (revision : UInt64) (term : WriterTerm) (attempts : List Nat)
    (lastError : Option String) (states : List VirtualLogState)
    (held : ∀ state ∈ states, state ∈ world.register) :
    Returns World.rules
      (fun later successor => (∀ state ∈ states, successor ∉ state.logletIds) ∧
        (later.loglets successor).isSome)
      (foundation.provisionFrom revision term attempts lastError) world := by
  induction attempts generalizing world lastError with
  | nil => exact Returns.throw _ _
  | cons attempt rest ih =>
      apply returns_bind_ofExcept
      intro later successor grows _ _
      apply returns_quiet (by trivial)
      intro later' parts grown _
      have held : ∀ state ∈ states, state ∈ later'.register := fun state member =>
        grown.mem (grows.mem (held state member))
      cases parts with
      | error message => exact ih _ held
      | ok _ =>
          apply Returns.ask
          intro last grown sane outcome
          have held : ∀ state ∈ states, state ∈ last.register := fun state member =>
            grown.mem (held state member)
          have quiet : (Op.provisionFresh successor).Quiet := trivial
          obtain ⟨kept, after⟩ := World.Sane.quiet quiet last outcome sane
          refine ⟨kept, after, ?_⟩
          have claims : (World.rules.act last (.provisionFresh successor) outcome).2 = .ok () →
              last.loglets successor = none ∧
                ((last.act (.provisionFresh successor) outcome).1.loglets successor).isSome :=
            provisionFresh_ok
          generalize (World.rules.act last (.provisionFresh successor) outcome).2 =
            reply at claims ⊢
          cases reply with
          | error error =>
              cases error with
              | namespaceAlreadyClaimed =>
                  apply ih
                  intro state member
                  exact after.mem (held state member)
              | other message => exact Returns.throw _ _
          | ok _ =>
              obtain ⟨free, claimed⟩ := claims rfl
              apply Returns.pure
              intro end' grown _
              refine ⟨?_, grown.claimed claimed⟩
              intro state member named
              have before := sane.claimed state (held state member) successor named
              rw [free] at before
              cases before

omit [Digests] in
theorem servingFence_eq_ok {owner : OwnerId} {term : WriterTerm}
    {generation : JournalGenerationRef} {fence : Bytes}
    (success : foundation.servingFence owner term generation = .ok fence) :
    ∃ route, ServingAuthorityRecord.decode fence =
      .ok (.new foundation.key (.serving ⟨owner, term, generation⟩ route)) := by
  obtain ⟨publication, made, success⟩ := bind_eq_ok.mp success
  obtain ⟨route, -, made⟩ := bind_eq_ok.mp made
  have made := mapError_eq_ok.mp made
  have encoded := mapError_eq_ok.mp success
  unfold ServingPublication.new at made
  split at made
  · cases made
    exact ⟨route, ServingAuthorityRecord.decode_encode rfl encoded⟩
  · cases made

end HolylogJournalFoundation

/-- An intent of this owner and term, over this generation, has been durable. -/
def World.Durable (world : World) (key : AuthorityKey) (owner : OwnerId) (term : WriterTerm)
    (expected : JournalGenerationRef) : Prop :=
  ∃ state ∈ world.register, ∃ intent, Intends state key intent ∧
    intent.candidateOwnerId = owner ∧ intent.nextWriterTerm = term ∧
    intent.precondition = .expected expected

variable {world : World} {key : AuthorityKey} {term : WriterTerm} {observed : VirtualLogState}

theorem World.Durable.later {later : World} {owner : OwnerId} {expected : JournalGenerationRef}
    (grows : world.Grows later) (durable : world.Durable key owner term expected) :
    later.Durable key owner term expected := by
  obtain ⟨state, member, intent, intends⟩ := durable
  exact ⟨state, grows.mem member, intent, intends⟩

/-- What a driver knows of the generation it replaces: a state the register has held, on the
generation its durable intent expects. -/
structure World.Replacing [Digests] (world : World) (key : AuthorityKey) (owner : OwnerId)
    (term : WriterTerm) (observed : VirtualLogState) : Prop where
  held : observed ∈ world.register
  durable : ∃ generation expected, world.Durable key owner term expected ∧
    JournalGenerationRef.fromVirtualLogState observed = .ok generation ∧
    sameActiveMembership generation expected = true

theorem World.Replacing.later [Digests] {later : World} {owner : OwnerId}
    (grows : world.Grows later) (replacing : world.Replacing key owner term observed) :
    later.Replacing key owner term observed := by
  obtain ⟨held, generation, expected, durable, live, same⟩ := replacing
  exact ⟨grows.mem held, generation, expected, durable.later grows, live, same⟩

/-- While the register is where a driver observed it, it holds the driver's intent. -/
theorem World.Replacing.intends [Digests] {owner : OwnerId} (sane : world.Sane)
    (replacing : world.Replacing key owner term observed)
    (current : world.current = some observed) :
    ∃ intent, Intends observed key intent ∧ intent.candidateOwnerId = owner ∧
      intent.nextWriterTerm = term := by
  obtain ⟨-, generation, expected, ⟨state, member, intent, intends, candidate, next, expects⟩,
    live, same⟩ := replacing
  obtain rfl := sane.lawful.intent_stands member intends expects current live same
  exact ⟨intent, intends, candidate, next⟩

/-- A successor ready to be installed: it starts where the sealed predecessor ends, and its name is
claimed and new. -/
structure World.Successor (world : World) (observed : VirtualLogState) (revision : UInt64)
    (successor : LogletId) (start : UInt64) : Prop where
  revision : checkedAdd64 observed.revision 1 = some revision
  boundary : ∃ predecessor loglet, observed.active = some predecessor ∧
    world.loglets predecessor.logletId = some loglet ∧ loglet.isSealed = true ∧
    checkedAdd64 predecessor.start loglet.tail = some start
  fresh : successor ∉ observed.logletIds
  claimed : (world.loglets successor).isSome

theorem World.Successor.later {later : World} {revision start : UInt64} {successor : LogletId}
    (grows : world.Grows later) (ready : world.Successor observed revision successor start) :
    later.Successor observed revision successor start := by
  obtain ⟨number, ⟨predecessor, loglet, active, found, isSealed, sum⟩, fresh, claimed⟩ := ready
  obtain ⟨after, held, kept⟩ := grows.loglets _ loglet found
  obtain rfl := kept isSealed
  exact ⟨number, ⟨predecessor, after, active, held, isSealed, sum⟩, fresh, grows.claimed claimed⟩

theorem World.Successor.reconfigured {revision start : UInt64} {successor : LogletId}
    (ready : world.Successor observed revision successor start) (fence : Bytes) :
    world.reconfigured observed successor fence =
      some ⟨revision, observed.generations ++ [⟨successor, start⟩], fence⟩ := by
  obtain ⟨number, ⟨predecessor, loglet, active, found, isSealed, sum⟩, -, -⟩ := ready
  simp [World.reconfigured, active, found, isSealed, sum, number]

/-- The swap to the successor, over the state that holds the intent. -/
theorem World.Sane.reconfigure [Digests] {owner : OwnerId} {revision start : UInt64}
    {successor : LogletId} {fence : Bytes} {route : RouteHint} (sane : world.Sane)
    (replacing : world.Replacing key owner term observed)
    (ready : world.Successor observed revision successor start)
    (decoded : ServingAuthorityRecord.decode fence = .ok (.new key (.serving
      ⟨owner, term, .fromActiveGeneration revision successor start⟩ route)))
    (current : world.current = some observed) :
    let next := ⟨revision, observed.generations ++ [⟨successor, start⟩], fence⟩
    (world.install next).Sane ∧ world.Grows (world.install next) := by
  intro next
  obtain ⟨intent, intends, candidate, next'⟩ := replacing.intends sane current
  have follows : Follows observed next := by
    refine .successor key intent
      ⟨owner, term, .fromActiveGeneration revision successor start⟩ ⟨successor, start⟩ intends
      (serves_of_decode decoded ?_) candidate.symm next'.symm ready.fresh rfl
    simp [JournalGenerationRef.fromVirtualLogState, VirtualLogState.active, next]
    rfl
  apply sane.install (sane.lawful.snoc current follows)
  intro id named
  simp only [VirtualLogState.logletIds, next, List.map_append, List.map_cons, List.map_nil,
    List.mem_append, List.mem_singleton] at named
  rcases named with named | rfl
  · exact sane.claimed observed replacing.held id named
  · exact ready.claimed

namespace HolylogJournalFoundation

variable [Digests] (foundation : HolylogJournalFoundation) {world : World}

theorem installed_returns (successor : LogletId) (message : String) :
    Returns World.rules (fun _ _ => True) (do
      ask (Op.insertWritable foundation.process successor)
      let live ← foundation.observeLive
      ofExcept (installed live message)) world := by
  apply returns_quiet (by trivial)
  intro later _ _ _
  apply Returns.bind foundation.observeLive_returns
  intro later _ _ _ _
  exact returns_ofExcept fun _ _ _ _ _ => trivial

theorem publishSuccessor_returns {observed : VirtualLogState} {owner : OwnerId}
    {term : WriterTerm} {revision start : UInt64} {successor : LogletId}
    (replacing : world.Replacing foundation.key owner term observed)
    (ready : world.Successor observed revision successor start) :
    Returns World.rules (fun _ _ => True)
      (foundation.publishSuccessor observed owner term
        (.fromActiveGeneration revision successor start)) world := by
  apply returns_bind_ofExcept
  intro later fence grows _ encoded
  obtain ⟨route, decoded⟩ := foundation.servingFence_eq_ok encoded
  apply Returns.ask
  intro last grown sane outcome
  have grown := grows.trans grown
  have replacing := replacing.later grown
  have ready := ready.later grown
  have kept : (last.act (.reconfigureWithReceipt observed successor fence) outcome).1.Sane ∧
      last.Grows (last.act (.reconfigureWithReceipt observed successor fence) outcome).1 := by
    have distinct : ReceiptReconfiguration.applied ≠ .conflict := by decide
    rcases World.swap_cases last observed (last.reconfigured observed successor fence) outcome
      distinct with ⟨state, current, next, same⟩ | ⟨same, -⟩
    · simp only [World.act]
      rw [same]
      rw [ready.reconfigured fence] at next
      cases next
      exact sane.reconfigure replacing ready decoded current
    · simp only [World.act]
      rw [same]
      exact ⟨sane, .refl _⟩
  refine ⟨kept.1, kept.2, ?_⟩
  split
  · exact Returns.throw _ _
  · exact Returns.throw _ _
  · exact foundation.installed_returns _ _

theorem replaceExpected_returns {observed : VirtualLogState} {publication : ServingPublication}
    (replacing : world.Replacing foundation.key publication.authority.ownerId
      publication.authority.writerTerm observed) :
    Returns World.rules (fun _ _ => True) (foundation.replaceExpected observed publication)
      world := by
  unfold replaceExpected
  cases active : observed.active with
  | none => exact Returns.throw _ _
  | some predecessor =>
      apply Returns.bind (foundation.ensureMembershipResolvable_returns _)
      intro first _ grows _ _
      have replacing := replacing.later grows
      apply Returns.bind (foundation.ensurePredecessorSealed_returns _)
      intro second _ grows _ _
      have replacing := replacing.later grows
      apply Returns.bind (atCheckpoint_returns _)
      intro third _ grows _ _
      have replacing := replacing.later grows
      apply returns_bind_ofExcept
      intro fourth revision grows _ next
      have replacing := replacing.later grows
      apply Returns.bind (sealedPredecessorStart_returns _ _)
      rintro fifth start grows _ ⟨loglet, found, isSealed, sum⟩
      have replacing := replacing.later grows
      have boundary : ∀ later, fifth.Grows later → ∃ predecessor loglet,
          observed.active = some predecessor ∧
          later.loglets predecessor.logletId = some loglet ∧ loglet.isSealed = true ∧
          checkedAdd64 predecessor.start loglet.tail = some start := by
        intro later grows
        obtain ⟨after, held, kept⟩ := grows.loglets _ loglet found
        obtain rfl := kept isSealed
        exact ⟨predecessor, after, active, held, isSealed, sum⟩
      apply Returns.bind (atCheckpoint_returns _)
      intro sixth _ grown _ _
      have replacing := replacing.later grown
      apply Returns.bind (foundation.provisionFrom_returns _ _ _ _ [observed] (by
        simpa using replacing.held))
      rintro seventh successor grows _ ⟨new, claimed⟩
      have fresh := new observed (by simp)
      have replacing := replacing.later grows
      have grown := grown.trans grows
      apply Returns.bind (atCheckpoint_returns _)
      intro last _ grows _ _
      apply foundation.publishSuccessor_returns (replacing.later grows)
      refine ⟨?_, boundary last (grown.trans grows), fresh, grows.claimed claimed⟩
      unfold nextRevision at next
      split at next
      · cases next
      · rename_i found
        cases next
        exact found

theorem bootstrapEmpty_returns (publication : ServingPublication) :
    Returns World.rules (fun _ _ => True) (foundation.bootstrapEmpty publication) world := by
  apply Returns.bind (foundation.provisionFrom_returns _ _ _ _ [] (by simp))
  rintro first successor _ _ ⟨-, claimed⟩
  apply returns_bind_ofExcept
  intro second fence grows _ encoded
  obtain ⟨route, decoded⟩ := foundation.servingFence_eq_ok encoded
  apply Returns.ask
  intro last grown sane outcome
  have claimed := (grows.trans grown).claimed claimed
  have kept : (last.act (.bootstrapWithReceipt successor fence) outcome).1.Sane ∧
      last.Grows (last.act (.bootstrapWithReceipt successor fence) outcome).1 := by
    simp only [World.act]
    split
    · rename_i empty
      apply sane.install
      · rw [empty.1]
        exact lawful_first decoded
      · intro id named
        simp only [VirtualLogState.logletIds, List.map_cons, List.map_nil,
          List.mem_singleton] at named
        rw [named]
        exact claimed
    · exact ⟨sane, .refl _⟩
  refine ⟨kept.1, kept.2, ?_⟩
  apply returns_bind_ofExcept
  intro later _ _ _ _
  exact foundation.installed_returns _ _

theorem drive_returns {key : AuthorityKey} {publication : ServingPublication}
    {precondition : FoundationPrecondition}
    (durable : ∀ expected, precondition = .expected expected →
      world.Durable key publication.authority.ownerId publication.authority.writerTerm expected) :
    Returns World.rules (fun _ _ => True) (foundation.drive key publication precondition)
      world := by
  apply returns_bind_ofExcept
  intro first _ grows _ configured
  apply returns_bind_ofExcept
  intro second _ grows' _ _
  have grows := grows.trans grows'
  split
  · exact Returns.throw _ _
  · apply Returns.bind foundation.observeLive_returns
    intro third live grown _ found
    have grows := grows.trans grown
    have same : key = foundation.key := by
      unfold requireConfiguredKey at configured
      split at configured
      · cases configured
      · rename_i agrees
        exact not_not.mp agrees
    subst same
    cases precondition with
    | empty =>
        cases live with
        | none => exact foundation.bootstrapEmpty_returns publication
        | some _ => exact Returns.throw _ _
    | expected expected =>
        cases live with
        | none => exact Returns.throw _ _
        | some pair =>
            obtain ⟨observed, generation⟩ := pair
            obtain ⟨held, bound⟩ := found observed generation rfl
            dsimp only
            split
            · rename_i same
              apply foundation.replaceExpected_returns
              exact ⟨held, generation, expected, (durable expected rfl).later grows, bound, same⟩
            · exact Returns.throw _ _

end HolylogJournalFoundation

namespace AuthorityCoordinator

variable {world : World}

theorem rootAuthority_eq_record {answer : Except VirtualLogError VirtualLogState}
    {record : ServingAuthorityRecord} (success : rootAuthority answer = .ok (.record record)) :
    ∃ state, answer = .ok state ∧ state.record = some record := by
  cases answer with
  | error error => cases error <;> cases success
  | ok state =>
      unfold rootAuthority at success
      dsimp only at success
      split at success
      · cases success
      split at success
      · rename_i found decoded
        cases success
        exact ⟨state, rfl, record_of_decode decoded⟩
      · cases success

variable [Digests] (coordinator : AuthorityCoordinator)

theorem observeRootAuthority_returns : Returns World.rules
    (fun later observed => ∀ record, observed = .record record →
      ∃ state ∈ later.register, state.record = some record) observeRootAuthority world := by
  apply returns_observe
  intro later reply grows sane held
  apply returns_ofExcept
  intro last observed grown still same record found
  subst found
  obtain ⟨state, rfl, carried⟩ := rootAuthority_eq_record same
  exact ⟨state, grown.mem (held state rfl), carried⟩

theorem requireLocalServing_returns (key : AuthorityKey) (term : WriterTerm)
    (generation : JournalGenerationRef) :
    Returns World.rules (fun _ _ => True)
      (coordinator.requireLocalServing key term generation) world := by
  apply Returns.bind observeRootAuthority_returns
  intro later observed _ _ _
  exact returns_ofExcept fun _ _ _ _ _ => trivial

variable {key : AuthorityKey} {term : WriterTerm} {expected : JournalGenerationRef}

omit [Digests] in
theorem provisionalPublication_authority [Digests] {publication : ServingPublication}
    (success : coordinator.provisionalPublication key term = .ok publication) :
    publication.authority.ownerId = coordinator.localOwnerId ∧
      publication.authority.writerTerm = term := by
  obtain ⟨generation, -, success⟩ := bind_eq_ok.mp success
  have made := mapError_eq_ok.mp success
  unfold ServingPublication.new at made
  split at made
  · cases made
    exact ⟨rfl, rfl⟩
  · cases made

/-- A publication driven by a process that has made its intent durable, or over an empty root. -/
theorem driven_returns {precondition : FoundationPrecondition}
    (durable : ∀ expected, precondition = .expected expected →
      world.Durable key coordinator.localOwnerId term expected) :
    Returns World.rules (fun _ _ => True) (do
      let publication ← ofExcept (coordinator.provisionalPublication key term)
      let generation ← (coordinator.foundation.drive key publication precondition).adapt
        CoordinatorError.foundationFailed
      coordinator.requireLocalServing key term generation) world := by
  apply returns_bind_ofExcept
  intro first publication grows _ made
  obtain ⟨owner, next⟩ := coordinator.provisionalPublication_authority made
  have driven : Returns World.rules (fun _ _ => True)
      (coordinator.foundation.drive key publication precondition) first := by
    apply coordinator.foundation.drive_returns
    intro expected same
    rw [owner, next]
    exact (durable expected same).later grows
  apply Returns.bind (driven.mapError CoordinatorError.foundationFailed)
  intro second generation _ _ _
  exact coordinator.requireLocalServing_returns key term generation

theorem completeAfterIntent_returns {precondition : FoundationPrecondition}
    {intent : TransitionIntent}
    (durable : ∀ expected, precondition = .expected expected →
      world.Durable key coordinator.localOwnerId term expected) :
    Returns World.rules (fun _ _ => True)
      (coordinator.completeAfterIntent key term precondition intent) world := by
  apply Returns.bind observeRootAuthority_returns
  intro later observed grows _ _
  split
  · exact Returns.pure fun _ _ _ => trivial
  · apply coordinator.driven_returns
    intro expected same
    exact (durable expected same).later grows

theorem promoteEmpty_returns (key : AuthorityKey) (term : WriterTerm) :
    Returns World.rules (fun _ _ => True) (coordinator.promoteEmpty key term) world := by
  apply Returns.bind observeRootAuthority_returns
  intro later observed _ _ _
  cases observed with
  | record record => exact Returns.throw _ _
  | absentOrMalformed message => exact Returns.throw _ _
  | uninitialized =>
      apply coordinator.driven_returns
      intro expected same
      cases same

omit [Digests] in
theorem isIntent_durable {intent : TransitionIntent} {observed : ObservedRootAuthority}
    (expects : intent.precondition = .expected expected)
    (held : ∀ record, observed = .record record →
      ∃ state ∈ world.register, state.record = some record)
    (same : isIntent key intent observed = true) :
    world.Durable key intent.candidateOwnerId intent.nextWriterTerm expected := by
  cases observed with
  | uninitialized => cases same
  | absentOrMalformed message => cases same
  | record record =>
      simp only [isIntent, decide_eq_true_eq] at same
      obtain ⟨state, member, carried⟩ := held record rfl
      exact ⟨state, member, intent, ⟨record, carried, same.1, same.2⟩, rfl, rfl, expects⟩

theorem resolveIntentAfterUncertainty_returns {drawn : TransitionId} :
    Returns World.rules (fun _ _ => True)
      (coordinator.resolveIntentAfterUncertainty key term (.expected expected)
        (coordinator.intentOf term expected drawn)) world := by
  apply Returns.bind observeRootAuthority_returns
  intro later observed _ _ held
  split
  · rename_i found
    apply coordinator.completeAfterIntent_returns
    intro generation same
    cases same
    exact isIntent_durable rfl held found
  · split
    · exact Returns.pure fun _ _ _ => trivial
    · exact Returns.throw _ _

/-- The swap to the intent, over the serving state it expects. -/
theorem sane_fence {authority : WriterAuthority} {intent : TransitionIntent}
    {observed next : VirtualLogState} {fence : Bytes} (sane : world.Sane)
    (serves : Serves observed key authority)
    (expects : intent.precondition = .expected authority.generationRef)
    (higher : authority.writerTerm.get < intent.nextWriterTerm.get)
    (decoded : ServingAuthorityRecord.decode fence = .ok (.new key (.transitioning intent)))
    (current : world.current = some observed) (fenced : World.fenced observed fence = some next) :
    (world.install next).Sane ∧ world.Grows (world.install next) ∧ Intends next key intent := by
  obtain ⟨revision, -, rfl⟩ := Option.map_eq_some_iff.mp fenced
  have intends : Intends { observed with revision, applicationFence := fence } key intent := by
    refine ⟨.new key (.transitioning intent), ?_, rfl, rfl⟩
    simp only [VirtualLogState.record, decoded]
    rfl
  have follows : Follows observed { observed with revision, applicationFence := fence } :=
    .intent key authority intent serves intends expects higher rfl
  obtain ⟨kept, grows⟩ := sane.install (sane.lawful.snoc current follows)
    (sane.claimed observed (World.current_mem current))
  exact ⟨kept, grows, intends⟩

theorem proposeIntent_returns {authority : WriterAuthority} {observed : VirtualLogState}
    {drawn : TransitionId} (serves : Serves observed key authority)
    (higher : authority.writerTerm.get < term.get) :
    Returns World.rules (fun _ _ => True)
      (coordinator.proposeIntent key term authority.generationRef observed
        (coordinator.intentOf term authority.generationRef drawn)) world := by
  apply returns_bind_ofExcept
  intro first fence grows _ made
  have decoded := ServingAuthorityRecord.decode_encode rfl (mapError_eq_ok.mp made)
  apply Returns.ask
  intro later grown sane outcome
  have done : (later.act (.updateApplicationFence observed fence) outcome).1.Sane ∧
      later.Grows (later.act (.updateApplicationFence observed fence) outcome).1 ∧
      ((later.act (.updateApplicationFence observed fence) outcome).2 = .ok .applied →
        (later.act (.updateApplicationFence observed fence) outcome).1.Durable key
          coordinator.localOwnerId term authority.generationRef) := by
    have distinct : FenceUpdate.applied ≠ .conflict := by decide
    simp only [World.act]
    rcases World.swap_cases later observed (World.fenced observed fence) outcome distinct with
      ⟨state, current, next, same⟩ | ⟨same, conflicted⟩
    · rw [same]
      obtain ⟨kept, grows, intends⟩ := sane_fence sane serves rfl higher decoded current next
      refine ⟨kept, grows, fun _ => ⟨state, ?_, _, intends, rfl, rfl, rfl⟩⟩
      simp [World.install]
    · rw [same]
      exact ⟨sane, .refl _, fun applied => absurd applied conflicted⟩
  refine ⟨done.1, done.2.1, ?_⟩
  apply returns_bind_ofExcept
  intro second update grows _ answered
  cases update with
  | conflict => exact coordinator.resolveIntentAfterUncertainty_returns
  | applied =>
      have durable := (done.2.2 (mapError_eq_ok.mp answered)).later grows
      have confirmed : Returns World.rules (fun _ _ => True)
          (confirmDurableIntent key (coordinator.intentOf term authority.generationRef drawn))
          second := by
        apply Returns.bind observeRootAuthority_returns
        intro later observed _ _ _
        exact returns_ofExcept fun _ _ _ _ _ => trivial
      apply Returns.bind confirmed
      intro third _ grows _ _
      apply coordinator.completeAfterIntent_returns
      intro generation same
      cases same
      exact durable.later grows

omit [Digests] in
/-- What a promotion starts from: the serving state it expects, in a lower term, or its own intent
on the root. -/
theorem promotionStart_eq_ok {current : ServingAuthorityRecord} {start : PromotionStart}
    (success : coordinator.promotionStart key term expected current = .ok start) :
    current.key = key ∧
      match start with
      | .propose => ∃ authority route, current.state = .serving authority route ∧
          authority.writerTerm.get < term.get ∧ authority.generationRef = expected
      | .resume intent => current.state = .transitioning intent ∧
          intent.candidateOwnerId = coordinator.localOwnerId ∧ intent.nextWriterTerm = term ∧
          intent.precondition = .expected expected := by
  unfold promotionStart at success
  split at success
  · cases success
  rename_i agrees
  refine ⟨not_not.mp agrees, ?_⟩
  cases state : current.state with
  | unassigned =>
      rw [state] at success
      cases success
  | reconciliationRequired intent observed =>
      rw [state] at success
      cases success
  | serving authority route =>
      rw [state] at success
      dsimp only at success
      split at success
      · cases success
      split at success
      · cases success
      rename_i higher same
      cases success
      exact ⟨authority, route, rfl, UInt64.not_le.mp higher, not_not.mp same⟩
  | transitioning intent =>
      rw [state] at success
      dsimp only at success
      split at success
      · rename_i own
        cases success
        exact ⟨rfl, own⟩
      · cases success

theorem promoteExpected_returns (key : AuthorityKey) (term : WriterTerm)
    (expected : JournalGenerationRef) (drawn : Except String TransitionId) :
    Returns World.rules (fun _ _ => True)
      (coordinator.promoteExpected key term expected drawn) world := by
  apply returns_observe
  intro first answer _ _ held
  apply returns_bind_ofExcept
  intro second observed grows _ answered
  have member := grows.mem (held observed (mapError_eq_ok.mp answered))
  apply returns_bind_ofExcept
  intro third current grows _ decoded
  have member := grows.mem member
  have carried : observed.record = some current := record_of_decode (mapError_eq_ok.mp decoded)
  apply returns_bind_ofExcept
  intro fourth start grows sane started
  have member := grows.mem member
  obtain ⟨rfl, started⟩ := coordinator.promotionStart_eq_ok started
  cases start with
  | resume intent =>
      obtain ⟨transitioning, candidate, next, expects⟩ := started
      apply coordinator.completeAfterIntent_returns
      intro generation same
      cases same
      exact ⟨observed, member, intent, ⟨current, carried, rfl, transitioning⟩, candidate, next,
        expects⟩
  | propose =>
      obtain ⟨authority, route, serving, higher, rfl⟩ := started
      apply returns_bind_ofExcept
      intro fifth transition _ _ _
      apply coordinator.proposeIntent_returns _ higher
      exact sane.lawful.serves_of_record member carried serving

theorem promote_returns (key : AuthorityKey) (term : WriterTerm)
    (precondition : FoundationPrecondition) (eligibility : LocalServingEligibility)
    (drawn : Except String TransitionId) :
    Returns World.rules (fun _ _ => True)
      (coordinator.promote key term precondition eligibility drawn) world := by
  unfold promote
  split
  · exact Returns.throw _ _
  · cases precondition with
    | empty => exact coordinator.promoteEmpty_returns key term
    | expected expected => exact coordinator.promoteExpected_returns key term expected drawn

theorem reconcile_returns (key : AuthorityKey) (eligibility : LocalServingEligibility) :
    Returns World.rules (fun _ _ => True) (coordinator.reconcile key eligibility) world := by
  apply Returns.bind observeRootAuthority_returns
  intro first observed _ _ held
  apply returns_bind_ofExcept
  intro second record grows _ own
  have found : observed = .record record ∧ record.key = key := by
    cases observed with
    | uninitialized => cases own
    | absentOrMalformed message => cases own
    | record found =>
        unfold ownRecord at own
        dsimp only at own
        split at own
        · rename_i same
          cases own
          exact ⟨rfl, same⟩
        · cases own
  obtain ⟨rfl, rfl⟩ := found
  obtain ⟨state, member, carried⟩ := held record rfl
  have member := grows.mem member
  split
  · exact Returns.pure fun _ _ _ => trivial
  · rename_i intent transitioning
    split
    · exact Returns.throw _ _
    rename_i candidate
    split
    · exact Returns.throw _ _
    -- Whatever the classification, the intent on the root is what the call goes on with.
    have classified : Returns World.rules (fun _ _ => True)
        (coordinator.foundation.classifyTransition record.key intent) second := by
      apply returns_bind_ofExcept
      intro third _ _ _ _
      apply Returns.bind coordinator.foundation.observeLive_returns
      intro fourth _ _ _ _
      exact returns_ofExcept fun _ _ _ _ _ => trivial
    apply Returns.bind (classified.mapError CoordinatorError.foundationFailed)
    intro third classification grows _ _
    cases classification with
    | intendedSuccessor generation => exact coordinator.requireLocalServing_returns _ _ _
    | divergent generation => exact Returns.throw _ _
    | stillPredecessor =>
        apply coordinator.completeAfterIntent_returns
        intro expected same
        exact ⟨state, grows.mem member, intent, ⟨record, carried, rfl, transitioning⟩,
          (not_not.mp candidate).symm, rfl, same⟩
  · exact Returns.throw _ _

end AuthorityCoordinator

variable [Digests]

/-- A call that a coordinator may make at any time. -/
inductive AuthorityCall :
    Program Op Op.Reply (Except CoordinatorError ServingAuthorityRecord) → Prop
  | promote (coordinator : AuthorityCoordinator) (key : AuthorityKey) (term : WriterTerm)
      (precondition : FoundationPrecondition) (eligibility : LocalServingEligibility)
      (drawn : Except String TransitionId) :
      AuthorityCall (coordinator.promote key term precondition eligibility drawn).run
  | reconcile (coordinator : AuthorityCoordinator) (key : AuthorityKey)
      (eligibility : LocalServingEligibility) :
      AuthorityCall (coordinator.reconcile key eligibility).run

omit [Digests] in
/-- What else may happen to the shared world: writers append, other names are claimed, processes
come and go. The register is left alone, and so is a sealed loglet. -/
structure World.Change (world later : World) : Prop where
  register : later.register = world.register
  loglets : ∀ id loglet, world.loglets id = some loglet →
    ∃ after, later.loglets id = some after ∧ (loglet.isSealed = true → after = loglet)

/-- The worlds that any number of coordinators reach from an empty register. -/
def World.Reached (world : World) : Prop :=
  ∃ initial system, initial.register = [] ∧ system.world = world ∧
    Reachable World.act World.Change AuthorityCall initial system

theorem World.Reached.sane (reached : world.Reached) : world.Sane := by
  obtain ⟨initial, system, empty, rfl, reached⟩ := reached
  have initially : initial.Sane := by
    refine ⟨⟨?_, ?_⟩, ?_⟩
    · intro state first
      rw [empty] at first
      cases first
    · rw [empty]
      exact .nil
    · intro state member
      rw [empty] at member
      cases member
  have changes : ∀ before later : World, before.Sane → before.Change later →
      later.Sane ∧ before.Grows later := by
    intro before later sane change
    have grows : before.Grows later :=
      ⟨change.register ▸ List.prefix_refl _, change.loglets⟩
    exact ⟨sane.of_register grows change.register, grows⟩
  have starts : ∀ program, AuthorityCall program → ∀ before : World, before.Sane →
      Safe World.rules (fun _ _ => True) program before := by
    intro program call before sane
    cases call with
    | promote coordinator key term precondition eligibility drawn =>
        exact (coordinator.promote_returns key term precondition eligibility drawn).safe
    | reconcile coordinator key eligibility =>
        exact (coordinator.reconcile_returns key eligibility).safe
  have sound : Sound World.rules (fun _ _ => True) system :=
    Reachable.sound initially changes starts reached
  exact sound.invariant

end names

end Scripture
