import Scripture.Authority.Recovery
import Scripture.Text

set_option autoImplicit false

/- Forward recovery. Whatever has interrupted a candidate after its intent was durable, and however
often, one more run of it installs the generation it intended, as long as a name is left. -/
namespace Scripture

open ByteFormat Interleaving

theorem countP_le_add {α : Type} {p q r : α → Bool} (items : List α)
    (implies : ∀ item ∈ items, p item = true → q item = true ∨ r item = true) :
    items.countP p ≤ items.countP q + items.countP r := by
  induction items with
  | nil => simp
  | cons item rest ih =>
      have below := ih fun other member => implies other (by simp [member])
      have own := implies item (by simp)
      simp only [List.countP_cons]
      cases first : p item with
      | false => simp; omega
      | true =>
          rcases own first with holds | holds
          · simp [holds]; omega
          · simp [holds]; omega

/-- Of distinct items with distinct images, at most as many have their image in a list as the list
is long. -/
theorem countP_mem_le {α β : Type} [DecidableEq β] {items : List α} {images : List β} {f : α → β}
    (distinct : items.Nodup)
    (injective : ∀ item ∈ items, ∀ other ∈ items, f item = f other → item = other) :
    items.countP (fun item => f item ∈ images) ≤ images.length := by
  have nodup : ((items.filter fun item => f item ∈ images).map f).Nodup := by
    refine List.Nodup.map_on ?_ (distinct.filter _)
    intro item member other another same
    exact injective item (List.mem_filter.mp member).1 other (List.mem_filter.mp another).1 same
  have subset : (items.filter fun item => f item ∈ images).map f ⊆ images := by
    intro image member
    obtain ⟨item, held, rfl⟩ := List.mem_map.mp member
    simpa using (List.mem_filter.mp held).2
  have bound := (nodup.subperm subset).length_le
  rwa [List.length_map, ← List.countP_eq_length_filter] at bound

theorem candidateName_length (revision : UInt64) (term : WriterTerm) (owner : OwnerId)
    {attempt : Nat} (small : attempt < 2 ^ 64) :
    (utf8 (candidateName revision term owner attempt)).length < 2 ^ 16 := by
  have first := utf8_length_toString_le revision.toNat_lt
  have second := utf8_length_toString_le term.get.toNat_lt
  have third := utf8_length_toString_le small
  have hex := utf8_length_join_le (owner.bytes.val.take 4)
  have four := List.length_take_le 4 owner.bytes.val
  have literals : (utf8 "g").length = 1 ∧ (utf8 "-t").length = 2 ∧ (utf8 "-").length = 1 ∧
      (utf8 "-a").length = 2 := by decide
  simp only [candidateName, utf8_length_append]
  omega

theorem candidateName_injective {revision : UInt64} {term : WriterTerm} {owner : OwnerId}
    {attempt other : Nat} (small : attempt < maxCandidateAttempts)
    (bounded : other < maxCandidateAttempts)
    (same : candidateName revision term owner attempt = candidateName revision term owner other) :
    attempt = other := by
  have digits : ∀ first second : Fin maxCandidateAttempts,
      toString first.val = toString second.val → first = second := by decide
  have ends := (String.append_right_inj _).mp same
  exact congrArg Fin.val (digits ⟨attempt, small⟩ ⟨other, bounded⟩ ends)

section names

variable [LogletNames]

/-- The names a candidate gives its successors are accepted, and so is the placeholder of a
publication. -/
class AcceptsNames : Prop where
  provisional : LogletNames.check "provisional" = .ok ()
  candidate : ∀ revision term owner, ∀ attempt < maxCandidateAttempts,
    LogletNames.check (candidateName revision term owner attempt) = .ok ()

/-- The name of an attempt, as an identity. There is none beyond the last attempt; the placeholder
stands for it. -/
def candidateId [AcceptsNames] (revision : UInt64) (term : WriterTerm) (owner : OwnerId)
    (attempt : Nat) : LogletId :=
  if small : attempt < maxCandidateAttempts then
    ⟨candidateName revision term owner attempt, AcceptsNames.candidate _ _ _ _ small⟩
  else ⟨"provisional", AcceptsNames.provisional⟩

theorem candidateId_text [AcceptsNames] (revision : UInt64) (term : WriterTerm) (owner : OwnerId)
    {attempt : Nat} (small : attempt < maxCandidateAttempts) :
    (candidateId revision term owner attempt).text = candidateName revision term owner attempt := by
  rw [candidateId, dif_pos small]

theorem defaultFreshLogletIdPolicy_candidateId [AcceptsNames] (revision : UInt64)
    (term : WriterTerm) (owner : OwnerId) {attempt : Nat} (small : attempt < maxCandidateAttempts) :
    defaultFreshLogletIdPolicy revision term owner attempt =
      .ok (candidateId revision term owner attempt) := by
  unfold defaultFreshLogletIdPolicy
  split
  · rename_i refused
    rw [AcceptsNames.candidate _ _ _ _ small] at refused
    cases refused
  · rw [candidateId, dif_pos small]

/-- How many of the names for a successor have been claimed and thereby lost. -/
def World.lostAttempts [AcceptsNames] (world : World) (revision : UInt64) (term : WriterTerm)
    (owner : OwnerId) : Nat :=
  (List.range maxCandidateAttempts).countP fun attempt =>
    (world.loglets (candidateId revision term owner attempt)).isSome

theorem World.exists_free [AcceptsNames] {world : World} {revision : UInt64} {term : WriterTerm}
    {owner : OwnerId} (few : world.lostAttempts revision term owner < maxCandidateAttempts) :
    ∃ attempt ∈ List.range maxCandidateAttempts,
      world.loglets (candidateId revision term owner attempt) = none := by
  by_contra all
  have every : ∀ attempt ∈ List.range maxCandidateAttempts,
      (world.loglets (candidateId revision term owner attempt)).isSome = true := by
    intro attempt member
    cases held : world.loglets (candidateId revision term owner attempt) with
    | some loglet => rfl
    | none => exact absurd ⟨attempt, member, held⟩ all
  have full := List.countP_eq_length.mpr every
  unfold lostAttempts at few
  rw [full, List.length_range] at few
  omega

/-- Claims of other names than the attempts' do not lose an attempt, and each of theirs one. -/
theorem World.lostAttempts_le [AcceptsNames] {world later : World} {revision : UInt64}
    {term : WriterTerm} {owner : OwnerId} {names : List LogletId}
    (claims : ∀ id, (later.loglets id).isSome → (world.loglets id).isSome ∨ id ∈ names) :
    later.lostAttempts revision term owner ≤
      world.lostAttempts revision term owner + names.length := by
  have lost : later.lostAttempts revision term owner ≤ world.lostAttempts revision term owner +
      (List.range maxCandidateAttempts).countP
        (fun attempt => candidateId revision term owner attempt ∈ names) := by
    apply countP_le_add
    intro attempt _ claimed
    rcases claims _ claimed with before | new
    · exact .inl before
    · exact .inr (by simpa using new)
  have own : (List.range maxCandidateAttempts).countP
      (fun attempt => candidateId revision term owner attempt ∈ names) ≤ names.length := by
    apply countP_mem_le List.nodup_range
    intro attempt member other another same
    have texts := congrArg LogletId.text same
    rw [List.mem_range] at member another
    rw [candidateId_text _ _ _ member, candidateId_text _ _ _ another] at texts
    exact candidateName_injective member another texts
  omega

namespace AuthorityCoordinator

variable [Digests] (coordinator : AuthorityCoordinator) {world : World}
variable {stop : Option FoundationTransitionCheckpoint}

/-- The process whose intent it is, with the default names. -/
structure Candidate (key : AuthorityKey) (owner : OwnerId) : Prop where
  configured : coordinator.foundation.key = key
  own : coordinator.localOwnerId = owner
  identified : coordinator.foundation.identity.ownerId = owner
  named : coordinator.foundation.logletIds = defaultFreshLogletIdPolicy

omit [Digests] in
theorem observeRootAuthority_ends {root : VirtualLogState} {record : ServingAuthorityRecord}
    (current : world.current = some root)
    (decoded : ServingAuthorityRecord.decode root.applicationFence = .ok record) :
    Ends (World.until stop) observeRootAuthority world (world, .ok (.record record)) := by
  refine ends_ask (until_observe stop current) ?_
  have present : rootAuthority (.ok root) = .ok (.record record) := by
    unfold rootAuthority
    cases fence : root.applicationFence with
    | nil =>
        have empty : ServingAuthorityRecord.decode [] = .error .truncated := rfl
        rw [fence, empty] at decoded
        cases decoded
    | cons byte rest =>
        rw [fence] at decoded
        simp [fence, decoded]
  rw [present]
  rfl

theorem provisionalGeneration_ok [AcceptsNames] :
    ∃ generation, provisionalGeneration = .ok generation := by
  unfold provisionalGeneration
  split
  · rename_i refused
    rw [AcceptsNames.provisional] at refused
    cases refused
  · exact ⟨_, rfl⟩

theorem provisionalPublication_of_owned [AcceptsNames] (key : AuthorityKey) (term : WriterTerm)
    (owned : coordinator.localOwnerId.bytes ≠ repeated 16 0) :
    ∃ publication, coordinator.provisionalPublication key term = .ok publication ∧
      publication.key = key := by
  obtain ⟨generation, placed⟩ := provisionalGeneration_ok
  have made : ServingPublication.new key ⟨coordinator.localOwnerId, term, generation⟩
      coordinator.routeHint =
      .ok ⟨key, ⟨coordinator.localOwnerId, term, generation⟩, coordinator.routeHint, owned⟩ :=
    dif_pos owned
  refine ⟨⟨key, ⟨coordinator.localOwnerId, term, generation⟩, coordinator.routeHint, owned⟩,
    bind_eq_ok.mpr ⟨generation, placed, ?_⟩, rfl⟩
  rw [made]
  rfl

omit [Digests] in
/-- A candidate names its successors by the default policy. -/
theorem candidate_names [AcceptsNames] {key : AuthorityKey} {owner : OwnerId}
    (candidate : coordinator.Candidate key owner) (revision : UInt64) (term : WriterTerm) :
    coordinator.foundation.Names revision term (candidateId revision term owner) := by
  constructor
  · intro attempt member
    rw [candidate.named, candidate.identified]
    exact defaultFreshLogletIdPolicy_candidateId _ _ _ (List.mem_range.mp member)
  · intro attempt member
    have small := List.mem_range.mp member
    rw [candidateId_text _ _ _ small]
    unfold maxCandidateAttempts at small
    exact candidateName_length _ _ _ (by omega)

theorem requireLocalServing_ends (stop : Option FoundationTransitionCheckpoint)
    {before later : World} {process : Nat} {key : AuthorityKey} {authority : WriterAuthority}
    (published : HolylogJournalFoundation.Published before later process key authority)
    (own : authority.ownerId = coordinator.localOwnerId) :
    ∃ serving root, Ends (World.until stop) (coordinator.requireLocalServing key
        authority.writerTerm authority.generationRef) later (later, .ok serving) ∧
      later.current = some root ∧
      ServingAuthorityRecord.decode root.applicationFence = .ok serving := by
  obtain ⟨root, serving, route, register, decoded, keyed, state, bound⟩ := published.installed
  have current : later.current = some root := by
    unfold World.current
    rw [register, List.getLast?_concat]
  have serves : coordinator.localServing key authority.writerTerm authority.generationRef
      (.record serving) = .ok serving := by
    unfold localServing
    simp only [state]
    rw [if_pos ⟨keyed, own, trivial, trivial⟩]
  refine ⟨serving, root, ?_, current, decoded⟩
  refine Ends.bind (observeRootAuthority_ends current decoded) ?_
  rw [serves]
  rfl

/-- A durable intent of the coordinator's own on the root, over a generation whose loglet is there
and whose successor has a revision and a start. -/
structure Standing (world : World) (root : VirtualLogState) (record : ServingAuthorityRecord)
    (intent : TransitionIntent) (expected : JournalGenerationRef) (loglet : Loglet)
    (revision start : UInt64) : Prop where
  current : world.current = some root
  decoded : ServingAuthorityRecord.decode root.applicationFence = .ok record
  transitioning : record.state = .transitioning intent
  expects : intent.precondition = .expected expected
  candidate : coordinator.Candidate record.key intent.candidateOwnerId
  active : ∃ earlier, root.generations =
    earlier ++ [⟨expected.activeLogletId, expected.activeStart⟩]
  claimed : ∀ generation ∈ root.generations, (world.loglets generation.logletId).isSome
  found : world.loglets expected.activeLogletId = some loglet
  revision : checkedAdd64 root.revision 1 = some revision
  boundary : checkedAdd64 expected.activeStart loglet.tail = some start

variable {root : VirtualLogState} {record : ServingAuthorityRecord} {intent : TransitionIntent}
variable {expected : JournalGenerationRef} {loglet : Loglet} {revision start : UInt64}
variable {coordinator}

/-- The two calls that take a durable intent up again. -/
inductive Retry where
  | reconcile
  | promote (drawn : Except String TransitionId)

/-- The call, by a process that may serve. -/
def Retry.run (coordinator : AuthorityCoordinator) (key : AuthorityKey) (term : WriterTerm)
    (expected : JournalGenerationRef) : Retry → CoordinatorRun ServingAuthorityRecord
  | .reconcile => coordinator.reconcile key ⟨true, false⟩
  | .promote drawn => coordinator.promote key term (.expected expected) ⟨true, false⟩ drawn

variable (coordinator) in
/-- The world after runs that were each interrupted at a checkpoint. -/
def afterInterruptions (key : AuthorityKey) (term : WriterTerm) (expected : JournalGenerationRef) :
    List (Retry × FoundationTransitionCheckpoint) → World → World
  | [], world => world
  | (retry, reached) :: rest, world =>
      afterInterruptions key term expected rest (exec (World.until (some reached))
        (retry.run coordinator key term expected).run world).1

namespace Standing

omit [Digests] in
theorem replaceable
    (standing : coordinator.Standing world root record intent expected loglet revision start) :
    HolylogJournalFoundation.Replaceable world root
      ⟨expected.activeLogletId, expected.activeStart⟩ loglet revision start := by
  obtain ⟨earlier, active⟩ := standing.active
  refine ⟨standing.current, ?_, standing.claimed, standing.found, standing.revision,
    standing.boundary⟩
  unfold VirtualLogState.active
  rw [active, List.getLast?_concat]

/-- The live generation is the one the intent expects. -/
theorem live
    (standing : coordinator.Standing world root record intent expected loglet revision start) :
    ∃ generation, coordinator.foundation.live (.ok root) = .ok (some (root, generation)) ∧
      sameActiveMembership generation expected = true := by
  have active := standing.replaceable.active
  refine ⟨_, coordinator.foundation.live_of_record standing.decoded
    standing.candidate.configured.symm (by
      unfold JournalGenerationRef.fromVirtualLogState
      rw [active]
      rfl), ?_⟩
  simp [sameActiveMembership, JournalGenerationRef.fromActiveGeneration]

/-- A run that resumes the intent drives the foundation from the root. -/
theorem drives [AcceptsNames]
    (standing : coordinator.Standing world root record intent expected loglet revision start)
    (nonzero : intent.candidateOwnerId.bytes ≠ repeated 16 0) :
    ∃ publication, publication.authority.ownerId = intent.candidateOwnerId ∧
      publication.authority.writerTerm = intent.nextWriterTerm ∧
      (∀ stop later error, Ends (World.until stop)
          (coordinator.foundation.replaceExpected root publication) world (later, .error error) →
        Ends (World.until stop) (coordinator.completeAfterIntent record.key intent.nextWriterTerm
          (.expected expected) intent) world (later, .error (.foundationFailed error))) ∧
      (∀ stop later generation after, Ends (World.until stop)
          (coordinator.foundation.replaceExpected root publication) world (later, .ok generation) →
        Ends (World.until stop) (coordinator.requireLocalServing record.key intent.nextWriterTerm
          generation) later after →
        Ends (World.until stop) (coordinator.completeAfterIntent record.key intent.nextWriterTerm
          (.expected expected) intent) world after) := by
  obtain ⟨generation, live, same⟩ := standing.live
  have owned : coordinator.localOwnerId.bytes ≠ repeated 16 0 := by
    rw [standing.candidate.own]
    exact nonzero
  obtain ⟨publication, made, keyed⟩ :=
    coordinator.provisionalPublication_of_owned record.key intent.nextWriterTerm owned
  obtain ⟨owner, term⟩ := coordinator.provisionalPublication_authority made
  have none : installedFor intent.candidateOwnerId intent.nextWriterTerm (.record record) =
      none := by
    simp [installedFor, standing.transitioning]
  have driven : ∀ {stop : Option FoundationTransitionCheckpoint}
      {after : World × Except FoundationTransitionError JournalGenerationRef},
      Ends (World.until stop) (coordinator.foundation.replaceExpected root publication) world
        after →
      Ends (World.until stop) (coordinator.foundation.drive record.key publication
        (.expected expected)) world after := fun replaced =>
    coordinator.foundation.drive_ends standing.candidate.configured.symm
      (by rw [owner, standing.candidate.own, standing.candidate.identified]) keyed standing.current
      live same replaced
  refine ⟨publication, by rw [owner, standing.candidate.own], term, ?_, ?_⟩
  · intro stop later error replaced
    refine Ends.bind (observeRootAuthority_ends standing.current standing.decoded) ?_
    rw [none]
    refine ends_ofExcept made ?_
    exact Ends.fail ((driven replaced).mapError CoordinatorError.foundationFailed)
  · intro stop later found after replaced ends
    refine Ends.bind (observeRootAuthority_ends standing.current standing.decoded) ?_
    rw [none]
    refine ends_ofExcept made ?_
    exact Ends.bind ((driven replaced).mapError CoordinatorError.foundationFailed) ends

/-- A run that is interrupted leaves the intent standing. -/
theorem interrupted [AcceptsNames]
    (standing : coordinator.Standing world root record intent expected loglet revision start)
    (nonzero : intent.candidateOwnerId.bytes ≠ repeated 16 0)
    (few : world.lostAttempts revision intent.nextWriterTerm intent.candidateOwnerId <
      maxCandidateAttempts) (reached : FoundationTransitionCheckpoint) :
    ∃ later error, Ends (World.until (some reached)) (coordinator.completeAfterIntent record.key
        intent.nextWriterTerm (.expected expected) intent) world (later, .error error) ∧
      coordinator.Standing later root record intent expected { loglet with isSealed := true }
        revision start ∧
      later.lostAttempts revision intent.nextWriterTerm intent.candidateOwnerId ≤
        world.lostAttempts revision intent.nextWriterTerm intent.candidateOwnerId +
          [reached].count .successorProvisioned := by
  obtain ⟨publication, -, term, fails, -⟩ := standing.drives nonzero
  have names : coordinator.foundation.Names revision publication.authority.writerTerm
      (candidateId revision intent.nextWriterTerm intent.candidateOwnerId) := by
    rw [term]
    exact coordinator.candidate_names standing.candidate revision intent.nextWriterTerm
  have free := World.exists_free few
  obtain ⟨later, error, ends, interrupted⟩ :=
    coordinator.foundation.replaceExpected_stops publication standing.replaceable names free reached
  obtain ⟨register, predecessor, kept, claimed, lost, claims⟩ := interrupted
  refine ⟨later, _, fails _ later error ends, ?_, ?_⟩
  · obtain ⟨current, decoded, transitioning, expects, candidate, active, held, -, number,
      boundary⟩ := standing
    refine ⟨?_, decoded, transitioning, expects, candidate, active, ?_, predecessor, number,
      boundary⟩
    · unfold World.current at current ⊢
      rw [register]
      exact current
    · intro generation member
      exact kept _ (held generation member)
  · exact (World.lostAttempts_le claims).trans (by omega)

/-- A run that is not interrupted installs what the intent says. -/
theorem completes [AcceptsNames]
    (standing : coordinator.Standing world root record intent expected loglet revision start)
    (nonzero : intent.candidateOwnerId.bytes ≠ repeated 16 0)
    (few : world.lostAttempts revision intent.nextWriterTerm intent.candidateOwnerId <
      maxCandidateAttempts) :
    ∃ later serving authority, Ends (World.until none) (coordinator.completeAfterIntent record.key
        intent.nextWriterTerm (.expected expected) intent) world (later, .ok serving) ∧
      HolylogJournalFoundation.Published world later coordinator.foundation.process record.key
        authority ∧
      authority.ownerId = intent.candidateOwnerId ∧
      authority.writerTerm = intent.nextWriterTerm ∧
      ∃ root, later.current = some root ∧
        ServingAuthorityRecord.decode root.applicationFence = .ok serving := by
  obtain ⟨publication, owner, term, -, succeeds⟩ := standing.drives nonzero
  have names : coordinator.foundation.Names revision publication.authority.writerTerm
      (candidateId revision intent.nextWriterTerm intent.candidateOwnerId) := by
    rw [term]
    exact coordinator.candidate_names standing.candidate revision intent.nextWriterTerm
  have free := World.exists_free few
  obtain ⟨later, attempt, ends, published⟩ :=
    coordinator.foundation.replaceExpected_completes publication standing.replaceable names free
  rw [owner, term, standing.candidate.configured] at published
  obtain ⟨serving, installed, required, current, decoded⟩ :=
    coordinator.requireLocalServing_ends none published standing.candidate.own.symm
  exact ⟨later, serving, _, succeeds none later _ _ ends required, published, rfl, rfl, installed,
    current, decoded⟩

/-- The zero owner cannot even name what it would publish. -/
theorem fails [AcceptsNames]
    (standing : coordinator.Standing world root record intent expected loglet revision start)
    (zero : intent.candidateOwnerId.bytes = repeated 16 0) :
    ∃ message, Ends (World.until stop) (coordinator.completeAfterIntent record.key
      intent.nextWriterTerm (.expected expected) intent) world
      (world, .error (.invalidInput message)) := by
  have none : installedFor intent.candidateOwnerId intent.nextWriterTerm (.record record) =
      none := by
    simp [installedFor, standing.transitioning]
  have refused : ∃ message, coordinator.provisionalPublication record.key intent.nextWriterTerm =
      .error (.invalidInput message) := by
    obtain ⟨generation, placed⟩ := provisionalGeneration_ok
    refine ⟨(ServingAuthorityError.malformedState
      "Serving publication requires a non-zero owner id").text, ?_⟩
    unfold provisionalPublication ServingPublication.new
    rw [placed]
    have own : coordinator.localOwnerId.bytes = repeated 16 0 := by
      rw [standing.candidate.own]
      exact zero
    simp [own, bind, Except.bind, Except.mapError]
  obtain ⟨message, refused⟩ := refused
  refine ⟨message, ?_⟩
  refine Ends.bind (observeRootAuthority_ends standing.current standing.decoded) ?_
  rw [none, refused]
  exact Ends.fail rfl

theorem resumes (retry : Retry) {after : World × Except CoordinatorError ServingAuthorityRecord}
    (standing : coordinator.Standing world root record intent expected loglet revision start)
    (ends : Ends (World.until stop) (coordinator.completeAfterIntent record.key
      intent.nextWriterTerm (.expected expected) intent) world after) :
    Ends (World.until stop) (retry.run coordinator record.key intent.nextWriterTerm expected) world
      after := by
  have own := standing.candidate.own
  cases retry with
  | promote drawn =>
      have started : coordinator.promotionStart record.key intent.nextWriterTerm expected record =
          .ok (.resume intent) := by
        simp [promotionStart, standing.transitioning, own, standing.expects]
      have decoded : decodeRoot root = .ok record := by
        unfold decodeRoot
        rw [standing.decoded]
        rfl
      change Ends (World.until stop) (coordinator.promoteExpected record.key intent.nextWriterTerm
        expected drawn) world after
      refine ends_checked (until_observe stop standing.current) rfl ?_
      refine ends_ofExcept decoded (ends_ofExcept started ?_)
      exact ends
  | reconcile =>
      obtain ⟨generation, live, same⟩ := standing.live
      have found : ownRecord record.key (.record record) = .ok record := if_pos rfl
      have key : coordinator.foundation.requireConfiguredKey record.key = .ok () := by
        simp [HolylogJournalFoundation.requireConfiguredKey, standing.candidate.configured]
      have still : HolylogJournalFoundation.classified record.key intent
          (some (root, generation)) = .ok .stillPredecessor := by
        simp [HolylogJournalFoundation.classified, HolylogJournalFoundation.matchesPrecondition,
          standing.expects, same]
      have classified : Ends (World.until stop)
          (coordinator.foundation.classifyTransition record.key intent) world
          (world, .ok .stillPredecessor) := by
        refine ends_ofExcept key ?_
        refine Ends.bind (coordinator.foundation.observeLive_ends standing.current live) ?_
        rw [still]
        rfl
      unfold Retry.run reconcile
      refine Ends.bind (observeRootAuthority_ends standing.current standing.decoded) ?_
      refine ends_ofExcept found ?_
      simp only [standing.transitioning]
      rw [if_neg (not_not.mpr own)]
      refine Ends.bind (classified.mapError CoordinatorError.foundationFailed) ?_
      dsimp only
      rw [standing.expects]
      exact ends

/-- Interruptions leave the intent standing, and lose a name for each successor provisioned. -/
theorem afterInterruptions [AcceptsNames]
    (interruptions : List (Retry × FoundationTransitionCheckpoint))
    (standing : coordinator.Standing world root record intent expected loglet revision start)
    (nonzero : intent.candidateOwnerId.bytes ≠ repeated 16 0)
    (few : world.lostAttempts revision intent.nextWriterTerm intent.candidateOwnerId +
      (interruptions.map Prod.snd).count .successorProvisioned < maxCandidateAttempts) :
    let after := coordinator.afterInterruptions record.key intent.nextWriterTerm expected
      interruptions world
    (∃ loglet, coordinator.Standing after root record intent expected loglet revision start) ∧
      after.lostAttempts revision intent.nextWriterTerm intent.candidateOwnerId <
        maxCandidateAttempts := by
  induction interruptions generalizing world loglet with
  | nil => exact ⟨⟨loglet, standing⟩, few⟩
  | cons interruption rest ih =>
      obtain ⟨retry, reached⟩ := interruption
      rw [List.map_cons, ← List.singleton_append, List.count_append] at few
      dsimp only at few
      obtain ⟨later, error, ends, stands, lost⟩ := standing.interrupted nonzero (by omega) reached
      have run := standing.resumes retry ends
      unfold Ends at run
      have next := ih stands (by omega)
      simp only [AuthorityCoordinator.afterInterruptions, run]
      exact next

end Standing

end AuthorityCoordinator

end names

end Scripture
