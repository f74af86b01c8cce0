import Scripture.Authority.Coordinator

set_option autoImplicit false

/- The states the root register has held. Each follows the one before it in one of two ways: an
intent over the serving generation it expects, or the intended writer on a successor of that
generation. A generation is therefore replaced once, and an intent stands alone on its
generation until it is carried out. -/
namespace Scripture

section names

variable [LogletNames]

/-- The authority record a state of the register carries. -/
def VirtualLogState.record (state : VirtualLogState) : Option ServingAuthorityRecord :=
  (ServingAuthorityRecord.decode state.applicationFence).toOption

def VirtualLogState.logletIds (state : VirtualLogState) : List LogletId :=
  state.generations.map (·.logletId)

variable {state : VirtualLogState} {key : AuthorityKey} {authority : WriterAuthority}

theorem record_of_decode {record : ServingAuthorityRecord}
    (decoded : ServingAuthorityRecord.decode state.applicationFence = .ok record) :
    state.record = some record := by
  unfold VirtualLogState.record
  rw [decoded]
  rfl

/-- A state that serves `authority`, on the state's own generation. -/
structure Serves [Digests] (state : VirtualLogState) (key : AuthorityKey)
    (authority : WriterAuthority) : Prop where
  record : ∃ record route, state.record = some record ∧ record.key = key ∧
    record.state = .serving authority route
  bound : JournalGenerationRef.fromVirtualLogState state = .ok authority.generationRef

/-- A state that holds an intent. -/
def Intends (state : VirtualLogState) (key : AuthorityKey) (intent : TransitionIntent) : Prop :=
  ∃ record, state.record = some record ∧ record.key = key ∧ record.state = .transitioning intent

/-- The two ways one state of the register directly follows another. -/
inductive Follows [Digests] (before after : VirtualLogState) : Prop where
  | intent (key : AuthorityKey) (authority : WriterAuthority) (intent : TransitionIntent)
      (serves : Serves before key authority) (intends : Intends after key intent)
      (expects : intent.precondition = .expected authority.generationRef)
      (higher : authority.writerTerm.get < intent.nextWriterTerm.get)
      (kept : after.generations = before.generations)
  | successor (key : AuthorityKey) (intent : TransitionIntent) (authority : WriterAuthority)
      (generation : GenerationDescriptor) (intends : Intends before key intent)
      (serves : Serves after key authority)
      (owner : authority.ownerId = intent.candidateOwnerId)
      (term : authority.writerTerm = intent.nextWriterTerm)
      (fresh : generation.logletId ∉ before.logletIds)
      (grown : after.generations = before.generations ++ [generation])

/-- The first state serves, on the only generation there is, and each further state follows. -/
structure Lawful [Digests] (register : List VirtualLogState) : Prop where
  first : ∀ state, register.head? = some state → (∃ key authority, Serves state key authority) ∧
    ∃ generation, state.generations = [generation]
  chain : register.IsChain Follows

theorem Intends.unique {other : AuthorityKey} {intent another : TransitionIntent}
    (intends : Intends state key intent) (again : Intends state other another) :
    key = other ∧ intent = another := by
  obtain ⟨record, carried, rfl, state⟩ := intends
  obtain ⟨found, held, rfl, same⟩ := again
  rw [carried] at held
  cases held
  rw [state] at same
  cases same
  exact ⟨rfl, rfl⟩

variable [Digests]

theorem Serves.not_intends {other : AuthorityKey} {intent : TransitionIntent}
    (serves : Serves state key authority) :
    ¬ Intends state other intent := by
  intro intends
  obtain ⟨record, route, carried, -, serving⟩ := serves.record
  obtain ⟨found, held, -, same⟩ := intends
  rw [carried] at held
  cases held
  rw [serving] at same
  cases same

theorem fromVirtualLogState_eq_ok {generation : JournalGenerationRef}
    (bound : JournalGenerationRef.fromVirtualLogState state = .ok generation) :
    ∃ earlier, state.generations =
        earlier ++ [⟨generation.activeLogletId, generation.activeStart⟩] ∧
      generation = .fromActiveGeneration state.revision generation.activeLogletId
        generation.activeStart := by
  unfold JournalGenerationRef.fromVirtualLogState at bound
  cases active : state.active with
  | none =>
      rw [active] at bound
      cases bound
  | some last =>
      rw [active] at bound
      cases bound
      obtain ⟨earlier, same⟩ := List.getLast?_eq_some_iff.mp active
      exact ⟨earlier, same, rfl⟩

theorem serves_of_decode {route : RouteHint}
    (decoded : ServingAuthorityRecord.decode state.applicationFence =
      .ok (.new key (.serving authority route)))
    (bound : JournalGenerationRef.fromVirtualLogState state = .ok authority.generationRef) :
    Serves state key authority := by
  exact ⟨⟨.new key (.serving authority route), route, record_of_decode decoded, rfl, rfl⟩, bound⟩

theorem lawful_first {owner : OwnerId} {term : WriterTerm} {revision start : UInt64}
    {loglet : LogletId} {fence : ByteFormat.Bytes} {route : RouteHint}
    (decoded : ServingAuthorityRecord.decode fence = .ok (.new key (.serving
      ⟨owner, term, .fromActiveGeneration revision loglet start⟩ route))) :
    Lawful [⟨revision, [⟨loglet, start⟩], fence⟩] := by
  constructor
  · intro state first
    cases first
    exact ⟨⟨key, _, serves_of_decode decoded rfl⟩, ⟨_, rfl⟩⟩
  · exact .singleton _

namespace Follows

variable {before after : VirtualLogState}

theorem generations (follows : Follows before after) :
    before.generations <+: after.generations := by
  cases follows with
  | intent key authority intent serves intends expects higher kept =>
      exact ⟨[], by rw [kept, List.append_nil]⟩
  | successor key intent authority generation intends serves owner term fresh grown =>
      rw [grown]
      exact List.prefix_append _ _

theorem nodup (follows : Follows before after) (distinct : before.logletIds.Nodup) :
    after.logletIds.Nodup := by
  cases follows with
  | intent key authority intent serves intends expects higher kept =>
      unfold VirtualLogState.logletIds at distinct ⊢
      rwa [kept]
  | successor key intent authority generation intends serves owner term fresh grown =>
      unfold VirtualLogState.logletIds at distinct fresh ⊢
      rw [grown, List.map_append, List.nodup_append]
      refine ⟨distinct, by simp, ?_⟩
      intro loglet member other new
      simp only [List.map_cons, List.map_nil, List.mem_singleton] at new
      rw [new]
      intro same
      exact fresh (same ▸ member)

end Follows

omit [Digests] in
/-- Once a generation is added, the active one is none of those before it. -/
theorem active_not_earlier {earlier before more : List GenerationDescriptor}
    {added active : GenerationDescriptor}
    (extended : earlier ++ [added] ++ more = state.generations)
    (ending : state.generations = before ++ [active]) (distinct : state.logletIds.Nodup) :
    active.logletId ∉ earlier.map (·.logletId) := by
  have split : state.generations = earlier ++ ([added] ++ more) := by
    rw [← extended, List.append_assoc]
  have last : active ∈ [added] ++ more := by
    have found : state.generations.getLast? = some active := by rw [ending, List.getLast?_concat]
    rw [split, List.getLast?_append] at found
    cases tail : ([added] ++ more).getLast? with
    | none => simp at tail
    | some other =>
        rw [tail] at found
        cases found
        exact List.mem_of_getLast? tail
  unfold VirtualLogState.logletIds at distinct
  rw [split, List.map_append, List.nodup_append] at distinct
  intro member
  exact distinct.2.2 _ member _ (List.mem_map_of_mem last) rfl

/-- Serving in a term comes after the intent for it, and an intent after every lower term. -/
def VirtualLogState.rank (state : VirtualLogState) : Nat :=
  match state.record.map ServingAuthorityRecord.state with
  | some (.serving authority _) => 2 * authority.writerTerm.get.toNat
  | some (.transitioning intent) => 2 * intent.nextWriterTerm.get.toNat - 1
  | _ => 0

/-- The order of the ranks. -/
def Lower (first second : VirtualLogState) : Prop := first.rank < second.rank

instance : Trans (α := VirtualLogState) Lower Lower Lower := ⟨Nat.lt_trans⟩

theorem Serves.rank (serves : Serves state key authority) :
    state.rank = 2 * authority.writerTerm.get.toNat := by
  obtain ⟨record, route, carried, -, serving⟩ := serves.record
  unfold VirtualLogState.rank
  rw [carried, Option.map_some, serving]

omit [Digests] in
theorem Intends.rank {intent : TransitionIntent} (intends : Intends state key intent) :
    state.rank = 2 * intent.nextWriterTerm.get.toNat - 1 := by
  obtain ⟨record, carried, -, same⟩ := intends
  unfold VirtualLogState.rank
  rw [carried, Option.map_some, same]

theorem Follows.rank {before after : VirtualLogState} (follows : Follows before after) :
    before.rank < after.rank := by
  cases follows with
  | intent key authority intent serves intends expects higher kept =>
      rw [serves.rank, intends.rank]
      have lower := UInt64.lt_iff_toNat_lt.mp higher
      omega
  | successor key intent authority generation intends serves owner term fresh grown =>
      rw [serves.rank, intends.rank, term]
      have positive : intent.nextWriterTerm.get.toNat ≠ 0 := by
        intro zero
        exact intent.nextWriterTerm.nonzero (UInt64.toNat_inj.mp zero)
      omega

namespace Lawful

variable {register : List VirtualLogState}

/-- What the first state has and every step keeps, every state has. -/
theorem forall_states {P : VirtualLogState → Prop} (lawful : Lawful register)
    (initial : ∀ state, register.head? = some state → P state)
    (carries : ∀ before after, Follows before after → P before → P after) :
    ∀ state ∈ register, P state := by
  apply List.IsChain.induction P register lawful.chain
  · intro before after follows holds
    exact carries before after follows holds
  · intro nonempty
    exact initial _ (List.head?_eq_some_head nonempty)

theorem nodup (lawful : Lawful register) : ∀ state ∈ register, state.logletIds.Nodup := by
  refine lawful.forall_states ?_ ?_
  · intro state first
    obtain ⟨-, generation, alone⟩ := lawful.first state first
    unfold VirtualLogState.logletIds
    rw [alone]
    simp
  · intro before after follows distinct
    exact follows.nodup distinct

/-- Every state serves a generation of its own or holds an intent. -/
theorem serves_or_intends (lawful : Lawful register) : ∀ state ∈ register,
    (∃ key authority, Serves state key authority) ∨ ∃ key intent, Intends state key intent := by
  refine lawful.forall_states ?_ ?_
  · intro state first
    exact .inl (lawful.first state first).1
  · intro before after follows holds
    cases follows with
    | intent key authority intent serves intends expects higher kept =>
        exact .inr ⟨key, intent, intends⟩
    | successor key intent authority generation intends serves owner term fresh grown =>
        exact .inl ⟨key, authority, serves⟩

variable {authority : WriterAuthority}

/-- A state whose record serves, serves on the state's own generation. -/
theorem serves_of_record (lawful : Lawful register) {state : VirtualLogState}
    {record : ServingAuthorityRecord} {route : RouteHint} (member : state ∈ register)
    (carried : state.record = some record) (serving : record.state = .serving authority route) :
    Serves state record.key authority := by
  rcases lawful.serves_or_intends state member with ⟨key, found, serves⟩ | ⟨key, intent, intends⟩
  · obtain ⟨held, hint, same, rfl, state⟩ := serves.record
    rw [carried] at same
    cases same
    rw [serving] at state
    cases state
    exact serves
  · obtain ⟨held, same, -, state⟩ := intends
    rw [carried] at same
    cases same
    rw [serving] at state
    cases state

theorem intends_active (lawful : Lawful register) : ∀ state ∈ register,
    ∀ key intent expected, Intends state key intent → intent.precondition = .expected expected →
      ∃ earlier, state.generations =
        earlier ++ [⟨expected.activeLogletId, expected.activeStart⟩] := by
  refine lawful.forall_states ?_ ?_
  · intro state first key intent expected intends
    obtain ⟨⟨held, authority, serves⟩, -⟩ := lawful.first state first
    exact absurd intends serves.not_intends
  · intro before after follows _ key intent expected intends expects
    cases follows with
    | intent held authority found serves holds expectation higher kept =>
        obtain ⟨-, rfl⟩ := intends.unique holds
        rw [expects] at expectation
        cases expectation
        obtain ⟨earlier, last, -⟩ := fromVirtualLogState_eq_ok serves.bound
        exact ⟨earlier, by rw [kept, last]⟩
    | successor held found authority generation holds serves owner term fresh grown =>
        exact absurd intends serves.not_intends

theorem generations_prefix {earlier later : List VirtualLogState} {state : VirtualLogState}
    (lawful : Lawful (earlier ++ state :: later)) :
    ∀ after ∈ state :: later, state.generations <+: after.generations := by
  have chain := (List.isChain_split.mp lawful.chain).2
  apply List.IsChain.induction (fun after => state.generations <+: after.generations) _ chain
  · intro before after follows grown
    exact grown.trans follows.generations
  · intro nonempty
    exact List.prefix_refl _

/-- As long as the register is on the generation that an intent expects, it holds the intent. -/
theorem intent_stands (lawful : Lawful register) {state last : VirtualLogState}
    {key : AuthorityKey} {intent : TransitionIntent} {expected generation : JournalGenerationRef}
    (member : state ∈ register) (intends : Intends state key intent)
    (expects : intent.precondition = .expected expected)
    (current : register.getLast? = some last)
    (live : JournalGenerationRef.fromVirtualLogState last = .ok generation)
    (same : sameActiveMembership generation expected = true) : last = state := by
  obtain ⟨earlier, active⟩ := lawful.intends_active state member key intent expected intends expects
  obtain ⟨past, future, rfl⟩ := List.append_of_mem member
  cases future with
  | nil =>
      rw [List.getLast?_concat] at current
      cases current
      rfl
  | cons next rest =>
      -- The next state replaced the expected generation, and every later one keeps that.
      exfalso
      have follows := (List.isChain_append_cons_cons.mp lawful.chain).2.1
      cases follows with
      | intent held authority found serves holds expectation higher kept =>
          exact serves.not_intends intends
      | successor held found authority replaced holds serves owner term fresh grown =>
          have reached : last ∈ next :: rest := by
            rw [List.getLast?_append, List.getLast?_cons_cons] at current
            cases tail : (next :: rest).getLast? with
            | none => simp at tail
            | some found =>
                rw [tail] at current
                cases current
                exact List.mem_of_getLast? tail
          have split : past ++ state :: next :: rest = (past ++ [state]) ++ next :: rest := by simp
          obtain ⟨more, extended⟩ := Lawful.generations_prefix (split ▸ lawful) last reached
          have distinct := lawful.nodup last (by simp [List.mem_cons.mp reached])
          obtain ⟨before, ending, -⟩ := fromVirtualLogState_eq_ok live
          have again : generation.activeLogletId = expected.activeLogletId := by
            simp only [sameActiveMembership, decide_eq_true_eq] at same
            exact same.1
          rw [grown, active] at extended
          have new := active_not_earlier extended ending distinct
          exact new (by simp [again])

/-- Between two serving states there is an intent and a new generation. -/
theorem serves_again {past future : List VirtualLogState} {earlier later : VirtualLogState}
    {key other : AuthorityKey} {next : WriterAuthority}
    (lawful : Lawful (past ++ earlier :: future)) (member : later ∈ future)
    (serves : Serves earlier key authority) (serving : Serves later other next) :
    authority.writerTerm.get < next.writerTerm.get ∧
      next.generationRef.activeLogletId ∉ earlier.logletIds := by
  have chain := (List.isChain_split.mp lawful.chain).2
  have below : earlier.rank < later.rank := by
    have ranked : (earlier :: future).IsChain Lower := chain.imp fun _ _ follows => follows.rank
    exact (List.pairwise_cons.mp ranked.pairwise).1 later member
  rw [serves.rank, serving.rank] at below
  refine ⟨UInt64.lt_iff_toNat_lt.mpr (by omega), ?_⟩
  cases future with
  | nil => cases member
  | cons between rest =>
      obtain ⟨step, chain⟩ := List.isChain_cons_cons.mp chain
      cases step with
      | successor held intent found generation intends _ owner term fresh grown =>
          exact absurd intends serves.not_intends
      | intent held found intent _ intends expects higher kept =>
          rcases List.mem_cons.mp member with rfl | member
          · exact absurd intends serving.not_intends
          · cases rest with
            | nil => cases member
            | cons replaced rest =>
                obtain ⟨step, chain⟩ := List.isChain_cons_cons.mp chain
                cases step with
                | intent held another proposal serves' _ _ _ _ =>
                    exact absurd intends serves'.not_intends
                | successor held proposal another generation _ _ owner term fresh grown =>
                    have split : past ++ earlier :: between :: replaced :: rest =
                        (past ++ [earlier, between]) ++ replaced :: rest := by simp
                    obtain ⟨more, extended⟩ :=
                      Lawful.generations_prefix (split ▸ lawful) later member
                    have distinct := lawful.nodup later (by
                      simp only [List.mem_append, List.mem_cons]
                      exact .inr (.inr (.inr (List.mem_cons.mp member))))
                    obtain ⟨before, ending, -⟩ := fromVirtualLogState_eq_ok serving.bound
                    rw [grown, kept] at extended
                    exact active_not_earlier extended ending distinct

theorem snoc {last next : VirtualLogState} (lawful : Lawful register)
    (current : register.getLast? = some last) (follows : Follows last next) :
    Lawful (register ++ [next]) := by
  constructor
  · intro state first
    apply lawful.first state
    obtain ⟨head, same⟩ : ∃ head, register.head? = some head := by
      cases register with
      | nil => cases current
      | cons head rest => exact ⟨head, rfl⟩
    rw [List.head?_append, same] at first
    rw [same]
    exact first
  · refine List.isChain_append.mpr ⟨lawful.chain, by simp, ?_⟩
    intro before ended after begun
    cases begun
    rw [current] at ended
    cases ended
    exact follows

end Lawful

end names

end Scripture
