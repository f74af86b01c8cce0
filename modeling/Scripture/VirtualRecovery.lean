import Scripture.Authority.Projection
import Scripture.ChunkLogOperations

set_option autoImplicit false

/- Recovery of a writer over a fenced virtual log. It observes the authority, checks the tail, reads
the suffix and observes the register once more, and between any two of these the register may be
updated, the active generation sealed and the log appended to. -/
namespace Scripture.VirtualRecovery

open ByteFormat Interleaving

inductive SealStatus where
  | unsealed
  | sealed
  deriving DecidableEq

structure TailCheck where
  revision : UInt64
  tail : Nat
  sealStatus : SealStatus
  deriving DecidableEq

inductive LogError where
  | staleGeneration
  | other (error : VirtualLogError)
  deriving DecidableEq

/-- `CanonAuthorityError`, as far as an observation returns it. -/
inductive AuthorityError where
  | virtualLog (error : LogError)
  | fence (error : CanonFenceError)
  | journalMismatch (expected actual : JournalId)
  | verseMismatch (expected actual : VerseId)
  | unowned (revision : UInt64) (verseId : VerseId)
  | notOwner (revision : UInt64) (expected actual : OwnerId)

inductive RecoverError where
  | virtualLog (error : LogError)
  | authority (error : AuthorityError)
  | staleCanonRecovery (expected observed : UInt64)
  | chunkLog (error : ChunkLogError)

inductive Op where
  | observeMembership
  | state
  | checkTail
  | readNext (slot tail : Nat)

section

variable [LogletNames]

def Op.Reply : Op → Type
  | .observeMembership | .state => Except LogError VirtualLogState
  | .checkTail => Except LogError TailCheck
  | .readNext _ _ => Except LogError Bytes

abbrev RecoveryRun := ExceptT RecoverError (Program Op Op.Reply)

structure CanonAuthoritySnapshot where
  state : VirtualLogState
  fence : CanonFence
  deriving DecidableEq

def CanonAuthoritySnapshot.revision (snapshot : CanonAuthoritySnapshot) : UInt64 :=
  snapshot.fence.revision

/-- A writer over a virtual log. The log itself is a handle, and what it holds is not the
writer's. -/
structure VirtualWriter where
  journalId : JournalId
  cohortId : CohortId
  generation : UInt64
  nextOffset : RecordOffset
  poisoned : Bool
  deriving DecidableEq

structure VirtualChunkLogRecovery where
  writer : VirtualWriter
  chunks : List RecoveredChunk
  authority : CanonAuthoritySnapshot
  deriving DecidableEq

section

variable [Digests]

/-- The checks of `observe_canon_authority_witnessed` on what has been observed. -/
def checkAuthority (journal : JournalId) (verse : VerseId) (owner : OwnerId)
    (observed : Except LogError VirtualLogState) :
    Except AuthorityError CanonAuthoritySnapshot := do
  let state ← observed.mapError .virtualLog
  let fence ← (CanonFence.fromVirtualLogState state).mapError .fence
  if fence.journalId ≠ journal then throw (.journalMismatch journal fence.journalId)
  if fence.verseId ≠ verse then throw (.verseMismatch verse fence.verseId)
  match fence.owner with
  | .unowned => throw (.unowned fence.revision fence.verseId)
  | .owned ownerId _ _ _ =>
      if ownerId ≠ owner then throw (.notOwner fence.revision owner ownerId)
      return ⟨state, fence⟩

def observeCanonAuthority (journal : JournalId) (verse : VerseId) (owner : OwnerId) :
    RecoveryRun CanonAuthoritySnapshot := do
  let observed ← ask Op.observeMembership
  given ((checkAuthority journal verse owner observed).mapError .authority)

/-- The revision that a stale read is reported with. -/
def staleRevision (generation : UInt64) : Except LogError VirtualLogState → UInt64
  | .ok state => state.revision
  | .error _ => UInt64.ofNat (Usize.saturatingAdd generation.toNat 1)

def readPayload (generation : UInt64) (slot tail : Nat) : RecoveryRun Bytes := do
  let answer : Except LogError Bytes ← ask (Op.readNext slot tail)
  match answer with
  | .ok payload => return payload
  | .error .staleGeneration => do
      let observed ← ask Op.state
      throw (.staleCanonRecovery generation (staleRevision generation observed))
  | .error (.other error) => throw (.virtualLog (.other error))

/-- The slot loop of `recover_from_log` over a virtual log. -/
def readSlots (journal : JournalId) (cohort : CohortId) (generation : UInt64)
    (store : Option BlobStore) (tail : Nat) :
    Nat → Nat → Option UInt64 → RecoveryRun (List RecoveredChunk)
  | 0, _, _ => return []
  | remaining + 1, slot, previous => do
      let payload ← readPayload generation slot tail
      let sets ← given ((resolvePayload store payload).mapError .chunkLog)
      let (chunks, previous) ← given
        ((recoverChunks journal cohort (.atMost generation) slot previous
        sets).mapError .chunkLog)
      let others ← readSlots journal cohort generation store tail remaining (slot + 1) previous
      return chunks ++ others

/-- The tail, if the generation is neither sealed nor replaced. -/
def checkedTail (generation : UInt64) (answer : Except LogError TailCheck) :
    Except RecoverError Nat := do
  let check ← answer.mapError .virtualLog
  if check.sealStatus = .sealed then throw (.staleCanonRecovery generation check.revision)
  if check.revision ≠ generation then throw (.staleCanonRecovery generation check.revision)
  return check.tail

/-- The offset after the recovered chunks. -/
def recoveredOffset (chunks : List RecoveredChunk) : Except ChunkLogError RecordOffset :=
  denseTail chunks (match chunks with
    | [] => .ofNat 0
    | chunk :: _ => chunk.firstOffset)

/-- `recover_from_log` over a virtual log. -/
def recoverFromVirtual (journal : JournalId) (cohort : CohortId) (generation : UInt64)
    (bound : RecoveryBound) (store : Option BlobStore) :
    RecoveryRun (VirtualWriter × List RecoveredChunk) := do
  let answer ← ask Op.checkTail
  let tail ← given (checkedTail generation answer)
  let start := tail - bound.val
  let chunks ← readSlots journal cohort generation store tail (tail - start) start none
  let nextOffset ← given ((recoveredOffset chunks).mapError .chunkLog)
  return (⟨journal, cohort, generation, nextOffset, false⟩, chunks)

/-- The register has stayed where it was. -/
def checkClosing (authority : CanonAuthoritySnapshot) (observed : Except LogError VirtualLogState) :
    Except RecoverError Unit := do
  let closing ← observed.mapError .virtualLog
  if closing.revision ≠ authority.revision then
    throw (.staleCanonRecovery authority.revision closing.revision)
  let fence ← (CanonFence.fromVirtualLogState closing).mapError
    fun error => .authority (.fence error)
  if fence ≠ authority.fence then
    throw (.staleCanonRecovery authority.revision closing.revision)

def recoverVirtual (journal : JournalId) (cohort : CohortId) (verse : VerseId) (owner : OwnerId)
    (bound : RecoveryBound) (store : Option BlobStore) : RecoveryRun VirtualChunkLogRecovery := do
  let authority ← observeCanonAuthority journal verse owner
  let (writer, chunks) ← recoverFromVirtual journal cohort authority.revision bound store
  let closing ← ask Op.state
  given (checkClosing authority closing)
  return ⟨writer, chunks, authority⟩

end

/-- What is shared: what the root register holds, whether the active generation is sealed, and the
durable entries. -/
structure Shared where
  root : VirtualLogState
  isSealed : Bool
  log : List Bytes

/-- What others do. An update of the register raises the revision. -/
inductive Foreign : Shared → Shared → Prop
  | update {shared : Shared} {next : VirtualLogState} (isSealed : Bool)
      (raised : shared.root.revision < next.revision) :
      Foreign shared { shared with root := next, isSealed }
  | sealed (shared : Shared) : Foreign shared { shared with isSealed := true }
  | append (shared : Shared) (payload : Bytes) :
      Foreign shared { shared with log := shared.log ++ [payload] }

def Later : Shared → Shared → Prop := Relation.ReflTransGen Foreign

/-- An operation fails, or is answered with what is there. -/
def answered {α : Type} (failure : Option LogError) (value : Except LogError α) :
    Except LogError α :=
  match failure with
  | some error => .error error
  | none => value

def Shared.answer (shared : Shared) (failure : Option LogError) : (op : Op) → op.Reply
  | .observeMembership | .state => answered failure (.ok shared.root)
  | .checkTail => answered failure (.ok ⟨shared.root.revision, shared.log.length,
      if shared.isSealed then .sealed else .unsealed⟩)
  | .readNext slot _ => answered failure (match shared.log[slot]? with
      | some payload => .ok payload
      | none => .error (.other (.other "no entry")))

/-- An interleaving: what is shared at each moment, and whether an operation then fails. -/
structure Timeline where
  shared : Nat → Shared
  failure : Nat → Option LogError
  later : ∀ moment, Later (shared moment) (shared (moment + 1))

def Timeline.answer (timeline : Timeline) (moment : Nat) (op : Op) : op.Reply :=
  (timeline.shared moment).answer (timeline.failure moment) op

theorem Later.revision {before after : Shared} (later : Later before after) :
    before.root.revision ≤ after.root.revision := by
  induction later with
  | refl => exact UInt64.le_refl _
  | tail _ step ih =>
      cases step with
      | update isSealed raised => exact UInt64.le_trans ih (UInt64.le_of_lt raised)
      | sealed => exact ih
      | append payload => exact ih

/-- A register that still has its revision has not been updated. -/
theorem Later.root {before after : Shared} (later : Later before after)
    (same : after.root.revision = before.root.revision) : after.root = before.root := by
  induction later with
  | refl => rfl
  | tail earlier step ih =>
      cases step with
      | update isSealed raised =>
          have climbed := Later.revision earlier
          simp only at same
          rw [same] at raised
          exact absurd raised (UInt64.not_lt.mpr climbed)
      | sealed => exact ih same
      | append payload => exact ih same

theorem Later.log {before after : Shared} (later : Later before after) :
    before.log <+: after.log := by
  induction later with
  | refl => exact List.prefix_rfl
  | tail _ step ih =>
      cases step with
      | update isSealed raised => exact ih
      | sealed => exact ih
      | append payload => exact ih.trans (List.prefix_append _ _)

theorem Timeline.between (timeline : Timeline) {first last : Nat} (order : first ≤ last) :
    Later (timeline.shared first) (timeline.shared last) := by
  induction order with
  | refl => exact .refl
  | step _ ih => exact ih.trans (timeline.later _)

omit [LogletNames] in
theorem answered_eq_ok {α : Type} {failure : Option LogError} {value : Except LogError α}
    {result : α} :
    answered failure value = .ok result ↔ failure = none ∧ value = .ok result := by
  cases failure <;> simp [answered]

section

variable [Digests] {timeline : Timeline}

omit [Digests] in
theorem readPayload_returns {generation : UInt64} {slot tail moment stop : Nat} {payload : Bytes}
    (returned : timed timeline.answer (readPayload generation slot tail).run moment =
      (.ok payload, stop)) :
    stop = moment + 1 ∧ (timeline.shared moment).log[slot]? = some payload := by
  obtain ⟨answer, between, asked, returned⟩ := timed_bind_ok returned
  cases asked
  cases given : (timeline.shared moment).answer (timeline.failure moment)
    (Op.readNext slot tail) with
  | error error =>
      rw [Timeline.answer, given] at returned
      cases error with
      | staleGeneration => cases returned
      | other error => cases returned
  | ok found =>
      rw [Timeline.answer, given] at returned
      cases returned
      obtain ⟨-, there⟩ := answered_eq_ok.mp given
      split at there <;> [skip; cases there]
      rename_i held
      cases there
      exact ⟨rfl, held⟩

/-- The slots are read one after the other, and hold what they held when the tail was checked. -/
theorem readSlots_returns {journal : JournalId} {cohort : CohortId} {generation : UInt64}
    {store : Option BlobStore} {log : List Bytes} {remaining slot moment stop : Nat}
    {previous : Option UInt64} {chunks : List RecoveredChunk}
    (returned : timed timeline.answer
      (readSlots journal cohort generation store log.length remaining slot
      previous).run moment = (.ok chunks, stop))
    (held : log <+: (timeline.shared moment).log) (whole : slot + remaining = log.length) :
    stop = moment + remaining ∧
      recoverSlots journal cohort (.atMost generation) store slot previous (log.drop slot) =
        .ok chunks := by
  induction remaining generalizing slot previous moment chunks with
  | zero =>
      cases returned
      rw [List.drop_eq_nil_of_le (by omega)]
      exact ⟨rfl, rfl⟩
  | succ remaining ih =>
      obtain ⟨payload, between, read, returned⟩ := timed_bind_ok returned
      obtain ⟨rfl, there⟩ := readPayload_returns read
      obtain ⟨sets, _, gave, returned⟩ := timed_bind_ok returned
      obtain ⟨resolved, rfl⟩ := timed_given_ok gave
      obtain ⟨⟨first, next⟩, _, gave, returned⟩ := timed_bind_ok returned
      obtain ⟨recovered, rfl⟩ := timed_given_ok gave
      obtain ⟨others, _, rest, returned⟩ := timed_bind_ok returned
      cases returned
      have inside : slot < log.length := by omega
      have same : log[slot] = payload := by
        have shown := List.prefix_iff_getElem?.mp held slot inside
        exact Option.some.inj (shown.symm.trans there)
      obtain ⟨count, others⟩ := ih rest (held.trans (timeline.later moment).log) (by omega)
      refine ⟨by omega, ?_⟩
      rw [List.drop_eq_getElem_cons inside, same]
      exact bind_eq_ok.mpr ⟨sets, mapError_eq_ok.mp resolved, bind_eq_ok.mpr
        ⟨_, mapError_eq_ok.mp recovered, bind_eq_ok.mpr ⟨_, others, rfl⟩⟩⟩

variable {journal : JournalId} {cohort : CohortId} {chunks : List RecoveredChunk}
  {previous : Option UInt64}

theorem recoverFromVirtual_returns {generation : UInt64} {bound : RecoveryBound}
    {store : Option BlobStore} {moment stop : Nat} {writer : VirtualWriter}
    (returned : timed timeline.answer (recoverFromVirtual journal cohort generation bound store).run
      moment = (.ok (writer, chunks), stop)) :
    let shared := timeline.shared moment
    moment < stop ∧ shared.isSealed = false ∧ shared.root.revision = generation ∧
      writer.generation = generation ∧
      recoverFromLog journal cohort generation shared.log bound (.atMost generation) store =
        .ok (⟨writer.journalId, writer.cohortId, writer.generation, shared.log, writer.nextOffset,
          writer.poisoned⟩, chunks) := by
  intro shared
  obtain ⟨answer, _, asked, returned⟩ := timed_bind_ok returned
  cases asked
  obtain ⟨tail, _, gave, returned⟩ := timed_bind_ok returned
  obtain ⟨checked, rfl⟩ := timed_given_ok gave
  obtain ⟨check, answered, checked⟩ := bind_eq_ok.mp checked
  obtain ⟨-, answered⟩ := answered_eq_ok.mp (mapError_eq_ok.mp answered)
  cases answered
  obtain ⟨unsealed, checked⟩ := checked_eq_ok.mp checked
  obtain ⟨current, checked⟩ := checked_eq_ok.mp checked
  cases checked
  obtain ⟨found, _, scanned, returned⟩ := timed_bind_ok returned
  obtain ⟨next, _, gave, ended⟩ := timed_bind_ok returned
  obtain ⟨dense, rfl⟩ := timed_given_ok gave
  cases ended
  obtain ⟨count, scanned⟩ := @readSlots_returns _ _ timeline _ _ _ _ shared.log _ _ _ _ _ _ scanned
    (timeline.later moment).log (Nat.add_sub_of_le (Nat.sub_le _ _))
  refine ⟨by omega, ?_, not_not.mp current, rfl, bind_eq_ok.mpr ⟨_, scanned, bind_eq_ok.mpr
    ⟨_, mapError_eq_ok.mp dense, rfl⟩⟩⟩
  cases closed : shared.isSealed with
  | false => rfl
  | true =>
      rw [show (timeline.shared moment).isSealed = true from closed] at unsealed
      exact absurd rfl unsealed

/-- The generations climb from the lower bound to the upper one. -/
structure Climbs (low : Option UInt64) (generations : List UInt64) (high : Option UInt64) :
    Prop where
  sorted : generations.Pairwise (· ≤ ·)
  above : ∀ generation ∈ generations, ∀ bound ∈ low, bound ≤ generation
  below : ∀ generation ∈ generations, ∃ bound ∈ high, generation ≤ bound
  through : ∀ bound ∈ low, ∃ top ∈ high, bound ≤ top

omit [LogletNames] [Digests] in
theorem Climbs.append {low middle high : Option UInt64} {front back : List UInt64}
    (first : Climbs low front middle) (second : Climbs middle back high) :
    Climbs low (front ++ back) high := by
  refine ⟨List.pairwise_append.mpr ⟨first.sorted, second.sorted, ?_⟩, ?_, ?_, ?_⟩
  · intro left inFront right inBack
    obtain ⟨bound, held, below⟩ := first.below left inFront
    exact UInt64.le_trans below (second.above right inBack bound held)
  · intro generation member bound held
    rcases List.mem_append.mp member with inFront | inBack
    · exact first.above generation inFront bound held
    · obtain ⟨top, between, below⟩ := first.through bound held
      exact UInt64.le_trans below (second.above generation inBack top between)
  · intro generation member
    rcases List.mem_append.mp member with inFront | inBack
    · obtain ⟨bound, held, below⟩ := first.below generation inFront
      obtain ⟨top, last, higher⟩ := second.through bound held
      exact ⟨top, last, UInt64.le_trans below higher⟩
    · exact second.below generation inBack
  · intro bound held
    obtain ⟨between, middleHeld, below⟩ := first.through bound held
    obtain ⟨top, last, higher⟩ := second.through between middleHeld
    exact ⟨top, last, UInt64.le_trans below higher⟩

omit [LogletNames] [Digests] in
theorem Climbs.nil (bound : Option UInt64) : Climbs bound [] bound :=
  ⟨.nil, by simp, by simp, fun bound held => ⟨bound, held, UInt64.le_refl _⟩⟩

omit [LogletNames] [Digests] in
theorem atMost_check {active actual : UInt64} {next : Option UInt64}
    (checked : (GenerationPolicy.atMost active).check previous actual = .ok next) :
    actual ≤ active ∧ Climbs previous [actual] next := by
  unfold GenerationPolicy.check at checked
  simp only at checked
  split at checked <;> [cases checked; skip]
  rename_i past
  refine ⟨UInt64.not_lt.mp past, ?_⟩
  cases previous with
  | none =>
      cases checked
      exact ⟨List.pairwise_singleton _ _, by simp, by simp, by simp⟩
  | some before =>
      simp only at checked
      split at checked <;> [cases checked; skip]
      rename_i back
      cases checked
      have climbs := UInt64.not_lt.mp back
      exact ⟨List.pairwise_singleton _ _, by simpa using climbs, by simp, by simpa using climbs⟩

omit [LogletNames] in
theorem recoverChunk_climbs {active : UInt64} {next : Option UInt64} {slot : Nat} {bytes : Bytes}
    {chunk : RecoveredChunk}
    (success : recoverChunk journal cohort (.atMost active) previous slot bytes =
      .ok (chunk, next)) :
    chunk.generation ≤ active ∧ Climbs previous [chunk.generation] next := by
  unfold recoverChunk at success
  obtain ⟨index, -, success⟩ := bind_eq_ok.mp success
  obtain ⟨decoded, -, success⟩ := bind_eq_ok.mp success
  obtain ⟨-, success⟩ := checked_eq_ok.mp success
  obtain ⟨after, checked, success⟩ := bind_eq_ok.mp success
  obtain ⟨frame, -, success⟩ := bind_eq_ok.mp success
  split at success <;> [skip; cases success]
  obtain ⟨digests, -, success⟩ := bind_eq_ok.mp success
  cases success
  exact atMost_check checked

omit [LogletNames] in
theorem recoverChunks_climbs {active : UInt64} {slot : Nat} {sets : List Bytes}
    {next : Option UInt64}
    (success : recoverChunks journal cohort (.atMost active) slot previous sets =
      .ok (chunks, next)) :
    (∀ chunk ∈ chunks, chunk.generation ≤ active) ∧
      Climbs previous (chunks.map RecoveredChunk.generation) next := by
  induction sets generalizing previous chunks with
  | nil =>
      cases success
      exact ⟨by simp, .nil _⟩
  | cons bytes rest ih =>
      obtain ⟨⟨chunk, between⟩, first, success⟩ := bind_eq_ok.mp success
      obtain ⟨⟨others, last⟩, later, success⟩ := bind_eq_ok.mp success
      cases success
      obtain ⟨atMost, climbs⟩ := recoverChunk_climbs first
      obtain ⟨others, climb⟩ := ih later
      exact ⟨List.forall_mem_cons.mpr ⟨atMost, others⟩, climbs.append climb⟩

omit [LogletNames] in
theorem recoverSlots_climbs {active : UInt64} {store : Option BlobStore} {log : List Bytes}
    {slot : Nat}
    (success : recoverSlots journal cohort (.atMost active) store slot previous log = .ok chunks) :
    (∀ chunk ∈ chunks, chunk.generation ≤ active) ∧
      ∃ next, Climbs previous (chunks.map RecoveredChunk.generation) next := by
  induction log generalizing slot previous chunks with
  | nil =>
      cases success
      exact ⟨by simp, _, .nil _⟩
  | cons payload rest ih =>
      obtain ⟨sets, -, success⟩ := bind_eq_ok.mp success
      obtain ⟨⟨first, between⟩, here, success⟩ := bind_eq_ok.mp success
      obtain ⟨others, later, success⟩ := bind_eq_ok.mp success
      cases success
      obtain ⟨atMost, climbs⟩ := recoverChunks_climbs here
      obtain ⟨others, next, climb⟩ := ih later
      refine ⟨List.forall_mem_append.mpr ⟨atMost, others⟩, next, ?_⟩
      rw [List.map_append]
      exact climbs.append climb

/-- The fence of a state names the revision of the state. -/
theorem fromVirtualLogState_revision {state : VirtualLogState} {fence : CanonFence}
    (decoded : CanonFence.fromVirtualLogState state = .ok fence) :
    fence.revision = state.revision := by
  unfold CanonFence.fromVirtualLogState at decoded
  split at decoded
  · obtain ⟨record, -, decoded⟩ := bind_eq_ok.mp decoded
    split at decoded
    · obtain ⟨generation, -, decoded⟩ := bind_eq_ok.mp decoded
      obtain ⟨-, decoded⟩ := checked_eq_ok.mp decoded
      obtain ⟨endpoint, -, decoded⟩ := bind_eq_ok.mp decoded
      cases decoded
      rfl
    all_goals
      cases decoded
      rfl
  · obtain ⟨found, -, decoded⟩ := bind_eq_ok.mp decoded
    obtain ⟨same, decoded⟩ := checked_eq_ok.mp decoded
    cases decoded
    exact not_not.mp same

theorem checkAuthority_eq_ok {verse : VerseId} {owner : OwnerId}
    {observed : Except LogError VirtualLogState} {snapshot : CanonAuthoritySnapshot} :
    checkAuthority journal verse owner observed = .ok snapshot ↔
      observed = .ok snapshot.state ∧
      CanonFence.fromVirtualLogState snapshot.state = .ok snapshot.fence ∧
      snapshot.fence.journalId = journal ∧ snapshot.fence.verseId = verse ∧
      snapshot.fence.owner.ownerId = some owner := by
  unfold checkAuthority
  constructor
  · intro success
    obtain ⟨state, seen, success⟩ := bind_eq_ok.mp success
    obtain ⟨fence, decoded, success⟩ := bind_eq_ok.mp success
    obtain ⟨sameJournal, success⟩ := checked_eq_ok.mp success
    obtain ⟨sameVerse, success⟩ := checked_eq_ok.mp success
    split at success <;> [cases success; skip]
    rename_i ownerId endpoint sequencer term owned
    obtain ⟨sameOwner, success⟩ := checked_eq_ok.mp success
    cases success
    refine ⟨mapError_eq_ok.mp seen, mapError_eq_ok.mp decoded, not_not.mp sameJournal,
      not_not.mp sameVerse, ?_⟩
    rw [owned, ← not_not.mp sameOwner]
    rfl
  · rintro ⟨rfl, decoded, rfl, rfl, owned⟩
    refine bind_eq_ok.mpr ⟨_, rfl, bind_eq_ok.mpr ⟨_, mapError_eq_ok.mpr decoded, checked_eq_ok.mpr
      ⟨not_not.mpr rfl, checked_eq_ok.mpr ⟨not_not.mpr rfl, ?_⟩⟩⟩⟩
    cases shape : snapshot.fence.owner with
    | unowned =>
        rw [shape] at owned
        cases owned
    | owned ownerId endpoint sequencer term =>
        rw [shape] at owned
        exact checked_eq_ok.mpr ⟨not_not.mpr (Option.some.inj owned), rfl⟩

theorem checkClosing_eq_ok {authority : CanonAuthoritySnapshot}
    {observed : Except LogError VirtualLogState} :
    checkClosing authority observed = .ok () ↔ ∃ closing, observed = .ok closing ∧
      closing.revision = authority.revision ∧
      CanonFence.fromVirtualLogState closing = .ok authority.fence := by
  unfold checkClosing
  constructor
  · intro success
    obtain ⟨closing, seen, success⟩ := bind_eq_ok.mp success
    obtain ⟨same, success⟩ := checked_eq_ok.mp success
    obtain ⟨fence, decoded, success⟩ := bind_eq_ok.mp success
    split at success <;> [cases success; skip]
    rename_i equal
    refine ⟨closing, mapError_eq_ok.mp seen, not_not.mp same, ?_⟩
    rw [← not_not.mp equal]
    exact mapError_eq_ok.mp decoded
  · rintro ⟨closing, rfl, same, decoded⟩
    exact bind_eq_ok.mpr ⟨closing, rfl, checked_eq_ok.mpr ⟨not_not.mpr same, bind_eq_ok.mpr
      ⟨_, mapError_eq_ok.mpr decoded, if_neg (not_not.mpr rfl)⟩⟩⟩

variable {journal : JournalId} {cohort : CohortId} {verse : VerseId} {owner : OwnerId}
  {bound : RecoveryBound} {store : Option BlobStore}

/-- What a recovery from the moment `first` to before `stop` has seen, if it returns a writer. -/
structure Fenced (timeline : Timeline) (journal : JournalId) (cohort : CohortId) (verse : VerseId)
    (owner : OwnerId) (bound : RecoveryBound) (store : Option BlobStore) (first stop : Nat)
    (recovery : VirtualChunkLogRecovery) : Prop where
  long : first + 2 < stop
  opening : CanonFence.fromVirtualLogState (timeline.shared first).root =
    .ok recovery.authority.fence
  closing : CanonFence.fromVirtualLogState (timeline.shared (stop - 1)).root =
    .ok recovery.authority.fence
  journalId : recovery.authority.fence.journalId = journal
  verseId : recovery.authority.fence.verseId = verse
  ownerId : recovery.authority.fence.owner.ownerId = some owner
  held : ∀ moment, first ≤ moment → moment < stop →
    (timeline.shared moment).root = recovery.authority.state
  revision : recovery.authority.state.revision = recovery.authority.revision
  unsealed : (timeline.shared (first + 1)).isSealed = false
  scanned : recoverFromLog journal cohort recovery.authority.revision
    (timeline.shared (first + 1)).log
    bound (.atMost recovery.authority.revision) store =
      .ok (⟨journal, cohort, recovery.authority.revision, (timeline.shared (first + 1)).log,
        recovery.writer.nextOffset, false⟩, recovery.chunks)
  described : ∃ view, LogView (store.getD fun _ => none) ((timeline.shared (first + 1)).log.drop
      ((timeline.shared (first + 1)).log.length - bound.val)) view ∧
    List.Forall₂ (fun recovered (entry : Nat × Chunk) =>
      Describes journal recovered entry.1 entry.2) recovery.chunks
        (slotted ((timeline.shared (first + 1)).log.length - bound.val) view)
  climbing : (recovery.chunks.map RecoveredChunk.generation).Pairwise (· ≤ ·)
  atMost : ∀ chunk ∈ recovery.chunks, chunk.generation ≤ recovery.authority.revision
  stamped : recovery.writer.generation = recovery.authority.revision

theorem recoverVirtual_returns {first stop : Nat} {recovery : VirtualChunkLogRecovery}
    (returned : timed timeline.answer
      (recoverVirtual journal cohort verse owner bound store).run first =
      (.ok recovery, stop)) :
    Fenced timeline journal cohort verse owner bound store first stop recovery := by
  obtain ⟨authority, _, observed, returned⟩ := timed_bind_ok returned
  obtain ⟨answer, _, asked, gave⟩ := timed_bind_ok observed
  cases asked
  obtain ⟨checked, rfl⟩ := timed_given_ok gave
  obtain ⟨⟨writer, chunks⟩, last, scan, returned⟩ := timed_bind_ok returned
  obtain ⟨closing, _, asked, returned⟩ := timed_bind_ok returned
  cases asked
  obtain ⟨_, _, gave, ended⟩ := timed_bind_ok returned
  obtain ⟨closed, rfl⟩ := timed_given_ok gave
  cases ended
  obtain ⟨seen, decoded, sameJournal, sameVerse, sameOwner⟩ :=
    checkAuthority_eq_ok.mp (mapError_eq_ok.mp checked)
  obtain ⟨-, seen⟩ := answered_eq_ok.mp seen
  obtain ⟨order, unsealed, current, stamped, scanned⟩ := recoverFromVirtual_returns scan
  obtain ⟨root, seenAgain, sameRevision, decodedAgain⟩ := checkClosing_eq_ok.mp closed
  obtain ⟨-, seenAgain⟩ := answered_eq_ok.mp seenAgain
  cases seenAgain
  have opening : (timeline.shared first).root = authority.state := Except.ok.inj seen
  have revision : authority.state.revision = authority.revision :=
    (fromVirtualLogState_revision decoded).symm
  have covers : Covers (store.getD fun _ => none) store := by
    rintro held rfl
    exact .refl held
  obtain ⟨⟨next, same⟩, described, -⟩ := recoverFromLog_eq_ok covers scanned
  rw [same] at scanned
  simp only [ChunkLogWriter.mk.injEq] at same
  obtain ⟨-, -, -, -, offset, -⟩ := same
  rw [← offset] at scanned
  obtain ⟨found, slots, rest⟩ := bind_eq_ok.mp scanned
  obtain ⟨_, -, rest⟩ := bind_eq_ok.mp rest
  cases rest
  obtain ⟨atMost, _, climbs⟩ := recoverSlots_climbs slots
  refine ⟨by omega, opening ▸ decoded, decodedAgain, sameJournal, sameVerse,
    sameOwner, ?_, revision,
    unsealed, scanned, described, climbs.sorted, atMost, stamped⟩
  -- The revision at any moment lies between those of the two observations, which are equal.
  intro moment after before
  have rising := (timeline.between after).revision
  have bounded := (timeline.between (show moment ≤ last by omega)).revision
  rw [show (timeline.shared last).root.revision = authority.revision from sameRevision] at bounded
  rw [opening, revision] at rising
  rw [← opening]
  apply (timeline.between after).root
  rw [opening, revision]
  exact UInt64.le_antisymm bounded rising

omit [Digests] in
/-- Nothing changes and nothing fails. -/
def still (shared : Shared) : Timeline := ⟨fun _ => shared, fun _ => none, fun _ => .refl⟩

theorem readSlots_still {shared : Shared} {generation : UInt64} {remaining slot : Nat}
    (moment : Nat) (whole : slot + remaining = shared.log.length)
    (scanned : recoverSlots journal cohort (.atMost generation) store slot previous
      (shared.log.drop slot) = .ok chunks) :
    timed (still shared).answer
      (readSlots journal cohort generation store shared.log.length remaining
      slot previous).run moment = (.ok chunks, moment + remaining) := by
  induction remaining generalizing slot previous moment chunks with
  | zero =>
      rw [List.drop_eq_nil_of_le (by omega)] at scanned
      cases scanned
      rfl
  | succ remaining ih =>
      have inside : slot < shared.log.length := by omega
      rw [List.drop_eq_getElem_cons inside] at scanned
      obtain ⟨sets, resolved, scanned⟩ := bind_eq_ok.mp scanned
      obtain ⟨⟨first, next⟩, recovered, scanned⟩ := bind_eq_ok.mp scanned
      obtain ⟨others, later, scanned⟩ := bind_eq_ok.mp scanned
      cases scanned
      have read : timed (still shared).answer
          (readPayload generation slot shared.log.length).run moment =
            (.ok shared.log[slot], moment + 1) := by
        have answer : (still shared).answer moment (Op.readNext slot shared.log.length) =
            .ok shared.log[slot] := by
          simp only [Timeline.answer, still, Shared.answer, answered,
            List.getElem?_eq_getElem inside]
          rfl
        refine (timed_bind_of_ok (timed_ask _ moment)).trans ?_
        rw [answer]
        rfl
      rw [readSlots, timed_bind_of_ok read,
        timed_bind_of_ok (timed_given (mapError_eq_ok.mpr resolved) _),
        timed_bind_of_ok (timed_given (mapError_eq_ok.mpr recovered) _)]
      refine (timed_bind_of_ok (ih (moment + 1) (by omega) later)).trans ?_
      rw [show moment + 1 + remaining = moment + (remaining + 1) by omega]
      rfl

/-- A recovery that nothing disturbs returns what is in the log. -/
theorem recoverVirtual_still {shared : Shared} {authority : CanonAuthoritySnapshot}
    {writer : ChunkLogWriter} {chunks : List RecoveredChunk} (first : Nat)
    (checked : checkAuthority journal verse owner (.ok shared.root) = .ok authority)
    (unsealed : shared.isSealed = false)
    (scanned : recoverFromLog journal cohort authority.revision shared.log bound
      (.atMost authority.revision) store = .ok (writer, chunks)) :
    ∃ stop, timed (still shared).answer (recoverVirtual journal cohort verse owner bound store).run
      first = (.ok ⟨⟨journal, cohort, authority.revision, writer.nextOffset, false⟩, chunks,
        authority⟩, stop) := by
  obtain ⟨seen, decoded, -⟩ := checkAuthority_eq_ok.mp checked
  have root : shared.root = authority.state := Except.ok.inj seen
  have revision : shared.root.revision = authority.revision := by
    rw [root]
    exact (fromVirtualLogState_revision decoded).symm
  have observed : timed (still shared).answer
      (observeCanonAuthority journal verse owner).run first =
      (.ok authority, first + 1) := by
    rw [observeCanonAuthority, timed_bind_of_ok (timed_ask _ first)]
    exact timed_given (mapError_eq_ok.mpr checked) _
  obtain ⟨found, slots, scanned⟩ := bind_eq_ok.mp scanned
  obtain ⟨next, dense, scanned⟩ := bind_eq_ok.mp scanned
  cases scanned
  have reached : recoveredOffset chunks = .ok next := dense
  have tail : checkedTail authority.revision ((still shared).answer (first + 1) .checkTail) =
      .ok shared.log.length := by
    refine bind_eq_ok.mpr ⟨_, rfl, ?_⟩
    simp [unsealed, still, revision]
    rfl
  have scan := readSlots_still (first + 2)
    (Nat.add_sub_of_le (Nat.sub_le shared.log.length bound.val)) slots
  have recovered : timed (still shared).answer
      (recoverFromVirtual journal cohort authority.revision bound store).run (first + 1) =
        (.ok (⟨journal, cohort, authority.revision, next, false⟩, chunks),
          first + 2 + (shared.log.length - (shared.log.length - bound.val))) := by
    rw [recoverFromVirtual, timed_bind_of_ok (timed_ask _ _), timed_bind_of_ok (timed_given tail _),
      timed_bind_of_ok scan, timed_bind_of_ok (timed_given (mapError_eq_ok.mpr reached) _)]
    rfl
  have closed : checkClosing authority (.ok shared.root) = .ok () :=
    checkClosing_eq_ok.mpr ⟨shared.root, rfl, revision, root ▸ decoded⟩
  refine ⟨first + 2 + (shared.log.length - (shared.log.length - bound.val)) + 1, ?_⟩
  rw [recoverVirtual, timed_bind_of_ok observed, timed_bind_of_ok recovered]
  refine (timed_bind_of_ok (timed_ask _ _)).trans ?_
  exact (timed_bind_of_ok (timed_given closed _)).trans rfl

end

section Samples

variable [Digests]

def sampleFence : CanonFence :=
  ⟨2, ⟨repeated 16 9⟩, ⟨repeated 16 5⟩,
    .owned ⟨repeated 16 6⟩ sampleEndpoint none none⟩

/-- One chunk of the generation before the active one. -/
def sampleShared (chunk : SealedChunk) : Shared :=
  ⟨⟨2, [], sampleFence.encode⟩, false, [chunk.bytes]⟩

theorem sample_checked (chunk : SealedChunk) :
    checkAuthority ⟨repeated 16 9⟩ ⟨repeated 16 5⟩ ⟨repeated 16 6⟩ (.ok (sampleShared chunk).root) =
      .ok ⟨(sampleShared chunk).root, sampleFence⟩ := by
  refine checkAuthority_eq_ok.mpr ⟨rfl, ?_, rfl, rfl, rfl⟩
  unfold CanonFence.fromVirtualLogState
  exact (if_neg (show ¬ authorityMagic.isPrefixOf sampleFence.encode = true by decide)).trans
    (bind_eq_ok.mpr ⟨_, CanonFence.decode_encode sampleFence, rfl⟩)

theorem sample_returned : ∃ (chunk : SealedChunk) (recovery : VirtualChunkLogRecovery) (stop : Nat),
    timed (still (sampleShared chunk)).answer (recoverVirtual ⟨repeated 16 9⟩ ⟨repeated 16 8⟩
      ⟨repeated 16 5⟩ ⟨repeated 16 6⟩ ⟨1, by decide⟩ (some fun _ => none)).run 0 =
        (.ok recovery, stop) ∧
    recovery.writer.nextOffset = .ofNat 1 := by
  obtain ⟨chunk, done⟩ := ChunkLogWriter.sampleFrame_sealed 1 (show 0 < 256 by decide)
  have made : SealedAs chunk.bytes
      ⟨ChunkLogWriter.sampleHeader 1, [ChunkLogWriter.sampleFrame 0]⟩ :=
    ⟨_, _, chunk, sealSingleFrameChunk_eq_ok done, rfl, rfl⟩
  have holds : List.Forall₂ (Holds fun _ => none) [chunk.bytes] _ := .cons (.inline made) .nil
  have allows : (GenerationPolicy.atMost 2).Allows 1 := GenerationPolicy.atMost_allows (by decide)
  obtain ⟨recovered, scanned, agrees⟩ :=
    @recoverSlots_holds _ ⟨repeated 16 9⟩ ⟨repeated 16 8⟩ _ _ allows
    _ _ _ holds (by simp [Owned]; exact ⟨rfl, rfl, rfl⟩) 0 none (.inl rfl)
  cases agrees with
  | cons first none =>
      cases none
      rename_i found
      have base : found.firstOffset.toNat = 0 := first.1
      have dense : recoveredOffset [found] = .ok (.ofNat 1) :=
        (denseTail_eq_ok (.cons first .nil)).mpr ⟨base.symm, by rw [base]; rfl⟩
      have recovered : recoverFromLog ⟨repeated 16 9⟩ ⟨repeated 16 8⟩ 2 [chunk.bytes] ⟨1, by decide⟩
          (.atMost 2) (some fun _ => none) = .ok _ :=
        bind_eq_ok.mpr ⟨_, scanned, bind_eq_ok.mpr ⟨_, dense, rfl⟩⟩
      obtain ⟨stop, returned⟩ := @recoverVirtual_still _ _ _ _ _ _ _ _ (sampleShared chunk) _ _ _ 0
        (sample_checked chunk) rfl recovered
      exact ⟨chunk, _, stop, returned, rfl⟩

end Samples

/-- However a recovery is interleaved with what others do: if it returns a writer, the register held
one state from the first observation to the last, with a fence that names the journal, the verse and
the owner, and the chunks are those of the last slots below the tail that was checked in between. If
the register advances before the last observation, or the generation is sealed when the tail is
checked, the recovery returns an error. -/
theorem recoverVirtual_fenced [Digests] (timeline : Timeline) (journal : JournalId)
    (cohort : CohortId) (verse : VerseId) (owner : OwnerId) (bound : RecoveryBound)
    (store : Option BlobStore) (first : Nat) :
    let run := timed timeline.answer
      (recoverVirtual journal cohort verse owner bound store).run first
    (∀ recovery, run.1 = .ok recovery →
      Fenced timeline journal cohort verse owner bound store first run.2 recovery) ∧
    ((∃ moment, first ≤ moment ∧ moment < run.2 ∧ (timeline.shared first).root.revision <
        (timeline.shared moment).root.revision) ∨ (timeline.shared (first + 1)).isSealed = true →
      ∃ error, run.1 = .error error) := by
  intro run
  have fenced (recovery : VirtualChunkLogRecovery) (returned : run.1 = .ok recovery) :
      Fenced timeline journal cohort verse owner bound store first run.2 recovery :=
    recoverVirtual_returns (Prod.ext returned rfl)
  refine ⟨fenced, ?_⟩
  intro disturbed
  cases returned : run.1 with
  | error error => exact ⟨error, rfl⟩
  | ok recovery =>
      have fenced := fenced recovery returned
      rcases disturbed with ⟨moment, after, before, advanced⟩ | closed
      · rw [fenced.held moment after before,
          fenced.held first (Nat.le_refl first) (by have := fenced.long; omega)] at advanced
        exact absurd advanced (UInt64.lt_irrefl _)
      · rw [fenced.unsealed] at closed
        cases closed

end

/-- One chunk, and nobody else. -/
theorem recoverVirtual_fenced_still :
    let names := nonemptyNames
    let digests := sampleDigests
    ∃ (chunk : SealedChunk) (recovery : VirtualChunkLogRecovery) (stop : Nat),
      Fenced (still (sampleShared chunk)) ⟨repeated 16 9⟩ ⟨repeated 16 8⟩ ⟨repeated 16 5⟩
        ⟨repeated 16 6⟩ ⟨1, by decide⟩ (some fun _ => none) 0 stop recovery ∧
      recovery.writer.nextOffset = .ofNat 1 := by
  intro names digests
  obtain ⟨chunk, recovery, stop, returned, offset⟩ := @sample_returned names digests
  have fenced := (recoverVirtual_fenced (still (sampleShared chunk)) ⟨repeated 16 9⟩ ⟨repeated 16 8⟩
    ⟨repeated 16 5⟩ ⟨repeated 16 6⟩ ⟨1, by decide⟩ (some fun _ => none) 0).1 recovery
    (congrArg Prod.fst returned)
  rw [returned] at fenced
  exact ⟨chunk, recovery, stop, fenced, offset⟩

end Scripture.VirtualRecovery
