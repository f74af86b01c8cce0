import Scripture.Spool.PreCommit

set_option autoImplicit false

/- Draining a pre-commit spool again and again. Entries that were not drained come first, each of
them once; after that every call gives the first entry. -/
namespace Scripture.Spool

namespace PreCommitSpool

open AppendLog

/-- What so many calls of `next_envelope` give, one after another. -/
def drains : Nat → PreCommitSpool → List BlobEnvelope
  | 0, _ => []
  | calls + 1, spool => spool.nextEnvelope.2.toList ++ drains calls spool.nextEnvelope.1

/-- Rounds of calls, as many in each as envelopes are pending, give each of them once a round. -/
def Fair (spool : PreCommitSpool) (rounds : Nat) : Prop :=
  ∀ entry ∈ spool.pending,
    (drains (spool.pending.length * rounds) spool).count entry.envelope = rounds

instance (spool : PreCommitSpool) (rounds : Nat) : Decidable (spool.Fair rounds) :=
  inferInstanceAs (Decidable (∀ _ ∈ _, _))

/-- The envelopes that were not yet drained. -/
def waiting (entries : List PreCommitEntry) : List BlobEnvelope :=
  (entries.filter fun entry => ¬ entry.drained).map PreCommitEntry.envelope

theorem drainFirst_waiting {entries later : List PreCommitEntry} {envelope : BlobEnvelope}
    (drained : drainFirst (fun entry => ¬ entry.drained) entries = some (later, envelope)) :
    waiting entries = envelope :: waiting later := by
  induction entries generalizing later with
  | nil => cases drained
  | cons entry rest ih =>
      unfold drainFirst at drained
      split at drained
      · rename_i fresh
        cases drained
        simp only [waiting, List.filter_cons, fresh, if_true, List.map_cons]
        simp
      · rename_i stale
        obtain ⟨⟨marked, given⟩, found, same⟩ := Option.map_eq_some_iff.mp drained
        cases same
        have later := ih found
        simp only [waiting, List.filter_cons, stale] at later ⊢
        exact later

theorem drainFirst_eq_none {condition : PreCommitEntry → Bool} {entries : List PreCommitEntry}
    (none : drainFirst condition entries = none) : entries.filter condition = [] := by
  induction entries with
  | nil => rfl
  | cons entry rest ih =>
      unfold drainFirst at none
      split at none
      · cases none
      · rename_i other
        rw [List.filter_cons, if_neg other]
        exact ih (Option.map_eq_none_iff.mp none)

variable {spool : PreCommitSpool}

/-- The calls give what waits, and then the first envelope for ever. -/
theorem drains_eq {first : PreCommitEntry} {others : List PreCommitEntry}
    (pending : spool.pending = first :: others) (calls : Nat) :
    drains calls spool = (waiting spool.pending).take calls ++
      List.replicate (calls - (waiting spool.pending).length) first.envelope := by
  induction calls generalizing spool first others with
  | zero => simp [drains]
  | succ calls ih =>
      unfold drains nextEnvelope
      cases fresh : drainFirst (fun entry => ¬ entry.drained) spool.pending with
      | some found =>
          obtain ⟨later, envelope⟩ := found
          have waits := drainFirst_waiting fresh
          have held := drainFirst_held fresh
          rw [pending] at held
          obtain ⟨head, tail, rfl⟩ : ∃ head tail, later = head :: tail := by
            cases later with
            | nil => cases held
            | cons head tail => exact ⟨head, tail, rfl⟩
          have same : head.envelope = first.envelope :=
            congrArg Prod.snd (List.cons.inj held).1
          have further := @ih { spool with pending := head :: tail } head tail rfl
          simp only [Option.toList_some, List.singleton_append]
          rw [further, waits, same, List.take_succ_cons, List.length_cons, Nat.add_sub_add_right,
            List.cons_append]
      | none =>
          have stale : waiting spool.pending = [] := by
            rw [waiting, drainFirst_eq_none fresh, List.map_nil]
          have marked : waiting ({ first with drained := true } :: others) = [] := by
            rw [pending] at stale
            simp only [waiting, List.map_eq_nil_iff, List.filter_eq_nil_iff] at stale ⊢
            intro entry member
            cases member with
            | head => simp
            | tail _ member => exact stale entry (List.mem_cons_of_mem _ member)
          have further := @ih { spool with pending := { first with drained := true } :: others }
            _ others rfl
          rw [pending, drainFirst, if_pos rfl]
          simp only [Option.toList_some, List.singleton_append]
          rw [further, marked, ← pending, stale]
          simp [List.replicate_succ]

/-- An entry is known by its identity, and its envelope carries it. -/
structure Distinct (spool : PreCommitSpool) : Prop where
  identities : (spool.pending.map PreCommitEntry.identity).Nodup
  named : ∀ entry ∈ spool.pending, identityOf entry.envelope = .ok entry.identity
  known : ∀ entry ∈ spool.pending, entry.identity ∈ spool.known

theorem Distinct.envelopes (distinct : spool.Distinct) :
    (spool.pending.map PreCommitEntry.envelope).Nodup := by
  apply List.pairwise_map.mpr
  refine (List.pairwise_map.mp distinct.identities).imp_of_mem ?_
  intro left right leftMember rightMember differ same
  have named := distinct.named left leftMember
  rw [same, distinct.named right rightMember] at named
  exact differ (Except.ok.inj named).symm

/-- A spool whose entries are among those of another. -/
theorem Distinct.of_sublist {before after : PreCommitSpool} (distinct : before.Distinct)
    (held : (after.pending.map PreCommitEntry.held).Sublist
      (before.pending.map PreCommitEntry.held))
    (known : before.known ⊆ after.known) : after.Distinct := by
  have source : ∀ entry ∈ after.pending, ∃ other ∈ before.pending, other.held = entry.held := by
    intro entry member
    exact List.mem_map.mp (held.subset (List.mem_map_of_mem member))
  constructor
  · have identities : ∀ entries : List PreCommitEntry, entries.map PreCommitEntry.identity =
        (entries.map PreCommitEntry.held).map Prod.fst := by
      intro entries
      rw [List.map_map]
      rfl
    rw [identities]
    exact List.Nodup.sublist (held.map Prod.fst) (identities _ ▸ distinct.identities)
  · intro entry member
    obtain ⟨other, present, same⟩ := source entry member
    have named := distinct.named other present
    rw [show other.envelope = entry.envelope from congrArg Prod.snd same,
      show other.identity = entry.identity from congrArg Prod.fst same] at named
    exact named
  · intro entry member
    obtain ⟨other, present, same⟩ := source entry member
    rw [← show other.identity = entry.identity from congrArg Prod.fst same]
    exact known (distinct.known other present)

variable [Digests]

theorem opened_distinct (config : AcceptedConfig) (segment : LogFile) :
    (opened config segment).Distinct := by
  let frames := (FileSpoolStorage.open segment).scanValidFrames.1.map ValidFrame.frame
  let index := rebuild preCommitReading frames
  have admitted : ∀ entry ∈ (opened config segment).pending,
      index.admitted.find? entry.identity = some entry.envelope := by
    intro entry member
    obtain ⟨⟨identity, envelope⟩, pending, rfl⟩ := List.mem_map.mp member
    exact (Index.mem_pending.mp pending).1
  constructor
  · show ((index.pending.map _).map PreCommitEntry.identity).Nodup
    rw [List.map_map]
    exact List.pairwise_map.mpr ((index.admitted.sorted.filter _).imp ne_of_lt)
  · intro entry member
    obtain ⟨frame, -, read⟩ := admission_of_find? (admitted entry member)
    cases frame with
    | submission journalId held => cases read
    | progress identity => cases read
    | preCommit verseKey chunkId journalId cohortId held =>
        obtain ⟨identity, envelope⟩ := Prod.mk.inj (Option.some.inj read)
        rw [← identity, ← envelope]
        rfl
  · intro entry member
    exact Index.mem_known.mpr ⟨_, admitted entry member⟩

theorem step_distinct (distinct : spool.Distinct) (event : PreCommitEvent) :
    (spool.step event).Distinct := by
  have kept : ∀ storage, Distinct { spool with storage } := fun _ =>
    ⟨distinct.identities, distinct.named, distinct.known⟩
  cases event with
  | persist envelope reply synced =>
      rcases spool.persistAndAckSpooled_cases envelope reply synced with
        ⟨error, same⟩ | ⟨identity, frame, bytes, planned, ⟨error, -, same⟩ | ⟨-, same⟩⟩
      · simp only [step, same]
        exact distinct
      · simp only [step, same]
        exact kept _
      · obtain ⟨fresh, named, -⟩ := planPersist_eq_ok planned
        simp only [step, same]
        constructor
        · rw [List.map_append, List.map_singleton]
          refine distinct.identities.append (List.nodup_singleton _) ?_
          intro other member last
          obtain ⟨entry, present, rfl⟩ := List.mem_map.mp member
          have same : entry.identity = identity := List.mem_singleton.mp last
          exact fresh (same ▸ distinct.known entry present)
        · intro entry member
          rcases List.mem_append.mp member with present | last
          · exact distinct.named entry present
          · rw [List.mem_singleton.mp last]
            exact named
        · intro entry member
          rcases List.mem_append.mp member with present | last
          · exact Finset.mem_insert_of_mem (distinct.known entry present)
          · rw [List.mem_singleton.mp last]
            exact Finset.mem_insert_self _ _
  | observe identity reply synced =>
      rcases spool.observeCommitted_cases identity reply synced with
        same | ⟨error, -, same⟩ | ⟨encoded, -, -, same⟩
      · simp only [step, same]
        exact distinct
      · simp only [step, same]
        exact kept _
      · simp only [step, same]
        exact distinct.of_sublist (List.filter_sublist.map _) (Finset.Subset.refl _)
  | drain =>
      obtain ⟨pending, held, same⟩ := spool.nextEnvelope_eq
      simp only [step, same]
      exact distinct.of_sublist (held ▸ List.Sublist.refl _) (Finset.Subset.refl _)
  | reopen kept config => exact opened_distinct _ _

omit [Digests] in
theorem count_waiting (distinct : spool.Distinct) {entry : PreCommitEntry}
    (member : entry ∈ spool.pending) :
    (waiting spool.pending).count entry.envelope = if entry.drained then 0 else 1 := by
  have once : (waiting spool.pending).Nodup :=
    List.Nodup.sublist (List.filter_sublist.map _) distinct.envelopes
  have waits : entry.envelope ∈ waiting spool.pending ↔ entry.drained = false := by
    constructor
    · intro found
      obtain ⟨other, fresh, same⟩ := List.mem_map.mp found
      obtain ⟨present, fresh⟩ := List.mem_filter.mp fresh
      rw [← List.inj_on_of_nodup_map distinct.envelopes present member same]
      simpa using fresh
    · intro fresh
      exact List.mem_map.mpr ⟨entry, List.mem_filter.mpr ⟨member, by simp [fresh]⟩, rfl⟩
  cases marked : entry.drained with
  | false => exact List.count_eq_one_of_mem once (waits.mpr marked)
  | true =>
      refine List.count_eq_zero_of_not_mem fun found => ?_
      rw [waits.mp found] at marked
      cases marked

omit [Digests] in
/-- How many wait behind the first entry and with it. -/
theorem waiting_length {first : PreCommitEntry} {others : List PreCommitEntry}
    (pending : spool.pending = first :: others) (fresh : ∀ entry ∈ others, entry.drained = false) :
    (waiting spool.pending).length = others.length + if first.drained then 0 else 1 := by
  have all : others.filter (fun entry => ¬ entry.drained) = others := by
    apply List.filter_eq_self.mpr
    intro entry member
    simp [fresh entry member]
  rw [waiting, List.length_map, pending, List.filter_cons, all]
  cases first.drained with
  | false => rfl
  | true => rfl

omit [Digests] in
/-- Over a spool with at least two entries, a second round goes to the first of them alone. -/
theorem fair_iff (distinct : spool.Distinct) (rounds : Nat) :
    spool.Fair rounds ↔ rounds = 0 ∨ spool.pending.length ≤ 1 ∨
      rounds = 1 ∧ ∀ entry ∈ spool.pending.tail, entry.drained = false := by
  cases pending : spool.pending with
  | nil => simp [Fair, pending]
  | cons first others =>
      have calls := drains_eq pending (spool.pending.length * rounds)
      have envelopes := distinct.envelopes
      rw [pending, List.map_cons, List.nodup_cons] at envelopes
      have apart : ∀ entry ∈ others, first.envelope ≠ entry.envelope := fun entry member same =>
        envelopes.1 (same ▸ List.mem_map_of_mem member)
      constructor
      · intro fair
        by_cases none : rounds = 0
        · exact Or.inl none
        by_cases single : (first :: others).length ≤ 1
        · exact Or.inr (Or.inl single)
        refine Or.inr (Or.inr ?_)
        -- An entry behind the first is given at most once, and only if it was not drained.
        have once : ∀ entry ∈ others, rounds = 1 ∧ entry.drained = false := by
          intro entry member
          have present : entry ∈ spool.pending := pending ▸ List.mem_cons_of_mem _ member
          have given := fair entry present
          rw [calls, List.count_append, List.count_replicate,
            if_neg (by simpa using apart entry member)] at given
          have most := List.Sublist.count_le entry.envelope
            (List.take_sublist (spool.pending.length * rounds) (waiting spool.pending))
          rw [count_waiting distinct present] at most
          cases marked : entry.drained with
          | false =>
              rw [marked, if_neg (by decide)] at most
              exact ⟨by omega, rfl⟩
          | true =>
              rw [marked, if_pos rfl] at most
              omega
        have several : 0 < others.length := by
          rw [List.length_cons] at single
          omega
        obtain ⟨entry, member⟩ := List.exists_mem_of_length_pos several
        exact ⟨(once entry member).1, fun entry member => (once entry member).2⟩
      · intro condition entry member
        have present := member
        rw [pending] at member
        by_cases none : rounds = 0
        · rw [none, Nat.mul_zero]
          rfl
        have fresh : ∀ other ∈ others, other.drained = false := by
          rcases condition with zero | single | ⟨-, fresh⟩
          · exact absurd zero none
          · obtain rfl : others = [] := List.length_eq_zero_iff.mp (Nat.le_zero.mp
              (Nat.le_of_succ_le_succ single))
            exact List.forall_mem_nil _
          · exact fresh
        have enough : rounds = 1 ∨ others.length = 0 := by
          rcases condition with zero | single | ⟨one, -⟩
          · exact absurd zero none
          · exact Or.inr (Nat.le_zero.mp (Nat.le_of_succ_le_succ single))
          · exact Or.inl one
        have length := waiting_length pending fresh
        have total : spool.pending.length * rounds =
            (waiting spool.pending).length + (rounds - if first.drained then 0 else 1) := by
          rw [length, pending, List.length_cons]
          rcases enough with rfl | empty
          · split <;> omega
          · rw [empty]
            split <;> omega
        rw [calls, total, List.take_of_length_le (Nat.le_add_right _ _), Nat.add_sub_cancel_left,
          List.count_append, count_waiting distinct present, List.count_replicate]
        rcases List.mem_cons.mp member with rfl | behind
        · rw [if_pos (beq_self_eq_true _)]
          split <;> omega
        · have one : rounds = 1 := by
            rcases enough with one | empty
            · exact one
            · rw [List.length_eq_zero_iff.mp empty] at behind
              cases behind
          have other : (first.envelope == entry.envelope) = false := by
            simpa using apart entry behind
          rw [fresh entry behind, other, one]
          rfl

/-- In every state a spool can come to, so many rounds of calls give each pending envelope once a
round only if there is at most one round over entries of which none behind the first is marked as
drained, or there is at most one entry. -/
theorem drain_fair_iff (config : AcceptedConfig) (segment : LogFile)
    (events : List PreCommitEvent) (rounds : Nat) :
    let spool := Machine.run step (opened config segment) events
    spool.Fair rounds ↔ rounds = 0 ∨ spool.pending.length ≤ 1 ∨
      rounds = 1 ∧ ∀ entry ∈ spool.pending.tail, entry.drained = false := by
  intro spool
  have distinct : spool.Distinct := @Machine.run_invariant _ _ step Distinct
    (fun _ event distinct => step_distinct distinct event) _ events (opened_distinct config segment)
  exact fair_iff distinct rounds

end PreCommitSpool

/-- Two envelopes and two rounds: the second envelope is given once and the first three times. -/
theorem drain_starves : ∃ _ : Digests,
    let spool := Machine.run PreCommitSpool.step (.opened sampleConfig .empty)
      [.persist (oneEnvelope 1 0) .written true, .persist (oneEnvelope 2 0) .written true]
    spool.pending.length = 2 ∧ ¬ spool.Fair 2 ∧
      (PreCommitSpool.drains 4 spool).count (oneEnvelope 2 0) = 1 := by
  refine ⟨sampleDigests, ?_⟩
  decide +kernel

end Scripture.Spool
