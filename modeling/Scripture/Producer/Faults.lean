import Scripture.Producer.Durability

set_option autoImplicit false

/- The outbox under failing writes, flushes and syncs. Only a failed sync of a submission is taken
back; everything else that has reached the file stays there, uncounted. -/
namespace Scripture.Producer

open ByteFormat AppendLog

/-- The entries keep the bytes under every sequence. -/
def Keeps (before after : Entries) : Prop :=
  ∀ sequence state, before.find? sequence = some state →
    ∃ later, after.find? sequence = some later ∧ later.submit = state.submit

theorem Keeps.refl (entries : Entries) : Keeps entries entries :=
  fun _ state found => ⟨state, found, rfl⟩

theorem Keeps.trans {first second third : Entries} (left : Keeps first second)
    (right : Keeps second third) : Keeps first third := by
  intro sequence state found
  obtain ⟨middle, later, same⟩ := left sequence state found
  obtain ⟨last, further, equal⟩ := right sequence middle later
  exact ⟨last, further, equal.trans same⟩

theorem keeps_insert {entries : Entries} {sequence : Nat} {state : EntryState}
    (agrees : ∀ held, entries.find? sequence = some held → state.submit = held.submit) :
    Keeps entries (entries.insert sequence state) := by
  intro other held found
  rw [OrderedMap.find?_insert]
  split
  · rename_i same
    subst same
    exact ⟨state, rfl, agrees held found⟩
  · exact ⟨held, found, rfl⟩

theorem OutboxCall.keeps_effect (entries : Entries) (call : OutboxCall) :
    Keeps entries (call.effect entries) := by
  cases call with
  | stage encodedSubmit =>
      simp only [OutboxCall.effect]
      split
      · exact .refl entries
      · split
        · exact .refl entries
        · rename_i absent
          refine keeps_insert fun held found => ?_
          rw [absent] at found
          cases found
  | mark producerEpoch sequence =>
      simp only [OutboxCall.effect]
      split
      · rename_i original found
        refine keeps_insert fun held again => ?_
        rw [found] at again
        cases again
        rfl
      · exact .refl entries

theorem keeps_effects (calls : List OutboxCall) (entries : Entries) :
    Keeps entries (calls.foldl OutboxCall.effect entries) := by
  induction calls generalizing entries with
  | nil => exact .refl entries
  | cons call rest ih => exact (call.keeps_effect entries).trans (ih _)

namespace ProducerOutbox

variable [Digests]

/-- One call, and how its calls to the file end. -/
def step (outbox : ProducerOutbox) (event : OutboxCall × WalIo) : ProducerOutbox :=
  (outbox.perform event.1 event.2).1

/-- The calls that return an error. -/
def failures (outbox : ProducerOutbox) : List (OutboxCall × WalIo) → List OutboxCall
  | [] => []
  | event :: rest => match (outbox.perform event.1 event.2).2 with
    | .error _ => event.1 :: (outbox.step event).failures rest
    | .ok _ => (outbox.step event).failures rest

/-- A call writes only where the file has no bytes beyond those that are counted. -/
def Undisturbed (outbox : ProducerOutbox) (event : OutboxCall × WalIo) : Prop :=
  (outbox.body? event.1).isSome = true → outbox.usedBytes = outbox.wal.bytes.length

instance (outbox : ProducerOutbox) (event : OutboxCall × WalIo) :
    Decidable (outbox.Undisturbed event) :=
  inferInstanceAs (Decidable (_ → _))

/-- Behind the records that are counted there is at most the beginning of the record of a call that
failed. -/
def Frayed (outbox : ProducerOutbox) (failed : List OutboxCall) : Prop :=
  ∃ bodies kept part, outbox.wal.bytes = kept ++ part ∧ Laid Spells bodies kept ∧
    replay .empty bodies = .ok outbox.entries ∧ outbox.usedBytes = kept.length ∧
    (part = [] ∨ ∃ call ∈ failed, ∃ body, Spells body (frameRecord body) ∧
      part <+: frameRecord body ∧
      applyRecord outbox.entries body = .ok (call.effect outbox.entries))

variable {outbox : ProducerOutbox}

theorem Frayed.mono {failed more : List OutboxCall} (frayed : outbox.Frayed failed)
    (longer : failed ⊆ more) : outbox.Frayed more := by
  obtain ⟨bodies, kept, part, bytes, laid, replayed, used, which⟩ := frayed
  refine ⟨bodies, kept, part, bytes, laid, replayed, used, which.imp id ?_⟩
  rintro ⟨call, member, body, spelled, begins, applied⟩
  exact ⟨call, longer member, body, spelled, begins, applied⟩

theorem Mirrors.frayed {bodies : List Bytes} (mirrors : outbox.Mirrors bodies)
    (failed : List OutboxCall) : outbox.Frayed failed :=
  ⟨bodies, outbox.wal.bytes, [], by simp, mirrors.laid, mirrors.replayed, mirrors.used, Or.inl rfl⟩

theorem Frayed.mirrors {failed : List OutboxCall} (frayed : outbox.Frayed failed)
    (level : outbox.usedBytes = outbox.wal.bytes.length) :
    ∃ bodies, outbox.Mirrors bodies := by
  obtain ⟨bodies, kept, part, bytes, laid, replayed, used, -⟩ := frayed
  rw [used, bytes, List.length_append] at level
  rw [List.eq_nil_of_length_eq_zero (by omega : part.length = 0), List.append_nil] at bytes
  exact ⟨bodies, bytes ▸ laid, replayed, by rw [used, bytes]⟩

theorem Frayed.step {outbox : ProducerOutbox} {failed : List OutboxCall}
    (frayed : outbox.Frayed failed) (event : OutboxCall × WalIo)
    (undisturbed : outbox.Undisturbed event) :
    (outbox.step event).Frayed (failed ++ outbox.failures [event]) := by
  cases wrote : outbox.body? event.1 with
  | none =>
      unfold ProducerOutbox.step
      rw [perform_silent wrote]
      exact frayed.mono (List.subset_append_left _ _)
  | some body =>
      have level := undisturbed (by rw [wrote]; rfl)
      obtain ⟨bodies, mirrors⟩ := frayed.mirrors level
      cases outcome : event.2.succeeds with
      | true =>
          unfold ProducerOutbox.step
          rw [perform_succeeds wrote outcome]
          exact (mirrors.grown wrote).frayed _
      | false =>
          obtain ⟨wal, same, strays⟩ := perform_fails wrote outcome
          obtain ⟨spelled, applied, -⟩ := body?_applies wrote
          have listed : event.1 ∈ failed ++ outbox.failures [event] := by
            refine List.mem_append_right _ ?_
            rw [failures, same]
            exact List.mem_cons_self
          unfold ProducerOutbox.step
          rw [same]
          rcases strays with ⟨part, begins, bytes⟩ | bytes
          · exact ⟨bodies, outbox.wal.bytes, part, bytes, mirrors.laid, mirrors.replayed,
              mirrors.used, Or.inr ⟨event.1, listed, body, spelled, begins, applied⟩⟩
          · rw [level, List.take_left] at bytes
            exact ⟨bodies, outbox.wal.bytes, [], by rw [bytes, List.append_nil], mirrors.laid,
              mirrors.replayed, mirrors.used, Or.inl rfl⟩

theorem failures_cons (outbox : ProducerOutbox) (event : OutboxCall × WalIo)
    (rest : List (OutboxCall × WalIo)) :
    outbox.failures (event :: rest) = outbox.failures [event] ++
      (outbox.step event).failures rest := by
  simp only [failures]
  split <;> rfl

theorem Frayed.run {outbox : ProducerOutbox} {failed : List OutboxCall}
    (frayed : outbox.Frayed failed) {events : List (OutboxCall × WalIo)}
    (undisturbed : Machine.Along ProducerOutbox.step Undisturbed outbox events) :
    (Machine.run ProducerOutbox.step outbox events).Frayed (failed ++ outbox.failures events) := by
  induction events generalizing outbox failed with
  | nil =>
      rw [failures, List.append_nil]
      exact frayed
  | cons event rest ih =>
      have later := ih (frayed.step event undisturbed.1) undisturbed.2
      rw [failures_cons, ← List.append_assoc]
      exact later

/-- What a reopen makes of it: the record of a failed call counts if it is whole. -/
theorem Frayed.reopens {failed : List OutboxCall} (frayed : outbox.Frayed failed)
    (named : outbox.Named) {maxBytes : Nat} (positive : maxBytes ≠ 0)
    (capability : Option Spool.ScribeSpoolCapability) (journalId : JournalId) :
    ∃ reopened, ∃ included : List OutboxCall,
      outbox.reopen outbox.wal maxBytes capability journalId = .ok reopened ∧
      included.Sublist failed ∧
      reopened.entries = included.foldl OutboxCall.effect outbox.entries ∧
      reopened.usedBytes = reopened.wal.bytes.length := by
  obtain ⟨bodies, kept, part, bytes, laid, replayed, -, which⟩ := frayed
  have torn : Torn Spells [] part ∨ (∃ call ∈ failed, ∃ body, Spells body part ∧
      applyRecord outbox.entries body = .ok (call.effect outbox.entries)) ∨
      ∃ body, Torn Spells [body] part := by
    rcases which with none | ⟨call, member, body, spelled, ⟨more, split⟩, applied⟩
    · exact Or.inl (Or.inl none)
    · by_cases whole : more = []
      · rw [whole, List.append_nil] at split
        exact Or.inr (Or.inl ⟨call, member, body, split ▸ spelled, applied⟩)
      · exact Or.inr (Or.inr ⟨body, Or.inr ⟨body, [], _, more, rfl, spelled, whole, split.symm⟩⟩)
  rcases torn with torn | ⟨call, member, body, spelled, applied⟩ | ⟨body, torn⟩
  · obtain ⟨reopened, opens, found, entries, used⟩ :=
      reopen_cut named positive capability journalId bytes laid torn replayed
    exact ⟨reopened, [], opens, List.nil_sublist _, entries, by rw [used, found]⟩
  · have again := replay_concat replayed body
    rw [applied] at again
    obtain ⟨reopened, opens, found, entries, used⟩ :=
      reopen_cut named positive capability journalId (bytes.trans (List.append_nil _).symm)
        (laid.concat spelled) (Or.inl rfl : Torn Spells [] []) again
    exact ⟨reopened, [call], opens, List.singleton_sublist.mpr member, entries, by rw [used, found]⟩
  · obtain ⟨reopened, opens, found, entries, used⟩ :=
      reopen_cut named positive capability journalId bytes laid torn replayed
    exact ⟨reopened, [], opens, List.nil_sublist _, entries, by rw [used, found]⟩

/-- A call changes the entries as it should, or leaves them. -/
theorem step_entries (outbox : ProducerOutbox) (event : OutboxCall × WalIo) :
    (outbox.step event).entries = outbox.entries ∨
      (outbox.step event).entries = event.1.effect outbox.entries := by
  unfold ProducerOutbox.step
  cases wrote : outbox.body? event.1 with
  | none =>
      rw [perform_silent wrote]
      exact Or.inl rfl
  | some body =>
      cases outcome : event.2.succeeds with
      | true =>
          rw [perform_succeeds wrote outcome]
          exact Or.inr rfl
      | false =>
          obtain ⟨wal, same, -⟩ := perform_fails wrote outcome
          rw [same]
          exact Or.inl rfl

theorem keeps_run (outbox : ProducerOutbox) (events : List (OutboxCall × WalIo)) :
    Keeps outbox.entries (Machine.run step outbox events).entries := by
  induction events generalizing outbox with
  | nil => exact .refl _
  | cons event rest ih =>
      refine Keeps.trans ?_ (ih (outbox.step event))
      rcases outbox.step_entries event with same | changed
      · rw [same]
        exact .refl _
      · rw [changed]
        exact event.1.keeps_effect _

theorem named_run (named : outbox.Named) (events : List (OutboxCall × WalIo)) :
    (Machine.run step outbox events).Named := by
  refine Machine.run_invariant (fun outbox event named => ?_) events named
  obtain ⟨identity, identityFile, -⟩ := outbox.perform_frame event.1 event.2
  unfold Named ProducerOutbox.step at *
  rw [identity, identityFile]
  exact named

/-- A submission that was staged has an entry with its bytes. -/
theorem staged_entry {encodedSubmit : Bytes} {io : WalIo}
    (staged : (outbox.perform (.stage encodedSubmit) io).2 = .ok ()) :
    ∃ sequence state, submitSequence encodedSubmit = .ok sequence ∧
      (outbox.step (.stage encodedSubmit, io)).entries.find? sequence.toNat = some state ∧
      state.submit = encodedSubmit := by
  cases wrote : outbox.body? (.stage encodedSubmit) with
  | none =>
      unfold ProducerOutbox.step
      rw [perform_silent wrote]
      simp only [perform, stageSubmit] at staged
      simp only [body?] at wrote
      split at wrote
      · rename_i error carried
        rw [carried] at staged
        cases staged
      · rename_i sequence carried
        rw [carried] at staged
        split at wrote
        · rename_i state found
          simp only [found] at staged
          split at staged
          · rename_i same
            exact ⟨sequence, state, carried, found, same⟩
          · cases staged
        · rename_i found
          simp only [found] at staged
          split at wrote
          · cases wrote
          · rename_i error planned
            rw [planned] at staged
            cases staged
  | some body =>
      cases outcome : io.succeeds with
      | true =>
          obtain ⟨sequence, carried, found, -, -⟩ := stage_writes wrote
          unfold ProducerOutbox.step
          rw [perform_succeeds wrote outcome]
          refine ⟨sequence, .pending encodedSubmit, carried, ?_, rfl⟩
          show (OutboxCall.effect outbox.entries (.stage encodedSubmit)).find? sequence.toNat = _
          simp only [OutboxCall.effect, carried, found]
          rw [OrderedMap.find?_insert, if_pos rfl]
      | false =>
          obtain ⟨wal, same, -⟩ := perform_fails wrote outcome
          rw [same] at staged
          cases staged

/-- While calls write only where no failed call has left bytes behind, a reopen finds what is in
memory, with or without calls that failed, and no staged submission is lost. -/
theorem faults_recovered {found : Option Bytes} {wal : LogFile} {identity : ProducerOutboxIdentity}
    {maxBytes : Nat} {capability : Option Spool.ScribeSpoolCapability} {journalId : JournalId}
    {outbox : ProducerOutbox}
    (opened : openInner found wal identity maxBytes capability journalId = .ok outbox)
    {events : List (OutboxCall × WalIo)}
    (undisturbed : Machine.Along step Undisturbed outbox events) {laterMax : Nat}
    (positive : laterMax ≠ 0) (laterCapability : Option Spool.ScribeSpoolCapability)
    (laterJournal : JournalId) :
    let last := Machine.run step outbox events
    ∃ reopened, ∃ included : List OutboxCall,
      last.reopen last.wal laterMax laterCapability laterJournal = .ok reopened ∧
      included.Sublist (outbox.failures events) ∧
      reopened.entries = included.foldl OutboxCall.effect last.entries ∧
      (∀ front encodedSubmit io back, events = front ++ (.stage encodedSubmit, io) :: back →
        ((Machine.run step outbox front).perform (.stage encodedSubmit) io).2 = .ok () →
        ∃ sequence state, submitSequence encodedSubmit = .ok sequence ∧
          reopened.entries.find? sequence.toNat = some state ∧ state.submit = encodedSubmit) ∧
      reopened.usedBytes = reopened.wal.bytes.length := by
  intro last
  obtain ⟨named, -, -, -, bodies, mirrors⟩ := openInner_eq_ok opened
  have frayed := (mirrors.frayed []).run undisturbed
  obtain ⟨reopened, included, opens, some_failed, entries, used⟩ :=
    frayed.reopens (named_run named events) positive laterCapability laterJournal
  refine ⟨reopened, included, opens, some_failed, entries, ?_, used⟩
  intro front encodedSubmit io back split staged
  obtain ⟨sequence, state, carried, held, same⟩ := staged_entry staged
  have kept := keeps_run ((Machine.run step outbox front).step (.stage encodedSubmit, io)) back
  have final : Machine.run step ((Machine.run step outbox front).step (.stage encodedSubmit, io))
      back = last := by
    show _ = Machine.run step outbox events
    rw [split, Machine.run_append]
    rfl
  rw [final] at kept
  obtain ⟨later, there, equal⟩ := (kept.trans (keeps_effects included _)) _ state held
  refine ⟨sequence, later, carried, ?_, equal.trans same⟩
  rw [entries]
  exact there

end ProducerOutbox

namespace ProducerOutbox

/-- An acknowledgement that fails in its sync. -/
theorem faults_recovered_mark : ∃ (_ : Digests) (outbox : ProducerOutbox),
    openInner none .empty sampleIdentity 1000 none Spool.sampleJournal = .ok outbox ∧
    let events := [(.stage (sampleSubmit 0 7), .faultless),
      (.mark 1 0, ⟨.written, true, false, false, false⟩)]
    let last := Machine.run step outbox events
    outbox.failures events = [.mark 1 0] ∧
    ∃ reopened, last.reopen last.wal 1000 none Spool.sampleJournal = .ok reopened ∧
      reopened.usedBytes = reopened.wal.bytes.length := by
  refine ⟨sampleDigests, _, rfl, by decide +kernel, ?_⟩
  obtain ⟨reopened, -, opens, -, -, -, used⟩ := @faults_recovered sampleDigests none .empty
    sampleIdentity 1000 none Spool.sampleJournal _ rfl [(.stage (sampleSubmit 0 7), .faultless),
      (.mark 1 0, ⟨.written, true, false, false, false⟩)] (by decide +kernel) 1000 (by decide) none
    Spool.sampleJournal
  exact ⟨reopened, opens, used⟩

/-- A write that leaves three bytes of its record, and a second attempt that succeeds behind them:
the file cannot be opened again. -/
theorem faults_corrupt : ∃ (_ : Digests) (outbox : ProducerOutbox),
    openInner none .empty sampleIdentity 1000 none Spool.sampleJournal = .ok outbox ∧
    let torn := outbox.step (.stage (sampleSubmit 0 7), ⟨.failed 3, true, true, true, true⟩)
    let last := torn.step (.stage (sampleSubmit 0 7), .faultless)
    (torn.perform (.stage (sampleSubmit 0 7)) .faultless).2 = .ok () ∧
      last.usedBytes = 47 ∧ last.wal.bytes.length = 50 ∧
      last.reopen last.wal 1000 none Spool.sampleJournal = .error (.corrupt "record checksum") := by
  refine ⟨sampleDigests, _, rfl, ?_⟩
  decide +kernel

end ProducerOutbox

end Scripture.Producer
