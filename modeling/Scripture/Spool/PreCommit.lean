import Scripture.Spool.Continuity

set_option autoImplicit false

/- The spool of envelopes before their seal. An envelope is acknowledged once its frame is synced,
and is kept until its commit has been observed. -/
namespace Scripture.Spool

open ByteFormat AppendLog

/-- What is sealed under the generation that is active when it is written. -/
structure BlobEnvelope where
  verseKey : String
  chunkId : ChunkId
  baseOffset : RecordOffset
  journalId : JournalId
  cohortId : CohortId
  records : List Record
  submissions : List SubmissionRef
  deriving DecidableEq

inductive ReceiptPolicyError where
  | missingLossBudget
  | invalidScribeId
  | invalidCapacity
  deriving DecidableEq

/-- The loss budget is a number of nanoseconds. A full spool rejects; there is no other policy. -/
structure ScribeSpoolCapability where
  maxBytes : UInt64
  lossBudget : Nat
  scribeId : String
  deriving DecidableEq

def ScribeSpoolCapability.validate (capability : ScribeSpoolCapability) :
    Except ReceiptPolicyError Unit :=
  if capability.lossBudget = 0 then throw .missingLossBudget
  else if isBlank capability.scribeId then throw .invalidScribeId
  else if capability.maxBytes = 0 then throw .invalidCapacity
  else return ()

structure PreCommitSpoolConfig where
  wal : SpoolConfig
  capability : ScribeSpoolCapability
  deriving DecidableEq

inductive PreCommitSpoolError where
  | spool (error : SpoolError)
  | policy (error : ReceiptPolicyError)
  | invariant (message : String)
  deriving DecidableEq

def PreCommitSpoolConfig.validate (config : PreCommitSpoolConfig) :
    Except PreCommitSpoolError Unit := do
  config.wal.validate.mapError .spool
  config.capability.validate.mapError .policy

/-- A configuration that `open` does not refuse. -/
abbrev AcceptedConfig := { config : PreCommitSpoolConfig // config.validate = .ok () }

structure SpooledReceipt where
  scribeId : String
  lossBudget : Nat
  identity : ProgressIdentity
  deriving DecidableEq

structure PreCommitEntry where
  identity : ProgressIdentity
  envelope : BlobEnvelope
  drained : Bool
  deriving DecidableEq

/-- What an entry keeps while it is pending. -/
def PreCommitEntry.held (entry : PreCommitEntry) : ProgressIdentity × BlobEnvelope :=
  (entry.identity, entry.envelope)

structure PreCommitSpool where
  config : AcceptedConfig
  storage : FileSpoolStorage
  pending : List PreCommitEntry
  known : Finset ProgressIdentity
  committed : Finset ProgressIdentity
  reservedBytes : Nat
  deriving DecidableEq

def identityOf (envelope : BlobEnvelope) : Except PreCommitSpoolError ProgressIdentity :=
  match envelope.submissions with
  | [] => throw (.invariant "envelope requires at least one submission")
  | submission :: _ => return ⟨envelope.journalId, submission.producerId,
      submission.producerEpoch, submission.sequence⟩

def submissionOfEnvelope (envelope : BlobEnvelope) : Except PreCommitSpoolError Submission :=
  match envelope.submissions with
  | [] => throw (.invariant "envelope requires at least one submission")
  | [submission] => return ⟨submission.producerId, submission.producerEpoch,
      submission.sequence, envelope.records⟩
  | _ => throw (.invariant "pre-commit V1 stores one submission per envelope")

/-- The envelope of a frame. Its offset is given when it is sealed. -/
def envelopeFromParts (verseKey : String) (chunkId : ChunkId) (journalId : JournalId)
    (cohortId : CohortId) (submission : Submission) : BlobEnvelope where
  verseKey
  chunkId
  baseOffset := .ofNat 0
  journalId
  cohortId
  records := submission.records
  submissions := [⟨submission.producerId, submission.producerEpoch, submission.sequence, 0,
    UInt32.ofNat (min submission.records.length (2 ^ 32 - 1))⟩]

/-- The frames of `open`. Submissions of the cell are not replayed here. -/
def preCommitReading : FrameReading ProgressIdentity BlobEnvelope where
  admission
    | .preCommit verseKey chunkId journalId cohortId submission =>
        some (progressIdentity journalId submission,
          envelopeFromParts verseKey chunkId journalId cohortId submission)
    | _ => none
  retirement
    | .progress identity => some identity
    | _ => none

namespace PreCommitSpool

def isPending (spool : PreCommitSpool) (identity : ProgressIdentity) : Bool :=
  spool.pending.any fun entry => entry.identity = identity

/-- The bytes are added to what is reserved, if they fit beside it. -/
def reserve (spool : PreCommitSpool) (bytes : Nat) : Except PreCommitSpoolError PreCommitSpool := do
  let some used := Usize.checkedAdd spool.storage.usedBytes spool.reservedBytes
    | throw (.spool .capacityExceeded)
  let some next := Usize.checkedAdd used bytes | throw (.spool .capacityExceeded)
  if spool.config.val.wal.maxWalBytes < next ∨
      spool.config.val.wal.maxFrames < Usize.saturatingAdd spool.storage.frameCount 1 then
    throw (.spool .capacityExceeded)
  let some reservedBytes := Usize.checkedAdd spool.reservedBytes bytes
    | throw (.spool .capacityExceeded)
  return { spool with reservedBytes }

def release (spool : PreCommitSpool) (bytes : Nat) : PreCommitSpool :=
  { spool with reservedBytes := spool.reservedBytes - bytes }

theorem reserve_eq_ok {spool reserved : PreCommitSpool} {bytes : Nat}
    (fits : spool.reserve bytes = .ok reserved) :
    reserved = { spool with reservedBytes := spool.reservedBytes + bytes } ∧
      spool.storage.usedBytes + spool.reservedBytes + bytes ≤ spool.config.val.wal.maxWalBytes ∧
      Usize.saturatingAdd spool.storage.frameCount 1 ≤ spool.config.val.wal.maxFrames := by
  unfold reserve at fits
  split at fits
  · rename_i used usedIs
    split at fits
    · rename_i next nextIs
      obtain ⟨room, fits⟩ := checked_eq_ok.mp fits
      split at fits
      · rename_i total totalIs
        cases fits
        obtain ⟨rfl, -⟩ := Usize.checkedAdd_eq_some.mp usedIs
        obtain ⟨rfl, -⟩ := Usize.checkedAdd_eq_some.mp nextIs
        obtain ⟨rfl, -⟩ := Usize.checkedAdd_eq_some.mp totalIs
        exact ⟨rfl, by omega, by omega⟩
      · cases fits
    · cases fits
  · cases fits

/-- Marks the first entry that meets the condition as drained. -/
def drainFirst (condition : PreCommitEntry → Bool) :
    List PreCommitEntry → Option (List PreCommitEntry × BlobEnvelope)
  | [] => none
  | entry :: rest =>
      if condition entry then some ({ entry with drained := true } :: rest, entry.envelope)
      else (drainFirst condition rest).map fun (entries, envelope) => (entry :: entries, envelope)

/-- The next envelope for the writer: one that was not yet drained, or else the first again. -/
def nextEnvelope (spool : PreCommitSpool) : PreCommitSpool × Option BlobEnvelope :=
  match drainFirst (fun entry => ¬ entry.drained) spool.pending with
  | some (pending, envelope) => ({ spool with pending }, some envelope)
  | none => match drainFirst (fun _ => true) spool.pending with
    | some (pending, envelope) => ({ spool with pending }, some envelope)
    | none => (spool, none)

theorem drainFirst_held {condition : PreCommitEntry → Bool} {entries later : List PreCommitEntry}
    {envelope : BlobEnvelope} (drained : drainFirst condition entries = some (later, envelope)) :
    later.map PreCommitEntry.held = entries.map PreCommitEntry.held := by
  induction entries generalizing later with
  | nil => cases drained
  | cons entry rest ih =>
      unfold drainFirst at drained
      split at drained
      · cases drained
        rfl
      · obtain ⟨⟨marked, given⟩, found, same⟩ := Option.map_eq_some_iff.mp drained
        cases same
        rw [List.map_cons, ih found, List.map_cons]

/-- Draining only marks entries. -/
theorem nextEnvelope_eq (spool : PreCommitSpool) :
    ∃ pending, pending.map PreCommitEntry.held = spool.pending.map PreCommitEntry.held ∧
      spool.nextEnvelope.1 = { spool with pending } := by
  unfold nextEnvelope
  split
  · rename_i drained
    exact ⟨_, drainFirst_held drained, rfl⟩
  · split
    · rename_i drained
      exact ⟨_, drainFirst_held drained, rfl⟩
    · exact ⟨spool.pending, rfl, rfl⟩

theorem nextEnvelope_storage (spool : PreCommitSpool) :
    spool.nextEnvelope.1.storage = spool.storage ∧ spool.nextEnvelope.1.known = spool.known := by
  obtain ⟨pending, -, same⟩ := spool.nextEnvelope_eq
  rw [same]
  exact ⟨rfl, rfl⟩

variable [Digests]

/-- A spool over a segment, under a configuration that is valid. -/
def opened (config : AcceptedConfig) (segment : LogFile) : PreCommitSpool :=
  let storage := FileSpoolStorage.open segment
  let index := rebuild preCommitReading (storage.scanValidFrames.1.map ValidFrame.frame)
  { config
    storage
    pending := index.pending.map fun (identity, envelope) => ⟨identity, envelope, false⟩
    known := index.known
    committed := index.retired
    reservedBytes := 0 }

def «open» (config : PreCommitSpoolConfig) (segment : LogFile) :
    Except PreCommitSpoolError PreCommitSpool :=
  match valid : config.validate with
  | .error error => .error error
  | .ok () => .ok (opened ⟨config, valid⟩ segment)

/-- Reserves, writes and syncs. A failed write releases what was reserved; a write that succeeds
leaves it reserved. -/
def reserveAndPersist (spool : PreCommitSpool) (frame : SpoolFrame) (bytes : Nat)
    (reply : WriteReply) (synced : Bool) : PreCommitSpool × Except PreCommitSpoolError Unit :=
  match spool.reserve bytes with
  | .error error => (spool, .error error)
  | .ok spool =>
      match spool.storage.persist frame reply synced with
      | (storage, .error error) => ({ spool with storage }.release bytes, .error (.spool error))
      | (storage, .ok ()) => ({ spool with storage }, .ok ())

/-- The checks of an admission before anything is reserved: the identity, the frame and its
length. -/
def planPersist (spool : PreCommitSpool) (envelope : BlobEnvelope) :
    Except PreCommitSpoolError (ProgressIdentity × SpoolFrame × Nat) := do
  let identity ← identityOf envelope
  if identity ∈ spool.known then throw (.spool .duplicateIdentity)
  let submission ← submissionOfEnvelope envelope
  let frame := SpoolFrame.preCommit envelope.verseKey envelope.chunkId envelope.journalId
    envelope.cohortId submission
  let encoded ← (encodeFrame frame).mapError fun error => .spool (.frame error)
  if spool.config.val.wal.maxFrameBytes < encoded.length then throw (.spool .capacityExceeded)
  return (identity, frame, encoded.length)

def persistAndAckSpooled (spool : PreCommitSpool) (envelope : BlobEnvelope) (reply : WriteReply)
    (synced : Bool) : PreCommitSpool × Except PreCommitSpoolError SpooledReceipt :=
  match spool.planPersist envelope with
  | .error error => (spool, .error error)
  | .ok (identity, frame, bytes) =>
      match spool.reserveAndPersist frame bytes reply synced with
      | (spool, .error error) => (spool, .error error)
      | (spool, .ok ()) =>
          ({ spool with
              known := insert identity spool.known
              pending := spool.pending ++ [⟨identity, envelope, false⟩] },
            .ok ⟨spool.config.val.capability.scribeId, spool.config.val.capability.lossBudget,
              identity⟩)

def observeCommitted (spool : PreCommitSpool) (identity : ProgressIdentity) (reply : WriteReply)
    (synced : Bool) : PreCommitSpool × Except PreCommitSpoolError Unit :=
  if identity ∈ spool.committed then (spool, .ok ())
  else match encodeFrame (.progress identity) with
    | .error error => (spool, .error (.spool (.frame error)))
    | .ok encoded =>
        match spool.reserveAndPersist (.progress identity) encoded.length reply synced with
        | (spool, .error error) => (spool, .error error)
        | (spool, .ok ()) =>
            ({ spool with
                committed := insert identity spool.committed
                pending := spool.pending.filter fun entry => entry.identity ≠ identity }, .ok ())

/-- The process ends, with what a crash leaves of the segment, and the spool is opened again. -/
def reopen (spool : PreCommitSpool) (kept : Nat) (config : AcceptedConfig) : PreCommitSpool :=
  opened config (spool.storage.segment.crash kept)

end PreCommitSpool

inductive PreCommitEvent where
  | persist (envelope : BlobEnvelope) (reply : WriteReply) (synced : Bool)
  | observe (identity : ProgressIdentity) (reply : WriteReply) (synced : Bool)
  | drain
  | reopen (kept : Nat) (config : AcceptedConfig)
  deriving DecidableEq

namespace PreCommitSpool

variable [Digests]

def step (spool : PreCommitSpool) : PreCommitEvent → PreCommitSpool
  | .persist envelope reply synced => (spool.persistAndAckSpooled envelope reply synced).1
  | .observe identity reply synced => (spool.observeCommitted identity reply synced).1
  | .drain => spool.nextEnvelope.1
  | .reopen kept config => spool.reopen kept config

/-- What `reserve_and_persist` can do: refuse, fail over the file, or write and sync. -/
theorem reserveAndPersist_cases (spool : PreCommitSpool) (frame : SpoolFrame) (bytes : Nat)
    (reply : WriteReply) (synced : Bool) :
    let written := spool.storage.persist frame reply synced
    (∃ error, spool.reserveAndPersist frame bytes reply synced = (spool, .error error)) ∨
    (∃ error, written.2 = .error error ∧ spool.reserveAndPersist frame bytes reply synced =
      ({ spool with storage := written.1 }, .error (.spool error))) ∨
    (written.2 = .ok () ∧ spool.reserveAndPersist frame bytes reply synced =
      ({ spool with storage := written.1, reservedBytes := spool.reservedBytes + bytes },
        .ok ())) := by
  unfold reserveAndPersist
  cases reserves : spool.reserve bytes with
  | error error => exact Or.inl ⟨error, rfl⟩
  | ok reserved =>
      obtain ⟨rfl, -⟩ := reserve_eq_ok reserves
      rcases persisted : spool.storage.persist frame reply synced with ⟨storage, error | done⟩
      · refine Or.inr (Or.inl ⟨error, rfl, ?_⟩)
        simp [persisted, release]
      · refine Or.inr (Or.inr ⟨rfl, ?_⟩)
        simp [persisted]

variable {spool : PreCommitSpool}

/-- The frame of an envelope that passes the checks, and what a reopened spool makes of it. -/
theorem planPersist_eq_ok {envelope : BlobEnvelope} {identity : ProgressIdentity}
    {frame : SpoolFrame} {bytes : Nat}
    (planned : spool.planPersist envelope = .ok (identity, frame, bytes)) :
    identity ∉ spool.known ∧ identityOf envelope = .ok identity ∧
      bytes ≤ spool.config.val.wal.maxFrameBytes ∧
      ∃ submission, submission.records = envelope.records ∧
        frame = .preCommit envelope.verseKey envelope.chunkId envelope.journalId envelope.cohortId
          submission ∧ progressIdentity envelope.journalId submission = identity := by
  unfold planPersist at planned
  obtain ⟨found, named, planned⟩ := bind_eq_ok.mp planned
  obtain ⟨fresh, planned⟩ := checked_eq_ok.mp planned
  obtain ⟨submission, held, planned⟩ := bind_eq_ok.mp planned
  obtain ⟨encoded, -, planned⟩ := bind_eq_ok.mp planned
  obtain ⟨small, planned⟩ := checked_eq_ok.mp planned
  cases planned
  refine ⟨fresh, named, by omega, submission, ?_⟩
  unfold submissionOfEnvelope at held
  unfold identityOf at named
  split at held
  · cases held
  · rename_i reference single
    rw [single] at named
    cases held
    cases named
    exact ⟨rfl, rfl, rfl⟩
  · cases held

/-- A call that may append finds a segment of whole frames. -/
def Tended (spool : PreCommitSpool) : PreCommitEvent → Prop
  | .persist _ _ _ | .observe _ _ _ => Whole spool.storage.segment
  | .drain | .reopen _ _ => True

instance (spool : PreCommitSpool) (event : PreCommitEvent) : Decidable (spool.Tended event) := by
  cases event <;> unfold Tended <;> infer_instance

/-- The run calls for a commit to be recorded. -/
def Observed (events : List PreCommitEvent) (identity : ProgressIdentity) : Prop :=
  ∃ reply synced, .observe identity reply synced ∈ events

/-- What an admission can do: nothing, a write that fails, or a write that is acknowledged. -/
theorem persistAndAckSpooled_cases (spool : PreCommitSpool) (envelope : BlobEnvelope)
    (reply : WriteReply) (synced : Bool) :
    (∃ error, spool.persistAndAckSpooled envelope reply synced = (spool, .error error)) ∨
    ∃ identity frame bytes, spool.planPersist envelope = .ok (identity, frame, bytes) ∧
      let written := spool.storage.persist frame reply synced
      (∃ error, written.2 = .error error ∧ spool.persistAndAckSpooled envelope reply synced =
        ({ spool with storage := written.1 }, .error (.spool error))) ∨
      (written.2 = .ok () ∧ spool.persistAndAckSpooled envelope reply synced =
        ({ spool with
            storage := written.1
            reservedBytes := spool.reservedBytes + bytes
            known := insert identity spool.known
            pending := spool.pending ++ [⟨identity, envelope, false⟩] },
          .ok ⟨spool.config.val.capability.scribeId, spool.config.val.capability.lossBudget,
            identity⟩)) := by
  unfold persistAndAckSpooled
  rcases planned : spool.planPersist envelope with error | ⟨identity, frame, bytes⟩
  · exact Or.inl ⟨error, rfl⟩
  · rcases spool.reserveAndPersist_cases frame bytes reply synced with
      ⟨error, same⟩ | ⟨error, failed, same⟩ | ⟨done, same⟩
    · simp only [same]
      exact Or.inl ⟨error, rfl⟩
    · simp only [same]
      exact Or.inr ⟨identity, frame, bytes, rfl, Or.inl ⟨error, failed, rfl⟩⟩
    · simp only [same]
      exact Or.inr ⟨identity, frame, bytes, rfl, Or.inr ⟨done, rfl⟩⟩

theorem observeCommitted_cases (spool : PreCommitSpool) (identity : ProgressIdentity)
    (reply : WriteReply) (synced : Bool) :
    let written := spool.storage.persist (.progress identity) reply synced
    (spool.observeCommitted identity reply synced).1 = spool ∨
    (∃ error, written.2 = .error error ∧ spool.observeCommitted identity reply synced =
      ({ spool with storage := written.1 }, .error (.spool error))) ∨
    (∃ encoded, encodeFrame (.progress identity) = .ok encoded ∧ written.2 = .ok () ∧
      spool.observeCommitted identity reply synced =
        ({ spool with
            storage := written.1
            reservedBytes := spool.reservedBytes + encoded.length
            committed := insert identity spool.committed
            pending := spool.pending.filter fun entry => entry.identity ≠ identity }, .ok ())) := by
  unfold observeCommitted
  split
  · exact Or.inl rfl
  · cases encodes : encodeFrame (.progress identity) with
    | error error => exact Or.inl rfl
    | ok encoded =>
        rcases spool.reserveAndPersist_cases (.progress identity) encoded.length reply synced with
          ⟨error, same⟩ | ⟨error, failed, same⟩ | ⟨done, same⟩
        · exact Or.inl (by simp only [same])
        · simp only [same]
          exact Or.inr (Or.inl ⟨error, failed, rfl⟩)
        · simp only [same]
          exact Or.inr (Or.inr ⟨encoded, rfl, done, rfl⟩)

theorem turn (spool : PreCommitSpool) (event : PreCommitEvent) (tended : spool.Tended event) :
    Turn preCommitReading (fun identity => Observed [event] identity) spool.known
      (spool.step event).known spool.storage.segment (spool.step event).storage.segment := by
  cases event with
  | persist envelope reply synced =>
      rcases spool.persistAndAckSpooled_cases envelope reply synced with
        ⟨error, same⟩ | ⟨identity, frame, bytes, planned, outcome⟩
      · rw [step, same]
        exact .idle _ (Finset.Subset.refl _)
      · obtain ⟨fresh, -, -, submission, -, rfl, rfl⟩ := planPersist_eq_ok planned
        have admits : ∀ entry, preCommitReading.admission (.preCommit envelope.verseKey
            envelope.chunkId envelope.journalId envelope.cohortId submission) = some entry →
              entry.1 ∉ spool.known := by
          rintro entry ⟨⟩
          exact fresh
        rcases outcome with ⟨error, -, same⟩ | ⟨-, same⟩
        · rw [step, same]
          exact .append _ _ reply synced tended admits nofun (Finset.Subset.refl _)
        · rw [step, same]
          exact .append _ _ reply synced tended admits nofun (Finset.subset_insert _ _)
  | observe identity reply synced =>
      have observes : ∀ other, preCommitReading.retirement (.progress identity) = some other →
          Observed [.observe identity reply synced] other := by
        rintro other ⟨⟩
        exact ⟨reply, synced, List.mem_singleton_self _⟩
      rcases spool.observeCommitted_cases identity reply synced with
        same | ⟨error, -, same⟩ | ⟨encoded, -, -, same⟩
      · rw [step, same]
        exact .idle _ (Finset.Subset.refl _)
      · rw [step, same]
        exact .append _ _ reply synced tended nofun observes (Finset.Subset.refl _)
      · rw [step, same]
        exact .append _ _ reply synced tended nofun observes (Finset.Subset.refl _)
  | drain =>
      obtain ⟨storage, known⟩ := spool.nextEnvelope_storage
      rw [step, storage, known]
      exact .idle _ (Finset.Subset.refl _)
  | reopen kept config => exact .crash _ kept (Finset.Subset.refl _)

/-- Along a run whose appends all find whole frames, what was acknowledged is found by every later
reopening: pending with its records, or committed by an observation. -/
theorem acknowledged_survives {config : AcceptedConfig} {before after : List PreCommitEvent}
    {envelope : BlobEnvelope} {reply : WriteReply} {synced : Bool} {receipt : SpooledReceipt}
    (tended : Machine.Along step Tended (opened config .empty)
      (before ++ .persist envelope reply synced :: after))
    (acknowledged : ((Machine.run step (opened config .empty) before).persistAndAckSpooled envelope
      reply synced).2 = .ok receipt)
    (kept : Nat) (later : AcceptedConfig) :
    let reopened := (Machine.run step (opened config .empty)
      (before ++ .persist envelope reply synced :: after)).reopen kept later
    identityOf envelope = .ok receipt.identity ∧
    ((∃ entry ∈ reopened.pending, entry.identity = receipt.identity ∧
        entry.envelope.records = envelope.records) ∨
      receipt.identity ∈ reopened.committed ∧ Observed (before ++ after) receipt.identity) := by
  intro reopened
  have whole := (Machine.along_append.mp tended).2.1
  rcases (Machine.run step (opened config .empty) before).persistAndAckSpooled_cases envelope reply
    synced with ⟨error, same⟩ | ⟨identity, frame, bytes, planned, ⟨error, -, same⟩ | ⟨done, same⟩⟩
  · rw [same] at acknowledged
    cases acknowledged
  · rw [same] at acknowledged
    cases acknowledged
  · rw [same] at acknowledged
    cases acknowledged
    obtain ⟨-, named, -, submission, records, rfl, rfl⟩ := planPersist_eq_ok planned
    refine ⟨named, ?_⟩
    have held := @holds_of_persist _ _ _ _ preCommitReading _ _ _ whole _ _ _ rfl done
    rcases survives_along turn rfl tended (by
      rw [step, same]
      exact ⟨held, Finset.mem_insert_self _ _⟩) kept with
      pending | ⟨retired, cause, member, observing, ended, called⟩
    · exact Or.inl ⟨_, List.mem_map.mpr ⟨_, pending, rfl⟩, rfl, records⟩
    · cases List.mem_singleton.mp called
      exact Or.inr ⟨retired, observing, ended, by simpa using member⟩

end PreCommitSpool

/-- What a continuity outbox admitted or a spool acknowledged outlives every crash, along runs in
which nothing is appended behind a torn frame. -/
theorem admissions_survive [Digests] :
    (∀ (journalId : JournalId) (maxPending : Nat) (before after : List ContinuityEvent)
      (submission : Submission) (reply : WriteReply) (synced : Bool) (id : ContinuityId),
      Machine.Along ContinuityOutbox.step ContinuityOutbox.Tended
        (.openFile journalId maxPending .empty)
        (before ++ .admitOne submission reply synced :: after) →
      ((Machine.run ContinuityOutbox.step (.openFile journalId maxPending .empty) before).admitOne
        submission reply synced).2 = .ok id →
      ∀ (kept : Nat) (laterJournal : JournalId) (laterMax : Nat),
        let reopened := (Machine.run ContinuityOutbox.step (.openFile journalId maxPending .empty)
          (before ++ .admitOne submission reply synced :: after)).reopen kept laterJournal laterMax
        (id, submission) ∈ reopened.pending ∨
          id ∈ reopened.committed ∧ ContinuityOutbox.Marked (before ++ after) id) ∧
    (∀ (config : AcceptedConfig) (before after : List PreCommitEvent) (envelope : BlobEnvelope)
      (reply : WriteReply) (synced : Bool) (receipt : SpooledReceipt),
      Machine.Along PreCommitSpool.step PreCommitSpool.Tended (.opened config .empty)
        (before ++ .persist envelope reply synced :: after) →
      ((Machine.run PreCommitSpool.step (.opened config .empty) before).persistAndAckSpooled
        envelope reply synced).2 = .ok receipt →
      ∀ (kept : Nat) (later : AcceptedConfig),
        let reopened := (Machine.run PreCommitSpool.step (.opened config .empty)
          (before ++ .persist envelope reply synced :: after)).reopen kept later
        identityOf envelope = .ok receipt.identity ∧
        ((∃ entry ∈ reopened.pending, entry.identity = receipt.identity ∧
            entry.envelope.records = envelope.records) ∨
          receipt.identity ∈ reopened.committed ∧
            PreCommitSpool.Observed (before ++ after) receipt.identity)) := by
  constructor
  · intro journalId maxPending before after submission reply synced id tended admitted
    exact ContinuityOutbox.admitted_survives tended admitted
  · intro config before after envelope reply synced receipt tended acknowledged
    exact PreCommitSpool.acknowledged_survives tended acknowledged

def sampleWal : SpoolConfig := ⟨1000, 10, 500, 4⟩

def sampleConfig : AcceptedConfig := ⟨⟨sampleWal, ⟨1000, 1, "s"⟩⟩, by decide⟩

def oneEnvelope (producer : UInt8) (sequence : UInt64) : BlobEnvelope :=
  envelopeFromParts "v" ⟨repeated 16 5⟩ sampleJournal ⟨repeated 16 6⟩ (oneRecord producer sequence)

/-- A second admission of the outbox is cut off by a crash; the spool is opened twice. -/
theorem admissions_survive_cut : ∃ _ : Digests,
    (let live := Machine.run ContinuityOutbox.step (.openFile sampleJournal 4 .empty)
        ([] ++ .admitOne (oneRecord 1 0) .written true ::
          [.admitOne (oneRecord 1 1) .written false])
      let reopened := live.reopen 100 sampleJournal 4
      (.fromSubmission (oneRecord 1 0), oneRecord 1 0) ∈ reopened.pending ∨
        .fromSubmission (oneRecord 1 0) ∈ reopened.committed ∧ ContinuityOutbox.Marked
          ([] ++ [.admitOne (oneRecord 1 1) .written false]) (.fromSubmission (oneRecord 1 0))) ∧
    (let live := Machine.run PreCommitSpool.step (.opened sampleConfig .empty)
        ([] ++ .persist (oneEnvelope 1 0) .written true :: [.reopen 0 sampleConfig])
      let reopened := live.reopen 0 sampleConfig
      let identity := progressIdentity sampleJournal (oneRecord 1 0)
      identityOf (oneEnvelope 1 0) = .ok identity ∧
      ((∃ entry ∈ reopened.pending, entry.identity = identity ∧
          entry.envelope.records = (oneEnvelope 1 0).records) ∨
        identity ∈ reopened.committed ∧ PreCommitSpool.Observed
          ([] ++ [.reopen 0 sampleConfig]) identity)) := by
  obtain ⟨continuity, preCommit⟩ := @admissions_survive sampleDigests
  refine ⟨sampleDigests, ?_, ?_⟩
  · exact continuity sampleJournal 4 [] [.admitOne (oneRecord 1 1) .written false] (oneRecord 1 0)
      .written true (.fromSubmission (oneRecord 1 0)) (by decide +kernel) (by decide +kernel) 100
      sampleJournal 4
  · exact preCommit sampleConfig [] [.reopen 0 sampleConfig] (oneEnvelope 1 0) .written true
      ⟨"s", 1, progressIdentity sampleJournal (oneRecord 1 0)⟩ (by decide +kernel)
      (by decide +kernel) 0 sampleConfig

def longRecord : Submission :=
  ⟨⟨repeated 16 1⟩, 1, 0, [⟨.empty, List.replicate 200 0x78⟩]⟩

def longEnvelope : BlobEnvelope :=
  envelopeFromParts "v" ⟨repeated 16 5⟩ sampleJournal ⟨repeated 16 6⟩ longRecord

/-- A crash leaves the beginning of a frame. What is admitted behind it is acknowledged, synced, and
absent after the next opening. -/
theorem admissions_lost : ∃ _ : Digests,
    (let torn := (Machine.run ContinuityOutbox.step (.openFile sampleJournal 4 .empty)
        [.admitOne longRecord .written false, .reopen 20 sampleJournal 4])
      let reopened := (torn.step (.admitOne (oneRecord 1 1) .written true)).reopen 0 sampleJournal 4
      (torn.admitOne (oneRecord 1 1) .written true).2 = .ok (.fromSubmission (oneRecord 1 1)) ∧
      reopened.pending = [] ∧ reopened.committed = ∅) ∧
    (let torn := (Machine.run PreCommitSpool.step (.opened sampleConfig .empty)
        [.persist longEnvelope .written false, .reopen 20 sampleConfig])
      let reopened := (torn.step (.persist (oneEnvelope 1 1) .written true)).reopen 0 sampleConfig
      (torn.persistAndAckSpooled (oneEnvelope 1 1) .written true).2 =
        .ok ⟨"s", 1, progressIdentity sampleJournal (oneRecord 1 1)⟩ ∧
      reopened.pending = [] ∧ reopened.committed = ∅) := by
  refine ⟨sampleDigests, ?_, ?_⟩
  · decide +kernel
  · decide +kernel

end Scripture.Spool
