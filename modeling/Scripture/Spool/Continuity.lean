import Scripture.Spool.Index

set_option autoImplicit false

/- The continuity outbox: submissions are durable once admitted, and are kept until their commit is
marked. A reopened outbox is rebuilt from the frames of its segment. -/
namespace Scripture.Spool

open ByteFormat AppendLog

structure ContinuityId where
  producerId : ProducerId
  producerEpoch : UInt32
  sequence : UInt64
  deriving DecidableEq

namespace ContinuityId

def toProgress (id : ContinuityId) (journalId : JournalId) : ProgressIdentity :=
  ⟨journalId, id.producerId, id.producerEpoch, id.sequence⟩

/-- Ordered as an identity of a progress frame without its journal. -/
def rank (id : ContinuityId) : Nat :=
  bigEndianValue (id.producerId.bytes.val ++ (putU32 id.producerEpoch ++ putU64 id.sequence))

theorem rank_injective : Function.Injective rank := by
  intro left right same
  have bytes := bigEndianValue_injective _ _
    (by simp [left.producerId.bytes.2, right.producerId.bytes.2]) same
  let journalId : JournalId := ⟨repeated 16 0⟩
  have whole : encodeIdentity (left.toProgress journalId) =
      encodeIdentity (right.toProgress journalId) := congrArg (journalId.bytes.val ++ ·) bytes
  have identities := encodeIdentity_injective whole
  cases left
  cases right
  cases identities
  rfl

instance : LinearOrder ContinuityId := OrderedMap.orderOfRank rank rank_injective

def fromSubmission (submission : Submission) : ContinuityId :=
  ⟨submission.producerId, submission.producerEpoch, submission.sequence⟩

def fromProgress (identity : ProgressIdentity) : ContinuityId :=
  ⟨identity.producerId, identity.producerEpoch, identity.sequence⟩

end ContinuityId

inductive ContinuityError where
  | emptySubmission
  | duplicateIdentity
  | full
  | store (error : SpoolError)
  deriving DecidableEq

structure ContinuityOutbox where
  journalId : JournalId
  maxPending : Nat
  storage : FileSpoolStorage
  pending : List (ContinuityId × Submission)
  localDurable : Finset ContinuityId
  committed : Finset ContinuityId
  deriving DecidableEq

/-- The frames of `rebuild_indexes`. Envelopes before their seal are not the producer's. -/
def continuityReading : FrameReading ContinuityId Submission where
  admission
    | .submission _ submission => some (.fromSubmission submission, submission)
    | _ => none
  retirement
    | .progress identity => some (.fromProgress identity)
    | _ => none

theorem known_add_admission (index : Index ContinuityId Submission) (journalId : JournalId)
    (submission : Submission) :
    (index.add continuityReading (.submission journalId submission)).known =
      insert (.fromSubmission submission) index.known := by
  ext id
  rw [Index.mem_known, Finset.mem_insert, Index.mem_known]
  show (∃ value, (index.admitted.insert _ _).find? id = some value) ↔ _
  rw [OrderedMap.find?_insert]
  split
  · rename_i same
    simp [same]
  · rename_i other
    simp [other]

namespace ContinuityOutbox

variable [Digests]

def fromStorage (journalId : JournalId) (maxPending : Nat) (storage : FileSpoolStorage) :
    ContinuityOutbox :=
  let index := rebuild continuityReading (storage.scanValidFrames.1.map ValidFrame.frame)
  { journalId
    maxPending := max maxPending 1
    storage
    pending := index.pending
    localDurable := index.known ∪ index.retired
    committed := index.retired }

def openFile (journalId : JournalId) (maxPending : Nat) (segment : LogFile) : ContinuityOutbox :=
  fromStorage journalId maxPending (.open segment)

def admitOne (outbox : ContinuityOutbox) (submission : Submission) (reply : WriteReply)
    (synced : Bool) : ContinuityOutbox × Except ContinuityError ContinuityId :=
  if submission.records = [] then (outbox, .error .emptySubmission)
  else
    let id := ContinuityId.fromSubmission submission
    if id ∈ outbox.localDurable then (outbox, .error .duplicateIdentity)
    else if outbox.maxPending ≤ outbox.pending.length then (outbox, .error .full)
    else match outbox.storage.persist (.submission outbox.journalId submission) reply synced with
      | (storage, .error error) => ({ outbox with storage }, .error (.store error))
      | (storage, .ok ()) =>
          ({ outbox with
              storage
              localDurable := insert id outbox.localDurable
              pending := outbox.pending ++ [(id, submission)] }, .ok id)

def markCommitted (outbox : ContinuityOutbox) (id : ContinuityId) (reply : WriteReply)
    (synced : Bool) : ContinuityOutbox × Except ContinuityError Unit :=
  match outbox.storage.persist (.progress (id.toProgress outbox.journalId)) reply synced with
  | (storage, .error error) => ({ outbox with storage }, .error (.store error))
  | (storage, .ok ()) =>
      ({ outbox with
          storage
          committed := insert id outbox.committed
          pending := outbox.pending.filter fun entry => entry.1 ≠ id }, .ok ())

def fullyDrained (outbox : ContinuityOutbox) : Bool :=
  outbox.pending.length = 0 ∧ outbox.localDurable = outbox.committed

/-- The process ends, with what a crash leaves of the segment, and the outbox is opened again. -/
def reopen (outbox : ContinuityOutbox) (kept : Nat) (journalId : JournalId) (maxPending : Nat) :
    ContinuityOutbox :=
  openFile journalId maxPending (outbox.storage.segment.crash kept)

end ContinuityOutbox

inductive ContinuityEvent where
  | admitOne (submission : Submission) (reply : WriteReply) (synced : Bool)
  | markCommitted (id : ContinuityId) (reply : WriteReply) (synced : Bool)
  | reopen (kept : Nat) (journalId : JournalId) (maxPending : Nat)
  deriving DecidableEq

namespace ContinuityOutbox

variable [Digests]

def step (outbox : ContinuityOutbox) : ContinuityEvent → ContinuityOutbox
  | .admitOne submission reply synced => (outbox.admitOne submission reply synced).1
  | .markCommitted id reply synced => (outbox.markCommitted id reply synced).1
  | .reopen kept journalId maxPending => outbox.reopen kept journalId maxPending

/-- What a call of `admit` can do. -/
theorem admit_cases (outbox : ContinuityOutbox) (submission : Submission) (reply : WriteReply)
    (synced : Bool) :
    (∃ error, outbox.admitOne submission reply synced = (outbox, .error error)) ∨
    (submission.records ≠ [] ∧ ContinuityId.fromSubmission submission ∉ outbox.localDurable ∧
      outbox.pending.length < outbox.maxPending ∧
      let written := outbox.storage.persist (.submission outbox.journalId submission) reply synced
      (∃ error, written.2 = .error error ∧ outbox.admitOne submission reply synced =
        ({ outbox with storage := written.1 }, .error (.store error))) ∨
      (written.2 = .ok () ∧ outbox.admitOne submission reply synced =
        ({ outbox with
            storage := written.1
            localDurable := insert (.fromSubmission submission) outbox.localDurable
            pending := outbox.pending ++ [(.fromSubmission submission, submission)] },
          .ok (.fromSubmission submission)))) := by
  unfold admitOne
  dsimp only
  split
  · exact Or.inl ⟨_, rfl⟩
  · rename_i some_record
    split
    · exact Or.inl ⟨_, rfl⟩
    · rename_i fresh
      split
      · exact Or.inl ⟨_, rfl⟩
      · rename_i room
        refine Or.inr ⟨some_record, fresh, by omega, ?_⟩
        rcases persisted : outbox.storage.persist (.submission outbox.journalId submission) reply
          synced with ⟨storage, error | done⟩
        · exact Or.inl ⟨error, rfl, rfl⟩
        · exact Or.inr ⟨rfl, rfl⟩

theorem markCommitted_cases (outbox : ContinuityOutbox) (id : ContinuityId) (reply : WriteReply)
    (synced : Bool) :
    let written := outbox.storage.persist (.progress (id.toProgress outbox.journalId)) reply synced
    (∃ error, written.2 = .error error ∧ outbox.markCommitted id reply synced =
      ({ outbox with storage := written.1 }, .error (.store error))) ∨
    (written.2 = .ok () ∧ outbox.markCommitted id reply synced =
      ({ outbox with
          storage := written.1
          committed := insert id outbox.committed
          pending := outbox.pending.filter fun entry => entry.1 ≠ id }, .ok ())) := by
  unfold markCommitted
  rcases persisted : outbox.storage.persist (.progress (id.toProgress outbox.journalId)) reply
    synced with ⟨storage, error | done⟩
  · exact Or.inl ⟨error, rfl, rfl⟩
  · exact Or.inr ⟨rfl, rfl⟩

/-- A call that may append finds a segment of whole frames. -/
def Tended (outbox : ContinuityOutbox) : ContinuityEvent → Prop
  | .reopen _ _ _ => True
  | _ => Whole outbox.storage.segment

instance (outbox : ContinuityOutbox) (event : ContinuityEvent) :
    Decidable (outbox.Tended event) := by
  cases event <;> unfold Tended <;> infer_instance

/-- The run calls for a commit to be marked. -/
def Marked (events : List ContinuityEvent) (id : ContinuityId) : Prop :=
  ∃ reply synced, .markCommitted id reply synced ∈ events

variable {outbox : ContinuityOutbox} {submission : Submission}

theorem turn (outbox : ContinuityOutbox) (event : ContinuityEvent) (tended : outbox.Tended event) :
    Turn continuityReading (fun id => Marked [event] id) outbox.localDurable
      (outbox.step event).localDurable outbox.storage.segment
      (outbox.step event).storage.segment := by
  cases event with
  | admitOne submission reply synced =>
      rcases outbox.admit_cases submission reply synced with ⟨error, same⟩ | ⟨-, fresh, -, admitted⟩
      · rw [step, same]
        exact .idle _ (Finset.Subset.refl _)
      · have admits : ∀ entry, continuityReading.admission
            (.submission outbox.journalId submission) = some entry →
              entry.1 ∉ outbox.localDurable := by
          rintro entry ⟨⟩
          exact fresh
        rcases admitted with ⟨error, -, same⟩ | ⟨-, same⟩
        · rw [step, same]
          exact .append _ _ reply synced tended admits nofun (Finset.Subset.refl _)
        · rw [step, same]
          exact .append _ _ reply synced tended admits nofun (Finset.subset_insert _ _)
  | markCommitted id reply synced =>
      have marks : ∀ other, continuityReading.retirement
          (.progress (id.toProgress outbox.journalId)) = some other →
            Marked [.markCommitted id reply synced] other := by
        rintro other ⟨⟩
        exact ⟨reply, synced, List.mem_singleton_self _⟩
      rcases outbox.markCommitted_cases id reply synced with ⟨error, -, same⟩ | ⟨-, same⟩
      · rw [step, same]
        exact .append _ _ reply synced tended nofun marks (Finset.Subset.refl _)
      · rw [step, same]
        exact .append _ _ reply synced tended nofun marks (Finset.Subset.refl _)
  | reopen kept journalId maxPending => exact .crash _ kept Finset.subset_union_left

/-- Along a run whose appends all find whole frames, what was admitted is found by every later
reopening: pending with its records, or committed by a mark. -/
theorem admitted_survives {journalId : JournalId} {maxPending : Nat}
    {before after : List ContinuityEvent} {reply : WriteReply} {synced : Bool} {id : ContinuityId}
    (tended : Machine.Along step Tended (openFile journalId maxPending .empty)
      (before ++ .admitOne submission reply synced :: after))
    (admitted : ((Machine.run step (openFile journalId maxPending .empty) before).admitOne
      submission
      reply synced).2 = .ok id) (kept : Nat) (laterJournal : JournalId) (laterMax : Nat) :
    let reopened := (Machine.run step (openFile journalId maxPending .empty)
      (before ++ .admitOne submission reply synced :: after)).reopen kept laterJournal laterMax
    (id, submission) ∈ reopened.pending ∨
      id ∈ reopened.committed ∧ Marked (before ++ after) id := by
  intro reopened
  have whole := (Machine.along_append.mp tended).2.1
  rcases (Machine.run step (openFile journalId maxPending .empty) before).admit_cases submission
    reply synced with ⟨error, same⟩ | ⟨-, -, -, ⟨error, -, same⟩ | ⟨written, same⟩⟩
  · rw [same] at admitted
    cases admitted
  · rw [same] at admitted
    cases admitted
  · rw [same] at admitted
    cases admitted
    refine (survives_along turn rfl tended ?_ kept).imp_right
      fun ⟨retired, cause, member, called⟩ => ?_
    · rw [step, same]
      exact ⟨holds_of_persist whole rfl written, Finset.mem_insert_self _ _⟩
    · obtain ⟨marking, done, called⟩ := called
      cases List.mem_singleton.mp called
      exact ⟨retired, marking, done, by simpa using member⟩

/-- The indexes of an outbox are those its frames give. -/
structure Mirrors (outbox : ContinuityOutbox) : Prop where
  whole : Whole outbox.storage.segment
  pending : outbox.pending =
    (rebuild continuityReading (scannedFrames outbox.storage.segment.bytes)).pending
  durable : outbox.localDurable =
    (rebuild continuityReading (scannedFrames outbox.storage.segment.bytes)).known ∪
      (rebuild continuityReading (scannedFrames outbox.storage.segment.bytes)).retired
  committed : outbox.committed =
    (rebuild continuityReading (scannedFrames outbox.storage.segment.bytes)).retired

end ContinuityOutbox

/-- A call of a run without faults. -/
inductive ContinuityCall where
  | admitOne (submission : Submission)
  | markCommitted (id : ContinuityId)
  deriving DecidableEq

namespace ContinuityOutbox

variable [Digests]

def perform (outbox : ContinuityOutbox) : ContinuityCall → ContinuityOutbox
  | .admitOne submission => (outbox.admitOne submission .written true).1
  | .markCommitted id => (outbox.markCommitted id .written true).1

/-- A submission that is not refused comes behind all that is pending, and a mark names an identity
that is locally durable. -/
def Orderly (outbox : ContinuityOutbox) : ContinuityCall → Prop
  | .admitOne submission =>
      submission.records = [] ∨ .fromSubmission submission ∈ outbox.localDurable ∨
      outbox.maxPending ≤ outbox.pending.length ∨
      ∀ entry ∈ outbox.pending, entry.1 < .fromSubmission submission
  | .markCommitted id => id ∈ outbox.localDurable

instance (outbox : ContinuityOutbox) (call : ContinuityCall) : Decidable (outbox.Orderly call) := by
  cases call <;> unfold Orderly <;> infer_instance

/-- Two outboxes that no accessor tells apart. -/
structure SameView (left right : ContinuityOutbox) : Prop where
  pending : left.pending = right.pending
  durable : left.localDurable = right.localDurable
  committed : left.committed = right.committed
  drained : left.fullyDrained = right.fullyDrained

theorem Mirrors.sameView {outbox : ContinuityOutbox} (mirrors : outbox.Mirrors)
    (journalId : JournalId) (maxPending : Nat) :
    outbox.SameView (fromStorage journalId maxPending outbox.storage) := by
  refine ⟨mirrors.pending, mirrors.durable, mirrors.committed, ?_⟩
  unfold fullyDrained
  rw [mirrors.pending, mirrors.durable, mirrors.committed]
  rfl

theorem mirrors_fromStorage (journalId : JournalId) (maxPending : Nat) {storage : FileSpoolStorage}
    (whole : Whole storage.segment) : (fromStorage journalId maxPending storage).Mirrors :=
  ⟨whole, rfl, rfl, rfl⟩

theorem mirrors_perform {outbox : ContinuityOutbox} (mirrors : outbox.Mirrors)
    (call : ContinuityCall) (orderly : outbox.Orderly call) : (outbox.perform call).Mirrors := by
  cases call with
  | admitOne submission =>
      rcases outbox.admit_cases submission .written true with
        ⟨error, same⟩ | ⟨records, fresh, room, ⟨error, failed, same⟩ | ⟨written, same⟩⟩
      · rw [perform, same]
        exact mirrors
      · rw [perform, same]
        rcases outbox.storage.persist_written (.submission outbox.journalId submission) with
          ⟨error, unchanged⟩ | done
        · rw [unchanged]
          exact mirrors
        · rw [failed] at done
          cases done
      · obtain ⟨whole, scanned⟩ := mirrors.whole.persist written
        rw [perform, same]
        rw [mirrors.durable, Finset.mem_union, not_or] at fresh
        have above : ∀ entry ∈ outbox.pending, entry.1 < .fromSubmission submission := by
          rcases orderly with none | durable | full | above
          · exact absurd none records
          · rw [mirrors.durable, Finset.mem_union] at durable
            exact absurd durable (not_or.mpr fresh)
          · omega
          · exact above
        rw [mirrors.pending] at above
        refine ⟨whole, ?_, ?_, ?_⟩
        · dsimp only
          rw [scanned, rebuild_concat, Index.pending_admit rfl rfl fresh.1 fresh.2 above,
            mirrors.pending]
        · dsimp only
          rw [scanned, rebuild_concat, known_add_admission, mirrors.durable, Finset.insert_union]
          rfl
        · dsimp only
          rw [scanned, rebuild_concat, mirrors.committed]
          rfl
  | markCommitted id =>
      rcases outbox.markCommitted_cases id .written true with
        ⟨error, failed, same⟩ | ⟨written, same⟩
      · rw [perform, same]
        rcases outbox.storage.persist_written (.progress (id.toProgress outbox.journalId)) with
          ⟨error, unchanged⟩ | done
        · rw [unchanged]
          exact mirrors
        · rw [failed] at done
          cases done
      · obtain ⟨whole, scanned⟩ := mirrors.whole.persist written
        rw [perform, same]
        have retires : continuityReading.retirement (.progress (id.toProgress outbox.journalId)) =
          some id := rfl
        refine ⟨whole, ?_, ?_, ?_⟩
        · dsimp only
          rw [scanned, rebuild_concat, Index.pending_retire rfl retires, mirrors.pending]
        · dsimp only
          have durable : id ∈ outbox.localDurable := orderly
          rw [scanned, rebuild_concat]
          show _ = Index.known _ ∪ insert id (rebuild continuityReading _).retired
          rw [Finset.union_insert]
          rw [mirrors.durable] at durable ⊢
          exact (Finset.insert_eq_of_mem durable).symm
        · dsimp only
          rw [scanned, rebuild_concat, mirrors.committed]
          rfl

/-- Along a run of orderly calls an outbox rebuilt from the segment is the live one. -/
theorem rebuilt_sameView {journalId : JournalId} {maxPending : Nat} {storage : FileSpoolStorage}
    {calls : List ContinuityCall} (whole : Whole storage.segment)
    (orderly : Machine.Along perform Orderly (fromStorage journalId maxPending storage) calls)
    (laterJournal : JournalId) (laterMax : Nat) :
    let live := Machine.run perform (fromStorage journalId maxPending storage) calls
    live.SameView (fromStorage laterJournal laterMax live.storage) := by
  intro live
  have mirrors : live.Mirrors := orderly.invariant
    (fun _ call mirrors orderly => mirrors_perform mirrors call orderly)
    (mirrors_fromStorage journalId maxPending whole)
  exact mirrors.sameView laterJournal laterMax

end ContinuityOutbox

namespace ContinuityOutbox

theorem rebuilt_sameView_one : ∃ _ : Digests,
    let start := fromStorage sampleJournal 4 (.open .empty)
    let live := Machine.run perform start [.admitOne (oneRecord 1 0), .admitOne (oneRecord 1 1),
      .markCommitted (.fromSubmission (oneRecord 1 0))]
    live.pending = [(.fromSubmission (oneRecord 1 1), oneRecord 1 1)] ∧
      live.SameView (fromStorage sampleJournal 4 live.storage) := by
  let digests := sampleDigests
  refine ⟨digests, by decide +kernel, ?_⟩
  exact rebuilt_sameView (by decide) (by decide +kernel) sampleJournal 4

/-- Two producers whose submissions are admitted against the order of their identities, and a mark
of an identity that was never admitted. -/
theorem rebuilt_differs : ∃ _ : Digests,
    let start := fromStorage sampleJournal 4 (.open .empty)
    let reordered :=
      Machine.run perform start [.admitOne (oneRecord 2 0), .admitOne (oneRecord 1 0)]
    let marked := Machine.run perform start [.markCommitted (.fromSubmission (oneRecord 1 0))]
    reordered.pending.map Prod.snd = [oneRecord 2 0, oneRecord 1 0] ∧
    (fromStorage sampleJournal 4 reordered.storage).pending.map Prod.snd =
      [oneRecord 1 0, oneRecord 2 0] ∧
    marked.localDurable = ∅ ∧
    (fromStorage sampleJournal 4 marked.storage).localDurable =
      {.fromSubmission (oneRecord 1 0)} := by
  let digests := sampleDigests
  refine ⟨digests, ?_⟩
  decide +kernel

end ContinuityOutbox

end Scripture.Spool
