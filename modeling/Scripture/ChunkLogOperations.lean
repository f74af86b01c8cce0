import Scripture.ChunkLogHistory

set_option autoImplicit false

/- The operations of a writer, one after another: the ledger of their acknowledgements, and the
writer that recovery rebuilds from what they laid down. -/
namespace Scripture

open ByteFormat ByteFormat.Reader

/-- A chunk as a driver seals it. -/
def DriverSealed [Digests] (chunk : SealedChunk) : Prop :=
  ∃ header frame, sealSingleFrameChunk header [frame] = .ok chunk

namespace ChunkLogWriter

/-- A call to a writer. -/
inductive Operation where
  | append (chunk : SealedChunk)
  | appendDataRef (chunk : SealedChunk) (pointer : DataRef)
  | appendReferenceBatch (items : List (SealedChunk × DataRef))
  | appendSupersedingDataRef (pointer : DataRef) (superseded : RecordOffset)
  deriving DecidableEq

variable [Digests]

/-- The checks of an operation. -/
def plan (writer : ChunkLogWriter) : Operation → Except ChunkLogError Plan
  | .append chunk => writer.planAppend chunk
  | .appendDataRef chunk pointer => writer.planDataRef chunk pointer
  | .appendReferenceBatch items => writer.planReferenceBatch items
  | .appendSupersedingDataRef pointer superseded => writer.planSuperseding pointer superseded

def perform (writer : ChunkLogWriter) (operation : Operation) (reply : KernelReply) :
    Except ChunkLogError ChunkAppendAck × ChunkLogWriter :=
  writer.run (writer.plan operation) reply

variable {writer : ChunkLogWriter} {expected : RecordOffset} {store : BlobStore}
  {items : List (SealedChunk × DataRef)}

/-- A sealed chunk that passes the checks belongs to the writer and continues its log. -/
theorem Checked.owned {chunk : SealedChunk} {entry : FrameRef} {header : ChunkHeader}
    {frame : Frame}
    (checks : writer.Checked expected chunk entry) (spec : SealedFrom header frame chunk) :
    header.chunkId = chunk.chunkId ∧
      Owned writer.journalId writer.cohortId writer.generation ⟨header, [frame]⟩ ∧
      frame.baseOffset = expected ∧ frame.records.length = entry.recordCount.toNat := by
  obtain ⟨body, -, index, -⟩ := spec.body
  obtain ⟨found, again, named, cohort, generation⟩ := checks.index
  cases index.symm.trans again
  have journal := checks.journal
  refine ⟨named, ⟨cohort, generation, ?_⟩, checks.base, (toNat_u32OfNat spec.records).symm⟩
  rw [← journal]
  rfl

theorem Checked.sealed {chunk : SealedChunk} {entry : FrameRef}
    (checks : writer.Checked expected chunk entry) (made : DriverSealed chunk) :
    ∃ decoded, SealedAs chunk.bytes decoded ∧ decoded.header.chunkId = chunk.chunkId ∧
      Owned writer.journalId writer.cohortId writer.generation decoded ∧
      decoded.base = expected.toNat ∧ decoded.records.length = entry.recordCount.toNat := by
  obtain ⟨header, frame, done⟩ := made
  have spec := sealSingleFrameChunk_eq_ok done
  obtain ⟨named, owned, base, count⟩ := checks.owned spec
  refine ⟨⟨header, [frame]⟩, ⟨header, frame, chunk, spec, rfl, rfl⟩, named, owned, ?_, ?_⟩
  · rw [Chunk.base_sole, base]
  · rw [Chunk.records_sole, count]

/-- What the item loop of a batch accepts. -/
theorem checkItems_eq_ok {next : RecordOffset} {total sum : UInt32}
    (passed : writer.checkItems items expected total = .ok (next, sum))
    (present : ∀ item ∈ items, DriverSealed item.1 ∧ Fetched store item.2 item.1.bytes) :
    ∃ chunks, List.Forall₂ (Points store) (items.map Prod.snd) chunks ∧
      (∀ chunk ∈ chunks, Owned writer.journalId writer.cohortId writer.generation chunk) ∧
      Adjoining expected.toNat chunks next.toNat ∧
      List.Forall₂ (fun item chunk => decodeChunk item.1.bytes = .ok chunk) items chunks := by
  induction items generalizing expected total with
  | nil =>
      cases passed
      exact ⟨[], .nil, by simp, rfl, .nil⟩
  | cons item rest ih =>
      obtain ⟨chunk, pointer⟩ := item
      obtain ⟨_, -, passed⟩ := bind_eq_ok.mp passed
      obtain ⟨entry, checked, passed⟩ := bind_eq_ok.mp passed
      obtain ⟨_, pointed, passed⟩ := bind_eq_ok.mp passed
      obtain ⟨middle, fits, passed⟩ := bind_eq_ok.mp passed
      obtain ⟨-, passed⟩ := checked_eq_ok.mp passed
      obtain ⟨made, fetched⟩ := present (chunk, pointer) List.mem_cons_self
      have checks := checkChunk_eq_ok checked
      obtain ⟨decoded, sealedAs, named, owned, base, length⟩ := checks.sealed made
      obtain ⟨-, identity, -⟩ := checkPointer_eq_ok pointed
      have stop := frameEnd_eq_ok fits
      rw [checks.base] at stop
      obtain ⟨chunks, points, others, chained, decodes⟩ :=
        ih passed fun item member => present item (List.mem_cons_of_mem _ member)
      refine ⟨decoded :: chunks, .cons ⟨_, fetched, sealedAs, named.trans identity.symm⟩ points, ?_,
        ⟨base, ?_⟩, .cons sealedAs.decoded decodes⟩
      · intro other member
        rcases List.mem_cons.mp member with rfl | later
        · exact owned
        · exact others other later
      · rw [length, stop]
        exact chained

/-- The records of the frames of a sealed chunk, as its index counts them. -/
def frameRecords (chunk : SealedChunk) : Nat :=
  match decodeIndex chunk.bytes with
  | .ok index => (index.frames.map fun frame => frame.recordCount.toNat).sum
  | .error _ => 0

/-- The records that an operation adds to the log. -/
def Operation.records : Operation → Nat
  | .append chunk => frameRecords chunk
  | .appendDataRef chunk _ => frameRecords chunk
  | .appendReferenceBatch items => (items.map fun item => frameRecords item.1).sum
  | .appendSupersedingDataRef .. => 0

/-- The operation is one of the three that continue the log. -/
def Operation.Continues : Operation → Prop
  | .appendSupersedingDataRef .. => False
  | _ => True

theorem Checked.frameRecords {chunk : SealedChunk} {entry : FrameRef}
    (checks : writer.Checked expected chunk entry) :
    frameRecords chunk = entry.recordCount.toNat := by
  obtain ⟨header, index, -⟩ := checks.index
  simp [ChunkLogWriter.frameRecords, index]

theorem checkItems_records {next : RecordOffset} {total sum : UInt32}
    (passed : writer.checkItems items expected total = .ok (next, sum)) :
    expected.toNat + (items.map fun item => frameRecords item.1).sum = next.toNat ∧
      total.toNat + (items.map fun item => frameRecords item.1).sum = sum.toNat := by
  induction items generalizing expected total with
  | nil =>
      cases passed
      exact ⟨rfl, rfl⟩
  | cons item rest ih =>
      obtain ⟨chunk, pointer⟩ := item
      obtain ⟨_, -, passed⟩ := bind_eq_ok.mp passed
      obtain ⟨entry, checked, passed⟩ := bind_eq_ok.mp passed
      obtain ⟨_, -, passed⟩ := bind_eq_ok.mp passed
      obtain ⟨middle, fits, passed⟩ := bind_eq_ok.mp passed
      obtain ⟨room, passed⟩ := checked_eq_ok.mp passed
      have checks := checkChunk_eq_ok checked
      have stop := frameEnd_eq_ok fits
      have counted := checks.frameRecords
      have added : (total + entry.recordCount).toNat = total.toNat + entry.recordCount.toNat := by
        rw [UInt32.toNat_add, Nat.mod_eq_of_lt (by omega)]
      obtain ⟨offsets, counts⟩ := ih passed
      rw [checks.base] at stop
      simp only [List.map_cons, List.sum_cons]
      exact ⟨by omega, by omega⟩

theorem plan_continues {operation : Operation} {ready : Plan} (continues : operation.Continues)
    (passed : writer.plan operation = .ok ready) :
    writer.poisoned = false ∧ ready.firstOffset = writer.nextOffset ∧
      ready.nextOffset = ready.advance ∧ ready.recordCount.toNat = operation.records ∧
      writer.nextOffset.toNat + operation.records = ready.advance.toNat := by
  cases operation with
  | append chunk =>
      obtain ⟨alive, entry, checks, -, -, first, next, count, stop⟩ := planAppend_eq_ok passed
      have counted := checks.frameRecords
      refine ⟨alive, first, next, ?_, ?_⟩
      · rw [count]
        exact counted.symm
      · show _ + frameRecords chunk = _
        omega
  | appendDataRef chunk pointer =>
      obtain ⟨alive, -, entry, checks, -, -, -, first, next, count, stop⟩ :=
        planDataRef_eq_ok passed
      have counted := checks.frameRecords
      refine ⟨alive, first, next, ?_, ?_⟩
      · rw [count]
        exact counted.symm
      · show _ + frameRecords chunk = _
        omega
  | appendReferenceBatch items =>
      obtain ⟨alive, passed⟩ := checked_eq_ok.mp passed
      cases items with
      | nil => cases passed
      | cons item rest =>
          obtain ⟨⟨next, total⟩, checked, passed⟩ := bind_eq_ok.mp passed
          obtain ⟨payload, -, passed⟩ := bind_eq_ok.mp passed
          cases passed
          obtain ⟨offsets, counts⟩ := checkItems_records checked
          exact ⟨by simpa using alive, rfl, rfl, by simpa [Operation.records] using
            counts.symm, offsets⟩
  | appendSupersedingDataRef pointer superseded => exact continues.elim

theorem plan_poisoned (poisoned : writer.poisoned = true) (operation : Operation) :
    writer.plan operation = .error .poisoned := by
  cases operation <;>
    simp [plan, planAppend, planDataRef, planReferenceBatch, planSuperseding, poisoned] <;> rfl

/-- The error of a check, if there is one, is not one of the kernel. -/
def Local {α : Type} (result : Except ChunkLogError α) : Prop :=
  ∀ reason, result ≠ .error (.holylog reason)

namespace Local

variable {α β : Type} {first : Except ChunkLogError α}

omit [Digests] in
theorem bind {next : α → Except ChunkLogError β} (one : Local first)
    (other : ∀ value, Local (next value)) : Local (first >>= next) := by
  intro reason failed
  rcases bind_eq_error.mp failed with early | ⟨value, -, late⟩
  · exact one reason early
  · exact other value reason late

omit [Digests] in
theorem checked {condition : Prop} [Decidable condition] {error : ChunkLogError}
    {next : α → Except ChunkLogError β} {rest : Except ChunkLogError β}
    (ours : ∀ reason, error ≠ .holylog reason) (other : Local rest) :
    Local (if condition then throw error >>= next else rest) := by
  intro reason failed
  rcases checked_eq_error.mp failed with ⟨-, same⟩ | ⟨-, late⟩
  · exact ours reason same
  · exact other reason late

omit [Digests] in
theorem liftChunk (result : Except ChunkError α) : Local (Scripture.liftChunk result) := by
  cases result <;> simp [Local, Scripture.liftChunk, Except.mapError]

omit [Digests] in
theorem liftDataRef (result : Except DataRefError α) : Local (Scripture.liftDataRef result) := by
  cases result <;> simp [Local, Scripture.liftDataRef, Except.mapError]

omit [Digests] in
theorem soleFrame (journal : JournalId) (frames : List FrameRef) :
    Local (ChunkLogWriter.soleFrame journal frames) := by
  intro reason failed
  unfold ChunkLogWriter.soleFrame at failed
  split at failed
  · split at failed <;> cases failed
  · cases failed

theorem checkChunk (writer : ChunkLogWriter) (expected : RecordOffset) (chunk : SealedChunk) :
    Local (writer.checkChunk expected chunk) := by
  refine (liftChunk _).bind fun index => ?_
  refine checked (by simp) (checked (by simp) (checked (by simp) ?_))
  refine (soleFrame _ _).bind fun frame => checked (by simp) ?_
  exact fun _ failed => nomatch failed

omit [Digests] in
theorem frameEnd (frame : FrameRef) : Local (ChunkLogWriter.frameEnd frame) := by
  intro reason failed
  unfold ChunkLogWriter.frameEnd at failed
  split at failed <;> cases failed

omit [Digests] in
theorem checkPointer (frame : FrameRef) (chunk : SealedChunk) (pointer : DataRef) :
    Local (ChunkLogWriter.checkPointer frame chunk pointer) := by
  refine checked (by simp) (checked (by simp) ?_)
  intro reason failed
  split at failed <;> cases failed

theorem checkItems (items : List (SealedChunk × DataRef)) (expected : RecordOffset)
    (total : UInt32) : Local (writer.checkItems items expected total) := by
  induction items generalizing expected total with
  | nil => exact fun _ failed => nomatch failed
  | cons item rest ih =>
      refine (liftDataRef _).bind fun _ => (checkChunk _ _ _).bind fun frame => ?_
      refine (checkPointer _ _ _).bind fun _ => (frameEnd _).bind fun next => ?_
      exact checked (by simp) (ih _ _)

/-- No check of an operation fails with an error of the kernel. -/
theorem plan (writer : ChunkLogWriter) (operation : Operation) : Local (writer.plan operation) := by
  cases operation with
  | append chunk =>
      refine checked (by simp) ((checkChunk _ _ _).bind fun frame => ?_)
      exact (frameEnd _).bind fun next _ failed => nomatch failed
  | appendDataRef chunk pointer =>
      refine checked (by simp)
        ((liftDataRef _).bind fun _ => (checkChunk _ _ _).bind fun frame => ?_)
      refine (checkPointer _ _ _).bind fun _ => (frameEnd _).bind fun next => ?_
      exact (liftDataRef _).bind fun payload _ failed => nomatch failed
  | appendReferenceBatch items =>
      refine checked (by simp) ?_
      cases items with
      | nil => exact fun _ failed => nomatch failed
      | cons item rest =>
          refine (checkItems _ _ _).bind fun sums => (liftDataRef _).bind fun payload => ?_
          exact fun _ failed => nomatch failed
  | appendSupersedingDataRef pointer superseded =>
      refine checked (by simp) ((liftDataRef _).bind fun _ => ?_)
      refine checked (by simp) (checked (by simp) ((liftDataRef _).bind fun payload => ?_))
      exact fun _ failed => nomatch failed

end Local

/-- A call that returns, or one that is dropped while it waits for the kernel. -/
inductive Call where
  | returned (operation : Operation) (reply : KernelReply)
  | abandoned (operation : Operation) (written : Bool)
  deriving DecidableEq

def Call.operation : Call → Operation
  | .returned operation _ => operation
  | .abandoned operation _ => operation

/-- A call, what it returned, and the writer with its log before and after it. -/
structure Outcome where
  operation : Operation
  before : ChunkLogWriter
  result : Option (Except ChunkLogError ChunkAppendAck)
  after : ChunkLogWriter
  deriving DecidableEq

/-- The checks do not wait, so only the kernel's answer can be missed. -/
def call (writer : ChunkLogWriter) : Call → Outcome
  | .returned operation reply =>
      let (result, after) := writer.perform operation reply
      ⟨operation, writer, some result, after⟩
  | .abandoned operation written =>
      match writer.plan operation with
      | .error error => ⟨operation, writer, some (.error error), writer⟩
      | .ok ready => ⟨operation, writer, none,
          (writer.issue ready.payload ready.advance ready.ack
            (if written then .written "" else .notWritten "")).2⟩

/-- A writer and the calls that were made to it. -/
structure Ledger where
  writer : ChunkLogWriter
  outcomes : List Outcome

namespace Ledger

def step (ledger : Ledger) (made : Call) : Ledger :=
  let outcome := ledger.writer.call made
  ⟨outcome.after, ledger.outcomes ++ [outcome]⟩

/-- The acknowledgements, each with the records of its operation. -/
def acks (ledger : Ledger) : List (Nat × ChunkAppendAck) :=
  ledger.outcomes.filterMap fun outcome =>
    match outcome.result with
    | some (.ok ack) => some (outcome.operation.records, ack)
    | _ => none

/-- The acknowledgements cover the offsets from the first to the second, one after another. -/
def Tiles : Nat → List (Nat × ChunkAppendAck) → Nat → Prop
  | start, [], stop => start = stop
  | start, (records, ack) :: rest, stop =>
      ack.firstOffset.toNat = start ∧ ack.nextOffset.toNat = start + records ∧
        ack.recordCount.toNat = records ∧ Tiles (start + records) rest stop

omit [Digests] in
theorem tiles_append {start stop : Nat} {left right : List (Nat × ChunkAppendAck)} :
    Tiles start (left ++ right) stop ↔ ∃ middle, Tiles start left middle ∧
      Tiles middle right stop := by
  induction left generalizing start with
  | nil => simp [Tiles]
  | cons entry rest ih =>
      obtain ⟨records, ack⟩ := entry
      simp only [List.cons_append, Tiles, ih]
      constructor
      · rintro ⟨first, next, count, middle, front, back⟩
        exact ⟨middle, ⟨first, next, count, front⟩, back⟩
      · rintro ⟨middle, ⟨first, next, count, front⟩, back⟩
        exact ⟨first, next, count, middle, front, back⟩

end Ledger

/-- The kernel has failed the call, or the call did not live to see its answer. -/
def Outcome.Broke (outcome : Outcome) : Prop :=
  outcome.result = none ∨ ∃ reason, outcome.result = some (.error (.holylog reason))

/-- The call fails with an error that is not the kernel's, and the log and the writer stay. The
kernel is not asked: the log would stay whatever it answered. -/
structure Outcome.Refused (outcome : Outcome) (error : ChunkLogError) : Prop where
  result : outcome.result = some (.error error)
  ours : ∀ reason, error ≠ .holylog reason
  log : outcome.after.log = outcome.before.log
  offset : outcome.after.nextOffset = outcome.before.nextOffset
  poisoned : outcome.after.poisoned = outcome.before.poisoned
  unasked : ∀ reply, (outcome.before.perform outcome.operation reply).2.log = outcome.before.log

/-- The kernel has laid the payload down behind the log, and the acknowledgement names its slot. -/
structure Outcome.Acknowledged (outcome : Outcome) (ready : Plan) : Prop where
  result : outcome.result = some (.ok (ready.ack outcome.before.log.length))
  log : outcome.after.log = outcome.before.log ++ [ready.payload]
  offset : outcome.after.nextOffset = ready.advance
  healed : outcome.after.poisoned = false

/-- A call whose checks fail is refused. One whose checks pass is acknowledged, or it breaks the
writer; the payload may then be in the log or not. -/
inductive Outcome.Kind (outcome : Outcome) : Prop
  | refused (error : ChunkLogError) (failed : outcome.before.plan outcome.operation = .error error)
      (refused : outcome.Refused error)
  | acknowledged (ready : Plan) (passed : outcome.before.plan outcome.operation = .ok ready)
      (acknowledged : outcome.Acknowledged ready)
  | broke (ready : Plan) (passed : outcome.before.plan outcome.operation = .ok ready)
      (broke : outcome.Broke)
      (log : outcome.after.log = outcome.before.log ∨
        outcome.after.log = outcome.before.log ++ [ready.payload])
      (offset : outcome.after.nextOffset = outcome.before.nextOffset)
      (poisoned : outcome.after.poisoned = true)

theorem perform_of_plan_error {operation : Operation} {error : ChunkLogError}
    (failed : writer.plan operation = .error error) (reply : KernelReply) :
    writer.perform operation reply = (.error error, writer) := by
  rw [perform, failed]
  rfl

theorem perform_of_plan_ok {operation : Operation} {ready : Plan}
    (passed : writer.plan operation = .ok ready) (reply : KernelReply) :
    writer.perform operation reply =
      writer.issue ready.payload ready.advance ready.ack reply := by
  rw [perform, passed]
  rfl

theorem refused_of_plan_error {operation : Operation} {error : ChunkLogError}
    (failed : writer.plan operation = .error error) :
    Outcome.Refused ⟨operation, writer, some (.error error), writer⟩ error := by
  refine ⟨rfl, ?_, rfl, rfl, rfl, ?_⟩
  · rintro reason rfl
    exact Local.plan writer operation reason failed
  · intro reply
    show (writer.perform operation reply).2.log = _
    rw [perform_of_plan_error failed]

theorem call_kind (writer : ChunkLogWriter) (made : Call) :
    (writer.call made).before = writer ∧ (writer.call made).operation = made.operation ∧
      (writer.call made).Kind := by
  cases made with
  | returned operation reply =>
      refine ⟨rfl, rfl, ?_⟩
      cases planned : writer.plan operation with
      | error error =>
          simp only [call, perform_of_plan_error planned]
          exact .refused error planned (refused_of_plan_error planned)
      | ok ready =>
          simp only [call, perform_of_plan_ok planned]
          cases reply with
          | ok => exact .acknowledged ready planned ⟨rfl, rfl, rfl, rfl⟩
          | notWritten reason => exact .broke ready planned (.inr ⟨_, rfl⟩) (.inl rfl) rfl rfl
          | written reason => exact .broke ready planned (.inr ⟨_, rfl⟩) (.inr rfl) rfl rfl
  | abandoned operation written =>
      cases planned : writer.plan operation with
      | error error =>
          simp only [call, planned]
          exact ⟨trivial, rfl, .refused error planned (refused_of_plan_error planned)⟩
      | ok ready =>
          simp only [call, planned]
          refine ⟨trivial, rfl, ?_⟩
          cases written with
          | false => exact .broke ready planned (.inl rfl) (.inl rfl) rfl rfl
          | true => exact .broke ready planned (.inl rfl) (.inr rfl) rfl rfl

/-- The law of a ledger that starts at an offset. -/
structure Ledger.Lawful (start : Nat) (ledger : Ledger) : Prop where
  tiles : Ledger.Tiles start ledger.acks ledger.writer.nextOffset.toNat
  each : ∀ outcome ∈ ledger.outcomes, outcome.Kind
  closed : ledger.outcomes.Pairwise fun earlier later =>
    earlier.Broke → ∃ error, later.Refused error

/-- Besides the law, a writer that broke is poisoned. -/
structure Ledger.Kept (start : Nat) (ledger : Ledger) : Prop extends ledger.Lawful start where
  poisoned : ∀ outcome ∈ ledger.outcomes, outcome.Broke → ledger.writer.poisoned = true

theorem call_rejected {writer : ChunkLogWriter} {made : Call} {error : ChunkLogError}
    (failed : writer.plan made.operation = .error error) : (writer.call made).Refused error := by
  obtain ⟨before, operation, kind⟩ := writer.call_kind made
  cases kind with
  | refused _ planned refused =>
      rw [before, operation] at planned
      cases failed.symm.trans planned
      exact refused
  | acknowledged _ passed | broke _ passed =>
      rw [before, operation, failed] at passed
      cases passed

theorem call_broke {made : Call} (broke : (writer.call made).Broke) :
    (writer.call made).after.poisoned = true := by
  obtain ⟨-, -, kind⟩ := writer.call_kind made
  cases kind with
  | refused error _ refused =>
      rw [Outcome.Broke, refused.result] at broke
      rcases broke with none | ⟨reason, same⟩
      · cases none
      · cases same
        exact absurd rfl (refused.ours reason)
  | acknowledged _ _ acknowledged =>
      rw [Outcome.Broke, acknowledged.result] at broke
      simp at broke
  | broke _ _ _ _ _ poisoned => exact poisoned

/-- The acknowledgement of a call continues the offsets, and without one they stay. -/
theorem call_tiles {made : Call} (continues : made.operation.Continues) :
    Ledger.Tiles writer.nextOffset.toNat (Ledger.acks ⟨writer, [writer.call made]⟩)
      (writer.call made).after.nextOffset.toNat := by
  obtain ⟨before, operation, kind⟩ := writer.call_kind made
  cases kind with
  | refused _ _ refused =>
      simp only [Ledger.acks, List.filterMap_cons, List.filterMap_nil, refused.result,
        refused.offset, before]
      rfl
  | acknowledged ready passed acknowledged =>
      obtain ⟨-, first, last, count, stop⟩ := plan_continues (operation ▸ continues) passed
      rw [before] at first stop
      simp only [Ledger.acks, List.filterMap_cons, List.filterMap_nil, acknowledged.result]
      refine ⟨congrArg RecordOffset.toNat first, ?_, count, ?_⟩
      · show ready.nextOffset.toNat = _
        rw [last, stop]
      · rw [acknowledged.offset]
        exact stop
  | broke _ _ broke _ offset =>
      have nothing : Ledger.acks ⟨writer, [writer.call made]⟩ = [] := by
        rcases broke with result | ⟨reason, result⟩ <;> simp [Ledger.acks, result]
      rw [nothing, offset, before]
      rfl

theorem Ledger.Kept.step {start : Nat} {ledger : Ledger} (kept : ledger.Kept start) {made : Call}
    (continues : made.operation.Continues) : (ledger.step made).Kept start := by
  have outcomes : (ledger.step made).outcomes = ledger.outcomes ++ [ledger.writer.call made] := rfl
  obtain ⟨before, -, kind⟩ := ledger.writer.call_kind made
  have refusing : ledger.writer.poisoned = true → (ledger.writer.call made).Refused .poisoned :=
    fun poisoned => call_rejected (plan_poisoned poisoned made.operation)
  refine ⟨⟨?_, ?_, ?_⟩, ?_⟩
  · have both : (ledger.step made).acks =
        ledger.acks ++ Ledger.acks ⟨ledger.writer, [ledger.writer.call made]⟩ :=
      List.filterMap_append
    rw [both]
    exact Ledger.tiles_append.mpr ⟨_, kept.tiles, call_tiles continues⟩
  · rw [outcomes]
    intro outcome member
    rcases List.mem_append.mp member with old | new
    · exact kept.each outcome old
    · rw [List.mem_singleton.mp new]
      exact kind
  · rw [outcomes]
    refine List.pairwise_append.mpr ⟨kept.closed, List.pairwise_singleton _ _, ?_⟩
    intro earlier member later new broke
    rw [List.mem_singleton.mp new]
    exact ⟨_, refusing (kept.poisoned earlier member broke)⟩
  · rw [outcomes]
    show ∀ outcome ∈ ledger.outcomes ++ [ledger.writer.call made], outcome.Broke →
      (ledger.writer.call made).after.poisoned = true
    intro outcome member broke
    rcases List.mem_append.mp member with old | new
    · have poisoned := kept.poisoned outcome old broke
      rw [(refusing poisoned).poisoned, before]
      exact poisoned
    · rw [List.mem_singleton] at new
      subst new
      exact call_broke broke

/-- The ledger law, for whatever chunks and pointers the calls are given and whatever the kernel
answers. -/
theorem Ledger.lawful_run (writer : ChunkLogWriter) {calls : List Call}
    (continues : ∀ made ∈ calls, made.operation.Continues) :
    (Machine.run Ledger.step ⟨writer, []⟩ calls).Lawful writer.nextOffset.toNat := by
  have kept : ∀ ledger : Ledger, ledger.Kept writer.nextOffset.toNat →
      (Machine.run Ledger.step ledger calls).Kept writer.nextOffset.toNat := by
    induction calls with
    | nil => exact fun _ kept => kept
    | cons made rest ih =>
        intro ledger kept
        exact ih (fun other member => continues other (List.mem_cons_of_mem _ member)) _
          (kept.step (continues made List.mem_cons_self))
  refine (kept ⟨writer, []⟩ ⟨⟨rfl, ?_, .nil⟩, ?_⟩).toLawful
  · intro outcome member
    cases member
  · intro outcome member
    cases member

section Samples

def sampleWriter : ChunkLogWriter :=
  ⟨⟨repeated 16 9⟩, ⟨repeated 16 8⟩, 1, [], .ofNat 0, false⟩

/-- One record at the offset. -/
def sampleFrame (offset : Nat) : Frame :=
  ⟨⟨repeated 16 9⟩, .ofNat offset, [⟨.empty, [7]⟩],
    [⟨⟨repeated 16 1⟩, 1, UInt64.ofNat offset, 0, 1⟩]⟩

def sampleHeader (counter : UInt8) : ChunkHeader :=
  ⟨⟨repeated 16 counter⟩, ⟨repeated 16 8⟩, 1, ⟨repeated 16 3⟩, 0⟩

theorem sampleFrame_sealed (counter : UInt8) {offset : Nat} (small : offset < 256) :
    ∃ chunk, sealSingleFrameChunk (sampleHeader counter) [sampleFrame offset] = .ok chunk := by
  refine @sealSingleFrameChunk_succeeds _ (sampleHeader counter) (sampleFrame offset) 199 rfl ?_ rfl
    (by decide)
  have start : (RecordOffset.ofNat offset).toNat = offset := RecordOffset.toNat_ofNat (by omega)
  show (RecordOffset.ofNat offset).toNat + 1 < 2 ^ 64
  omega

end Samples

theorem sample_acked : ∃ chunk : SealedChunk, (Machine.run Ledger.step ⟨sampleWriter, []⟩
    [.returned (.append chunk) .ok, .returned (.appendReferenceBatch []) .ok]).acks.length = 1 := by
  obtain ⟨chunk, done⟩ := sampleFrame_sealed 0 (show 0 < 256 by decide)
  obtain ⟨count, appended⟩ :=
    @append_succeeds _ sampleWriter _ _ _ (sealSingleFrameChunk_eq_ok done)
    rfl rfl rfl rfl rfl
  have planned (writer : ChunkLogWriter) : ∃ error,
      writer.plan (.appendReferenceBatch []) = .error error := by
    cases poisoned : writer.poisoned with
    | true => exact ⟨_, plan_poisoned poisoned _⟩
    | false => exact ⟨.dataRef .emptyBatch, by simp [plan, planReferenceBatch, poisoned]; rfl⟩
  have first : (sampleWriter.perform (.append chunk) .ok).1 = .ok _ := congrArg Prod.fst appended
  have acked : (sampleWriter.call (.returned (.append chunk) .ok)).result = some (.ok _) :=
    congrArg some first
  obtain ⟨error, failed⟩ := planned (sampleWriter.call (.returned (.append chunk) .ok)).after
  have refused := (@call_rejected _ _ (.returned (.appendReferenceBatch []) .ok) _ failed).result
  refine ⟨chunk, ?_⟩
  simp [Machine.run, Ledger.step, Ledger.acks, acked, refused]

omit [Digests] in
/-- A chunk is appended, and an empty batch is refused. -/
theorem Ledger.lawful_run_refused : ∃ chunk : SealedChunk,
    let ledger := Machine.run (@Ledger.step sampleDigests) ⟨sampleWriter, []⟩
      [.returned (.append chunk) .ok, .returned (.appendReferenceBatch []) .ok]
    @Ledger.Lawful sampleDigests 0 ledger ∧ (@Ledger.acks sampleDigests ledger).length = 1 := by
  obtain ⟨chunk, acked⟩ := @sample_acked sampleDigests
  exact ⟨chunk, @Ledger.lawful_run sampleDigests sampleWriter _ (by simp [Call.operation,
    Operation.Continues]), acked⟩

/-- The chunk of an operation is sealed by a driver, and what its pointers name is in the store. -/
def Operation.Present (store : BlobStore) : Operation → Prop
  | .append chunk => DriverSealed chunk
  | .appendDataRef chunk pointer => DriverSealed chunk ∧ Fetched store pointer chunk.bytes
  | .appendReferenceBatch items =>
      ∀ item ∈ items, DriverSealed item.1 ∧ Fetched store item.2 item.1.bytes
  | .appendSupersedingDataRef pointer _ =>
      ∃ chunk, DriverSealed chunk ∧ Fetched store pointer chunk.bytes ∧
        chunk.chunkId = pointer.chunkId

/-- What an entry of the log is there for, and its chunks. -/
structure Entry where
  superseding : Bool
  chunks : List Chunk
  deriving DecidableEq

def decodedChunk (bytes : Bytes) : List Chunk :=
  match decodeChunk bytes with
  | .ok chunk => [chunk]
  | .error _ => []

/-- The entry that an operation makes. -/
def Operation.entry (store : BlobStore) : Operation → Entry
  | .append chunk => ⟨false, decodedChunk chunk.bytes⟩
  | .appendDataRef chunk _ => ⟨false, decodedChunk chunk.bytes⟩
  | .appendReferenceBatch items => ⟨false, items.flatMap fun item => decodedChunk item.1.bytes⟩
  | .appendSupersedingDataRef pointer _ =>
      match fetchDataRefChunkBytes (some store) pointer with
      | .ok bytes => ⟨true, decodedChunk bytes⟩
      | .error _ => ⟨true, []⟩

/-- What an operation lays down. -/
structure Laid (store : BlobStore) (writer : ChunkLogWriter) (ready : Plan) (entry : Entry) :
    Prop where
  holds : Holds store ready.payload entry.chunks
  filled : entry.chunks ≠ []
  chained : ∃ start stop, Adjoining start entry.chunks stop
  continues : entry.superseding = false →
    (∀ chunk ∈ entry.chunks, Owned writer.journalId writer.cohortId writer.generation chunk) ∧
    Adjoining writer.nextOffset.toNat entry.chunks ready.advance.toNat
  stays : entry.superseding = true → ready.advance = writer.nextOffset

theorem decodedChunk_sealed {bytes : Bytes} {chunk : Chunk} (made : SealedAs bytes chunk) :
    decodedChunk bytes = [chunk] := by
  rw [decodedChunk, made.decoded]

theorem decodedChunk_items {chunks : List Chunk}
    (decodes : List.Forall₂ (fun item chunk => decodeChunk item.1.bytes = .ok chunk) items chunks) :
    (items.flatMap fun item => decodedChunk item.1.bytes) = chunks := by
  induction decodes with
  | nil => rfl
  | cons first _ ih =>
      rw [List.flatMap_cons, ih, decodedChunk, first]
      rfl

omit [Digests] in
theorem planSuperseding_eq_ok {pointer : DataRef} {superseded : RecordOffset} {ready : Plan}
    (passed : writer.planSuperseding pointer superseded = .ok ready) :
    writer.poisoned = false ∧ encodeDataRef pointer = .ok ready.payload ∧
      ready.advance = writer.nextOffset := by
  obtain ⟨alive, passed⟩ := checked_eq_ok.mp passed
  obtain ⟨_, -, passed⟩ := bind_eq_ok.mp passed
  obtain ⟨-, passed⟩ := checked_eq_ok.mp passed
  obtain ⟨-, passed⟩ := checked_eq_ok.mp passed
  obtain ⟨payload, encoded, passed⟩ := bind_eq_ok.mp passed
  cases passed
  exact ⟨by simpa using alive, mapError_eq_ok.mp encoded, rfl⟩

theorem plan_laid {operation : Operation} {ready : Plan}
    (passed : writer.plan operation = .ok ready) (present : operation.Present store) :
    Laid store writer ready (operation.entry store) := by
  cases operation with
  | append chunk =>
      obtain ⟨-, entry, checks, payload, -, -, -, -, stop⟩ := planAppend_eq_ok passed
      obtain ⟨decoded, made, -, owned, base, length⟩ := checks.sealed present
      have shape : (Operation.append chunk).entry store = ⟨false, [decoded]⟩ := by
        rw [Operation.entry, decodedChunk_sealed made]
      have chained : Adjoining writer.nextOffset.toNat [decoded] ready.advance.toNat :=
        ⟨base, by rw [length]; exact stop⟩
      rw [shape]
      exact ⟨payload ▸ .inline made, by simp, ⟨_, _, chained⟩,
        fun _ => ⟨by simpa using owned, chained⟩,
        by simp⟩
  | appendDataRef chunk pointer =>
      obtain ⟨-, -, entry, checks, ⟨-, identity, -⟩, encoded, -, -, -, -, stop⟩ :=
        planDataRef_eq_ok passed
      obtain ⟨decoded, made, named, owned, base, length⟩ := checks.sealed present.1
      have shape : (Operation.appendDataRef chunk pointer).entry store = ⟨false, [decoded]⟩ := by
        rw [Operation.entry, decodedChunk_sealed made]
      have chained : Adjoining writer.nextOffset.toNat [decoded] ready.advance.toNat :=
        ⟨base, by rw [length]; exact stop⟩
      rw [shape]
      exact ⟨.dataRef encoded ⟨_, present.2, made, named.trans identity.symm⟩, by simp,
        ⟨_, _, chained⟩,
        fun _ => ⟨by simpa using owned, chained⟩, by simp⟩
  | appendReferenceBatch items =>
      obtain ⟨-, passed⟩ := checked_eq_ok.mp passed
      cases items with
      | nil => cases passed
      | cons item rest =>
          obtain ⟨⟨next, total⟩, checked, passed⟩ := bind_eq_ok.mp passed
          obtain ⟨payload, encoded, passed⟩ := bind_eq_ok.mp passed
          cases passed
          obtain ⟨chunks, points, owned, chained, decodes⟩ := checkItems_eq_ok checked present
          have shape : (Operation.appendReferenceBatch (item :: rest)).entry store =
              ⟨false, chunks⟩ :=
            congrArg (Entry.mk false) (decodedChunk_items decodes)
          rw [shape]
          refine ⟨.referenceBatch (mapError_eq_ok.mp encoded) points, ?_, ⟨_, _, chained⟩,
            fun _ => ⟨owned, chained⟩, by simp⟩
          intro nothing
          subst nothing
          cases points
  | appendSupersedingDataRef pointer superseded =>
      obtain ⟨chunk, ⟨header, frame, done⟩, fetched, named⟩ := present
      have spec := sealSingleFrameChunk_eq_ok done
      have made : SealedAs chunk.bytes ⟨header, [frame]⟩ := ⟨header, frame, chunk, spec, rfl, rfl⟩
      have shape : (Operation.appendSupersedingDataRef pointer superseded).entry store =
          ⟨true, [⟨header, [frame]⟩]⟩ := by
        rw [Operation.entry, fetchDataRefChunkBytes_eq_ok.mpr fetched]
        exact congrArg (Entry.mk true) (decodedChunk_sealed made)
      obtain ⟨-, encoded, same⟩ := planSuperseding_eq_ok passed
      rw [shape]
      exact ⟨.dataRef encoded ⟨_, fetched, made, spec.chunkId.symm.trans named⟩, by simp,
        ⟨frame.baseOffset.toNat, _, rfl, rfl⟩, by simp, fun _ => same⟩

/-- Where the chunks of an entry start. -/
def Entry.start (entry : Entry) : Nat :=
  match entry.chunks with
  | [] => 0
  | chunk :: _ => chunk.base

/-- Where they end. -/
def Entry.stop (entry : Entry) : Nat := entry.start + (entry.chunks.flatMap Chunk.records).length

/-- The chunks of the entry continue one another. -/
def Entry.Solid (entry : Entry) : Prop :=
  entry.chunks ≠ [] ∧ Adjoining entry.start entry.chunks entry.stop

omit [Digests] in
theorem Entry.solid_of_chained {entry : Entry} {start stop : Nat}
    (chained : Adjoining start entry.chunks stop) (filled : entry.chunks ≠ []) :
    entry.Solid ∧ entry.start = start ∧ entry.stop = stop := by
  have total := chained.length
  have begins : entry.start = start := by
    unfold Entry.start
    cases same : entry.chunks with
    | nil => exact absurd same filled
    | cons chunk rest =>
        rw [same] at chained
        exact chained.1
  have ends : entry.stop = stop := by
    rw [Entry.stop, begins]
    exact total
  exact ⟨⟨filled, by rw [begins, ends]; exact chained⟩, begins, ends⟩

omit [Digests] in
theorem chained_entries {entries : List Entry} (solid : ∀ entry ∈ entries, entry.Solid)
    {stop : Nat} :
    (∃ start, Adjoining start (entries.flatMap Entry.chunks) stop) ↔
      entries.IsChain (fun left right => left.stop = right.start) ∧
        ∀ last ∈ entries.getLast?, last.stop = stop := by
  induction entries with
  | nil => simp [Adjoining]
  | cons entry rest ih =>
      have first := solid entry List.mem_cons_self
      have others := ih fun other member => solid other (List.mem_cons_of_mem _ member)
      cases rest with
      | nil =>
          simp only [List.flatMap_cons, List.flatMap_nil, List.append_nil, List.isChain_singleton,
            true_and, List.getLast?_singleton, Option.mem_some_iff, forall_eq']
          constructor
          · rintro ⟨start, chained⟩
            exact (Entry.solid_of_chained chained first.1).2.2
          · intro same
            exact ⟨_, same ▸ first.2⟩
      | cons next more =>
          have second := solid next (List.mem_cons_of_mem _ List.mem_cons_self)
          have begins {middle : Nat}
              (chained : Adjoining middle ((next :: more).flatMap Entry.chunks) stop) :
              next.start = middle := by
            rw [List.flatMap_cons] at chained
            obtain ⟨_, front, -⟩ := adjoining_append.mp chained
            exact (Entry.solid_of_chained front second.1).2.1
          rw [List.flatMap_cons, List.isChain_cons_cons, List.getLast?_cons_cons]
          constructor
          · rintro ⟨start, chained⟩
            obtain ⟨middle, front, back⟩ := adjoining_append.mp chained
            obtain ⟨linked, last⟩ := others.mp ⟨middle, back⟩
            obtain ⟨-, -, ends⟩ := Entry.solid_of_chained front first.1
            exact ⟨⟨ends.trans (begins back).symm, linked⟩, last⟩
          · rintro ⟨⟨link, linked⟩, last⟩
            obtain ⟨middle, back⟩ := others.mpr ⟨linked, last⟩
            refine ⟨entry.start, adjoining_append.mpr ⟨entry.stop, first.2, ?_⟩⟩
            rw [link, begins back]
            exact back

/-- Neighbours that both continue the log are linked, and so is the last one to the writer. -/
structure Traced (store : BlobStore) (writer : ChunkLogWriter) (entries : List Entry) : Prop where
  alive : writer.poisoned = false
  holds : List.Forall₂ (Holds store) writer.log (entries.map Entry.chunks)
  solid : ∀ entry ∈ entries, entry.Solid
  owned : ∀ entry ∈ entries, entry.superseding = false → ∀ chunk ∈ entry.chunks,
    Owned writer.journalId writer.cohortId writer.generation chunk
  linked : entries.IsChain fun left right => left.superseding = false → right.superseding = false →
    left.stop = right.start
  last : ∀ entry ∈ entries.getLast?, entry.superseding = false →
    entry.stop = writer.nextOffset.toNat
  fresh : entries = [] → writer.nextOffset.toNat = 0

/-- The operation succeeds. -/
def Succeeds (store : BlobStore) (writer : ChunkLogWriter) (operation : Operation) : Prop :=
  operation.Present store ∧ (writer.perform operation .ok).1.isOk

def stepOk (writer : ChunkLogWriter) (operation : Operation) : ChunkLogWriter :=
  (writer.perform operation .ok).2

theorem Traced.step {store : BlobStore} {writer : ChunkLogWriter} {entries : List Entry}
    (traced : Traced store writer entries) {operation : Operation}
    (succeeds : Succeeds store writer operation) :
    Traced store (stepOk writer operation) (entries ++ [operation.entry store]) := by
  obtain ⟨present, ok⟩ := succeeds
  cases planned : writer.plan operation with
  | error error =>
      rw [perform, planned] at ok
      cases ok
  | ok ready =>
      have after : stepOk writer operation = { writer with
          log := writer.log ++ [ready.payload]
          nextOffset := ready.advance
          poisoned := false } := by
        rw [stepOk, perform, planned]
        rfl
      have laid := plan_laid planned present
      generalize operation.entry store = entry at laid
      obtain ⟨start, stop, chained⟩ := laid.chained
      obtain ⟨solid, -, -⟩ := Entry.solid_of_chained chained laid.filled
      rw [after]
      refine ⟨rfl, ?_, ?_, ?_, ?_, ?_, by simp⟩
      · rw [List.map_append]
        exact List.rel_append traced.holds (.cons laid.holds .nil)
      · intro other member
        rcases List.mem_append.mp member with old | new
        · exact traced.solid other old
        · rw [List.mem_singleton] at new
          subst new
          exact solid
      · intro other member continues
        rcases List.mem_append.mp member with old | new
        · exact traced.owned other old continues
        · rw [List.mem_singleton] at new
          subst new
          exact (laid.continues continues).1
      · rw [List.isChain_append]
        refine ⟨traced.linked, List.isChain_singleton _, ?_⟩
        intro left inLast right inHead leftContinues rightContinues
        simp only [List.head?_cons, Option.mem_some_iff] at inHead
        subst inHead
        rw [traced.last left inLast leftContinues]
        exact (Entry.solid_of_chained (laid.continues rightContinues).2 laid.filled).2.1.symm
      · intro other inLast continues
        simp only [List.getLast?_append, List.getLast?_singleton, Option.some_or,
          Option.mem_some_iff] at inLast
        subst inLast
        exact (Entry.solid_of_chained (laid.continues continues).2 laid.filled).2.2

/-- Each superseding pointer of the window leads to a chunk of the writer that starts where the
entry before it ends, and ends where the entry after it starts, or at the writer's offset. -/
structure Fits (writer : ChunkLogWriter) (window : List Entry) : Prop where
  owned : ∀ entry ∈ window, entry.superseding = true → ∀ chunk ∈ entry.chunks,
    Owned writer.journalId writer.cohortId writer.generation chunk
  linked : window.IsChain fun left right => left.superseding = true ∨ right.superseding = true →
    left.stop = right.start
  last : ∀ entry ∈ window.getLast?, entry.superseding = true → entry.stop = writer.nextOffset.toNat

omit [Digests] in
/-- A window without chunks is that of an empty log. -/
theorem window_empty {entries : List Entry} (filled : ∀ entry ∈ entries, entry.chunks ≠ [])
    (bound : RecoveryBound)
    (nothing : (entries.drop (entries.length - bound.val)).flatMap Entry.chunks = []) :
    entries = [] := by
  refine List.eq_nil_iff_length_eq_zero.mpr ?_
  by_contra some
  have positive := Nat.pos_of_ne_zero bound.property
  have kept : entries.drop (entries.length - bound.val) ≠ [] := by
    rw [ne_eq, List.drop_eq_nil_iff]
    omega
  obtain ⟨entry, member⟩ := List.exists_mem_of_ne_nil _ kept
  exact filled entry (List.mem_of_mem_drop member) (List.flatMap_eq_nil_iff.mp nothing entry member)

theorem Traced.recover_iff {entries : List Entry} (traced : Traced store writer entries)
    (bound : RecoveryBound) :
    (∃ recovered chunks, recover writer.journalId writer.cohortId writer.generation writer.log bound
        (some store) = .ok (recovered, chunks) ∧ recovered.nextOffset = writer.nextOffset) ↔
      writer.Fits (entries.drop (entries.length - bound.val)) := by
  have long : writer.log.length = entries.length := by
    rw [traced.holds.length_eq, List.length_map]
  have window : (((entries.map Entry.chunks).drop (writer.log.length - bound.val)).flatten) =
      (entries.drop (entries.length - bound.val)).flatMap Entry.chunks := by
    rw [long, ← List.map_drop, List.flatMap_def]
  have inside {entry : Entry} (member : entry ∈ entries.drop (entries.length - bound.val)) :
      entry ∈ entries := List.mem_of_mem_drop member
  have pieces := @chained_entries (entries.drop (entries.length - bound.val))
    (fun entry member => traced.solid entry (inside member)) writer.nextOffset.toNat
  rw [recover_holds traced.holds bound writer.nextOffset, window]
  constructor
  · rintro ⟨owned, -, chained⟩
    obtain ⟨linked, last⟩ := pieces.mp chained
    refine ⟨?_, linked.imp fun _ _ link _ => link, fun entry member _ => last entry member⟩
    intro entry member _ chunk held
    exact owned chunk (List.mem_flatMap.mpr ⟨entry, member, held⟩)
  · intro fits
    refine ⟨?_, ?_, pieces.mpr ⟨?_, ?_⟩⟩
    · intro chunk member
      obtain ⟨entry, listed, held⟩ := List.mem_flatMap.mp member
      cases kind : entry.superseding with
      | true => exact fits.owned entry listed kind chunk held
      | false => exact traced.owned entry (inside listed) kind chunk held
    · intro nothing
      exact traced.fresh
        (window_empty (fun entry member => (traced.solid entry member).1) bound nothing)
    · have dense := traced.linked.drop (entries.length - bound.val)
      rw [List.isChain_iff_getElem] at dense ⊢
      intro place within
      have link := List.isChain_iff_getElem.mp fits.linked place within
      have denseLink := dense place within
      generalize (entries.drop (entries.length - bound.val))[place] = left at link denseLink ⊢
      generalize (entries.drop (entries.length - bound.val))[place + 1] = right at link denseLink ⊢
      cases leftKind : left.superseding with
      | true => exact link (.inl leftKind)
      | false =>
          cases rightKind : right.superseding with
          | true => exact link (.inr rightKind)
          | false => exact denseLink leftKind rightKind
    · intro entry member
      cases kind : entry.superseding with
      | true => exact fits.last entry member kind
      | false =>
          refine traced.last entry ?_ kind
          rw [Option.mem_def, List.getLast?_drop] at member
          split at member
          · cases member
          · exact member

theorem traced_run {operations : List Operation} {entries : List Entry}
    (traced : Traced store writer entries)
    (succeeding : Machine.Along stepOk (Succeeds store) writer operations) :
    Traced store (Machine.run stepOk writer operations)
      (entries ++ operations.map (Operation.entry store)) := by
  induction operations generalizing writer entries with
  | nil =>
      rw [List.map_nil, List.append_nil]
      exact traced
  | cons operation rest ih =>
      have later := ih (traced.step succeeding.1) succeeding.2
      rwa [List.append_assoc, List.singleton_append, ← List.map_cons] at later

def freshWriter (journal : JournalId) (cohort : CohortId) (generation : UInt64) : ChunkLogWriter :=
  ⟨journal, cohort, generation, [], .ofNat 0, false⟩

theorem fresh_traced (journal : JournalId) (cohort : CohortId) (generation : UInt64)
    (store : BlobStore) : Traced store (freshWriter journal cohort generation) [] :=
  ⟨rfl, .nil, by simp, by simp, .nil, by simp, fun _ => rfl⟩

section Rewritten

/-- The whole blob is one chunk. -/
def wholePointer (chunk : SealedChunk) : DataRef :=
  ⟨"k", 0, UInt64.ofNat chunk.bytes.length, 1, chunk.chunkId, chunk.digest, chunk.digest⟩

def wholeStore (chunk : SealedChunk) : BlobStore := fun key =>
  if key = "k" then some chunk.bytes else none

theorem wholePointer_fetched {header : ChunkHeader} {frame : Frame} {chunk : SealedChunk}
    (spec : SealedFrom header frame chunk) :
    Fetched (wholeStore chunk) (wholePointer chunk) chunk.bytes := by
  obtain ⟨body, -, -, long, short⟩ := spec.body
  have size : UInt64.size = 2 ^ 64 := rfl
  have length := UInt64.toNat_ofNat_of_lt' (show chunk.bytes.length < UInt64.size by omega)
  have filled : 0 < chunk.bytes.length := by
    rw [long]
    unfold soleChunkLen
    have header : 0 < headerLen := by decide
    omega
  refine ⟨⟨show 0 < (utf8 "k").length by decide, show (utf8 "k").length ≤ maxBlobKeyBytes by decide,
    ?_, show (1 : UInt32) ≠ 0 by decide, ?_⟩, ⟨chunk.bytes, if_pos rfl, spec.digest.symm, ?_⟩,
    length.symm, spec.digest.symm⟩
  · intro zero
    have nothing : (UInt64.ofNat chunk.bytes.length).toNat = 0 := congrArg UInt64.toNat zero
    omega
  · show (0 : UInt64).toNat + (UInt64.ofNat chunk.bytes.length).toNat < 2 ^ 64
    rw [length, UInt64.toNat_zero]
    omega
  · show slice chunk.bytes (0 : UInt64).toNat
      ((0 : UInt64).toNat + (UInt64.ofNat chunk.bytes.length).toNat) = _
    rw [length, UInt64.toNat_zero, Nat.zero_add]
    simp [slice]

theorem stepOk_append {writer : ChunkLogWriter} {header : ChunkHeader} {frame : Frame}
    {chunk : SealedChunk} (done : sealSingleFrameChunk header [frame] = .ok chunk)
    (cohort : header.cohortId = writer.cohortId)
    (generation : header.generation = writer.generation)
    (journal : frame.journalId = writer.journalId) (base : frame.baseOffset = writer.nextOffset)
    (alive : writer.poisoned = false) (store : BlobStore) :
    Succeeds store writer (.append chunk) ∧ stepOk writer (.append chunk) = { writer with
      log := writer.log ++ [chunk.bytes], poisoned := false
      nextOffset := .ofNat (writer.nextOffset.toNat + frame.records.length) } := by
  obtain ⟨count, appended⟩ := append_succeeds (sealSingleFrameChunk_eq_ok done) cohort generation
    journal base alive
  have performed : writer.perform (.append chunk) .ok = _ := appended
  refine ⟨⟨⟨header, frame, done⟩, ?_⟩, ?_⟩
  · rw [performed]
    rfl
  · rw [stepOk, performed]

/-- Two chunks are appended and the first is rewritten. -/
theorem sample_superseded : ∃ first second : SealedChunk,
    let operations : List Operation := [.append first, .append second,
      .appendSupersedingDataRef (wholePointer first) (.ofNat 0)]
    let writer := Machine.run stepOk (freshWriter ⟨repeated 16 9⟩ ⟨repeated 16 8⟩ 1) operations
    Machine.Along stepOk (Succeeds (wholeStore first))
      (freshWriter ⟨repeated 16 9⟩ ⟨repeated 16 8⟩ 1)
      operations ∧ writer.nextOffset = .ofNat 2 ∧
    (Operation.appendSupersedingDataRef (wholePointer first) (.ofNat 0)).entry (wholeStore first) =
      ⟨true, [⟨sampleHeader 1, [sampleFrame 0]⟩]⟩ := by
  obtain ⟨first, firstDone⟩ := sampleFrame_sealed 1 (show 0 < 256 by decide)
  obtain ⟨second, secondDone⟩ := sampleFrame_sealed 2 (show 1 < 256 by decide)
  have spec := sealSingleFrameChunk_eq_ok firstDone
  have fetched := wholePointer_fetched spec
  obtain ⟨firstOk, firstStep⟩ :=
    @stepOk_append _ (freshWriter ⟨repeated 16 9⟩ ⟨repeated 16 8⟩ 1) _ _ _
    firstDone rfl rfl rfl rfl rfl (wholeStore first)
  obtain ⟨secondOk, secondStep⟩ := @stepOk_append _
    (stepOk (freshWriter ⟨repeated 16 9⟩ ⟨repeated 16 8⟩ 1) (.append first)) _ _ _
    secondDone (by rw [firstStep]; rfl) (by rw [firstStep]; rfl) (by rw [firstStep]; rfl)
    (by rw [firstStep]; rfl) (by rw [firstStep]) (wholeStore first)
  have encoded := encodeDataRef_eq_ok.mpr ⟨fetched.valid, rfl⟩
  have valid := DataRef.validate_eq_ok.mpr fetched.valid
  have planned : (stepOk (stepOk (freshWriter ⟨repeated 16 9⟩ ⟨repeated 16 8⟩ 1) (.append first))
      (.append second)).plan (.appendSupersedingDataRef (wholePointer first) (.ofNat 0)) = .ok
        ⟨dataRefBytes (wholePointer first), first.chunkId, .ofNat 0, .ofNat 2, 1, .ofNat 2⟩ := by
    rw [secondStep, firstStep]
    unfold plan planSuperseding
    refine checked_eq_ok.mpr ⟨by simp, bind_eq_ok.mpr ⟨(), mapError_eq_ok.mpr valid,
      checked_eq_ok.mpr ⟨show ¬ 2 ^ 64 ≤ 0 + 1 by decide, checked_eq_ok.mpr
        ⟨show ¬ 2 < 0 + 1 by decide, bind_eq_ok.mpr ⟨_, mapError_eq_ok.mpr encoded, rfl⟩⟩⟩⟩⟩
  refine ⟨first, second,
    ⟨firstOk, secondOk, ⟨⟨first, ⟨_, _, firstDone⟩, fetched, rfl⟩, ?_⟩, trivial⟩,
    ?_, ?_⟩
  · rw [perform, planned]
    rfl
  · show (stepOk _ _).nextOffset = _
    rw [stepOk, perform, planned]
    rfl
  · have made : SealedAs first.bytes ⟨sampleHeader 1, [sampleFrame 0]⟩ :=
      ⟨_, _, first, spec, rfl, rfl⟩
    rw [Operation.entry, fetchDataRefChunkBytes_eq_ok.mpr fetched]
    exact congrArg (Entry.mk true) (decodedChunk_sealed made)

theorem sample_behind : ∃ first second : SealedChunk,
    let operations : List Operation := [.append first, .append second,
      .appendSupersedingDataRef (wholePointer first) (.ofNat 0)]
    let start := freshWriter ⟨repeated 16 9⟩ ⟨repeated 16 8⟩ 1
    let writer := Machine.run stepOk start operations
    Machine.Along stepOk (Succeeds (wholeStore first)) start operations ∧
    writer.nextOffset = .ofNat 2 ∧
    ∃ recovered chunks, recover start.journalId start.cohortId start.generation writer.log
      ⟨1, by decide⟩ (some (wholeStore first)) = .ok (recovered, chunks) ∧
      recovered.nextOffset = .ofNat 1 := by
  obtain ⟨first, second, succeeding, offset, entry⟩ := sample_superseded
  refine ⟨first, second, succeeding, offset, ?_⟩
  have traced := traced_run (fresh_traced ⟨repeated 16 9⟩ ⟨repeated 16 8⟩ 1 _) succeeding
  have long := traced.holds.length_eq
  rw [recover_holds traced.holds, long]
  simp only [List.nil_append, List.map_cons, List.map_nil, List.length_cons, List.length_nil,
    List.drop_succ_cons, List.drop_zero, Nat.reduceAdd, Nat.reduceSub, entry, List.flatten_cons,
    List.flatten_nil, List.append_nil, List.mem_singleton, forall_eq, reduceCtorEq, false_implies,
    true_and]
  exact ⟨⟨rfl, rfl, rfl⟩, 0, rfl, rfl⟩

end Rewritten

/-- After successful operations on a new log, recovery with a bound returns a writer with the offset
of the one that performed them exactly if the superseding pointers in the window fit between their
neighbours. -/
theorem recover_same_offset {journal : JournalId} {cohort : CohortId} {generation : UInt64}
    {store : BlobStore} {operations : List Operation}
    (succeeding : Machine.Along stepOk (Succeeds store) (freshWriter journal cohort generation)
      operations) (bound : RecoveryBound) :
    let writer := Machine.run stepOk (freshWriter journal cohort generation) operations
    (∃ recovered chunks, recover writer.journalId writer.cohortId writer.generation writer.log bound
        (some store) = .ok (recovered, chunks) ∧ recovered.nextOffset = writer.nextOffset) ↔
      writer.Fits ((operations.map (Operation.entry store)).drop
        (operations.length - bound.val)) := by
  have traced := traced_run (fresh_traced journal cohort generation store) succeeding
  rw [List.nil_append] at traced
  have recovers := traced.recover_iff bound
  rwa [List.length_map] at recovers

omit [Digests] in
/-- Two chunks are appended, and the last entry is enough to find the offset. -/
theorem recover_same_offset_two : ∃ first second : SealedChunk,
    let start := freshWriter ⟨repeated 16 9⟩ ⟨repeated 16 8⟩ 1
    let writer := Machine.run (@stepOk sampleDigests) start [.append first, .append second]
    ∃ recovered chunks, @recover sampleDigests writer.journalId writer.cohortId writer.generation
      writer.log ⟨1, by decide⟩ (some (@wholeStore first)) = .ok (recovered, chunks) ∧
      recovered.nextOffset = writer.nextOffset := by
  obtain ⟨first, second, succeeding, -⟩ := @sample_superseded sampleDigests
  refine ⟨first, second, ?_⟩
  refine (@recover_same_offset sampleDigests _ _ _ _ [.append first, .append second]
    ⟨succeeding.1, succeeding.2.1, trivial⟩ ⟨1, by decide⟩).mpr ?_
  refine ⟨?_, ?_, ?_⟩
  · simp [Operation.entry]
  · exact .singleton _
  · simp [Operation.entry]

omit [Digests] in
/-- Two chunks are appended and the first is rewritten. Recovery from the last entry goes back to
the offset after the first chunk. -/
theorem recover_behind : ∃ first second : SealedChunk,
    let operations : List Operation := [.append first, .append second,
      .appendSupersedingDataRef (wholePointer first) (.ofNat 0)]
    let start := freshWriter ⟨repeated 16 9⟩ ⟨repeated 16 8⟩ 1
    let writer := Machine.run (@stepOk sampleDigests) start operations
    Machine.Along (@stepOk sampleDigests) (@Succeeds sampleDigests (wholeStore first)) start
      operations ∧ writer.nextOffset = .ofNat 2 ∧
    ∃ recovered chunks, @recover sampleDigests start.journalId start.cohortId start.generation
      writer.log ⟨1, by decide⟩ (some (wholeStore first)) = .ok (recovered, chunks) ∧
      recovered.nextOffset = .ofNat 1 :=
  @sample_behind sampleDigests

end ChunkLogWriter

end Scripture
