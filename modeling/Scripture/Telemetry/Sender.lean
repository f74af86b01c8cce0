import Scripture.Machine
import Scripture.Model

set_option autoImplicit false

/- The buffer of one Verse's telemetry lines and the loop that sends them. The loop reads the head
of the buffer, waits for the answer without the buffer's lock, and then takes whatever is the
head. -/
namespace Scripture.Telemetry

structure BufferedLine where
  verse : String
  incarnation : String
  seq : UInt64
  line : String
  payloadDigest : String
  deriving DecidableEq

def BufferedLine.size (line : BufferedLine) : Nat := (utf8 line.line).length

/-- A prepared record as `enqueue` reads it: the incarnation of its envelope and its line. -/
structure PreparedRecord where
  incarnation : String
  buffered : BufferedLine
  deriving DecidableEq

structure DropOldestBuffer where
  verse : String
  maxRecords : Nat
  maxBytes : Nat
  records : List BufferedLine
  bytes : Nat
  droppedRecords : Nat
  deriving DecidableEq

namespace DropOldestBuffer

def new (verse : String) (maxRecords maxBytes : Nat) : DropOldestBuffer :=
  ⟨verse, maxRecords, maxBytes, [], 0, 0⟩

def wouldExceed (buffer : DropOldestBuffer) (incoming : BufferedLine) : Prop :=
  buffer.maxRecords < buffer.records.length + 1 ∨ buffer.maxBytes < buffer.bytes + incoming.size

instance (buffer : DropOldestBuffer) (incoming : BufferedLine) :
    Decidable (buffer.wouldExceed incoming) :=
  inferInstanceAs (Decidable (_ ∨ _))

/-- Takes lines from the front until the incoming one fits or none is left. -/
def evict (incoming : BufferedLine) :
    List BufferedLine → DropOldestBuffer → DropOldestBuffer × List BufferedLine
  | [], buffer => (buffer, [])
  | old :: rest, buffer =>
      if buffer.wouldExceed incoming then
        let (later, dropped) := evict incoming rest
          { buffer with
            records := rest
            bytes := buffer.bytes - old.size
            droppedRecords := buffer.droppedRecords + 1 }
        (later, old :: dropped)
      else (buffer, [])

/-- The line that the buffer makes of a record. -/
def incoming (buffer : DropOldestBuffer) (record : PreparedRecord) : BufferedLine :=
  { record.buffered with verse := buffer.verse, incarnation := record.incarnation }

/-- The buffer after a push, and the lines that were dropped for it. -/
def push (buffer : DropOldestBuffer) (record : PreparedRecord) :
    DropOldestBuffer × List BufferedLine :=
  let incoming := buffer.incoming record
  -- a line over the limit by itself is dropped without evicting another
  if buffer.maxBytes < incoming.size then
    ({ buffer with droppedRecords := buffer.droppedRecords + 1 }, [incoming])
  else
    let (buffer, dropped) := evict incoming buffer.records buffer
    ({ buffer with
        bytes := buffer.bytes + incoming.size
        records := buffer.records ++ [incoming] }, dropped)

def popFront (buffer : DropOldestBuffer) : DropOldestBuffer :=
  match buffer.records with
  | [] => buffer
  | line :: rest => { buffer with records := rest, bytes := buffer.bytes - line.size }

def front (buffer : DropOldestBuffer) : Option BufferedLine := buffer.records.head?

def enqueue (buffer : DropOldestBuffer) :
    List PreparedRecord → DropOldestBuffer × List BufferedLine
  | [] => (buffer, [])
  | record :: rest =>
      let (buffer, dropped) := buffer.push record
      let (buffer, later) := buffer.enqueue rest
      (buffer, dropped ++ later)

/-- Each record of the list is taken without evicting a line: it is over the limit by itself, or
there is room for it. -/
def Takes (buffer : DropOldestBuffer) : List PreparedRecord → Prop
  | [] => True
  | record :: rest =>
      (buffer.maxBytes < (buffer.incoming record).size ∨
        ¬ buffer.wouldExceed (buffer.incoming record)) ∧ (buffer.push record).1.Takes rest

instance decidableTakes (buffer : DropOldestBuffer) :
    (records : List PreparedRecord) → Decidable (buffer.Takes records)
  | [] => inferInstanceAs (Decidable True)
  | record :: rest =>
      have := decidableTakes (buffer.push record).1 rest
      inferInstanceAs (Decidable ((_ ∨ _) ∧ (buffer.push record).1.Takes rest))

theorem evict_kept (incoming : BufferedLine) (records : List BufferedLine)
    (buffer : DropOldestBuffer) (held : buffer.records = records) :
    (evict incoming records buffer).2 ++ (evict incoming records buffer).1.records = records ∧
      (evict incoming records buffer).1.droppedRecords =
        buffer.droppedRecords + (evict incoming records buffer).2.length ∧
      (evict incoming records buffer).1.verse = buffer.verse := by
  induction records generalizing buffer with
  | nil => simp [evict, held]
  | cons old rest ih =>
      by_cases exceeds : buffer.wouldExceed incoming
      · have later := ih
          { buffer with
            records := rest
            bytes := buffer.bytes - old.size
            droppedRecords := buffer.droppedRecords + 1 } rfl
        simp only [evict, exceeds, if_true, List.cons_append, later.1, later.2.1, later.2.2,
          true_and, and_true, List.length_cons]
        omega
      · simp [evict, exceeds, held]

variable {buffer : DropOldestBuffer}

theorem evict_of_room {incoming : BufferedLine} (room : ¬ buffer.wouldExceed incoming) :
    evict incoming buffer.records buffer = (buffer, []) := by
  cases buffer.records with
  | nil => rfl
  | cons old rest => simp [evict, room]

@[simp] theorem push_verse (buffer : DropOldestBuffer) (record : PreparedRecord) :
    (buffer.push record).1.verse = buffer.verse := by
  simp only [push]
  split
  · rfl
  · exact (evict_kept _ _ _ rfl).2.2

theorem push_droppedRecords (buffer : DropOldestBuffer) (record : PreparedRecord) :
    (buffer.push record).1.droppedRecords =
      buffer.droppedRecords + (buffer.push record).2.length := by
  simp only [push]
  split
  · rfl
  · exact (evict_kept _ _ _ rfl).2.1

/-- A push keeps every line: what it does not keep it drops. -/
theorem push_count (buffer : DropOldestBuffer) (record : PreparedRecord) (line : BufferedLine) :
    (buffer.push record).1.records.count line + (buffer.push record).2.count line =
      buffer.records.count line + [buffer.incoming record].count line := by
  simp only [push]
  split
  · rfl
  · have kept := (evict_kept (buffer.incoming record) buffer.records buffer rfl).1
    have counted := congrArg (List.count line) kept
    simp only [List.count_append] at counted ⊢
    omega

theorem push_front {record : PreparedRecord} {line : BufferedLine}
    (room : buffer.maxBytes < (buffer.incoming record).size ∨
      ¬ buffer.wouldExceed (buffer.incoming record)) (head : buffer.front = some line) :
    (buffer.push record).1.front = some line := by
  simp only [push]
  split
  · exact head
  · rename_i fits
    have room := room.resolve_left fits
    simp only [front] at head
    simp [evict_of_room room, front, head]

theorem enqueue_droppedRecords (buffer : DropOldestBuffer) (records : List PreparedRecord) :
    (buffer.enqueue records).1.droppedRecords =
      buffer.droppedRecords + (buffer.enqueue records).2.length := by
  induction records generalizing buffer with
  | nil => rfl
  | cons record rest ih =>
      simp only [enqueue, List.length_append]
      rw [ih, push_droppedRecords]
      omega

theorem enqueue_count (buffer : DropOldestBuffer) (records : List PreparedRecord)
    (line : BufferedLine) :
    (buffer.enqueue records).1.records.count line + (buffer.enqueue records).2.count line =
      buffer.records.count line + (records.map buffer.incoming).count line := by
  induction records generalizing buffer with
  | nil => rfl
  | cons record rest ih =>
      have same : (buffer.push record).1.incoming = buffer.incoming := by
        funext later
        simp [incoming]
      have first := push_count buffer record line
      have later := ih (buffer.push record).1
      rw [same] at later
      simp only [enqueue, List.count_append, List.map_cons]
      rw [List.count_cons]
      rw [List.count_cons, List.count_nil] at first
      omega

theorem enqueue_front {records : List PreparedRecord} {line : BufferedLine}
    (takes : buffer.Takes records) (head : buffer.front = some line) :
    (buffer.enqueue records).1.front = some line := by
  induction records generalizing buffer with
  | nil => exact head
  | cons record rest ih => exact ih takes.2 (push_front takes.1 head)

theorem popFront_of_front {line : BufferedLine} (head : buffer.front = some line) :
    buffer.records = line :: buffer.popFront.records := by
  unfold front at head
  unfold popFront
  cases held : buffer.records with
  | nil => simp [held] at head
  | cons old rest =>
      rw [held] at head
      simpa using head

@[simp] theorem popFront_droppedRecords (buffer : DropOldestBuffer) :
    buffer.popFront.droppedRecords = buffer.droppedRecords := by
  unfold popFront
  split <;> rfl

end DropOldestBuffer

inductive AckStatus where
  | committed (firstOffset nextOffset : UInt64)
  | denied
  | unacked
  deriving DecidableEq

/-- At the head of the loop, waiting for the answer to a line, ended, or ended by the deadline of
the drain. -/
inductive SenderPhase where
  | looping
  | sending (line : BufferedLine)
  | ended
  | abandoned
  deriving DecidableEq

/-- One Verse: its buffer, the state of its send loop and its counters. The lists are not in the
program: they say which lines were enqueued, and what became of each. -/
structure Lane where
  buffer : DropOldestBuffer
  phase : SenderPhase
  shutdown : Bool
  resendUnacked : Bool
  chainLength : Nat
  endpointIndex : Nat
  consecutiveUnacked : Nat
  committed : Nat
  unackedAttempts : Nat
  skippedIllegalPayload : Nat
  failovers : Nat
  abandonedOnDrainDeadline : Nat
  enqueued : List BufferedLine
  acknowledged : List BufferedLine
  dropped : List BufferedLine
  skipped : List BufferedLine
  deserted : List BufferedLine
  deriving DecidableEq

/-- A scrape enqueues its records, the scraper stops, the loop comes round, or an answer arrives and
the ledger takes its rows or fails to. -/
inductive LaneEvent where
  | enqueue (records : List PreparedRecord)
  | shutdown
  | wake (expired : Bool)
  | answer (status : AckStatus) (ledgered failoverLedgered : Bool)
  deriving DecidableEq

namespace Lane

def start (buffer : DropOldestBuffer) (resendUnacked : Bool) (chainLength : Nat) : Lane :=
  ⟨buffer, .looping, false, resendUnacked, chainLength, 0, 0, 0, 0, 0, 0, 0, [], [], [], [], []⟩

/-- The head of the loop. -/
def wake (lane : Lane) (expired : Bool) : Lane :=
  if lane.shutdown ∧ expired then
    { lane with
      phase := .abandoned
      abandonedOnDrainDeadline := lane.abandonedOnDrainDeadline + lane.buffer.records.length
      deserted := lane.buffer.records }
  else match lane.buffer.front with
    | none => if lane.shutdown then { lane with phase := .ended } else lane
    | some line => { lane with phase := .sending line }

/-- The missing answers in a row, after this one. -/
def unackedAfter (lane : Lane) (status : AckStatus) : Nat :=
  if status = .unacked then lane.consecutiveUnacked + 1 else lane.consecutiveUnacked

/-- After an attempt that was denied or not answered the line stays; a denial, or the third missing
answer, moves on to the next endpoint. -/
def retry (lane : Lane) (status : AckStatus) (failoverLedgered : Bool) : Lane :=
  let unacked := lane.unackedAfter status
  let advance := status = .denied ∨ status = .unacked ∧ 3 ≤ unacked
  if advance ∧ lane.endpointIndex + 1 < lane.chainLength then
    let lane := { lane with endpointIndex := lane.endpointIndex + 1 }
    if failoverLedgered then
      { lane with
        phase := .looping
        failovers := lane.failovers + 1
        consecutiveUnacked := 0 }
    else { lane with phase := .ended, consecutiveUnacked := unacked }
  else { lane with phase := .looping, consecutiveUnacked := unacked }

def answer (lane : Lane) (line : BufferedLine) (status : AckStatus)
    (ledgered failoverLedgered : Bool) : Lane :=
  if '\n' ∈ line.line.toList then
    { lane with
      buffer := lane.buffer.popFront
      phase := .looping
      skippedIllegalPayload := lane.skippedIllegalPayload + 1
      skipped := lane.skipped ++ [line] }
  else match status with
    | .committed _ _ =>
        let lane := { lane with acknowledged := lane.acknowledged ++ [line] }
        if ledgered then
          { lane with
            buffer := lane.buffer.popFront
            phase := .looping
            committed := lane.committed + 1
            consecutiveUnacked := 0 }
        else { lane with phase := .ended }
    | status =>
        if ledgered then
          let lane := { lane with unackedAttempts := lane.unackedAttempts + 1 }
          if lane.resendUnacked then lane.retry status failoverLedgered
          else
            { lane with
              buffer := lane.buffer.popFront
              phase := .looping
              consecutiveUnacked := 0 }
        else { lane with phase := .ended }

def step (lane : Lane) (event : LaneEvent) : Lane :=
  match event, lane.phase with
  | .enqueue records, _ =>
      -- the scraper has made its last scrape when it signals the shutdown
      if lane.shutdown then lane
      else
        { lane with
          buffer := (lane.buffer.enqueue records).1
          enqueued := lane.enqueued ++ records.map lane.buffer.incoming
          dropped := lane.dropped ++ (lane.buffer.enqueue records).2 }
  | .shutdown, _ => { lane with shutdown := true }
  | .wake expired, .looping => lane.wake expired
  | .answer status ledgered failoverLedgered, .sending line =>
      lane.answer line status ledgered failoverLedgered
  | _, _ => lane

/-- The lines that are still to be sent. -/
def waiting (lane : Lane) : List BufferedLine :=
  if lane.phase = .abandoned then [] else lane.buffer.records

/-- While a line is being sent no push evicts, and the ledger takes the row of an `OK`. -/
def Undisturbed (lane : Lane) (event : LaneEvent) : Prop :=
  match event, lane.phase with
  | .enqueue records, .sending _ => lane.buffer.Takes records
  | .answer (.committed _ _) ledgered _, .sending _ => ledgered = true
  | _, _ => True

instance (lane : Lane) (event : LaneEvent) : Decidable (lane.Undisturbed event) := by
  unfold Undisturbed
  split <;> infer_instance

/-- Every enqueued line is in one class, the counters count the classes, and the line that is being
sent is the head of the buffer. -/
structure Accounted (lane : Lane) : Prop where
  conserved : ∀ line, lane.enqueued.count line =
    lane.waiting.count line + lane.acknowledged.count line + lane.dropped.count line +
      lane.skipped.count line + lane.deserted.count line
  droppedCount : lane.buffer.droppedRecords = lane.dropped.length
  skippedCount : lane.skippedIllegalPayload = lane.skipped.length
  desertedCount : lane.abandonedOnDrainDeadline = lane.deserted.length
  committedCount : lane.committed = lane.acknowledged.length
  head : ∀ line, lane.phase = .sending line → lane.buffer.front = some line
  stopped : lane.phase = .abandoned → lane.shutdown = true
  resends : lane.resendUnacked = true
  deserted : lane.phase ≠ .abandoned → lane.deserted = []

namespace Accounted

variable {lane : Lane}

theorem start (verse : String) (maxRecords maxBytes chainLength : Nat) :
    (Lane.start (.new verse maxRecords maxBytes) true chainLength).Accounted := by
  constructor <;> simp [Lane.start, DropOldestBuffer.new, waiting]

theorem enqueue (accounted : lane.Accounted) {records : List PreparedRecord}
    (undisturbed : lane.Undisturbed (.enqueue records)) :
    (lane.step (.enqueue records)).Accounted := by
  by_cases shut : lane.shutdown = true
  · simpa only [step, shut, if_true] using accounted
  · have serving : lane.phase ≠ .abandoned := fun gone => shut (accounted.stopped gone)
    simp only [step]
    rw [if_neg shut]
    refine { accounted with conserved := ?_, droppedCount := ?_, head := ?_ }
    · intro line
      have before := accounted.conserved line
      have taken := lane.buffer.enqueue_count records line
      simp only [waiting, serving, if_false, List.count_append] at before ⊢
      omega
    · have before := accounted.droppedCount
      have taken := lane.buffer.enqueue_droppedRecords records
      simp only [List.length_append]
      omega
    · intro line sending
      have sending : lane.phase = .sending line := sending
      simp only [Undisturbed, sending] at undisturbed
      exact DropOldestBuffer.enqueue_front undisturbed (accounted.head line sending)

/-- The loop goes on, or ends, with the buffer and the classes as they are. -/
theorem leaves (accounted : lane.Accounted) (running : lane.phase ≠ .abandoned)
    {phase : SenderPhase} (out : phase = .looping ∨ phase = .ended)
    (endpointIndex consecutiveUnacked unackedAttempts failovers : Nat) :
    ({ lane with phase, endpointIndex, consecutiveUnacked, unackedAttempts, failovers } :
      Lane).Accounted := by
  have out : phase ≠ .abandoned ∧ ∀ line, phase ≠ .sending line := by
    rcases out with rfl | rfl <;> simp
  refine { accounted with conserved := ?_, head := ?_, stopped := ?_, deserted := ?_ }
  · intro line
    have before := accounted.conserved line
    simpa only [waiting, running, out.1, if_false] using before
  · intro line sending
    exact absurd sending (out.2 line)
  · intro gone
    exact absurd gone out.1
  · intro _
    exact accounted.deserted running

theorem wake (accounted : lane.Accounted) (looping : lane.phase = .looping) (expired : Bool) :
    (lane.wake expired).Accounted := by
  have running : lane.phase ≠ .abandoned := by simp [looping]
  have nothing : lane.deserted = [] := accounted.deserted running
  unfold Lane.wake
  split
  · rename_i late
    refine { accounted with conserved := ?_, desertedCount := ?_, head := ?_, stopped := ?_,
                            deserted := ?_ }
    · intro line
      have before := accounted.conserved line
      simp only [waiting, running, nothing, if_false, if_true, List.count_nil] at before ⊢
      omega
    · have before := accounted.desertedCount
      simp only [nothing] at before
      simp [before]
    · simp
    · intro _
      exact late.1
    · simp
  · split
    · split
      · exact accounted.leaves running (.inr rfl) _ _ _ _
      · exact accounted
    · rename_i line front
      refine { accounted with conserved := ?_, head := ?_, stopped := ?_, deserted := ?_ }
      · intro line
        have before := accounted.conserved line
        simpa [waiting, running] using before
      · intro sent sending
        simp only [SenderPhase.sending.injEq] at sending
        rw [← sending]
        exact front
      · simp
      · intro _
        exact nothing

theorem retry (accounted : lane.Accounted) (running : lane.phase ≠ .abandoned)
    (status : AckStatus) (failoverLedgered : Bool) :
    (lane.retry status failoverLedgered).Accounted := by
  simp only [Lane.retry]
  split
  · split
    · exact accounted.leaves running (.inl rfl) _ _ _ _
    · exact accounted.leaves running (.inr rfl) _ _ _ _
  · exact accounted.leaves running (.inl rfl) _ _ _ _

/-- The head leaves the buffer for the class the answer puts it in. -/
theorem pop (accounted : lane.Accounted) {line : BufferedLine}
    (sending : lane.phase = .sending line) (other : BufferedLine) :
    lane.enqueued.count other =
      lane.buffer.popFront.records.count other + [line].count other +
        lane.acknowledged.count other + lane.dropped.count other + lane.skipped.count other := by
  have running : lane.phase ≠ .abandoned := by simp [sending]
  have before := accounted.conserved other
  have held := DropOldestBuffer.popFront_of_front (accounted.head line sending)
  rw [accounted.deserted running] at before
  simp only [waiting, running, if_false, List.count_nil] at before
  rw [held, ← List.singleton_append, List.count_append] at before
  omega

theorem answer (accounted : lane.Accounted) {line : BufferedLine}
    (sending : lane.phase = .sending line) {status : AckStatus} {ledgered failoverLedgered : Bool}
    (undisturbed : lane.Undisturbed (.answer status ledgered failoverLedgered)) :
    (lane.answer line status ledgered failoverLedgered).Accounted := by
  have running : lane.phase ≠ .abandoned := by simp [sending]
  have nothing := accounted.deserted running
  unfold Lane.answer
  split
  · refine { accounted with conserved := ?_, droppedCount := ?_, skippedCount := ?_, head := ?_,
                            stopped := ?_, deserted := ?_ }
    · intro other
      have before := accounted.pop sending other
      simp only [waiting, nothing, List.count_append, List.count_nil]
      simp only [reduceCtorEq, if_false]
      omega
    · simpa using accounted.droppedCount
    · simp [accounted.skippedCount]
    · simp
    · simp
    · intro _
      exact nothing
  · split
    · simp only [Undisturbed, sending] at undisturbed
      simp only [undisturbed, if_true]
      refine { accounted with conserved := ?_, droppedCount := ?_, committedCount := ?_, head := ?_,
                              stopped := ?_, deserted := ?_ }
      · intro other
        have before := accounted.pop sending other
        simp only [waiting, nothing, List.count_append, List.count_nil]
        simp only [reduceCtorEq, if_false]
        omega
      · simpa using accounted.droppedCount
      · simp [accounted.committedCount]
      · simp
      · simp
      · intro _
        exact nothing
    · split
      · rw [if_pos accounted.resends]
        have attempted : ({ lane with unackedAttempts := lane.unackedAttempts + 1 } :
            Lane).Accounted := { accounted with }
        exact attempted.retry running _ _
      · exact accounted.leaves running (.inr rfl) _ _ _ _

theorem step (accounted : lane.Accounted) (event : LaneEvent)
    (undisturbed : lane.Undisturbed event) : (lane.step event).Accounted := by
  cases event with
  | enqueue records => exact accounted.enqueue undisturbed
  | shutdown => exact { accounted with stopped := fun _ => rfl }
  | wake expired =>
      cases phase : lane.phase with
      | looping => simpa only [Lane.step, phase] using accounted.wake phase expired
      | sending line => simpa only [Lane.step, phase] using accounted
      | ended => simpa only [Lane.step, phase] using accounted
      | abandoned => simpa only [Lane.step, phase] using accounted
  | answer status ledgered failoverLedgered =>
      cases phase : lane.phase with
      | sending line => simpa only [Lane.step, phase] using accounted.answer phase undisturbed
      | looping => simpa only [Lane.step, phase] using accounted
      | ended => simpa only [Lane.step, phase] using accounted
      | abandoned => simpa only [Lane.step, phase] using accounted

end Accounted

/-- In a run in which no push evicts while a line is being sent, and the ledger takes the row of
every `OK`, each enqueued line is in exactly one class and an `OK` removes the line it is for. -/
theorem no_silent_loss (verse : String) (maxRecords maxBytes chainLength : Nat)
    (events : List LaneEvent)
    (undisturbed : Machine.Along step Undisturbed
      (Lane.start (.new verse maxRecords maxBytes) true chainLength) events) :
    let lane := Machine.run step
      (Lane.start (.new verse maxRecords maxBytes) true chainLength) events
    (∀ line, lane.enqueued.count line =
        lane.waiting.count line + lane.acknowledged.count line + lane.dropped.count line +
          lane.skipped.count line + lane.deserted.count line) ∧
      lane.buffer.droppedRecords = lane.dropped.length ∧
      lane.skippedIllegalPayload = lane.skipped.length ∧
      lane.abandonedOnDrainDeadline = lane.deserted.length ∧
      lane.committed = lane.acknowledged.length ∧
      ∀ line, lane.phase = .sending line → '\n' ∉ line.line.toList →
        ∀ first next failoverLedgered,
          lane.buffer.records = line ::
            (lane.step (.answer (.committed first next) true failoverLedgered)).buffer.records := by
  intro lane
  have accounted : lane.Accounted :=
    undisturbed.invariant (fun lane event accounted => Accounted.step accounted event)
      (Accounted.start verse maxRecords maxBytes chainLength)
  refine ⟨accounted.conserved, accounted.droppedCount, accounted.skippedCount,
    accounted.desertedCount, accounted.committedCount, ?_⟩
  intro line sending legal first next failoverLedgered
  have popped := DropOldestBuffer.popFront_of_front (accounted.head line sending)
  simpa only [step, sending, answer, legal, if_false, if_true] using popped

end Lane

def sampleRecord (seq : UInt64) (line : String) : PreparedRecord :=
  ⟨"i", ⟨"v", "i", seq, line, "d"⟩⟩

/-- Two lines with room for both: the first is acknowledged, the second waits. -/
theorem Lane.no_silent_loss_two :
    let events : List LaneEvent :=
      [.enqueue [sampleRecord 0 "a"], .wake false, .enqueue [sampleRecord 1 "b"],
        .answer .unacked true true, .wake false, .answer (.committed 0 1) true true]
    let lane := Machine.run Lane.step (.start (.new "v" 2 10) true 1) events
    lane.enqueued.length = 2 ∧ lane.waiting.length = 1 ∧ lane.acknowledged.length = 1 ∧
      ∀ line, lane.enqueued.count line =
        lane.waiting.count line + lane.acknowledged.count line + lane.dropped.count line +
          lane.skipped.count line + lane.deserted.count line := by
  refine ⟨by decide +kernel, by decide +kernel, by decide +kernel, ?_⟩
  exact (Lane.no_silent_loss "v" 2 10 1
    [.enqueue [sampleRecord 0 "a"], .wake false, .enqueue [sampleRecord 1 "b"],
      .answer .unacked true true, .wake false, .answer (.committed 0 1) true true]
    (by decide +kernel)).1

/-- A buffer of one line: the second line evicts the first while it is being sent, and the `OK` for
the first removes the second, which is then in no class, while the first is both acknowledged and
dropped. -/
theorem Lane.acknowledged_and_dropped :
    let events : List LaneEvent :=
      [.enqueue [sampleRecord 0 "a"], .wake false, .enqueue [sampleRecord 1 "b"],
        .answer (.committed 0 1) true true]
    let lane := Machine.run Lane.step (.start (.new "v" 1 10) true 1) events
    let first := (sampleRecord 0 "a").buffered
    let second := (sampleRecord 1 "b").buffered
    first ∈ lane.acknowledged ∧ first ∈ lane.dropped ∧ second ∈ lane.enqueued ∧
      second ∉ lane.buffer.records ++ lane.acknowledged ++ lane.dropped ++ lane.skipped ++
        lane.deserted ∧
      lane.committed = 1 ∧ lane.buffer.droppedRecords = 1 ∧ lane.skippedIllegalPayload = 0 ∧
      lane.abandonedOnDrainDeadline = 0 := by
  decide +kernel

end Scripture.Telemetry
