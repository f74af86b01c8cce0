import Scripture.Machine
import Scripture.Driver.State
import Scripture.Ingress.Budget

set_option autoImplicit false

/- One raw-lines connection. Its task reads lines, submits them and answers in order; it stops at
every await, and between two of its steps bytes arrive, receipts resolve, the idle timer runs out
and other connections use the budgets. -/
namespace Scripture

open ByteFormat

/-- A validated configuration. -/
structure RawLinesConfig where
  maxLineBytes : Nat
  maxPendingRecords : Nat
  maxPendingBytes : Nat
  idleFlush : Option Duration
  attributes : AttributeMap
  linePositive : 1 ≤ maxLineBytes
  recordsPositive : 1 ≤ maxPendingRecords
  lineFits : maxLineBytes ≤ maxPendingBytes
  addressable : maxPendingBytes ≤ Usize.max

namespace RawLines

def newline : UInt8 := 0x0a
def carriageReturn : UInt8 := 0x0d

/-- How the client's side of the stream ends. -/
inductive InputEnd where
  | eof
  | failed (error : String)
  deriving DecidableEq

/-- What a poll of `read_capped_line` comes to, with the bytes it leaves unread. -/
inductive LineRead where
  | line (payload unread : Bytes)
  | closed
  | invalid (message : String) (unread : Bytes)
  | failed (error : String)
  | waiting (line : Bytes)
  deriving DecidableEq

def lineTooLong : String := "line exceeds configured byte limit"

def dropReturn (line : Bytes) : Bytes :=
  if line.getLast? = some carriageReturn then line.dropLast else line

/-- A poll of `read_capped_line` that has this part of a line and finds these bytes. -/
def readCappedLine (maxLineBytes : Nat) (ended : Option InputEnd) : Bytes → Bytes → LineRead
  | line, [] =>
      match ended with
      | none => .waiting line
      | some .eof => if line.isEmpty then .closed else .invalid lineTooLong []
      | some (.failed error) => .failed error
  | line, byte :: unread =>
      if byte = newline then .line (dropReturn line) unread
      else if line.length = maxLineBytes then .invalid lineTooLong unread
      else readCappedLine maxLineBytes ended (line ++ [byte]) unread

/-- "BATCH ". -/
def batchWord : Bytes := [0x42, 0x41, 0x54, 0x43, 0x48, 0x20]

def isAsciiDigit (byte : UInt8) : Bool := 0x30 ≤ byte && byte ≤ 0x39

/-- `str::parse` to a `usize`, of digits. -/
def parseUsize (digits : Bytes) : Option Nat :=
  let value := digits.foldl (fun value digit => value * 10 + (digit.toNat - 0x30)) 0
  if value ≤ Usize.max then some value else none

def parseBatchHeader (payload : Bytes) : Option Nat :=
  if (fromUtf8 payload).isNone || payload.take batchWord.length ≠ batchWord then none
  else
    let rest := payload.drop batchWord.length
    if rest.isEmpty || rest.any (fun byte => !isAsciiDigit byte) then none else parseUsize rest

/-- `Vec::with_capacity` panics when the elements of 24 bytes pass `isize::MAX`. -/
def overCapacity (count : Nat) : Bool := 2 ^ 63 - 1 < 24 * count

/-- An admitted submission whose receipt has not been answered. -/
structure Pending where
  ticket : Nat
  payloadBytes : Nat
  recordCount : Nat
  budgetReserved : Bool
  deriving DecidableEq

/-- A line written to the client. -/
inductive Reply where
  | ok (firstOffset nextOffset : RecordOffset)
  | err (reason : String)
  deriving DecidableEq

/-- What follows a flush of the sink. -/
inductive AfterFlush where
  | finish
  | drain (reason : Option String)
  | loop
  | head
  deriving DecidableEq

/-- What follows an `OK`. -/
inductive AfterOk where
  | loop
  | head
  | drain (reason : Option String)
  deriving DecidableEq

/-- Where the task stands. A line that was read in the select is `raced`: work was pending. -/
inductive Phase where
  | loop
  | reading (line : Bytes)
  | selecting (line : Bytes)
  | batch (raced : Bool) (left : Nat) (lines : List Bytes) (line : Bytes)
  | reservingAssignment (raced : Bool) (payloads : List Bytes) (stage : ReserveStage)
  | reservingNode (raced : Bool) (payloads : List Bytes) (stage : ReserveStage)
  | submitting (raced : Bool) (payloadBytes recordCount : Nat) (budgetReserved : Bool)
  | flushing (next : AfterFlush)
  | head
  | draining (reason : Option String)
  | awaiting (entry : Pending) (reason : Option String)
  | acknowledging (receipt : Receipt) (next : AfterOk)
  | failing (reason : String) (next : Option String)
  | done (result : Except String Unit)
  | panicked

/-- The task's state and what it sees of its surroundings. `stream` is all that has arrived,
`submissions` all that was given to the sink. -/
structure Connection where
  stream : Bytes
  arrived : Bytes
  ended : Option InputEnd
  elapsed : Bool
  receipts : Nat → Option (Except String Receipt)
  budgets : Option IngressBudgets
  nodeOthers : Holding
  assignmentOthers : Holding
  producerId : ProducerId
  sequence : UInt64
  exhausted : Bool
  pending : List Pending
  pendingBytes : Nat
  phase : Phase
  submissions : List Submission
  admitted : Nat
  output : List Reply

/-- A budget, one of two. -/
inductive Pool where
  | node
  | assignment
  deriving DecidableEq

inductive Event where
  | arrive (bytes : Bytes)
  | finish (ending : InputEnd)
  | resolve (ticket : Nat) (outcome : Except String Receipt)
  | elapse
  | reserveElsewhere (pool : Pool) (amount : Holding)
  | releaseElsewhere (pool : Pool) (amount : Holding)
  | submitted (reply : Except String Unit)
  | flushed (reply : Except String Unit)
  | wrote (reply : Except String Unit)
  | poll (spurious : Bool)

def Event.isPoll : Event → Bool
  | .poll _ => true
  | _ => false

def payloadSize (payloads : List Bytes) : Nat := (payloads.map List.length).sum

namespace Connection

variable (config : RawLinesConfig)

@[simp] def release (connection : Connection) (reserved : Bool) (records bytes : Nat) :
    Connection :=
  { connection with
    budgets :=
      if reserved then connection.budgets.map fun budgets => budgets.releasePending records bytes
      else connection.budgets }

def underCap (connection : Connection) : Bool :=
  connection.pending.length < config.maxPendingRecords &&
    connection.pendingBytes ≤ config.maxPendingBytes - config.maxLineBytes &&
    connection.budgets.all fun budgets => budgets.canAdmit 1 config.maxLineBytes

/-- A failed admission. In the select the pending receipts are awaited first. -/
def refuse (connection : Connection) (raced : Bool) (reason : String) : Connection :=
  { connection with phase := if raced then .draining (some reason) else .failing reason none }

/-- The submission of `admit_records` is built, its sequence taken and the sink called. -/
def submit (connection : Connection) (raced : Bool) (payloads : List Bytes) (reserved : Bool) :
    Connection :=
  let submission : Submission := {
    producerId := connection.producerId
    producerEpoch := 0
    sequence := connection.sequence
    records := payloads.map fun payload => ⟨config.attributes, payload⟩ }
  let last := connection.sequence.toNat + 1 = 2 ^ 64
  { connection with
    sequence := if last then connection.sequence else connection.sequence + 1
    exhausted := last || connection.exhausted
    submissions := connection.submissions ++ [submission]
    phase := .submitting raced (payloadSize payloads) payloads.length reserved }

def admitRecords (connection : Connection) (raced : Bool) (payloads : List Bytes) : Connection :=
  if connection.exhausted then connection.refuse raced "producer sequence space exhausted"
  else if payloads.isEmpty then connection.refuse raced "submission carries no records"
  else if connection.budgets.isSome then
    { connection with phase := .reservingAssignment raced payloads .loadRecords }
  else connection.submit config raced payloads false

def admitPayload (connection : Connection) (raced : Bool) (firstLine : Bytes) : Connection :=
  match parseBatchHeader firstLine with
  | none => connection.admitRecords config raced [firstLine]
  | some 0 => connection.refuse raced "BATCH count must be >= 1"
  | some (left + 1) =>
      if overCapacity (left + 1) then { connection with phase := .panicked }
      else { connection with phase := .batch raced left [] [] }

/-- The read of the loop. In the select a pending read gives way to the timer, and its part of a
line is dropped with it. -/
def readNext (connection : Connection) (raced : Bool) (line : Bytes) : Connection :=
  match readCappedLine config.maxLineBytes connection.ended line connection.arrived with
  | .line payload unread =>
      { connection with arrived := unread }.admitPayload config raced payload
  | .closed => { connection with phase := .flushing (if raced then .drain none else .finish) }
  | .invalid message unread =>
      { connection with
        arrived := unread
        phase := if raced then .flushing (.drain (some message)) else .failing message none }
  | .failed error => { connection with phase := .done (.error error) }
  | .waiting line =>
      { connection with
        arrived := []
        phase :=
          if ¬ raced then .reading line
          else if connection.elapsed then .flushing .loop
          else .selecting line }

/-- The reads of a batch. -/
def readBatch (connection : Connection) (raced : Bool) (left : Nat) (lines : List Bytes)
    (line : Bytes) : Connection :=
  match readCappedLine config.maxLineBytes connection.ended line connection.arrived with
  | .line payload unread =>
      match left with
      | 0 => { connection with arrived := unread }.admitRecords config raced (lines ++ [payload])
      | left + 1 =>
          { connection with
            arrived := unread
            phase := .batch raced left (lines ++ [payload]) [] }
  | .closed => connection.refuse raced "BATCH truncated: connection closed before all records"
  | .invalid message unread => { connection with arrived := unread }.refuse raced message
  | .failed error => connection.refuse raced error
  | .waiting line =>
      { connection with
        arrived := []
        phase := .batch raced left lines line }

/-- The head of the queue leaves it with its receipt. -/
def settle (connection : Connection) (head : Pending) (rest : List Pending)
    (outcome : Except String Receipt) (next : AfterOk) : Connection :=
  let popped := { connection with
    pending := rest
    pendingBytes := connection.pendingBytes - head.payloadBytes }
  { popped.release head.budgetReserved head.recordCount head.payloadBytes with
    phase :=
      match outcome with
      | .ok receipt => .acknowledging receipt next
      | .error reason => .failing reason none }

def reserveAssignment (connection : Connection) (budgets : IngressBudgets) (raced : Bool)
    (payloads : List Bytes) (stage : ReserveStage) (spurious : Bool) : Connection :=
  let (assignment, next) := budgets.assignment.tryReservePending payloads.length
    (payloadSize payloads) spurious stage
  let held := { connection with budgets := some { budgets with assignment := assignment } }
  match next with
  | .stage stage => { held with phase := .reservingAssignment raced payloads stage }
  | .returned true => { held with phase := .reservingNode raced payloads .loadRecords }
  | .returned false => held.refuse raced "node/assignment pending budget exhausted"

/-- A refusal of the node gives back what the assignment granted. -/
def reserveNode (connection : Connection) (budgets : IngressBudgets) (raced : Bool)
    (payloads : List Bytes) (stage : ReserveStage) (spurious : Bool) : Connection :=
  let (node, next) := budgets.node.tryReservePending payloads.length (payloadSize payloads) spurious
    stage
  let held := { connection with budgets := some { budgets with node := node } }
  match next with
  | .stage stage => { held with phase := .reservingNode raced payloads stage }
  | .returned true => held.submit config raced payloads true
  | .returned false =>
      let assignment := budgets.assignment.releasePending payloads.length (payloadSize payloads)
      { connection with budgets := some ⟨node, assignment⟩ }.refuse raced
        "node/assignment pending budget exhausted"

/-- The top of the loop. The select starts a new timer. -/
def enterLoop (connection : Connection) : Connection :=
  if connection.pending.isEmpty then { connection with phase := .reading [] }
  else if connection.underCap config && !connection.exhausted then
    { connection with
      elapsed := false
      phase := .selecting [] }
  else { connection with phase := .flushing .head }

/-- The select polls the head's receipt first, then the read. -/
def select (connection : Connection) (line : Bytes) : Connection :=
  match connection.pending with
  | [] => connection
  | head :: rest =>
      match connection.receipts head.ticket with
      | some outcome => connection.settle head rest outcome .loop
      | none => connection.readNext config true line

def awaitHead (connection : Connection) : Connection :=
  match connection.pending with
  | [] => connection
  | head :: rest =>
      match connection.receipts head.ticket with
      | some outcome => connection.settle head rest outcome .head
      | none => connection

def drainNext (connection : Connection) (reason : Option String) : Connection :=
  match connection.pending with
  | [] =>
      match reason with
      | none => { connection with phase := .done (.ok ()) }
      | some reason => { connection with phase := .failing reason none }
  | entry :: rest =>
      let popped := { connection with
        pending := rest
        pendingBytes := connection.pendingBytes - entry.payloadBytes }
      { popped.release entry.budgetReserved entry.recordCount entry.payloadBytes with
        phase := .awaiting entry reason }

/-- When the awaited receipt is an error, `drain_all` writes it and returns as if all went well. -/
def awaitDrained (connection : Connection) (entry : Pending) (reason : Option String) :
    Connection :=
  match connection.receipts entry.ticket with
  | none => connection
  | some (.ok receipt) => { connection with phase := .acknowledging receipt (.drain reason) }
  | some (.error failure) => { connection with phase := .failing failure reason }

/-- The task runs to its next await. -/
def poll (connection : Connection) (spurious : Bool) : Connection :=
  match connection.phase, connection.budgets with
  | .loop, _ => connection.enterLoop config
  | .reading line, _ => connection.readNext config false line
  | .selecting line, _ => connection.select config line
  | .batch raced left lines line, _ => connection.readBatch config raced left lines line
  | .reservingAssignment raced payloads stage, some budgets =>
      connection.reserveAssignment budgets raced payloads stage spurious
  | .reservingNode raced payloads stage, some budgets =>
      connection.reserveNode config budgets raced payloads stage spurious
  | .head, _ => connection.awaitHead
  | .draining reason, _ => connection.drainNext reason
  | .awaiting entry reason, _ => connection.awaitDrained entry reason
  | _, _ => connection

/-- The sink's answer to a submission. -/
def onSubmitted (connection : Connection) (raced : Bool) (payloadBytes recordCount : Nat)
    (reserved : Bool) : Except String Unit → Connection
  | .ok () =>
      { connection with
        pending := connection.pending ++
          [⟨connection.admitted, payloadBytes, recordCount, reserved⟩]
        pendingBytes := Usize.saturatingAdd connection.pendingBytes payloadBytes
        admitted := connection.admitted + 1
        phase := .loop }
  | .error reason => (connection.release reserved recordCount payloadBytes).refuse raced reason

def onFlushed (connection : Connection) (next : AfterFlush) : Except String Unit → Connection
  | .error reason => { connection with phase := .failing reason none }
  | .ok () =>
      { connection with
        phase :=
          match next with
          | .finish => .done (.ok ())
          | .drain reason => .draining reason
          | .loop => .loop
          | .head => .head }

def onAcknowledged (connection : Connection) (receipt : Receipt) (next : AfterOk) :
    Except String Unit → Connection
  | .error reason => { connection with phase := .done (.error reason) }
  | .ok () =>
      { connection with
        output := connection.output ++ [.ok receipt.firstOffset receipt.nextOffset]
        phase :=
          match next with
          | .loop => .loop
          | .drain reason => .draining reason
          | .head =>
              if connection.exhausted && connection.pending.isEmpty then
                .failing "producer sequence space exhausted" none
              else .loop }

def onFailed (connection : Connection) (reason : String) (next : Option String) :
    Except String Unit → Connection
  | .error failure => { connection with phase := .done (.error failure) }
  | .ok () =>
      { connection with
        output := connection.output ++ [.err reason]
        phase :=
          match next with
          | none => .done (.ok ())
          | some next => .failing next none }

def adjust (pool : Pool) (change : PendingBudget → PendingBudget) (budgets : IngressBudgets) :
    IngressBudgets :=
  match pool with
  | .node => { budgets with node := change budgets.node }
  | .assignment => { budgets with assignment := change budgets.assignment }

def others (connection : Connection) : Pool → Holding
  | .node => connection.nodeOthers
  | .assignment => connection.assignmentOthers

def withOthers (connection : Connection) (pool : Pool) (holding : Holding) : Connection :=
  match pool with
  | .node => { connection with nodeOthers := holding }
  | .assignment => { connection with assignmentOthers := holding }

/-- Another connection adds to the counters. -/
def reserveElsewhere (connection : Connection) (pool : Pool) (amount : Holding) : Connection :=
  { connection.withOthers pool ((connection.others pool).add amount) with
    budgets := connection.budgets.map <| adjust pool fun budget =>
      { budget with
        pendingRecords := budget.pendingRecords + amount.records
        pendingBytes := budget.pendingBytes + amount.bytes } }

/-- Another connection gives back what it holds, or part of it. -/
def releaseElsewhere (connection : Connection) (pool : Pool) (amount : Holding) : Connection :=
  let held := connection.others pool
  if amount.records ≤ held.records ∧ amount.bytes ≤ held.bytes then
    { connection.withOthers pool ⟨held.records - amount.records, held.bytes - amount.bytes⟩ with
      budgets := connection.budgets.map <| adjust pool fun budget =>
        budget.releasePending amount.records amount.bytes }
  else connection

def step (connection : Connection) : Event → Connection
  | .arrive bytes =>
      if connection.ended.isSome then connection
      else
        { connection with
          stream := connection.stream ++ bytes
          arrived := connection.arrived ++ bytes }
  | .finish ending =>
      if connection.ended.isSome then connection else { connection with ended := some ending }
  | .resolve ticket outcome =>
      if (connection.receipts ticket).isSome then connection
      else
        { connection with
          receipts := fun index =>
            if index = ticket then some outcome else connection.receipts index }
  | .elapse =>
      match connection.phase with
      | .selecting _ => { connection with elapsed := config.idleFlush.isSome }
      | _ => connection
  | .reserveElsewhere pool amount => connection.reserveElsewhere pool amount
  | .releaseElsewhere pool amount => connection.releaseElsewhere pool amount
  | .submitted reply =>
      match connection.phase with
      | .submitting raced payloadBytes recordCount reserved =>
          connection.onSubmitted raced payloadBytes recordCount reserved reply
      | _ => connection
  | .flushed reply =>
      match connection.phase with
      | .flushing next => connection.onFlushed next reply
      | _ => connection
  | .wrote reply =>
      match connection.phase with
      | .acknowledging receipt next => connection.onAcknowledged receipt next reply
      | .failing reason next => connection.onFailed reason next reply
      | _ => connection
  | .poll spurious => connection.poll config spurious

def run (connection : Connection) (events : List Event) : Connection :=
  Machine.run (step config) connection events

/-- A connection that was just accepted. The counters stand as the others left them. -/
def accepted (producerId : ProducerId) (sequence : UInt64) (budgets : Option IngressBudgets) :
    Connection where
  stream := []
  arrived := []
  ended := none
  elapsed := false
  receipts := fun _ => none
  budgets := budgets
  nodeOthers := (budgets.map fun found =>
    ⟨found.node.pendingRecords, found.node.pendingBytes⟩).getD .none
  assignmentOthers := (budgets.map fun found =>
    ⟨found.assignment.pendingRecords, found.assignment.pendingBytes⟩).getD .none
  producerId := producerId
  sequence := sequence
  exhausted := false
  pending := []
  pendingBytes := 0
  phase := .loop
  submissions := []
  admitted := 0
  output := []

end Connection

end RawLines

end Scripture
