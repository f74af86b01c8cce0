import Scripture.Machine
import Scripture.Spool.Recovery

set_option autoImplicit false

/- The spool cell: reserve, write and sync a submission, forward it, and report its progress. A call
of `submit_forwarded` and the completer of the cell take turns at the granularity of the locks they
hold; each submission is described by the course it has taken so far. -/
namespace Scripture.Spool

open ByteFormat AppendLog

/-- The texts of the errors that are passed on as messages. Nothing depends on which they are. -/
class ErrorTexts where
  driver : DriverError → String
  spool : SpoolError → String

inductive SpoolCellState where
  | serving
  | poisoned (cause : SpoolPoisonCause)
  | recoveryRequired (report : RecoveryReport)
  deriving DecidableEq

/-- A submission that passed the checks, with the lengths of its two frames. -/
structure Plan where
  submission : Submission
  frameBytes : Nat
  progressBytes : Nat
  deriving DecidableEq

def Plan.lifecycleBytes (plan : Plan) : Nat := plan.frameBytes + plan.progressBytes

/-- What the cell shares between its calls and its completer. `admission` says whether a call holds
the admission lock, `connected` whether the completer still takes work. -/
structure CellShared where
  journalId : JournalId
  config : SpoolConfig
  storage : FileSpoolStorage
  state : SpoolCellState
  known : Finset ProgressIdentity
  reservedBytes : Nat
  reservedFrames : Nat
  inflightCompletions : Nat
  admission : Bool
  connected : Bool
  deriving DecidableEq

namespace CellShared

variable [Digests]

def ensureServing (shared : CellShared) : Except SpoolError Unit :=
  match shared.state with
  | .serving => .ok ()
  | .recoveryRequired _ => .error .recoveryRequired
  | .poisoned cause => .error (.poisoned cause)

/-- The checks of an admission before anything is reserved. -/
def plan (shared : CellShared) (submission : Submission) : Except SpoolError Plan := do
  shared.ensureServing
  let identity := progressIdentity shared.journalId submission
  let encoded ← (encodeFrame (.submission shared.journalId submission)).mapError .frame
  let progressEncoded ← (encodeFrame (.progress identity)).mapError .frame
  if shared.config.maxFrameBytes < encoded.length ∨
      shared.config.maxFrameBytes < progressEncoded.length then throw .capacityExceeded
  if Usize.max < encoded.length + progressEncoded.length then throw .capacityExceeded
  if identity ∈ shared.known then throw .duplicateIdentity
  return ⟨submission, encoded.length, progressEncoded.length⟩

/-- Whether another lifecycle fits beside what is stored and reserved. -/
def fits (shared : CellShared) (bytes frames : Nat) : Bool :=
  Usize.saturatingAdd (Usize.saturatingAdd shared.storage.usedBytes shared.reservedBytes) bytes ≤
      shared.config.maxWalBytes ∧
    Usize.saturatingAdd (Usize.saturatingAdd shared.storage.frameCount shared.reservedFrames)
      frames ≤ shared.config.maxFrames

def reserved (shared : CellShared) (bytes frames : Nat) : CellShared :=
  { shared with
    reservedBytes := Usize.saturatingAdd shared.reservedBytes bytes
    reservedFrames := Usize.saturatingAdd shared.reservedFrames frames }

def release (shared : CellShared) (bytes frames : Nat) : CellShared :=
  { shared with
    reservedBytes := shared.reservedBytes - bytes
    reservedFrames := shared.reservedFrames - frames }

def releaseCompletion (shared : CellShared) : CellShared :=
  { shared with inflightCompletions := shared.inflightCompletions - 1 }

def unlock (shared : CellShared) : CellShared := { shared with admission := false }

/-- Only a cell that serves is poisoned. -/
def poison (shared : CellShared) (cause : SpoolPoisonCause) : CellShared :=
  if shared.state = .serving then { shared with state := .poisoned cause } else shared

end CellShared

/-- Where a call stands that has sent its work to the completer. -/
inductive CallerStage where
  | writing
  | aborting (error : SpoolError)
  | settling
  | forwarding
  deriving DecidableEq

/-- What a call leaves for the completer. A call that is dropped leaves the same as one whose write
failed. -/
inductive DriverDelivery where
  | canceled
  | forwardFailed (error : SpoolError)
  | forwarded
  deriving DecidableEq

/-- The course of one submission. `taken` says whether the completer has taken its work from the
queue; from `receipting` on the course is the completer's. -/
inductive Course where
  | entered (submission : Submission)
  | refused (error : SpoolError)
  | reserving (plan : Plan)
  | slotting (plan : Plan)
  | queueing (plan : Plan)
  | calling (plan : Plan) (stage : CallerStage) (taken : Bool)
  | arrived (plan : Plan) (delivery : DriverDelivery) (taken : Bool)
  | receipting (plan : Plan)
  | persisting (plan : Plan) (receipt : Receipt)
  | releasing (plan : Plan) (cause : Option SpoolPoisonCause) (outcome : Except SpoolError Receipt)
  | finishing (plan : Plan) (outcome : Except SpoolError Receipt)
  | finished (plan : Plan) (outcome : Except SpoolError Receipt)
  deriving DecidableEq

/-- What a call is answered at its next step, as far as it asks. -/
structure CallerInput where
  reply : WriteReply
  synced : Bool
  forwarded : Except SpoolError Unit
  deriving DecidableEq

structure CompleterInput where
  receipt : Except DriverError Receipt
  reply : WriteReply
  synced : Bool
  deriving DecidableEq

section steps

variable [Digests] [ErrorTexts]

/-- One step of a call. A call that waits for the admission lock does not move. -/
def callerStep (shared : CellShared) (input : CallerInput) : Course → CellShared × Course
  | .entered submission =>
      if submission.records = [] then
        (shared, .refused (.forward "submission carries no records"))
      else if shared.admission then (shared, .entered submission)
      else match shared.plan submission with
        | .error error => (shared, .refused error)
        | .ok plan => ({ shared with admission := true }, .reserving plan)
  | .reserving plan =>
      if shared.fits plan.lifecycleBytes 2 then
        (shared.reserved plan.lifecycleBytes 2, .slotting plan)
      else (shared.unlock, .refused .capacityExceeded)
  | .slotting plan =>
      if shared.config.maxInflightCompletions ≤ shared.inflightCompletions then
        -- What was reserved for the lifecycle stays reserved.
        (shared.unlock, .refused .capacityExceeded)
      else
        ({ shared with
            inflightCompletions := Usize.saturatingAdd shared.inflightCompletions 1 },
          .queueing plan)
  | .queueing plan =>
      if shared.connected then
        ({ shared with
            known := insert (progressIdentity shared.journalId plan.submission) shared.known },
          .calling plan .writing false)
      else
        ((shared.releaseCompletion.release plan.lifecycleBytes 2).unlock,
          .refused .capacityExceeded)
  | .calling plan .writing taken =>
      match shared.storage.persist (.submission shared.journalId plan.submission) input.reply
          input.synced with
      | (storage, .error error) => ({ shared with storage }, .calling plan (.aborting error) taken)
      | (storage, .ok ()) => ({ shared with storage }, .calling plan .settling taken)
  | .calling plan (.aborting _) taken =>
      let shared := { shared with
        known := shared.known.erase (progressIdentity shared.journalId plan.submission) }
      ((shared.release plan.lifecycleBytes 2).unlock, .arrived plan .canceled taken)
  | .calling plan .settling taken =>
      ((shared.release plan.frameBytes 1).unlock, .calling plan .forwarding taken)
  | .calling plan .forwarding taken =>
      match input.forwarded with
      | .ok () => (shared, .arrived plan .forwarded taken)
      | .error error =>
          (shared.poison .forwardFailed,
            .arrived plan (.forwardFailed (.forward (ErrorTexts.spool error))) taken)
  | course => (shared, course)

/-- A call that is given up while its forward is pending. -/
def dropCall : Course → Course
  | .calling plan .forwarding taken => .arrived plan .canceled taken
  | course => course

/-- The completer takes a course from the queue. -/
def takeWork : Course → Course
  | .calling plan stage _ => .calling plan stage true
  | .arrived plan delivery _ => .arrived plan delivery true
  | course => course

/-- One step of the completer with the work it has taken. -/
def completerStep (shared : CellShared) (input : CompleterInput) : Course → CellShared × Course
  | .arrived plan .canceled true => (shared, .finishing plan (.error .unavailable))
  | .arrived plan (.forwardFailed error) true =>
      (shared, .releasing plan (some .forwardFailed) (.error error))
  | .arrived plan .forwarded true => (shared, .receipting plan)
  | .receipting plan =>
      match input.receipt with
      | .error error => (shared, .releasing plan (some .receiptFailed)
          (.error (.forward (ErrorTexts.driver error))))
      | .ok receipt => (shared, .persisting plan receipt)
  | .persisting plan receipt =>
      let identity := progressIdentity shared.journalId plan.submission
      match shared.storage.persist (.progress identity) input.reply input.synced with
      | (storage, .ok ()) => ({ shared with storage }, .releasing plan none (.ok receipt))
      | (storage, .error error) =>
          ({ shared with storage }, .releasing plan (some .progressFailed)
            (.error (if error = .io ∨ error = .capacityExceeded then .progressFailed else error)))
  | .releasing plan cause outcome =>
      let shared := shared.release plan.progressBytes 1
      (match cause with
        | none => shared
        | some cause => shared.poison cause, .finishing plan outcome)
  | .finishing plan outcome => (shared.releaseCompletion, .finished plan outcome)
  | course => (shared, course)

end steps

/-- The cell, its calls in the order they were made, and the completer's queue. `forwards` keeps the
submissions that were handed to a forward and `answers` what their receipts resolved to; the code
does not read either. -/
structure SpoolCell where
  shared : CellShared
  calls : List Course
  queue : List Nat
  completing : Option Nat
  forwards : List Submission
  answers : List (Submission × Except DriverError Receipt)
  deriving DecidableEq

inductive CellEvent where
  | submit (submission : Submission)
  | advance (call : Nat) (input : CallerInput)
  | drop (call : Nat)
  | complete (input : CompleterInput)
  | stop
  deriving DecidableEq

namespace SpoolCell

variable [Digests]

/-- A clean and empty spool serves; any other history is left to an operator. -/
def «open» (journalId : JournalId) (config : SpoolConfig) (segment : LogFile) :
    Except SpoolError SpoolCell := do
  config.validate
  let report := scanAndClassify segment
  return {
    shared := {
      journalId
      config
      storage := .open segment
      state := if report.recoveryRequired then .recoveryRequired report else .serving
      known := ∅
      reservedBytes := 0
      reservedFrames := 0
      inflightCompletions := 0
      admission := false
      connected := true }
    calls := []
    queue := []
    completing := none
    forwards := []
    answers := [] }

variable [ErrorTexts]

/-- The work is queued when the call has passed `try_send`. -/
def enqueue (before after : Course) (call : Nat) (queue : List Nat) : List Nat :=
  match before, after with
  | .queueing _, .calling _ _ _ => queue ++ [call]
  | _, _ => queue

/-- The forward is called when the submission is durable. -/
def handed (before : Course) (forwards : List Submission) : List Submission :=
  match before with
  | .calling plan .settling _ => forwards ++ [plan.submission]
  | _ => forwards

def advance (cell : SpoolCell) (call : Nat) (input : CallerInput) : SpoolCell :=
  match cell.calls[call]? with
  | none => cell
  | some course =>
      let (shared, next) := callerStep cell.shared input course
      { cell with
        shared
        calls := cell.calls.set call next
        queue := enqueue course next call cell.queue
        forwards := handed course cell.forwards }

/-- The receipt of the driver resolves for the completer alone. -/
def resolved (course : Course) (input : CompleterInput)
    (answers : List (Submission × Except DriverError Receipt)) :
    List (Submission × Except DriverError Receipt) :=
  match course with
  | .receipting plan => answers ++ [(plan.submission, input.receipt)]
  | _ => answers

def complete (cell : SpoolCell) (input : CompleterInput) : SpoolCell :=
  if cell.shared.connected = false then cell
  else match cell.completing with
    | none => match cell.queue with
      | [] => cell
      | call :: queue =>
          { cell with
            calls := cell.calls.modify call takeWork
            queue
            completing := some call }
    | some call => match cell.calls[call]? with
      | none => cell
      | some course =>
          let (shared, next) := completerStep cell.shared input course
          { cell with
            shared
            calls := cell.calls.set call next
            completing := match next with
              | .finished _ _ => none
              | _ => some call
            answers := resolved course input cell.answers }

def step (cell : SpoolCell) : CellEvent → SpoolCell
  | .submit submission => { cell with calls := cell.calls ++ [.entered submission] }
  | .advance call input => cell.advance call input
  | .drop call => { cell with calls := cell.calls.modify call dropCall }
  | .complete input => cell.complete input
  | .stop => { cell with shared := { cell.shared with connected := false } }

/-- The frame an event appends to the segment. -/
def appends (cell : SpoolCell) : CellEvent → Option SpoolFrame
  | .advance call _ => match cell.calls[call]? with
    | some (.calling plan .writing _) =>
        some (.submission cell.shared.journalId plan.submission)
    | _ => none
  | .complete _ => match cell.completing.bind fun call => cell.calls[call]? with
    | some (.persisting plan _) =>
        some (.progress (progressIdentity cell.shared.journalId plan.submission))
    | _ => none
  | _ => none

end SpoolCell

/-- One place of a list, what stands before and behind it, and what a change of it leaves. -/
theorem list_split {α : Type} {items : List α} {place : Nat} {item : α}
    (found : items[place]? = some item) :
    ∃ front back, items = front ++ item :: back ∧
      (∀ other, items.set place other = front ++ other :: back) ∧
      ∀ change, items.modify place change = front ++ change item :: back := by
  induction items generalizing place with
  | nil => cases found
  | cons head rest ih =>
      cases place with
      | zero =>
          obtain rfl : head = item := Option.some.inj found
          exact ⟨[], rest, rfl, fun _ => rfl, fun change => List.modify_zero_cons change head rest⟩
      | succ place =>
          obtain ⟨front, back, rfl, changed, modified⟩ := ih (List.getElem?_cons_succ ▸ found)
          refine ⟨head :: front, back, rfl, ?_, ?_⟩
          · intro other
            rw [List.set_cons_succ, changed, List.cons_append]
          · intro change
            rw [List.modify_succ_cons, modified, List.cons_append]

theorem list_modify_absent {α : Type} {items : List α} {place : Nat} {change : α → α}
    (absent : items[place]? = none) : items.modify place change = items := by
  rw [List.modify_eq_self]
  exact List.getElem?_eq_none_iff.mp absent

@[reducible] def sampleTexts : ErrorTexts := ⟨fun _ => "", fun _ => ""⟩

/-- Limits for one submission at a time. -/
def oneAtATime : SpoolConfig := ⟨1000, 10, 500, 1⟩

/-- Every write and sync succeeds, and so does the forward. -/
def served : CallerInput := ⟨.written, true, .ok ()⟩

def committed : CompleterInput :=
  ⟨.ok ⟨.committed, sampleJournal, ⟨0⟩, ⟨1⟩, ⟨repeated 16 7⟩, 0, 0, false⟩, .written, true⟩

/-- The steps of a call and of the completer until a submission has its receipt. -/
def wholeCourse (call : Nat) : List CellEvent :=
  List.replicate 7 (.advance call served) ++ List.replicate 6 (.complete committed)

end Scripture.Spool
