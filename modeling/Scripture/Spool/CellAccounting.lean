import Scripture.Spool.Cell

set_option autoImplicit false

/- What the submissions of a cell hold of its counters. Every step of a call or of the completer
moves a counter by what its submission takes or gives back, with two exceptions: a call that finds
no completion slot, and a call that is dropped while its forward is pending. -/
namespace Scripture.Spool

open ByteFormat AppendLog

/-- The counters of a cell, and its admission lock as a counter. -/
inductive Column where
  | bytes
  | frames
  | slots
  | lock
  deriving DecidableEq

def CellShared.counter (shared : CellShared) : Column → Nat
  | .bytes => shared.reservedBytes
  | .frames => shared.reservedFrames
  | .slots => shared.inflightCompletions
  | .lock => shared.admission.toNat

def CallerStage.holds (plan : Plan) : CallerStage → Column → Nat
  | .forwarding, .bytes => plan.progressBytes
  | _, .bytes => plan.lifecycleBytes
  | .forwarding, .frames => 1
  | _, .frames => 2
  | _, .slots => 1
  | .forwarding, .lock => 0
  | _, .lock => 1

/-- Room for the progress frame of a submission, and its place among the completions. -/
def progressRoom (plan : Plan) : Column → Nat
  | .bytes => plan.progressBytes
  | .frames => 1
  | .slots => 1
  | .lock => 0

def slotOnly : Column → Nat
  | .slots => 1
  | _ => 0

/-- What a submission holds. -/
def Course.holds : Course → Column → Nat
  | .entered _, _ | .refused _, _ | .finished _ _, _ => 0
  | .reserving _, .lock => 1
  | .reserving _, _ => 0
  | .slotting plan, .bytes | .queueing plan, .bytes => plan.lifecycleBytes
  | .slotting _, .frames | .queueing _, .frames => 2
  | .slotting _, .slots => 0
  | .queueing _, .slots => 1
  | .slotting _, .lock | .queueing _, .lock => 1
  | .calling plan stage _, column => stage.holds plan column
  | .arrived _ .canceled _, column | .finishing _ _, column => slotOnly column
  | .arrived plan _ _, column | .receipting plan, column | .persisting plan _, column
  | .releasing plan _ _, column => progressRoom plan column

/-- The counters are what the others hold and what this submission holds. -/
def Balanced (others : Column → Nat) (shared : CellShared) (course : Course) : Prop :=
  ∀ column, shared.counter column = others column + course.holds column

/-- Limits at which no sum of the cell saturates. -/
structure SpoolConfig.Small (config : SpoolConfig) : Prop where
  bytes : config.maxWalBytes < Usize.max
  frames : config.maxFrames < Usize.max
  slots : config.maxInflightCompletions ≤ Usize.max

theorem CellShared.fits_bounds {shared : CellShared} {bytes frames : Nat}
    (small : shared.config.Small) (room : shared.fits bytes frames = true) :
    Usize.saturatingAdd shared.reservedBytes bytes = shared.reservedBytes + bytes ∧
      Usize.saturatingAdd shared.reservedFrames frames = shared.reservedFrames + frames := by
  have limits := small.bytes
  have others := small.frames
  unfold fits at room
  rw [decide_eq_true_iff] at room
  unfold Usize.saturatingAdd at room ⊢
  omega

theorem CellShared.not_fits {shared : CellShared} {bytes frames : Nat}
    (full : shared.fits bytes frames = false) :
    shared.config.maxWalBytes < shared.storage.usedBytes + shared.reservedBytes + bytes ∨
      shared.config.maxFrames < shared.storage.frameCount + shared.reservedFrames + frames := by
  unfold fits at full
  rw [decide_eq_false_iff_not] at full
  unfold Usize.saturatingAdd at full
  omega

@[simp] theorem CellShared.poison_counter (shared : CellShared) (cause : SpoolPoisonCause)
    (column : Column) : (shared.poison cause).counter column = shared.counter column := by
  unfold CellShared.poison
  split
  · cases column <;> rfl
  · rfl

theorem CellShared.poison_frame (shared : CellShared) (cause : SpoolPoisonCause) :
    (shared.poison cause).journalId = shared.journalId ∧
    (shared.poison cause).config = shared.config ∧
    (shared.poison cause).connected = shared.connected := by
  unfold CellShared.poison
  split <;> exact ⟨rfl, rfl, rfl⟩

section steps

variable [Digests] [ErrorTexts]

/-- A step of a call keeps the balance, unless it finds no completion slot. -/
theorem callerStep_balanced {others : Column → Nat} {shared : CellShared} {course : Course}
    (small : shared.config.Small) (balanced : Balanced others shared course) (input : CallerInput)
    (slot : ∀ plan, course = .slotting plan →
      shared.inflightCompletions < shared.config.maxInflightCompletions) :
    Balanced others (callerStep shared input course).1 (callerStep shared input course).2 := by
  have single := Bool.toNat_le shared.admission
  cases course with
  | entered submission =>
      simp only [callerStep]
      split
      · exact balanced
      · split
        · exact balanced
        · rename_i unlocked
          split
          · exact balanced
          · intro column
            have before := balanced column
            cases column with
            | lock =>
                rw [Bool.not_eq_true] at unlocked
                simp only [CellShared.counter, Course.holds, unlocked] at before ⊢
                simp only [Bool.toNat_false, Bool.toNat_true] at before ⊢
                omega
            | _ => exact before
  | reserving plan =>
      simp only [callerStep]
      split
      · rename_i room
        obtain ⟨bytes, frames⟩ := CellShared.fits_bounds small room
        intro column
        have before := balanced column
        cases column <;>
          simp only [CellShared.counter, Course.holds, CellShared.reserved, bytes, frames]
            at before ⊢ <;> omega
      · intro column
        have before := balanced column
        cases column <;>
          simp only [CellShared.counter, Course.holds, CellShared.unlock, Bool.toNat_false]
            at before ⊢ <;> omega
  | slotting plan =>
      have room := slot plan rfl
      have limit := small.slots
      have counted : Usize.saturatingAdd shared.inflightCompletions 1 =
          shared.inflightCompletions + 1 := by
        unfold Usize.saturatingAdd
        omega
      simp only [callerStep]
      rw [if_neg (by omega), counted]
      intro column
      have before := balanced column
      cases column <;> simp only [CellShared.counter, Course.holds] at before ⊢ <;> omega
  | queueing plan =>
      simp only [callerStep]
      split
      · intro column
        have before := balanced column
        cases column <;>
          simp only [CellShared.counter, Course.holds, CallerStage.holds] at before ⊢ <;> omega
      · intro column
        have before := balanced column
        cases column <;>
          simp only [CellShared.counter, Course.holds, CellShared.unlock, CellShared.release,
            CellShared.releaseCompletion, Bool.toNat_false] at before ⊢ <;> omega
  | calling plan stage taken =>
      cases stage with
      | writing =>
          simp only [callerStep]
          split <;>
          · intro column
            have before := balanced column
            cases column <;> exact before
      | aborting error =>
          intro column
          have before := balanced column
          cases column <;>
            simp only [callerStep, CellShared.counter, Course.holds, CallerStage.holds, slotOnly,
              CellShared.unlock, CellShared.release, Bool.toNat_false] at before ⊢ <;> omega
      | settling =>
          intro column
          have before := balanced column
          cases column <;>
            simp only [callerStep, CellShared.counter, Course.holds, CallerStage.holds,
              Plan.lifecycleBytes, CellShared.unlock, CellShared.release, Bool.toNat_false]
              at before ⊢ <;> omega
      | forwarding =>
          simp only [callerStep]
          split
          · intro column
            have before := balanced column
            cases column <;> exact before
          · intro column
            have before := balanced column
            rw [CellShared.poison_counter]
            cases column <;> exact before
  | _ => exact balanced

/-- A step of the completer keeps the balance. -/
theorem completerStep_balanced {others : Column → Nat} {shared : CellShared} {course : Course}
    (balanced : Balanced others shared course) (input : CompleterInput) :
    Balanced others (completerStep shared input course).1
      (completerStep shared input course).2 := by
  cases course with
  | arrived plan delivery taken =>
      cases taken with
      | false => cases delivery <;> exact balanced
      | true => cases delivery <;> exact balanced
  | receipting plan =>
      simp only [completerStep]
      split <;> exact balanced
  | persisting plan receipt =>
      simp only [completerStep]
      split <;> exact balanced
  | releasing plan cause outcome =>
      have released : ∀ column, (shared.release plan.progressBytes 1).counter column =
          others column + slotOnly column := by
        intro column
        have before := balanced column
        cases column <;>
          simp only [CellShared.counter, Course.holds, progressRoom, slotOnly, CellShared.release]
            at before ⊢ <;> omega
      simp only [completerStep]
      split
      · exact released
      · intro column
        rw [CellShared.poison_counter]
        exact released column
  | finishing plan outcome =>
      intro column
      have before := balanced column
      cases column <;>
        simp only [completerStep, CellShared.counter, Course.holds, slotOnly,
          CellShared.releaseCompletion] at before ⊢ <;> omega
  | _ => exact balanced

/-- What no step of a call or of the completer changes. -/
theorem callerStep_frame (shared : CellShared) (input : CallerInput) (course : Course) :
    (callerStep shared input course).1.journalId = shared.journalId ∧
    (callerStep shared input course).1.config = shared.config ∧
    (callerStep shared input course).1.connected = shared.connected := by
  have poisoned := shared.poison_frame .forwardFailed
  unfold callerStep
  split <;> try exact ⟨rfl, rfl, rfl⟩
  · split
    · exact ⟨rfl, rfl, rfl⟩
    · split
      · exact ⟨rfl, rfl, rfl⟩
      · split <;> exact ⟨rfl, rfl, rfl⟩
  all_goals split <;> first | exact ⟨rfl, rfl, rfl⟩ | exact poisoned

theorem completerStep_frame (shared : CellShared) (input : CompleterInput) (course : Course) :
    (completerStep shared input course).1.journalId = shared.journalId ∧
    (completerStep shared input course).1.config = shared.config ∧
    (completerStep shared input course).1.connected = shared.connected := by
  cases course with
  | arrived plan delivery taken =>
      cases taken <;> cases delivery <;> exact ⟨rfl, rfl, rfl⟩
  | receipting plan =>
      simp only [completerStep]
      split <;> exact ⟨rfl, rfl, rfl⟩
  | persisting plan receipt =>
      simp only [completerStep]
      split <;> exact ⟨rfl, rfl, rfl⟩
  | releasing plan cause outcome =>
      cases cause with
      | none => exact ⟨rfl, rfl, rfl⟩
      | some cause => exact (shared.release plan.progressBytes 1).poison_frame cause
  | _ => exact ⟨rfl, rfl, rfl⟩

end steps

/-- What the calls hold together. -/
def held (calls : List Course) (column : Column) : Nat :=
  (calls.map fun course => course.holds column).sum

@[simp] theorem held_append (front back : List Course) (column : Column) :
    held (front ++ back) column = held front column + held back column := by
  simp [held]

@[simp] theorem held_cons (course : Course) (calls : List Course) (column : Column) :
    held (course :: calls) column = course.holds column + held calls column := rfl

theorem holds_le_held {course : Course} {calls : List Course} (member : course ∈ calls)
    (column : Column) : course.holds column ≤ held calls column :=
  List.le_sum_of_mem (List.mem_map_of_mem member)

/-- One call set apart from the others. -/
theorem held_apart {calls : List Course} {call : Nat} {course : Course}
    (found : calls[call]? = some course) :
    ∃ others : Column → Nat,
      (∀ column, held calls column = others column + course.holds column) ∧
      (∀ next column, held (calls.set call next) column = others column + next.holds column) ∧
      ∀ other ∈ calls, other = course ∨ ∀ column, other.holds column ≤ others column := by
  obtain ⟨front, back, rfl, changed, -⟩ := list_split found
  refine ⟨fun column => held front column + held back column, ?_, ?_, ?_⟩
  · intro column
    simp only [held_append, held_cons]
    omega
  · intro next column
    rw [changed]
    simp only [held_append, held_cons]
    omega
  · intro other member
    rcases List.mem_append.mp member with earlier | later
    · exact Or.inr fun column => Nat.le_add_right_of_le (holds_le_held earlier column)
    · rcases List.mem_cons.mp later with same | later
      · exact Or.inl same
      · exact Or.inr fun column => Nat.le_add_left_of_le (holds_le_held later column)

theorem takeWork_holds (course : Course) (column : Column) :
    (takeWork course).holds column = course.holds column := by
  cases course with
  | arrived plan delivery taken => cases delivery <;> rfl
  | _ => rfl

theorem held_modify {change : Course → Course} {calls : List Course} {call : Nat}
    (same : ∀ course, calls[call]? = some course →
      ∀ column, (change course).holds column = course.holds column) (column : Column) :
    held (calls.modify call change) column = held calls column := by
  cases found : calls[call]? with
  | none => rw [list_modify_absent found]
  | some course =>
      obtain ⟨front, back, rfl, -, changed⟩ := list_split found
      rw [changed, held_append, held_append, held_cons, held_cons, same course found]

/-- A submission that is not in flight: it waits to be admitted, was refused, or has an outcome. -/
def Course.idle : Course → Bool
  | .entered _ | .refused _ | .finished _ _ => true
  | _ => false

theorem Course.holds_idle {course : Course} (idle : course.idle = true) (column : Column) :
    course.holds column = 0 := by
  cases course with
  | entered _ => rfl
  | refused _ => rfl
  | finished _ _ => rfl
  | _ => cases idle

/-- What is kept for the progress frame of a submission whose own frame is durable. -/
def Course.due : Course → Column → Nat
  | .calling plan .forwarding _, column => progressRoom plan column
  | .arrived _ .canceled _, _ => 0
  | .arrived plan _ _, column | .receipting plan, column | .persisting plan _, column
  | .releasing plan _ _, column => progressRoom plan column
  | _, _ => 0

/-- Whether a submission has a place in the completion queue. -/
def Course.completes : Course → Bool
  | .queueing _ | .calling _ _ _ | .arrived _ _ _ | .receipting _ | .persisting _ _
  | .releasing _ _ _ | .finishing _ _ => true
  | _ => false

/-- Outside of an admission only progress frames are provided for. -/
theorem Course.holds_unlocked {course : Course} (unlocked : course.holds .lock = 0) :
    course.holds .bytes = course.due .bytes ∧ course.holds .frames = course.due .frames := by
  cases course with
  | reserving plan => cases unlocked
  | slotting plan => cases unlocked
  | queueing plan => cases unlocked
  | calling plan stage taken =>
      cases stage with
      | forwarding => exact ⟨rfl, rfl⟩
      | _ => cases unlocked
  | arrived plan delivery taken => cases delivery <;> exact ⟨rfl, rfl⟩
  | _ => exact ⟨rfl, rfl⟩

theorem Course.holds_slots (course : Course) : course.holds .slots = course.completes.toNat := by
  cases course with
  | calling plan stage taken => cases stage <;> rfl
  | arrived plan delivery taken => cases delivery <;> rfl
  | _ => rfl

theorem held_slots (calls : List Course) : held calls .slots = calls.countP Course.completes := by
  induction calls with
  | nil => rfl
  | cons course rest ih =>
      rw [held_cons, ih, course.holds_slots, List.countP_cons, Nat.add_comm]
      cases course.completes <;> rfl

def Course.asksSlot : Course → Bool
  | .slotting _ => true
  | _ => false

def Course.forwards : Course → Bool
  | .calling _ .forwarding _ => true
  | _ => false

/-- Both frames of a submission are within the limit for one frame. -/
def Course.withinFrameLimit [Digests] (shared : CellShared) : Course → Bool
  | .entered submission =>
      let identity := progressIdentity shared.journalId submission
      [.submission shared.journalId submission, .progress identity].all fun frame =>
        match encodeFrame frame with
        | .ok encoded => encoded.length ≤ shared.config.maxFrameBytes
        | .error _ => true
  | _ => true

theorem encodeFrame_short [Digests] {frame : SpoolFrame} {bytes : Bytes}
    (encoded : encodeFrame frame = .ok bytes) : bytes.length < 2 ^ 32 + 4 := by
  obtain ⟨content, -, small, rfl⟩ := encodeFrame_eq_ok encoded
  rw [List.length_append, putU32_length]
  omega

/-- Before anything is reserved only a frame over the limit is refused for capacity. -/
theorem CellShared.plan_ne_capacity [Digests] {shared : CellShared} {submission : Submission}
    (within : (Course.entered submission).withinFrameLimit shared = true) :
    shared.plan submission ≠ .error .capacityExceeded := by
  intro refused
  simp only [Course.withinFrameLimit, List.all_cons, List.all_nil, Bool.and_true,
    Bool.and_eq_true] at within
  rcases bind_eq_error.mp refused with closed | ⟨-, -, refused⟩
  · unfold ensureServing at closed
    split at closed <;> cases closed
  rcases bind_eq_error.mp refused with unwritten | ⟨encoded, written, refused⟩
  · cases encoding : encodeFrame _ <;> rw [encoding] at unwritten <;> cases unwritten
  rcases bind_eq_error.mp refused with unwritten | ⟨progress, reported, refused⟩
  · cases encoding : encodeFrame _ <;> rw [encoding] at unwritten <;> cases unwritten
  rw [mapError_eq_ok] at written reported
  have lifecycle := encodeFrame_short written
  have later := encodeFrame_short reported
  rw [written, reported] at within
  simp only [decide_eq_true_eq] at within
  rcases checked_eq_error.mp refused with ⟨long, -⟩ | ⟨-, refused⟩
  · omega
  rcases checked_eq_error.mp refused with ⟨long, -⟩ | ⟨-, refused⟩
  · unfold Usize.max at long
    omega
  rcases checked_eq_error.mp refused with ⟨-, same⟩ | ⟨-, refused⟩
  · cases same
  · cases refused

namespace SpoolCell

/-- The bytes or frames that the outstanding progress reservations take. -/
def outstanding (cell : SpoolCell) (column : Column) : Nat :=
  (cell.calls.map fun course => course.due column).sum

/-- A limit that the lifecycle of one more submission exceeds. -/
def Full (cell : SpoolCell) (plan : Plan) : Prop :=
  cell.shared.config.maxWalBytes <
      cell.shared.storage.usedBytes + cell.outstanding .bytes + plan.lifecycleBytes ∨
    cell.shared.config.maxFrames <
      cell.shared.storage.frameCount + cell.outstanding .frames + 2 ∨
    cell.shared.config.maxInflightCompletions ≤ cell.calls.countP Course.completes

/-- A completion slot is free when a call asks for it, no call is dropped while its forward is
pending, and the completer runs. -/
def Careful (cell : SpoolCell) : CellEvent → Prop
  | .submit _ | .complete _ => True
  | .advance call _ => cell.calls[call]?.any Course.asksSlot →
      cell.shared.inflightCompletions < cell.shared.config.maxInflightCompletions
  | .drop call => cell.calls[call]?.any Course.forwards = false
  | .stop => False

instance (cell : SpoolCell) : (event : CellEvent) → Decidable (cell.Careful event)
  | .submit _ | .complete _ => inferInstanceAs (Decidable True)
  | .advance call _ => inferInstanceAs (Decidable (cell.calls[call]?.any Course.asksSlot →
      cell.shared.inflightCompletions < cell.shared.config.maxInflightCompletions))
  | .drop call => inferInstanceAs (Decidable (cell.calls[call]?.any Course.forwards = false))
  | .stop => inferInstanceAs (Decidable False)

/-- The counters are what the submissions hold. -/
structure Accounted (cell : SpoolCell) : Prop where
  small : cell.shared.config.Small
  balanced : ∀ column, cell.shared.counter column = held cell.calls column
  connected : cell.shared.connected = true

variable {cell : SpoolCell}

theorem accounted_open [Digests] {journalId : JournalId} {config : SpoolConfig}
    {segment : LogFile} (opened : SpoolCell.open journalId config segment = .ok cell)
    (small : config.Small) : cell.Accounted := by
  obtain ⟨-, -, built⟩ := bind_eq_ok.mp opened
  cases built
  refine ⟨small, ?_, rfl⟩
  intro column
  cases column <;> rfl

variable [Digests] [ErrorTexts]

theorem accounted_advance (accounted : cell.Accounted) (call : Nat) (input : CallerInput)
    (careful : cell.Careful (.advance call input)) :
    (cell.advance call input).Accounted := by
  unfold advance
  cases found : cell.calls[call]? with
  | none => exact accounted
  | some course =>
      obtain ⟨others, before, after, -⟩ := held_apart found
      obtain ⟨-, config, connected⟩ := callerStep_frame cell.shared input course
      have slot : ∀ plan, course = .slotting plan →
          cell.shared.inflightCompletions < cell.shared.config.maxInflightCompletions := by
        rintro plan rfl
        rw [Careful, found] at careful
        exact careful rfl
      have balanced : Balanced others cell.shared course := fun column =>
        (accounted.balanced column).trans (before column)
      have kept := callerStep_balanced accounted.small balanced input slot
      refine ⟨?_, ?_, ?_⟩
      · rw [config]
        exact accounted.small
      · intro column
        rw [after]
        exact kept column
      · rw [connected]
        exact accounted.connected

theorem accounted_complete (accounted : cell.Accounted) (input : CompleterInput) :
    (cell.complete input).Accounted := by
  unfold complete
  split
  · exact accounted
  · split
    · split
      · exact accounted
      · refine ⟨accounted.small, ?_, accounted.connected⟩
        intro column
        rw [held_modify fun course _ => takeWork_holds course]
        exact accounted.balanced column
    · split
      · exact accounted
      · rename_i course found
        obtain ⟨others, before, after, -⟩ := held_apart found
        obtain ⟨-, config, connected⟩ := completerStep_frame cell.shared input course
        have balanced : Balanced others cell.shared course := fun column =>
          (accounted.balanced column).trans (before column)
        have kept := completerStep_balanced balanced input
        refine ⟨?_, ?_, ?_⟩
        · rw [config]
          exact accounted.small
        · intro column
          rw [after]
          exact kept column
        · rw [connected]
          exact accounted.connected

theorem accounted_step (accounted : cell.Accounted) (event : CellEvent)
    (careful : cell.Careful event) : (cell.step event).Accounted := by
  cases event with
  | submit submission =>
      refine ⟨accounted.small, ?_, accounted.connected⟩
      intro column
      simp only [step, held_append]
      exact accounted.balanced column
  | advance call input => exact accounted_advance accounted call input careful
  | drop call =>
      refine ⟨accounted.small, ?_, accounted.connected⟩
      intro column
      simp only [step]
      rw [held_modify]
      · exact accounted.balanced column
      · intro course found column
        rw [Careful, found] at careful
        unfold dropCall
        split
        · cases careful
        · rfl
  | complete input => exact accounted_complete accounted input
  | stop => exact absurd careful id

omit [Digests] [ErrorTexts] in
/-- During an admission every other call holds no more than room for its progress frame. -/
theorem reserved_outstanding (accounted : cell.Accounted) {call : Nat} {plan : Plan}
    (found : cell.calls[call]? = some (.reserving plan)) :
    cell.shared.reservedBytes = cell.outstanding .bytes ∧
      cell.shared.reservedFrames = cell.outstanding .frames := by
  obtain ⟨others, before, -, bounded⟩ := held_apart found
  have single := Bool.toNat_le cell.shared.admission
  have locked : cell.shared.admission.toNat = others .lock + 1 :=
    (accounted.balanced .lock).trans (before .lock)
  have dues : ∀ course ∈ cell.calls,
      course.holds .bytes = course.due .bytes ∧ course.holds .frames = course.due .frames := by
    intro course member
    rcases bounded course member with rfl | small
    · exact ⟨rfl, rfl⟩
    · have free := small .lock
      exact Course.holds_unlocked (by omega)
  constructor
  · rw [outstanding, ← List.map_congr_left fun course member => (dues course member).1]
    exact accounted.balanced .bytes
  · rw [outstanding, ← List.map_congr_left fun course member => (dues course member).2]
    exact accounted.balanced .frames

/-- What a refusal for capacity comes from. -/
theorem refusal_full (accounted : cell.Accounted) {call : Nat} {course : Course}
    (found : cell.calls[call]? = some course) (fresh : course ≠ .refused .capacityExceeded)
    (within : course.withinFrameLimit cell.shared) (input : CallerInput)
    (refused : (callerStep cell.shared input course).2 = .refused .capacityExceeded) :
    ∃ plan, (course = .reserving plan ∨ course = .slotting plan) ∧ cell.Full plan := by
  cases course with
  | entered submission =>
      simp only [callerStep] at refused
      split at refused
      · cases refused
      · split at refused
        · cases refused
        · split at refused
          · rename_i planned
            cases refused
            exact absurd planned (CellShared.plan_ne_capacity within)
          · cases refused
  | reserving plan =>
      refine ⟨plan, Or.inl rfl, ?_⟩
      simp only [callerStep] at refused
      split at refused
      · cases refused
      · rename_i full
        have room := CellShared.not_fits (Bool.eq_false_iff.mpr full)
        obtain ⟨bytes, frames⟩ := reserved_outstanding accounted found
        rw [bytes, frames] at room
        exact room.imp id Or.inl
  | slotting plan =>
      refine ⟨plan, Or.inr rfl, Or.inr (Or.inr ?_)⟩
      simp only [callerStep] at refused
      split at refused
      · rename_i full
        rw [← held_slots, ← accounted.balanced .slots]
        exact full
      · cases refused
  | queueing plan =>
      simp only [callerStep] at refused
      rw [if_pos accounted.connected] at refused
      cases refused
  | calling plan stage taken =>
      cases stage with
      | writing =>
          simp only [callerStep] at refused
          split at refused <;> cases refused
      | forwarding =>
          simp only [callerStep] at refused
          split at refused <;> cases refused
      | _ => cases refused
  | refused error => exact absurd refused fresh
  | _ => cases refused

/-- While calls find a completion slot and are not dropped before their forward returns, nothing
stays reserved for a submission that is not in flight, and a call is refused for capacity only at a
limit. -/
theorem accounts_hold {journalId : JournalId} {config : SpoolConfig} {segment : LogFile}
    {cell : SpoolCell} (opened : SpoolCell.open journalId config segment = .ok cell)
    (small : config.Small) {events : List CellEvent}
    (careful : Machine.Along step Careful cell events) :
    let last := Machine.run step cell events
    ((∀ course ∈ last.calls, course.idle = true) →
      last.shared.reservedBytes = 0 ∧ last.shared.reservedFrames = 0 ∧
        last.shared.inflightCompletions = 0) ∧
    ∀ (call : Nat) course input, last.calls[call]? = some course →
      course ≠ .refused .capacityExceeded → course.withinFrameLimit last.shared = true →
      (callerStep last.shared input course).2 = .refused .capacityExceeded →
      ∃ plan, (course = .reserving plan ∨ course = .slotting plan) ∧ last.Full plan := by
  intro last
  have accounted : last.Accounted := careful.invariant
    (fun _ event accounted careful => accounted_step accounted event careful)
    (accounted_open opened small)
  constructor
  · intro idle
    have nothing : ∀ column, held last.calls column = 0 := by
      intro column
      refine List.sum_eq_zero ?_
      intro amount member
      obtain ⟨course, among, rfl⟩ := List.mem_map.mp member
      exact Course.holds_idle (idle course among) column
    have zero : ∀ column, last.shared.counter column = 0 := fun column =>
      (accounted.balanced column).trans (nothing column)
    exact ⟨zero .bytes, zero .frames, zero .slots⟩
  · intro call course input found fresh within refused
    exact refusal_full accounted found fresh within input refused

end SpoolCell

namespace SpoolCell

/-- One submission takes its whole course. -/
theorem accounts_hold_one : ∃ (_ : Digests) (_ : ErrorTexts) (cell : SpoolCell),
    SpoolCell.open sampleJournal oneAtATime .empty = .ok cell ∧
    let last := Machine.run step cell (.submit (oneRecord 1 0) :: wholeCourse 0)
    last.calls.all Course.idle = true ∧ last.shared.reservedBytes = 0 := by
  refine ⟨sampleDigests, sampleTexts, _, rfl, by decide +kernel, ?_⟩
  have held := @accounts_hold sampleDigests sampleTexts sampleJournal oneAtATime .empty _ rfl
    ⟨by decide, by decide, by decide⟩ (.submit (oneRecord 1 0) :: wholeCourse 0) (by decide +kernel)
  exact (held.1 (by decide +kernel)).1

/-- A call that finds the completion queue full is refused, and what it reserved stays reserved
when every submission is over. -/
theorem reservation_leaks : ∃ (_ : Digests) (_ : ErrorTexts) (cell : SpoolCell),
    SpoolCell.open sampleJournal oneAtATime .empty = .ok cell ∧
    let last := Machine.run step cell
      (.submit (oneRecord 1 0) :: .submit (oneRecord 2 0) ::
        (List.replicate 6 (.advance 0 served) ++ List.replicate 3 (.advance 1 served) ++
          wholeCourse 0))
    last.calls.all Course.idle = true ∧ last.calls[1]? = some (.refused .capacityExceeded) ∧
      last.shared.reservedBytes ≠ 0 ∧ last.shared.reservedFrames = 2 := by
  refine ⟨sampleDigests, sampleTexts, _, rfl, ?_⟩
  decide +kernel

end SpoolCell

end Scripture.Spool
