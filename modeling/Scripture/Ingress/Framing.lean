import Scripture.Ingress.RawLines

set_option autoImplicit false

/- The records of a raw-lines connection against the stream it serves. The lines of a stream, and
the submissions they make up, are defined on the whole stream; the task finds them piece by
piece. -/
namespace Scripture

open ByteFormat

namespace RawLines

/-- The lines of these bytes behind a part of a line, and the part of a line they end with. -/
def splitLines : Bytes → Bytes → List Bytes × Bytes
  | line, [] => ([], line)
  | line, byte :: rest =>
      if byte = newline then
        let (lines, last) := splitLines [] rest
        (dropReturn line :: lines, last)
      else splitLines (line ++ [byte]) rest

/-- Between two lines: whether a batch is being collected. An empty batch ends the connection. -/
inductive Grouping where
  | ready
  | collecting (left : Nat) (lines : List Bytes)
  | stopped
  deriving DecidableEq

def groupLine : Grouping → Bytes → List (List Bytes) × Grouping
  | .ready, line =>
      match parseBatchHeader line with
      | none => ([[line]], .ready)
      | some 0 => ([], .stopped)
      | some (left + 1) => ([], .collecting left [])
  | .collecting 0 lines, line => ([lines ++ [line]], .ready)
  | .collecting (left + 1) lines, line => ([], .collecting left (lines ++ [line]))
  | .stopped, _ => ([], .stopped)

def groupLines : Grouping → List Bytes → List (List Bytes) × Grouping
  | grouping, [] => ([], grouping)
  | grouping, line :: rest =>
      let (groups, next) := groupLine grouping line
      let (later, last) := groupLines next rest
      (groups ++ later, last)

/-- The payloads of the submissions a stream asks for. -/
def requested (stream : Bytes) : List (List Bytes) :=
  (groupLines .ready (splitLines [] stream).1).1

theorem splitLines_append (line front back : Bytes) :
    splitLines line (front ++ back) =
      ((splitLines line front).1 ++ (splitLines (splitLines line front).2 back).1,
        (splitLines (splitLines line front).2 back).2) := by
  induction front generalizing line with
  | nil => rfl
  | cons byte rest ih =>
      simp only [List.cons_append, splitLines]
      split
      · simp [ih]
      · exact ih _

theorem groupLines_append (grouping : Grouping) (front back : List Bytes) :
    groupLines grouping (front ++ back) =
      ((groupLines grouping front).1 ++ (groupLines (groupLines grouping front).2 back).1,
        (groupLines (groupLines grouping front).2 back).2) := by
  induction front generalizing grouping with
  | nil => rfl
  | cons line rest ih => simp [groupLines, ih]

/-- Reading these bytes leads to this part of a line and this batch, with these submissions. -/
def Frames (bytes : Bytes) (groups : List (List Bytes)) (line : Bytes) (grouping : Grouping) :
    Prop :=
  ∃ lines, splitLines [] bytes = (lines, line) ∧ groupLines .ready lines = (groups, grouping)

variable {groups : List (List Bytes)}

theorem Frames.requested_eq {bytes line : Bytes} {grouping : Grouping}
    (frames : Frames bytes groups line grouping) : requested bytes = groups := by
  obtain ⟨lines, split, grouped⟩ := frames
  rw [requested, split, grouped]

theorem Frames.extend {bytes line more left : Bytes} {grouping : Grouping}
    (frames : Frames bytes groups line grouping) (split : splitLines line more = ([], left)) :
    Frames (bytes ++ more) groups left grouping := by
  obtain ⟨lines, before, grouped⟩ := frames
  refine ⟨lines, ?_, grouped⟩
  rw [splitLines_append, before, split, List.append_nil]

theorem Frames.line {bytes line more payload : Bytes} {grouping : Grouping}
    (frames : Frames bytes groups line grouping) (split : splitLines line more = ([payload], [])) :
    Frames (bytes ++ more) (groups ++ (groupLine grouping payload).1) []
      (groupLine grouping payload).2 := by
  obtain ⟨lines, before, grouped⟩ := frames
  refine ⟨lines ++ [payload], ?_, ?_⟩
  · rw [splitLines_append, before, split]
  · rw [groupLines_append, grouped]
    simp [groupLines]

theorem requested_append (bytes more : Bytes) :
    ∃ later, requested (bytes ++ more) = requested bytes ++ later := by
  unfold requested
  rw [splitLines_append, groupLines_append]
  exact ⟨_, rfl⟩

section reads

variable {maxLineBytes : Nat} {ended : Option InputEnd} {line arrived : Bytes}

theorem readCappedLine_line {payload unread : Bytes}
    (read : readCappedLine maxLineBytes ended line arrived = .line payload unread) :
    ∃ front, arrived = front ++ unread ∧ splitLines line front = ([payload], []) := by
  induction arrived generalizing line with
  | nil =>
      simp only [readCappedLine] at read
      repeat' split at read
      all_goals cases read
  | cons byte rest ih =>
      simp only [readCappedLine] at read
      split at read
      · rename_i isNewline
        cases read
        exact ⟨[byte], rfl, by simp [splitLines, isNewline]⟩
      · rename_i inner
        split at read
        · cases read
        · obtain ⟨front, rfl, split⟩ := ih read
          exact ⟨byte :: front, rfl, by simpa [splitLines, inner] using split⟩

theorem readCappedLine_waiting {left : Bytes}
    (read : readCappedLine maxLineBytes ended line arrived = .waiting left) :
    splitLines line arrived = ([], left) ∧ newline ∉ arrived := by
  induction arrived generalizing line with
  | nil =>
      simp only [readCappedLine] at read
      repeat' split at read
      all_goals cases read
      exact ⟨rfl, List.not_mem_nil⟩
  | cons byte rest ih =>
      simp only [readCappedLine] at read
      split at read
      · cases read
      · rename_i inner
        split at read
        · cases read
        · obtain ⟨split, absent⟩ := ih read
          refine ⟨by simpa [splitLines, inner] using split, ?_⟩
          rw [List.mem_cons, not_or]
          exact ⟨fun same => inner same.symm, absent⟩

theorem readCappedLine_closed (read : readCappedLine maxLineBytes ended line arrived = .closed) :
    line = [] ∧ arrived = [] ∧ ended = some .eof := by
  induction arrived generalizing line with
  | nil =>
      simp only [readCappedLine] at read
      split at read
      · cases read
      · split at read
        · rename_i empty
          exact ⟨List.isEmpty_iff.mp empty, rfl, rfl⟩
        · cases read
      · cases read
  | cons byte rest ih =>
      simp only [readCappedLine] at read
      split at read
      · cases read
      · split at read
        · cases read
        · exact absurd (ih read).1 (by simp)

end reads

namespace Connection

def payloads (connection : Connection) : List (List Bytes) :=
  connection.submissions.map fun submission => submission.records.map Record.payload

/-- The bytes read so far make up the submissions so far, these payloads on their way to the sink,
and the open line and batch. -/
def Tracks (connection : Connection) (line : Bytes) (grouping : Grouping)
    (underway : List (List Bytes)) : Prop :=
  ∃ consumed, connection.stream = consumed ++ connection.arrived ∧
    Frames consumed (connection.payloads ++ underway) line grouping

/-- The submissions are the first of those the stream asks for. -/
def Begun (connection : Connection) : Prop :=
  ∃ later, requested connection.stream = connection.payloads ++ later

/-- The stream has ended, and all it asks for was submitted. -/
def Complete (connection : Connection) : Prop :=
  connection.ended.isSome ∧ requested connection.stream = connection.payloads

/-- What the submissions are to the stream while the task is in a phase. -/
inductive Standing where
  | tracking (line : Bytes) (grouping : Grouping) (underway : List (List Bytes))
  | complete
  | begun
  | atEnd

def Meets (connection : Connection) : Standing → Prop
  | .tracking line grouping underway => connection.Tracks line grouping underway
  | .complete => connection.Complete
  | .begun => connection.Begun
  | .atEnd => connection.Complete ∨ connection.Begun ∧ ∃ reason, .err reason ∈ connection.output

end Connection

def drainStanding : Option String → Connection.Standing
  | none => .complete
  | some _ => .begun

def Phase.standing : Phase → Connection.Standing
  | .loop | .head | .submitting .. | .flushing .loop | .flushing .head => .tracking [] .ready []
  | .acknowledging _ .loop | .acknowledging _ .head => .tracking [] .ready []
  | .reading line | .selecting line => .tracking line .ready []
  | .batch _ left lines line => .tracking line (.collecting left lines) []
  | .reservingAssignment _ payloads _ | .reservingNode _ payloads _ =>
      .tracking [] .ready [payloads]
  | .flushing .finish => .complete
  | .flushing (.drain reason) | .draining reason | .awaiting _ reason => drainStanding reason
  | .acknowledging _ (.drain reason) => drainStanding reason
  | .done (.ok ()) => .atEnd
  | .failing _ _ | .done (.error _) | .panicked => .begun

namespace Connection

/-- The stream and the submissions stand as the phase has it. -/
def Framed (connection : Connection) : Prop := connection.Meets connection.phase.standing

variable {connection : Connection}

theorem Tracks.begun {line : Bytes} {grouping : Grouping} {underway : List (List Bytes)}
    (tracks : connection.Tracks line grouping underway) :
    connection.Begun := by
  obtain ⟨consumed, whole, frames⟩ := tracks
  obtain ⟨later, requests⟩ := requested_append consumed connection.arrived
  refine ⟨underway ++ later, ?_⟩
  rw [whole, requests, frames.requested_eq, List.append_assoc]

theorem Complete.begun (complete : connection.Complete) :
    connection.Begun := ⟨[], by rw [complete.2, List.append_nil]⟩

theorem Meets.begun {standing : Standing} (meets : connection.Meets standing) :
    connection.Begun := by
  cases standing with
  | tracking line grouping underway => exact Tracks.begun meets
  | complete => exact Complete.begun meets
  | begun => exact meets
  | atEnd => exact meets.elim Complete.begun And.left

/-- What the framing looks at is the same in both. -/
structure SameText (before after : Connection) : Prop where
  stream : after.stream = before.stream
  arrived : after.arrived = before.arrived
  ended : after.ended = before.ended
  submissions : after.submissions = before.submissions
  output : after.output = before.output

theorem Meets.same {before after : Connection} {standing : Standing}
    (meets : before.Meets standing) (same : SameText before after) : after.Meets standing := by
  cases standing <;>
    simpa only [Meets, Tracks, Begun, Complete, payloads, same.stream, same.arrived, same.ended,
      same.submissions, same.output] using meets

/-- A step that leaves the text alone may only weaken the standing. -/
theorem Meets.move {before after : Connection} {standing : Standing}
    (meets : before.Meets standing) (same : SameText before after)
    (stands : after.phase.standing = standing ∨ after.phase.standing = .begun) : after.Framed := by
  have carried := meets.same same
  unfold Framed
  rcases stands with kept | weak
  · rw [kept]
    exact carried
  · rw [weak]
    exact carried.begun

section steps

variable {config : RawLinesConfig} {connection : Connection}

theorem refuse_framed (raced : Bool) (reason : String) (begun : connection.Begun) :
    (connection.refuse raced reason).Framed := by
  cases raced <;> exact begun

variable {payloads : List Bytes} {line : Bytes}

theorem submit_framed (raced : Bool) (reserved : Bool)
    (tracks : connection.Tracks [] .ready [payloads]) :
    (connection.submit config raced payloads reserved).Framed := by
  obtain ⟨consumed, whole, frames⟩ := tracks
  refine ⟨consumed, whole, ?_⟩
  simpa [submit, Connection.payloads, Function.comp_def] using frames

theorem admitRecords_framed (raced : Bool) (tracks : connection.Tracks [] .ready [payloads]) :
    (connection.admitRecords config raced payloads).Framed := by
  unfold admitRecords
  split
  · exact refuse_framed raced _ tracks.begun
  · split
    · exact refuse_framed raced _ tracks.begun
    · split
      · exact tracks
      · exact submit_framed raced false tracks

theorem admitPayload_framed (raced : Bool)
    (tracks : connection.Tracks [] (groupLine .ready line).2 (groupLine .ready line).1) :
    (connection.admitPayload config raced line).Framed := by
  unfold admitPayload
  simp only [groupLine] at tracks
  split
  · rename_i plain
    simp only [plain] at tracks
    exact admitRecords_framed raced tracks
  · exact refuse_framed raced _ tracks.begun
  · rename_i left header
    simp only [header] at tracks
    split
    · exact tracks.begun
    · exact tracks

/-- A line that was read makes one step of the grouping. -/
theorem Tracks.readLine {payload unread : Bytes} {grouping : Grouping}
    (tracks : connection.Tracks line grouping [])
    (read : readCappedLine config.maxLineBytes connection.ended line connection.arrived =
      .line payload unread) :
    { connection with arrived := unread }.Tracks [] (groupLine grouping payload).2
      (groupLine grouping payload).1 := by
  obtain ⟨consumed, whole, frames⟩ := tracks
  obtain ⟨front, arrived, split⟩ := readCappedLine_line read
  refine ⟨consumed ++ front, ?_, ?_⟩
  · rw [List.append_assoc, ← arrived]
    exact whole
  · rw [List.append_nil] at frames
    exact frames.line split

theorem Tracks.readPart {left : Bytes} {grouping : Grouping}
    (tracks : connection.Tracks line grouping [])
    (read : readCappedLine config.maxLineBytes connection.ended line connection.arrived =
      .waiting left) :
    { connection with arrived := [] }.Tracks left grouping [] := by
  obtain ⟨consumed, whole, frames⟩ := tracks
  refine ⟨consumed ++ connection.arrived, ?_, frames.extend (readCappedLine_waiting read).1⟩
  rw [List.append_nil]
  exact whole

/-- The select keeps the part of a line it has read, or has none. -/
theorem readNext_framed (raced : Bool) (tracks : connection.Tracks line .ready [])
    (kept : raced → connection.elapsed → ∀ left,
      readCappedLine config.maxLineBytes connection.ended line connection.arrived = .waiting left →
        left = []) :
    (connection.readNext config raced line).Framed := by
  unfold readNext
  split
  · rename_i payload unread read
    exact admitPayload_framed raced (tracks.readLine read)
  · rename_i read
    obtain ⟨rfl, drained, closed⟩ := readCappedLine_closed read
    have complete : connection.Complete := by
      obtain ⟨consumed, whole, frames⟩ := tracks
      rw [drained, List.append_nil] at whole
      refine ⟨by simp [closed], ?_⟩
      rw [whole, frames.requested_eq, List.append_nil]
    cases raced <;> exact complete
  · cases raced <;> exact tracks.begun
  · exact tracks.begun
  · rename_i left read
    have parted := tracks.readPart read
    cases raced with
    | false => exact parted
    | true =>
        by_cases elapsed : connection.elapsed
        · obtain rfl := kept rfl elapsed left read
          rw [if_neg (by simp), if_pos elapsed]
          exact parted
        · rw [if_neg (by simp), if_neg elapsed]
          exact parted

theorem readBatch_framed (raced : Bool) {left : Nat} {lines : List Bytes}
    (tracks : connection.Tracks line (.collecting left lines) []) :
    (connection.readBatch config raced left lines line).Framed := by
  unfold readBatch
  split
  · rename_i payload unread read
    have further := tracks.readLine read
    cases left with
    | zero => exact admitRecords_framed raced further
    | succ left => exact further
  · exact refuse_framed raced _ tracks.begun
  · exact refuse_framed raced _ tracks.begun
  · exact refuse_framed raced _ tracks.begun
  · rename_i left read
    exact tracks.readPart read

theorem settle_framed (head : Pending) (rest : List Pending) (outcome : Except String Receipt)
    {next : AfterOk} {standing : Standing} (meets : connection.Meets standing)
    (follows : ∀ receipt, (Phase.acknowledging receipt next).standing = standing) :
    (connection.settle head rest outcome next).Framed := by
  refine meets.move ⟨by simp [settle], by simp [settle], by simp [settle], by simp [settle],
    by simp [settle]⟩ ?_
  cases outcome with
  | ok receipt => exact .inl (follows receipt)
  | error reason => exact .inr rfl

theorem enterLoop_framed (tracks : connection.Tracks [] .ready []) :
    (connection.enterLoop config).Framed := by
  unfold enterLoop
  repeat' split
  all_goals exact tracks

theorem reserveAssignment_framed (budgets : IngressBudgets) (raced : Bool) (stage : ReserveStage)
    (spurious : Bool) (tracks : connection.Tracks [] .ready [payloads]) :
    (connection.reserveAssignment budgets raced payloads stage spurious).Framed := by
  unfold reserveAssignment
  dsimp only
  split
  · exact tracks
  · exact tracks
  · exact refuse_framed raced _ tracks.begun

theorem reserveNode_framed (budgets : IngressBudgets) (raced : Bool) (stage : ReserveStage)
    (spurious : Bool) (tracks : connection.Tracks [] .ready [payloads]) :
    (connection.reserveNode config budgets raced payloads stage spurious).Framed := by
  unfold reserveNode
  dsimp only
  split
  · exact tracks
  · exact submit_framed raced true tracks
  · exact refuse_framed raced _ tracks.begun

variable (config) in
/-- The part of a line that a poll of the select reads and gives up. -/
def givenUp (connection : Connection) : Bytes :=
  match connection.phase, connection.pending with
  | .selecting line, head :: _ =>
      if (connection.receipts head.ticket).isSome then line
      else if connection.elapsed then
        match readCappedLine config.maxLineBytes connection.ended line connection.arrived with
        | .waiting left => left
        | _ => []
      else []
  | _, _ => []

theorem select_framed (framed : connection.Framed)
    (selecting : connection.phase = .selecting line) (kept : connection.givenUp config = []) :
    (connection.select config line).Framed := by
  have tracks : connection.Tracks line .ready [] := by
    rw [Framed, selecting] at framed
    exact framed
  unfold select
  split
  · exact framed
  · rename_i head rest queue
    simp only [givenUp, selecting, queue] at kept
    split
    · rename_i outcome resolved
      obtain rfl : line = [] := by simpa [resolved] using kept
      exact @settle_framed _ head rest outcome _ (.tracking [] .ready []) tracks fun _ => rfl
    · rename_i unresolved
      apply readNext_framed true tracks
      intro _ elapsed left read
      simpa [unresolved, elapsed, read] using kept

theorem awaitHead_framed (framed : connection.Framed) (waiting : connection.phase = .head) :
    connection.awaitHead.Framed := by
  have meets : connection.Meets (.tracking [] .ready []) := by
    rw [Framed, waiting] at framed
    exact framed
  unfold awaitHead
  split
  · exact framed
  · split
    · exact settle_framed _ _ _ meets fun _ => rfl
    · exact framed

theorem drainNext_framed {reason : Option String}
    (meets : connection.Meets (drainStanding reason)) :
    (connection.drainNext reason).Framed := by
  unfold drainNext
  split
  · split
    · exact .inl meets
    · exact meets
  · refine meets.move ⟨by simp, by simp, by simp, by simp, by simp⟩ (.inl rfl)

theorem awaitDrained_framed {entry : Pending} {reason : Option String} (framed : connection.Framed)
    (waiting : connection.phase = .awaiting entry reason) :
    (connection.awaitDrained entry reason).Framed := by
  have meets : connection.Meets (drainStanding reason) := by
    rw [Framed, waiting] at framed
    exact framed
  unfold awaitDrained
  split
  · exact framed
  · exact meets
  · exact meets.begun

theorem onSubmitted_framed (raced : Bool) (payloadBytes recordCount : Nat) (reserved : Bool)
    (reply : Except String Unit) (tracks : connection.Tracks [] .ready []) :
    (connection.onSubmitted raced payloadBytes recordCount reserved reply).Framed := by
  cases reply with
  | ok done => exact tracks
  | error reason =>
      apply refuse_framed
      have same : SameText connection (connection.release reserved recordCount payloadBytes) :=
        ⟨by simp, by simp, by simp, by simp, by simp⟩
      exact @Meets.same _ _ .begun tracks.begun same

theorem onFlushed_framed {next : AfterFlush} (reply : Except String Unit)
    (meets : connection.Meets (Phase.flushing next).standing) :
    (connection.onFlushed next reply).Framed := by
  cases reply with
  | error reason => exact meets.begun
  | ok done =>
      cases next with
      | finish => exact .inl meets
      | drain reason => exact meets
      | loop => exact meets
      | head => exact meets

/-- An `OK` adds to the output only. -/
theorem Meets.written {standing : Standing} (reply : Reply) (meets : connection.Meets standing) :
    { connection with output := connection.output ++ [reply] }.Meets standing := by
  cases standing with
  | tracking line grouping underway => exact meets
  | complete => exact meets
  | begun => exact meets
  | atEnd =>
      rcases meets with complete | ⟨begun, reason, member⟩
      · exact .inl complete
      · exact .inr ⟨begun, reason, List.mem_append_left _ member⟩

theorem onAcknowledged_framed (receipt : Receipt) {next : AfterOk} (reply : Except String Unit)
    (meets : connection.Meets (Phase.acknowledging receipt next).standing) :
    (connection.onAcknowledged receipt next reply).Framed := by
  cases reply with
  | error reason => exact meets.begun
  | ok done =>
      have written := meets.written (.ok receipt.firstOffset receipt.nextOffset)
      cases next with
      | loop => exact written
      | drain reason => exact written
      | head =>
          refine written.move ⟨rfl, rfl, rfl, rfl, rfl⟩ ?_
          simp only [onAcknowledged]
          split
          · exact .inr rfl
          · exact .inl rfl

theorem onFailed_framed (reason : String) (next : Option String) (reply : Except String Unit)
    (begun : connection.Begun) : (connection.onFailed reason next reply).Framed := by
  cases reply with
  | error failure => exact begun
  | ok done =>
      cases next with
      | none => exact .inr ⟨begun, reason, List.mem_append_right _ (List.mem_singleton_self _)⟩
      | some next => exact begun

theorem arrive_framed {standing : Standing} (bytes : Bytes) (fresh : connection.ended = none)
    (meets : connection.Meets standing) :
    { connection with
      stream := connection.stream ++ bytes
      arrived := connection.arrived ++ bytes }.Meets standing := by
  have ongoing : ¬ connection.Complete := by
    rintro ⟨ended, -⟩
    rw [fresh] at ended
    cases ended
  have further : connection.Begun → { connection with
      stream := connection.stream ++ bytes
      arrived := connection.arrived ++ bytes }.Begun := by
    rintro ⟨later, requests⟩
    obtain ⟨more, requestsMore⟩ := requested_append connection.stream bytes
    refine ⟨later ++ more, ?_⟩
    rw [requestsMore, requests, List.append_assoc]
    rfl
  cases standing with
  | tracking line grouping underway =>
      obtain ⟨consumed, whole, frames⟩ := meets
      refine ⟨consumed, ?_, frames⟩
      rw [whole, List.append_assoc]
  | complete => exact absurd meets ongoing
  | begun => exact further meets
  | atEnd =>
      rcases meets with complete | ⟨begun, failed⟩
      · exact absurd complete ongoing
      · exact .inr ⟨further begun, failed⟩

theorem finish_framed {standing : Standing} (ending : InputEnd)
    (meets : connection.Meets standing) :
    { connection with ended := some ending }.Meets standing := by
  cases standing with
  | tracking line grouping underway => exact meets
  | complete => exact ⟨rfl, meets.2⟩
  | begun => exact meets
  | atEnd =>
      rcases meets with complete | failed
      · exact .inl ⟨rfl, complete.2⟩
      · exact .inr failed

variable (config) in
/-- The event is no poll that gives up bytes of a line. -/
def Undisturbed (connection : Connection) (event : Event) : Prop :=
  event.isPoll → connection.givenUp config = []

instance (event : Event) : Decidable (connection.Undisturbed config event) :=
  inferInstanceAs (Decidable (_ → _))

theorem poll_framed (spurious : Bool) (framed : connection.Framed)
    (undisturbed : connection.Undisturbed config (.poll spurious)) :
    (connection.poll config spurious).Framed := by
  have meets : connection.Meets connection.phase.standing := framed
  unfold poll
  split
  · rename_i phase
    rw [phase] at meets
    exact enterLoop_framed meets
  · rename_i phase
    rw [phase] at meets
    exact readNext_framed false meets nofun
  · rename_i phase
    exact select_framed framed phase (undisturbed rfl)
  · rename_i phase
    rw [phase] at meets
    exact readBatch_framed _ meets
  · rename_i phase _
    rw [phase] at meets
    exact reserveAssignment_framed _ _ _ _ meets
  · rename_i phase _
    rw [phase] at meets
    exact reserveNode_framed _ _ _ _ meets
  · rename_i phase
    exact awaitHead_framed framed phase
  · rename_i phase
    rw [phase] at meets
    exact drainNext_framed meets
  · rename_i phase
    exact awaitDrained_framed framed phase
  · exact framed

theorem withOthers_same (pool : Pool) (holding : Holding) (budgets : Option IngressBudgets) :
    SameText connection { connection.withOthers pool holding with budgets := budgets } := by
  cases pool <;> exact ⟨rfl, rfl, rfl, rfl, rfl⟩

theorem step_framed (connection : Connection) (event : Event) (framed : connection.Framed)
    (undisturbed : connection.Undisturbed config event) :
    (connection.step config event).Framed := by
  have meets : connection.Meets connection.phase.standing := framed
  cases event with
  | arrive bytes =>
      simp only [step]
      split
      · exact framed
      · rename_i fresh
        exact arrive_framed bytes (by simpa using fresh) meets
  | finish ending =>
      simp only [step]
      split
      · exact framed
      · exact finish_framed ending meets
  | resolve ticket outcome =>
      simp only [step]
      split
      · exact framed
      · exact meets.move ⟨rfl, rfl, rfl, rfl, rfl⟩ (.inl rfl)
  | elapse =>
      simp only [step]
      split
      · exact meets.move ⟨rfl, rfl, rfl, rfl, rfl⟩ (.inl rfl)
      · exact framed
  | reserveElsewhere pool amount =>
      refine meets.move (withOthers_same pool _ _) (.inl ?_)
      cases pool <;> rfl
  | releaseElsewhere pool amount =>
      simp only [step, releaseElsewhere]
      split
      · refine meets.move (withOthers_same pool _ _) (.inl ?_)
        cases pool <;> rfl
      · exact framed
  | submitted reply =>
      simp only [step]
      split
      · rename_i phase
        rw [phase] at meets
        exact onSubmitted_framed _ _ _ _ reply meets
      · exact framed
  | flushed reply =>
      simp only [step]
      split
      · rename_i phase
        rw [phase] at meets
        exact onFlushed_framed reply meets
      · exact framed
  | wrote reply =>
      simp only [step]
      split
      · rename_i phase
        rw [phase] at meets
        exact onAcknowledged_framed _ reply meets
      · rename_i phase
        rw [phase] at meets
        exact onFailed_framed _ _ reply meets
      · exact framed
  | poll spurious => exact poll_framed spurious framed undisturbed

theorem accepted_framed (producerId : ProducerId) (sequence : UInt64)
    (budgets : Option IngressBudgets) : (accepted producerId sequence budgets).Framed :=
  ⟨[], rfl, [], rfl, rfl⟩

end steps

/-- Along a run in which no select gives up a line it has begun to read, the submissions are the
first of those the stream asks for. They are all of them whenever the task waits for input with
nothing left to read, and when it ends without an error. -/
theorem run_records (config : RawLinesConfig) (producerId : ProducerId) (sequence : UInt64)
    (budgets : Option IngressBudgets) (events : List Event)
    (undisturbed : Machine.Along (step config) (Undisturbed config)
      (accepted producerId sequence budgets) events) :
    let connection := (accepted producerId sequence budgets).run config events
    (∃ later, requested connection.stream = connection.payloads ++ later) ∧
      (∀ line, connection.phase = .reading line ∨ connection.phase = .selecting line →
        connection.arrived = [] → connection.payloads = requested connection.stream) ∧
      (connection.phase = .done (.ok ()) → (∀ reason, .err reason ∉ connection.output) →
        connection.payloads = requested connection.stream) := by
  intro connection
  have framed : connection.Framed :=
    undisturbed.invariant step_framed (accepted_framed producerId sequence budgets)
  refine ⟨framed.begun, ?_, ?_⟩
  · intro line waiting drained
    have tracks : connection.Tracks line .ready [] := by
      rcases waiting with reading | selecting
      · rw [Framed, reading] at framed
        exact framed
      · rw [Framed, selecting] at framed
        exact framed
    obtain ⟨consumed, whole, frames⟩ := tracks
    rw [drained, List.append_nil] at whole
    rw [whole, frames.requested_eq, List.append_nil]
  · intro finished clean
    rw [Framed, finished] at framed
    rcases framed with complete | ⟨-, reason, failed⟩
    · exact complete.2.symm
    · exact absurd failed (clean reason)

def shortConfig : RawLinesConfig :=
  ⟨8, 4, 64, none, .empty, by decide, by decide, by decide, by decide⟩

def smallReceipt (first next : Nat) : Receipt :=
  ⟨.committed, ⟨repeated 16 1⟩, .ofNat first, .ofNat next, ⟨repeated 16 2⟩, 0, 0, false⟩

/-- The first line is submitted, and the second is read up to the byte in the middle. -/
def firstLineAndHalf : List Event :=
  [.poll false, .arrive [0x61, newline], .poll false, .submitted (.ok ()), .poll false,
    .arrive [0x62], .poll false]

/-- The rest of the second line. -/
def otherHalf : List Event := [.arrive [0x63, newline], .poll false]

/-- The receipt of the first line. -/
def firstReceipt : List Event :=
  [.resolve 0 (.ok (smallReceipt 0 1)), .poll false, .wrote (.ok ()), .poll false]

theorem run_records_halves :
    Machine.Along (step shortConfig) (Undisturbed shortConfig) (accepted ⟨repeated 16 7⟩ 0 none)
        (firstLineAndHalf ++ otherHalf) ∧
      (∃ later, requested [0x61, newline, 0x62, 0x63, newline] =
        [[[0x61]], [[0x62, 0x63]]] ++ later) := by
  have undisturbed : Machine.Along (step shortConfig) (Undisturbed shortConfig)
      (accepted ⟨repeated 16 7⟩ 0 none) (firstLineAndHalf ++ otherHalf) := by decide +kernel
  exact ⟨undisturbed, (run_records shortConfig _ 0 none _ undisturbed).1⟩

/-- The receipt of the first line comes while the second is half read: its first half is lost. -/
theorem run_records_lost :
    let connection := (accepted ⟨repeated 16 7⟩ 0 none).run shortConfig
      (firstLineAndHalf ++ firstReceipt ++ otherHalf)
    requested connection.stream = [[[0x61]], [[0x62, 0x63]]] ∧
      connection.payloads = [[[0x61]], [[0x63]]] := by decide +kernel

end Connection

end RawLines

end Scripture
