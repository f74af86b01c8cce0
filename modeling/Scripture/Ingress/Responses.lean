import Scripture.Ingress.Framing

set_option autoImplicit false

/- What a raw-lines connection answers and what it holds of the budgets. -/
namespace Scripture

open ByteFormat

namespace Holding

@[simp] theorem add_none (holding : Holding) : holding.add none = holding := rfl

@[simp] theorem none_add (holding : Holding) : none.add holding = holding := by
  ext <;> simp

theorem add_comm (left right : Holding) : left.add right = right.add left := by
  ext <;> simp [Nat.add_comm]

theorem add_assoc (first second third : Holding) :
    (first.add second).add third = first.add (second.add third) := by
  ext <;> simp [Nat.add_assoc]

end Holding

namespace RawLines

/-- What a reservation of this size holds, if it was made. -/
def held (reserved : Bool) (records bytes : Nat) : Holding :=
  if reserved then ⟨records, bytes⟩ else .none

def Pending.holding (entry : Pending) : Holding :=
  held entry.budgetReserved entry.recordCount entry.payloadBytes

def holdings : List Pending → Holding
  | [] => .none
  | entry :: rest => (holdings rest).add entry.holding

theorem holdings_concat (pending : List Pending) (entry : Pending) :
    holdings (pending ++ [entry]) = (holdings pending).add entry.holding := by
  induction pending with
  | nil => rfl
  | cons first rest ih =>
      simp only [List.cons_append, holdings, ih, Holding.add_assoc]
      rw [Holding.add_comm entry.holding]

/-- The replies are the receipts of the first submissions that were admitted, in their order. -/
def Oks (receipts : Nat → Option (Except String Receipt)) (admitted : Nat) (replies : List Reply) :
    Prop :=
  ∀ index reply, replies[index]? = some reply → index < admitted ∧
    ∃ receipt, receipts index = some (.ok receipt) ∧
      reply = .ok receipt.firstOffset receipt.nextOffset

theorem Oks.concat {receipts : Nat → Option (Except String Receipt)} {admitted : Nat}
    {replies : List Reply} {receipt : Receipt} (oks : Oks receipts admitted replies)
    (unanswered : replies.length < admitted)
    (resolved : receipts replies.length = some (.ok receipt)) :
    Oks receipts admitted (replies ++ [.ok receipt.firstOffset receipt.nextOffset]) := by
  intro index reply found
  by_cases before : index < replies.length
  · rw [List.getElem?_append_left before] at found
    exact oks index reply found
  · rw [List.getElem?_append_right (by omega)] at found
    obtain ⟨rfl, same⟩ : index = replies.length ∧
        .ok receipt.firstOffset receipt.nextOffset = reply := by
      have bounds := (List.getElem?_eq_some_iff.mp found).1
      simp only [List.length_singleton] at bounds
      have place : index - replies.length = 0 := by omega
      rw [place] at found
      exact ⟨by omega, by simpa using found⟩
    exact ⟨unanswered, receipt, resolved, same.symm⟩

theorem range_append_cons {count total ticket : Nat} {rest : List Nat}
    (whole : List.range count ++ ticket :: rest = List.range total) :
    ticket = count ∧ count < total := by
  have lengths := congrArg List.length whole
  simp only [List.length_append, List.length_range, List.length_cons] at lengths
  have entry := congrArg (fun list => list[count]?) whole
  refine ⟨?_, by omega⟩
  simpa [List.getElem?_append_right, List.getElem?_range (by omega : count < total)] using entry

/-- A read that does not end the connection on the spot. -/
def LineRead.tolerable : LineRead → Bool
  | .line payload _ => (parseBatchHeader payload).all fun count => !overCapacity count
  | .failed _ => false
  | _ => true

/-- The receipt is there, and is an error. -/
def refused : Option (Except String Receipt) → Bool
  | some (.error _) => true
  | _ => false

/-- All `OK`s, then at most one `ERR`. -/
def WellAnswered (receipts : Nat → Option (Except String Receipt)) (admitted : Nat)
    (output : List Reply) : Prop :=
  ∃ oks failure, output = oks ++ failure ∧ Oks receipts admitted oks ∧
    (failure = [] ∨ ∃ reason, failure = [.err reason])

/-- The part of a connection that answers and holds. -/
structure Desk where
  receipts : Nat → Option (Except String Receipt)
  output : List Reply
  pending : List Pending
  admitted : Nat
  pendingBytes : Nat
  budgets : Option IngressBudgets
  nodeOthers : Holding
  assignmentOthers : Holding

def Connection.desk (connection : Connection) : Desk where
  receipts := connection.receipts
  output := connection.output
  pending := connection.pending
  admitted := connection.admitted
  pendingBytes := connection.pendingBytes
  budgets := connection.budgets
  nodeOthers := connection.nodeOthers
  assignmentOthers := connection.assignmentOthers

/-- What the desk holds while the task is in a phase. -/
inductive Footing where
  | working
  | admitting (raced : Bool) (assignment node : Holding)
  | awaiting (ticket : Nat)
  | acknowledging (receipt : Receipt)
  | failing (next : Option String)
  | atEnd

namespace Desk

/-- The counters are what the others hold and these amounts. -/
def Accounts (desk : Desk) (assignment node : Holding) : Prop :=
  ∀ budgets, desk.budgets = some budgets →
    budgets.assignment.Carries desk.assignmentOthers assignment ∧
      budgets.node.Carries desk.nodeOthers node

/-- The queue holds the tickets that follow the answered ones and those taken off it. -/
structure Books (config : RawLinesConfig) (desk : Desk) (taken : List Nat)
    (assignment node : Holding) : Prop where
  oks : Oks desk.receipts desk.admitted desk.output
  queue : List.range desk.output.length ++ (taken ++ desk.pending.map Pending.ticket) =
    List.range desk.admitted
  size : desk.pendingBytes = (desk.pending.map Pending.payloadBytes).sum
  bound : desk.pendingBytes ≤ config.maxPendingBytes
  accounts : desk.Accounts ((holdings desk.pending).add assignment)
    ((holdings desk.pending).add node)

/-- Nothing is pending and nothing is held. -/
structure Clear (desk : Desk) : Prop where
  empty : desk.pending = []
  size : desk.pendingBytes = 0
  accounts : desk.Accounts .none .none

/-- There is room for a line when one was asked for. -/
def Opening (config : RawLinesConfig) (desk : Desk) (raced : Bool) : Prop :=
  if raced then desk.pendingBytes ≤ config.maxPendingBytes - config.maxLineBytes
  else desk.pending = []

def Keeps (config : RawLinesConfig) (desk : Desk) : Footing → Prop
  | .working => desk.Books config [] .none .none
  | .admitting raced assignment node =>
      desk.Books config [] assignment node ∧ desk.Opening config raced
  | .awaiting ticket => desk.Books config [ticket] .none .none
  | .acknowledging receipt =>
      desk.Books config [desk.output.length] .none .none ∧
        desk.receipts desk.output.length = some (.ok receipt)
  | .failing next => Oks desk.receipts desk.admitted desk.output ∧ desk.Clear ∧ next = none
  | .atEnd => WellAnswered desk.receipts desk.admitted desk.output ∧ desk.Clear

/-- The admission of a line is open and nothing is reserved for it yet. -/
abbrev Ready (config : RawLinesConfig) (desk : Desk) (raced : Bool) : Prop :=
  desk.Keeps config (.admitting raced .none .none)

variable {config : RawLinesConfig} {desk : Desk}

theorem Books.clear {taken : List Nat} (books : desk.Books config taken .none .none)
    (empty : desk.pending = []) : desk.Clear := by
  refine ⟨empty, ?_, ?_⟩
  · rw [books.size, empty]
    rfl
  · have accounts := books.accounts
    rw [empty] at accounts
    exact accounts

/-- A task may give up when nothing is pending. -/
theorem Books.failing {taken : List Nat} (books : desk.Books config taken .none .none)
    (empty : desk.pending = []) : desk.Keeps config (.failing none) :=
  ⟨books.oks, books.clear empty, rfl⟩

theorem Books.atEnd {taken : List Nat} (books : desk.Books config taken .none .none)
    (empty : desk.pending = []) : desk.Keeps config .atEnd :=
  ⟨⟨_, [], (List.append_nil _).symm, books.oks, .inl rfl⟩, books.clear empty⟩

/-- The front of the queue is the first ticket that is not answered. -/
theorem Books.front {assignment node : Holding} {head : Pending} {rest : List Pending}
    (books : desk.Books config [] assignment node) (queue : desk.pending = head :: rest) :
    head.ticket = desk.output.length := by
  have tickets := books.queue
  rw [queue] at tickets
  exact (range_append_cons tickets).1

theorem Books.recount {taken : List Nat} {assignment node assignmentAfter nodeAfter : Holding}
    {budgets : IngressBudgets} (books : desk.Books config taken assignment node)
    (onAssignment : budgets.assignment.Carries desk.assignmentOthers
      ((holdings desk.pending).add assignmentAfter))
    (onNode : budgets.node.Carries desk.nodeOthers ((holdings desk.pending).add nodeAfter)) :
    { desk with budgets := some budgets }.Books config taken assignmentAfter nodeAfter := by
  refine ⟨books.oks, books.queue, books.size, books.bound, ?_⟩
  intro found mounted
  cases mounted
  exact ⟨onAssignment, onNode⟩

theorem Keeps.resolved {footing : Footing} {receipts : Nat → Option (Except String Receipt)}
    (keeps : desk.Keeps config footing)
    (more : ∀ ticket outcome, desk.receipts ticket = some outcome →
      receipts ticket = some outcome) :
    { desk with receipts := receipts }.Keeps config footing := by
  have answered : ∀ {replies}, Oks desk.receipts desk.admitted replies →
      Oks receipts desk.admitted replies := by
    intro replies oks index reply found
    obtain ⟨admitted, receipt, resolved, same⟩ := oks index reply found
    exact ⟨admitted, receipt, more index _ resolved, same⟩
  have carried : ∀ {taken assignment node}, desk.Books config taken assignment node →
      { desk with receipts := receipts }.Books config taken assignment node :=
    fun books => ⟨answered books.oks, books.queue, books.size, books.bound, books.accounts⟩
  cases footing with
  | working => exact carried keeps
  | admitting raced assignment node => exact ⟨carried keeps.1, keeps.2⟩
  | awaiting ticket => exact carried keeps
  | acknowledging receipt => exact ⟨carried keeps.1, more _ _ keeps.2⟩
  | failing next =>
      obtain ⟨oks, clear, last⟩ := keeps
      exact ⟨answered oks, ⟨clear.empty, clear.size, clear.accounts⟩, last⟩
  | atEnd =>
      obtain ⟨⟨oks, failure, whole, good, bad⟩, clear⟩ := keeps
      exact ⟨⟨oks, failure, whole, answered good, bad⟩, clear.empty, clear.size, clear.accounts⟩

/-- Others use the counters; each change of theirs is one of their holdings. -/
theorem Keeps.shifted {footing : Footing} {budgets : Option IngressBudgets}
    {nodeOthers assignmentOthers : Holding} (keeps : desk.Keeps config footing)
    (shifts : ∀ assignment node, desk.Accounts assignment node →
      Accounts { desk with
        budgets := budgets
        nodeOthers := nodeOthers
        assignmentOthers := assignmentOthers } assignment node) :
    { desk with
      budgets := budgets
      nodeOthers := nodeOthers
      assignmentOthers := assignmentOthers }.Keeps config footing := by
  have carried : ∀ {taken assignment node}, desk.Books config taken assignment node →
      { desk with
        budgets := budgets
        nodeOthers := nodeOthers
        assignmentOthers := assignmentOthers }.Books config taken assignment node :=
    fun books => ⟨books.oks, books.queue, books.size, books.bound, shifts _ _ books.accounts⟩
  cases footing with
  | working => exact carried keeps
  | admitting raced assignment node => exact ⟨carried keeps.1, keeps.2⟩
  | awaiting ticket => exact carried keeps
  | acknowledging receipt => exact ⟨carried keeps.1, keeps.2⟩
  | failing next =>
      obtain ⟨oks, clear, last⟩ := keeps
      exact ⟨oks, ⟨clear.empty, clear.size, shifts _ _ clear.accounts⟩, last⟩
  | atEnd =>
      obtain ⟨answered, clear⟩ := keeps
      exact ⟨answered, clear.empty, clear.size, shifts _ _ clear.accounts⟩

theorem Keeps.answered {footing : Footing} (keeps : desk.Keeps config footing) :
    WellAnswered desk.receipts desk.admitted desk.output := by
  have whole : Oks desk.receipts desk.admitted desk.output →
      WellAnswered desk.receipts desk.admitted desk.output :=
    fun oks => ⟨_, [], (List.append_nil _).symm, oks, .inl rfl⟩
  cases footing with
  | working => exact whole (Books.oks keeps)
  | admitting raced assignment node => exact whole keeps.1.oks
  | awaiting ticket => exact whole (Books.oks keeps)
  | acknowledging receipt => exact whole keeps.1.oks
  | failing next => exact whole keeps.1
  | atEnd => exact keeps.1

theorem Keeps.bounded {footing : Footing} (keeps : desk.Keeps config footing) :
    desk.pendingBytes ≤ config.maxPendingBytes := by
  have spent : desk.Clear → desk.pendingBytes ≤ config.maxPendingBytes := by
    intro clear
    rw [clear.size]
    exact Nat.zero_le _
  cases footing with
  | working => exact Books.bound keeps
  | admitting raced assignment node => exact keeps.1.bound
  | awaiting ticket => exact Books.bound keeps
  | acknowledging receipt => exact keeps.1.bound
  | failing next => exact spent keeps.2.1
  | atEnd => exact spent keeps.2

end Desk

def Phase.footing : Phase → Footing
  | .loop | .head | .flushing .loop | .flushing .head => .working
  | .flushing (.drain _) | .draining _ => .working
  | .reading _ | .flushing .finish => .admitting false .none .none
  | .selecting _ => .admitting true .none .none
  | .batch raced _ _ _ => .admitting raced .none .none
  | .reservingAssignment raced payloads stage => .admitting raced (stage.held payloads.length) .none
  | .reservingNode raced payloads stage =>
      .admitting raced ⟨payloads.length, payloadSize payloads⟩ (stage.held payloads.length)
  | .submitting raced payloadBytes recordCount reserved =>
      .admitting raced (RawLines.held reserved recordCount payloadBytes)
        (RawLines.held reserved recordCount payloadBytes)
  | .awaiting entry _ => .awaiting entry.ticket
  | .acknowledging receipt _ => .acknowledging receipt
  | .failing _ next => .failing next
  | .panicked => .failing none
  | .done _ => .atEnd

namespace Connection

/-- The desk stands as the phase has it. -/
def Kept (config : RawLinesConfig) (connection : Connection) : Prop :=
  connection.desk.Keeps config connection.phase.footing

section steps

variable {config : RawLinesConfig} {connection : Connection}

theorem refuse_kept (raced : Bool) (reason : String) (ready : connection.desk.Ready config raced) :
    (connection.refuse raced reason).Kept config := by
  cases raced with
  | true => exact ready.1
  | false => exact ready.1.failing ready.2

theorem admitRecords_kept (raced : Bool) (payloads : List Bytes)
    (ready : connection.desk.Ready config raced) :
    (connection.admitRecords config raced payloads).Kept config := by
  unfold admitRecords
  split
  · exact refuse_kept raced _ ready
  · split
    · exact refuse_kept raced _ ready
    · split <;> exact ready

variable {raced : Bool}

theorem admitPayload_kept {line : Bytes} (ready : connection.desk.Ready config raced)
    (fits : raced → (parseBatchHeader line).all fun count => !overCapacity count) :
    (connection.admitPayload config raced line).Kept config := by
  unfold admitPayload
  split
  · exact admitRecords_kept raced _ ready
  · exact refuse_kept raced _ ready
  · rename_i left header
    split
    · rename_i atEnd
      cases raced with
      | true => simp [header, atEnd] at fits
      | false => exact ready.1.failing ready.2
    · exact ready

theorem readNext_kept {line : Bytes} (ready : connection.desk.Ready config raced)
    (tolerable : raced →
      (readCappedLine config.maxLineBytes connection.ended line connection.arrived).tolerable) :
    (connection.readNext config raced line).Kept config := by
  unfold readNext
  split
  · rename_i payload unread read
    rw [read] at tolerable
    exact admitPayload_kept ready tolerable
  · cases raced with
    | true => exact ready.1
    | false => exact ready
  · cases raced with
    | true => exact ready.1
    | false => exact ready.1.failing ready.2
  · rename_i error read
    cases raced with
    | true =>
        rw [read] at tolerable
        exact absurd (tolerable rfl) Bool.false_ne_true
    | false => exact ready.1.atEnd ready.2
  · cases raced with
    | false => exact ready
    | true =>
        rw [if_neg (by simp)]
        split
        · exact ready.1
        · exact ready

theorem readBatch_kept (left : Nat) (lines : List Bytes) (line : Bytes)
    (ready : connection.desk.Ready config raced) :
    (connection.readBatch config raced left lines line).Kept config := by
  unfold readBatch
  split
  · cases left with
    | zero => exact admitRecords_kept raced _ ready
    | succ left => exact ready
  · exact refuse_kept raced _ ready
  · exact refuse_kept raced _ ready
  · exact refuse_kept raced _ ready
  · exact ready

theorem reserveAssignment_kept {budgets : IngressBudgets} {payloads : List Bytes}
    {stage : ReserveStage} (spurious : Bool) (mounted : connection.budgets = some budgets)
    (keeps : connection.desk.Keeps config
      (.admitting raced (stage.held payloads.length) .none)) :
    (connection.reserveAssignment budgets raced payloads stage spurious).Kept config := by
  obtain ⟨books, opening⟩ := keeps
  obtain ⟨onAssignment, onNode⟩ := books.accounts budgets mounted
  have carries := PendingBudget.tryReservePending_carries (payloadSize payloads) spurious
    onAssignment
  unfold reserveAssignment
  dsimp only
  split
  · rename_i next reached
    rw [reached] at carries
    exact ⟨books.recount carries onNode, opening⟩
  · rename_i reached
    rw [reached] at carries
    exact ⟨books.recount carries onNode, opening⟩
  · rename_i reached
    rw [reached] at carries
    exact refuse_kept raced _ ⟨books.recount carries onNode, opening⟩

theorem reserveNode_kept {budgets : IngressBudgets} {payloads : List Bytes} {stage : ReserveStage}
    (spurious : Bool) (mounted : connection.budgets = some budgets)
    (keeps : connection.desk.Keeps config
      (.admitting raced ⟨payloads.length, payloadSize payloads⟩ (stage.held payloads.length))) :
    (connection.reserveNode config budgets raced payloads stage spurious).Kept config := by
  obtain ⟨books, opening⟩ := keeps
  obtain ⟨onAssignment, onNode⟩ := books.accounts budgets mounted
  have carries := PendingBudget.tryReservePending_carries (payloadSize payloads) spurious onNode
  unfold reserveNode
  dsimp only
  split
  · rename_i next reached
    rw [reached] at carries
    exact ⟨books.recount onAssignment carries, opening⟩
  · rename_i reached
    rw [reached] at carries
    exact ⟨books.recount onAssignment carries, opening⟩
  · rename_i reached
    rw [reached] at carries
    have released := PendingBudget.releasePending_carries onAssignment
    exact refuse_kept raced _ ⟨books.recount released carries, opening⟩

theorem enterLoop_kept (books : connection.desk.Books config [] .none .none) :
    (connection.enterLoop config).Kept config := by
  unfold enterLoop
  split
  · rename_i empty
    exact ⟨books, List.isEmpty_iff.mp empty⟩
  · split
    · rename_i under
      refine ⟨books, ?_⟩
      simp only [underCap, Bool.and_eq_true, decide_eq_true_eq] at under
      exact under.1.1.2
    · exact books

/-- What is released was held. -/
theorem release_accounts {assignment node : Holding} (reserved : Bool) (records bytes : Nat)
    (accounts : connection.desk.Accounts (assignment.add (held reserved records bytes))
      (node.add (held reserved records bytes))) :
    (connection.release reserved records bytes).desk.Accounts assignment node := by
  cases reserved with
  | false => exact accounts
  | true =>
      intro found mounted
      obtain ⟨budgets, before, rfl⟩ := Option.map_eq_some_iff.mp mounted
      obtain ⟨onAssignment, onNode⟩ := accounts budgets before
      exact ⟨PendingBudget.releasePending_carries onAssignment,
        PendingBudget.releasePending_carries onNode⟩

/-- The head is taken off the queue and its reservation given back. -/
theorem popped_books {head : Pending} {rest : List Pending}
    (books : connection.desk.Books config [] .none .none)
    (queue : connection.pending = head :: rest) :
    ({ connection with
      pending := rest
      pendingBytes := connection.pendingBytes - head.payloadBytes }.release head.budgetReserved
        head.recordCount head.payloadBytes).desk.Books config [head.ticket] .none .none := by
  obtain ⟨oks, tickets, size, bound, accounts⟩ := books
  have pending : connection.desk.pending = head :: rest := queue
  rw [pending] at tickets size accounts
  have total : connection.pendingBytes = head.payloadBytes +
      (rest.map Pending.payloadBytes).sum := size
  constructor
  · simpa [desk] using oks
  · simpa [desk] using tickets
  · simp only [desk, release]
    omega
  · simp only [desk, release] at bound ⊢
    omega
  · simp only [desk]
    exact release_accounts _ _ _ accounts

theorem settle_kept {head : Pending} {rest : List Pending} {outcome : Except String Receipt}
    (next : AfterOk) (books : connection.desk.Books config [] .none .none)
    (queue : connection.pending = head :: rest)
    (resolved : connection.receipts head.ticket = some outcome)
    (last : ∀ reason, outcome = .error reason → rest = []) :
    (connection.settle head rest outcome next).Kept config := by
  have popped := popped_books books queue
  have front := books.front queue
  cases outcome with
  | ok receipt =>
      have length : (connection.settle head rest (.ok receipt) next).desk.output.length =
          head.ticket := by simpa [settle, desk] using front.symm
      refine ⟨?_, ?_⟩
      · rw [length]
        exact popped
      · rw [length]
        simpa [settle, desk] using resolved
  | error reason =>
      obtain rfl := last reason rfl
      exact popped.failing (by simp [desk])

theorem awaitHead_kept (kept : connection.Kept config) (waiting : connection.phase = .head)
    (last : ∀ head rest reason, connection.pending = head :: rest →
      connection.receipts head.ticket = some (.error reason) → rest = []) :
    connection.awaitHead.Kept config := by
  have books : connection.desk.Books config [] .none .none := by
    rw [Kept, waiting] at kept
    exact kept
  unfold awaitHead
  split
  · exact kept
  · rename_i head rest queue
    split
    · rename_i outcome resolved
      apply settle_kept _ books queue resolved
      rintro reason rfl
      exact last head rest reason queue resolved
    · exact kept

theorem select_kept {line : Bytes} (kept : connection.Kept config)
    (selecting : connection.phase = .selecting line)
    (last : ∀ head rest reason, connection.pending = head :: rest →
      connection.receipts head.ticket = some (.error reason) → rest = [])
    (tolerable : ∀ head rest, connection.pending = head :: rest →
      connection.receipts head.ticket = none →
      (readCappedLine config.maxLineBytes connection.ended line connection.arrived).tolerable) :
    (connection.select config line).Kept config := by
  have ready : connection.desk.Ready config true := by
    rw [Kept, selecting] at kept
    exact kept
  unfold select
  split
  · exact kept
  · rename_i head rest queue
    split
    · rename_i outcome resolved
      apply settle_kept _ ready.1 queue resolved
      rintro reason rfl
      exact last head rest reason queue resolved
    · rename_i unresolved
      exact readNext_kept ready fun _ => tolerable head rest queue unresolved

theorem drainNext_kept (reason : Option String)
    (books : connection.desk.Books config [] .none .none) :
    (connection.drainNext reason).Kept config := by
  unfold drainNext
  split
  · rename_i empty
    cases reason with
    | none => exact books.atEnd empty
    | some reason => exact books.failing empty
  · rename_i entry rest queue
    exact popped_books books queue

theorem awaitDrained_kept {entry : Pending} {reason : Option String} (kept : connection.Kept config)
    (waiting : connection.phase = .awaiting entry reason)
    (last : ∀ failure, connection.receipts entry.ticket = some (.error failure) →
      connection.pending = [] ∧ reason = none) :
    (connection.awaitDrained entry reason).Kept config := by
  have books : connection.desk.Books config [entry.ticket] .none .none := by
    rw [Kept, waiting] at kept
    exact kept
  have front : entry.ticket = connection.output.length := (range_append_cons books.queue).1
  unfold awaitDrained
  split
  · exact kept
  · rename_i receipt resolved
    rw [front] at books resolved
    exact ⟨books, resolved⟩
  · rename_i failure resolved
    obtain ⟨empty, rfl⟩ := last failure resolved
    exact books.failing empty

theorem onSubmitted_kept {reserved : Bool} {payloadBytes recordCount : Nat}
    (reply : Except String Unit) (fits : reply = .ok () → payloadBytes ≤ config.maxLineBytes)
    (keeps : connection.desk.Keeps config (.admitting raced
      (held reserved recordCount payloadBytes) (held reserved recordCount payloadBytes))) :
    (connection.onSubmitted raced payloadBytes recordCount reserved reply).Kept config := by
  obtain ⟨⟨oks, tickets, size, bound, accounts⟩, opening⟩ := keeps
  cases reply with
  | error reason =>
      apply refuse_kept
      refine ⟨⟨by simpa [desk] using oks, by simpa [desk] using tickets, by simpa [desk] using size,
        by simpa [desk] using bound, ?_⟩, by simpa [desk, Desk.Opening] using opening⟩
      simp only [desk]
      exact release_accounts _ _ _ accounts
  | ok done =>
      have short := fits rfl
      have lineFits := config.lineFits
      have addressable := config.addressable
      have sizeIs : connection.pendingBytes = (connection.pending.map Pending.payloadBytes).sum :=
        size
      have room : connection.pendingBytes + payloadBytes ≤ config.maxPendingBytes := by
        cases raced with
        | true =>
            have spare : connection.pendingBytes ≤ config.maxPendingBytes - config.maxLineBytes :=
              opening
            omega
        | false =>
            have empty : connection.pending = [] := opening
            rw [empty] at sizeIs
            simp only [List.map_nil, List.sum_nil] at sizeIs
            omega
      have sum : Usize.saturatingAdd connection.pendingBytes payloadBytes =
          connection.pendingBytes + payloadBytes := by
        unfold Usize.saturatingAdd
        omega
      refine ⟨?_, ?_, ?_, ?_, ?_⟩
      · intro index reply found
        obtain ⟨before, answered⟩ := oks index reply found
        exact ⟨Nat.lt_succ_of_lt before, answered⟩
      · have longer := congrArg (· ++ [connection.admitted]) tickets
        simpa [desk, onSubmitted, List.range_succ] using longer
      · simp only [desk, onSubmitted, sum, List.map_append, List.sum_append]
        rw [sizeIs]
        simp
      · simp only [desk, onSubmitted, sum]
        exact room
      · simp only [desk, onSubmitted, holdings_concat, Holding.add_none]
        exact accounts

theorem onFlushed_kept {next : AfterFlush} (reply : Except String Unit)
    (keeps : connection.desk.Keeps config (Phase.flushing next).footing)
    (empty : ∀ reason, reply = .error reason → connection.pending = []) :
    (connection.onFlushed next reply).Kept config := by
  have books : connection.desk.Books config [] .none .none := by
    cases next with
    | finish => exact keeps.1
    | drain reason => exact keeps
    | loop => exact keeps
    | head => exact keeps
  cases reply with
  | error reason => exact books.failing (empty reason rfl)
  | ok done =>
      cases next with
      | finish => exact books.atEnd keeps.2
      | drain reason => exact books
      | loop => exact books
      | head => exact books

theorem onAcknowledged_kept {receipt : Receipt} (next : AfterOk) (reply : Except String Unit)
    (keeps : connection.desk.Keeps config (.acknowledging receipt))
    (empty : ∀ reason, reply = .error reason → connection.pending = []) :
    (connection.onAcknowledged receipt next reply).Kept config := by
  obtain ⟨books, resolved⟩ := keeps
  cases reply with
  | error reason => exact books.atEnd (empty reason rfl)
  | ok done =>
      have answered : { connection with
          output := connection.output ++
            [Reply.ok receipt.firstOffset receipt.nextOffset] }.desk.Books config []
              .none .none := by
        have next := (range_append_cons books.queue).2
        refine ⟨books.oks.concat next resolved, ?_, books.size, books.bound, books.accounts⟩
        have tickets := books.queue
        simpa [desk, List.range_succ] using tickets
      cases next with
      | loop => exact answered
      | drain reason => exact answered
      | head =>
          unfold Kept
          simp only [onAcknowledged]
          split
          · rename_i spent
            simp only [Bool.and_eq_true, List.isEmpty_iff] at spent
            exact answered.failing spent.2
          · exact answered

theorem onFailed_kept (reason : String) {next : Option String} (reply : Except String Unit)
    (keeps : connection.desk.Keeps config (.failing next)) :
    (connection.onFailed reason next reply).Kept config := by
  obtain ⟨oks, clear, rfl⟩ := keeps
  cases reply with
  | error failure =>
      exact ⟨⟨_, [], (List.append_nil _).symm, oks, .inl rfl⟩, clear⟩
  | ok done =>
      exact ⟨⟨connection.output, [.err reason], rfl, oks, .inr ⟨reason, rfl⟩⟩,
        clear.empty, clear.size, clear.accounts⟩

theorem reserveElsewhere_kept (pool : Pool) (amount : Holding) (kept : connection.Kept config) :
    (connection.reserveElsewhere pool amount).Kept config := by
  cases pool <;>
  · refine Desk.Keeps.shifted kept ?_
    intro assignment node accounts found mounted
    obtain ⟨budgets, before, rfl⟩ := Option.map_eq_some_iff.mp mounted
    obtain ⟨onAssignment, onNode⟩ := accounts budgets before
    first
      | exact ⟨onAssignment, PendingBudget.reserved_carries onNode⟩
      | exact ⟨PendingBudget.reserved_carries onAssignment, onNode⟩

theorem releaseElsewhere_kept (pool : Pool) (amount : Holding) (kept : connection.Kept config) :
    (connection.releaseElsewhere pool amount).Kept config := by
  unfold releaseElsewhere
  dsimp only
  split
  · rename_i enough
    cases pool <;>
    · refine Desk.Keeps.shifted kept ?_
      intro assignment node accounts found mounted
      obtain ⟨budgets, before, rfl⟩ := Option.map_eq_some_iff.mp mounted
      obtain ⟨onAssignment, onNode⟩ := accounts budgets before
      first
        | exact ⟨onAssignment, PendingBudget.released_carries onNode enough.1 enough.2⟩
        | exact ⟨PendingBudget.released_carries onAssignment enough.1 enough.2, onNode⟩
  · exact kept

variable (config) in
/-- The step does not end the connection over pending receipts, does not fail the drain that
follows a refused line, and admits no more than a line's bytes at once. -/
def graceful (connection : Connection) : Event → Bool
  | .submitted (.ok _) =>
      match connection.phase with
      | .submitting _ payloadBytes _ _ => payloadBytes ≤ config.maxLineBytes
      | _ => true
  | .flushed (.error _) | .wrote (.error _) => connection.pending.isEmpty
  | .poll _ =>
      match connection.phase, connection.pending with
      | .head, head :: rest => !refused (connection.receipts head.ticket) || rest.isEmpty
      | .selecting line, head :: rest =>
          match connection.receipts head.ticket with
          | some outcome => !refused (some outcome) || rest.isEmpty
          | none =>
              (readCappedLine config.maxLineBytes connection.ended line
                connection.arrived).tolerable
      | .awaiting entry reason, pending =>
          !refused (connection.receipts entry.ticket) || (pending.isEmpty && reason.isNone)
      | _, _ => true
  | _ => true

theorem poll_kept (spurious : Bool) (kept : connection.Kept config)
    (graceful : connection.graceful config (.poll spurious)) :
    (connection.poll config spurious).Kept config := by
  have keeps : connection.desk.Keeps config connection.phase.footing := kept
  unfold poll
  split
  · rename_i phase
    rw [phase] at keeps
    exact enterLoop_kept keeps
  · rename_i phase
    rw [phase] at keeps
    exact readNext_kept keeps nofun
  · rename_i line phase
    apply select_kept kept phase
    · intro head rest reason queue resolved
      simpa [Connection.graceful, phase, queue, resolved, refused] using graceful
    · intro head rest queue unresolved
      simpa [Connection.graceful, phase, queue, unresolved] using graceful
  · rename_i phase
    rw [phase] at keeps
    exact readBatch_kept _ _ _ keeps
  · rename_i phase mounted
    rw [phase] at keeps
    exact reserveAssignment_kept _ mounted keeps
  · rename_i phase mounted
    rw [phase] at keeps
    exact reserveNode_kept _ mounted keeps
  · rename_i phase
    apply awaitHead_kept kept phase
    intro head rest reason queue resolved
    simpa [Connection.graceful, phase, queue, resolved, refused] using graceful
  · rename_i phase
    rw [phase] at keeps
    exact drainNext_kept _ keeps
  · rename_i phase
    apply awaitDrained_kept kept phase
    intro failure resolved
    simpa [Connection.graceful, phase, resolved, refused] using graceful
  · exact kept

theorem step_kept (connection : Connection) (event : Event) (kept : connection.Kept config)
    (graceful : connection.graceful config event) : (connection.step config event).Kept config := by
  have keeps : connection.desk.Keeps config connection.phase.footing := kept
  cases event with
  | arrive bytes =>
      simp only [step]
      split <;> exact kept
  | finish ending =>
      simp only [step]
      split <;> exact kept
  | resolve ticket outcome =>
      simp only [step]
      split
      · exact kept
      · rename_i unresolved
        refine Desk.Keeps.resolved kept ?_
        intro index found resolved
        have other : index ≠ ticket := by
          rintro rfl
          exact unresolved (by rw [show connection.receipts index = some found from resolved]; rfl)
        exact (if_neg other).trans resolved
  | elapse =>
      simp only [step]
      split <;> exact kept
  | reserveElsewhere pool amount => exact reserveElsewhere_kept pool amount kept
  | releaseElsewhere pool amount => exact releaseElsewhere_kept pool amount kept
  | submitted reply =>
      simp only [step]
      split
      · rename_i phase
        rw [phase] at keeps
        refine onSubmitted_kept reply ?_ keeps
        rintro rfl
        simpa [Connection.graceful, phase] using graceful
      · exact kept
  | flushed reply =>
      simp only [step]
      split
      · rename_i phase
        rw [phase] at keeps
        refine onFlushed_kept reply keeps ?_
        rintro reason rfl
        simpa [Connection.graceful] using graceful
      · exact kept
  | wrote reply =>
      simp only [step]
      split
      · rename_i phase
        rw [phase] at keeps
        refine onAcknowledged_kept _ reply keeps ?_
        rintro reason rfl
        simpa [Connection.graceful] using graceful
      · rename_i phase
        rw [phase] at keeps
        exact onFailed_kept _ reply keeps
      · exact kept
  | poll spurious => exact poll_kept spurious kept graceful

theorem accepted_kept (producerId : ProducerId) (sequence : UInt64)
    (budgets : Option IngressBudgets) : (accepted producerId sequence budgets).Kept config := by
  refine ⟨nofun, rfl, rfl, Nat.zero_le _, ?_⟩
  intro found mounted
  obtain rfl : budgets = some found := mounted
  exact ⟨⟨rfl, rfl⟩, rfl, rfl⟩

end steps

/-- Along a run of graceful steps the client gets the receipts of its first submissions in order,
then at most one error; the pending bytes stay under their cap; and a connection that has ended
holds nothing of the budgets. -/
theorem run_answers (config : RawLinesConfig) (producerId : ProducerId) (sequence : UInt64)
    (budgets : Option IngressBudgets) (events : List Event)
    (graceful : Machine.Along (step config)
      (fun connection event => connection.graceful config event)
      (accepted producerId sequence budgets) events) :
    let connection := (accepted producerId sequence budgets).run config events
    WellAnswered connection.receipts connection.admitted connection.output ∧
      connection.pendingBytes ≤ config.maxPendingBytes ∧
      (connection.phase = .panicked ∨ (∃ result, connection.phase = .done result) →
        connection.desk.Accounts .none .none) := by
  intro connection
  have kept : connection.Kept config :=
    graceful.invariant step_kept (accepted_kept producerId sequence budgets)
  have kept : connection.desk.Keeps config connection.phase.footing := kept
  refine ⟨kept.answered, kept.bounded, ?_⟩
  · rintro (panicked | ⟨result, done⟩)
    · rw [panicked] at kept
      exact kept.2.1.accounts
    · rw [done] at kept
      exact kept.2.accounts

/-- Budgets of four records and sixteen bytes, unused. -/
def smallBudgets : IngressBudgets := ⟨⟨4, 16, 0, 0⟩, ⟨4, 16, 0, 0⟩⟩

/-- The accesses of a reservation that nothing disturbs, on one counter. -/
def reservePolls : List Event := List.replicate 4 (.poll false)

/-- A line of one byte comes in and is submitted. -/
def admitLine (byte : UInt8) : List Event :=
  [.poll false, .arrive [byte, newline], .poll false] ++ reservePolls ++ reservePolls ++
    [.submitted (.ok ())]

/-- The client closes its side, the sink flushes and both receipts are answered. -/
def closeAndDrain : List Event :=
  [.poll false, .finish .eof, .poll false, .flushed (.ok ()), .resolve 0 (.ok (smallReceipt 0 1)),
    .resolve 1 (.ok (smallReceipt 1 2)), .poll false, .poll false, .wrote (.ok ()), .poll false,
    .poll false, .wrote (.ok ()), .poll false]

/-- Two lines wait for their receipts, and are answered in order. -/
theorem run_answers_lines :
    let waiting := (accepted ⟨repeated 16 7⟩ 0 (some smallBudgets)).run shortConfig
      (admitLine 0x61 ++ admitLine 0x62)
    let connection := waiting.run shortConfig closeAndDrain
    waiting.pending.length = 2 ∧
      connection.output = [.ok (.ofNat 0) (.ofNat 1), .ok (.ofNat 1) (.ofNat 2)] ∧
      WellAnswered connection.receipts connection.admitted connection.output ∧
      connection.phase = .done (.ok ()) ∧ connection.budgets = some smallBudgets := by
  have graceful : Machine.Along (step shortConfig)
      (fun connection event => connection.graceful shortConfig event)
      (accepted ⟨repeated 16 7⟩ 0 (some smallBudgets))
      (admitLine 0x61 ++ admitLine 0x62 ++ closeAndDrain) := by
    decide +kernel
  refine ⟨by decide +kernel, by decide +kernel, ?_, rfl, by decide +kernel⟩
  exact (run_answers shortConfig _ 0 _ _ graceful).1

/-- A cap of one line. -/
def tightConfig : RawLinesConfig :=
  ⟨8, 4, 8, none, .empty, shortConfig.linePositive,
    shortConfig.recordsPositive, by decide, by decide⟩

/-- An error receipt with another entry behind it leaves that entry's reservation; an error receipt
in the drain after a refused line makes a second `ERR`; a batch of two full lines goes over the
cap. -/
theorem run_answers_failures :
    (let connection := (accepted ⟨repeated 16 7⟩ 0 (some smallBudgets)).run shortConfig
      (admitLine 0x61 ++ admitLine 0x62 ++
        [.resolve 0 (.error "lost"), .poll false, .poll false, .wrote (.ok ())])
    connection.phase = .done (.ok ()) ∧ connection.nodeOthers = .none ∧
      connection.budgets = some ⟨⟨4, 16, 1, 1⟩, ⟨4, 16, 1, 1⟩⟩) ∧
    (let connection := (accepted ⟨repeated 16 7⟩ 0 none).run shortConfig
      ([.poll false, .arrive [0x61, newline], .poll false, .submitted (.ok ()), .poll false,
        .arrive (batchWord ++ [0x30, newline]), .poll false, .poll false,
        .resolve 0 (.error "lost"), .poll false, .wrote (.ok ()), .wrote (.ok ())])
    connection.output = [.err "lost", .err "BATCH count must be >= 1"]) ∧
    (let connection := (accepted ⟨repeated 16 7⟩ 0 none).run tightConfig
      ([.poll false, .arrive (batchWord ++ [0x32, newline] ++ List.replicate 8 0x61 ++ [newline] ++
        List.replicate 8 0x62 ++ [newline]), .poll false, .poll false, .poll false,
        .submitted (.ok ())])
    tightConfig.maxPendingBytes < connection.pendingBytes) := by
  refine ⟨⟨rfl, by decide +kernel, by decide +kernel⟩, by decide +kernel, by decide +kernel⟩

end Connection

end RawLines

end Scripture
