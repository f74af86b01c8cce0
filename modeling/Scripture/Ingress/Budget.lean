import Scripture.Model

set_option autoImplicit false

/- The pending budgets of a node and of an assignment. Both are two counters with a ceiling, shared
by every connection. A reservation reads them, compares, and adds to each by a swap of its own; when
the second swap fails it takes the first back and starts over. -/
namespace Scripture

/-- Records and payload bytes that someone has reserved. -/
@[ext] structure Holding where
  records : Nat
  bytes : Nat
  deriving DecidableEq

namespace Holding

def none : Holding := ⟨0, 0⟩

def add (left right : Holding) : Holding := ⟨left.records + right.records, left.bytes + right.bytes⟩

@[simp] theorem none_records : none.records = 0 := rfl
@[simp] theorem none_bytes : none.bytes = 0 := rfl

@[simp] theorem add_records (left right : Holding) :
    (left.add right).records = left.records + right.records := rfl

@[simp] theorem add_bytes (left right : Holding) :
    (left.add right).bytes = left.bytes + right.bytes := rfl

end Holding

/-- The pending part of `NodeResourceBudget` and of `AssignmentResourceBudget`. -/
structure PendingBudget where
  maxPendingRecords : Nat
  maxPendingBytes : Nat
  pendingRecords : Nat
  pendingBytes : Nat
  deriving DecidableEq

/-- Where a reservation stands between two accesses to the counters. -/
inductive ReserveStage where
  | loadRecords
  | loadBytes (records : Nat)
  | swapRecords (records bytes : Nat)
  | swapBytes (bytes : Nat)
  | undo
  deriving DecidableEq

inductive ReserveNext where
  | stage (next : ReserveStage)
  | returned (reserved : Bool)
  deriving DecidableEq

namespace PendingBudget

def fits (budget : PendingBudget) (currentRecords currentBytes records bytes : Nat) : Bool :=
  Usize.saturatingAdd currentRecords records ≤ budget.maxPendingRecords &&
    Usize.saturatingAdd currentBytes bytes ≤ budget.maxPendingBytes

def canAdmit (budget : PendingBudget) (records bytes : Nat) : Bool :=
  budget.fits budget.pendingRecords budget.pendingBytes records bytes

/-- One access of `try_reserve_pending`. A weak swap may fail for no reason. -/
def tryReservePending (budget : PendingBudget) (records bytes : Nat) (spurious : Bool) :
    ReserveStage → PendingBudget × ReserveNext
  | .loadRecords => (budget, .stage (.loadBytes budget.pendingRecords))
  | .loadBytes currentRecords =>
      if budget.fits currentRecords budget.pendingBytes records bytes then
        (budget, .stage (.swapRecords currentRecords budget.pendingBytes))
      else (budget, .returned false)
  | .swapRecords currentRecords currentBytes =>
      if budget.pendingRecords = currentRecords ∧ ¬ spurious then
        ({ budget with pendingRecords := currentRecords + records },
          .stage (.swapBytes currentBytes))
      else (budget, .stage .loadRecords)
  | .swapBytes currentBytes =>
      if budget.pendingBytes = currentBytes ∧ ¬ spurious then
        ({ budget with pendingBytes := currentBytes + bytes }, .returned true)
      else (budget, .stage .undo)
  | .undo =>
      ({ budget with pendingRecords := budget.pendingRecords - records }, .stage .loadRecords)

def releasePending (budget : PendingBudget) (records bytes : Nat) : PendingBudget :=
  { budget with
    pendingRecords := budget.pendingRecords - records
    pendingBytes := budget.pendingBytes - bytes }

/-- The counters are what the others hold and what this holder does. -/
def Carries (budget : PendingBudget) (others own : Holding) : Prop :=
  budget.pendingRecords = others.records + own.records ∧
    budget.pendingBytes = others.bytes + own.bytes

end PendingBudget

/-- What a reservation of this size holds where it stands. -/
def ReserveStage.held (records : Nat) : ReserveStage → Holding
  | .loadRecords | .loadBytes _ | .swapRecords _ _ => .none
  | .swapBytes _ | .undo => ⟨records, 0⟩

def ReserveNext.held (records bytes : Nat) : ReserveNext → Holding
  | .stage next => next.held records
  | .returned true => ⟨records, bytes⟩
  | .returned false => .none

namespace PendingBudget

variable {budget : PendingBudget} {others kept : Holding}

/-- An access moves the counters by what the reservation holds more or less after it. -/
theorem tryReservePending_carries {records : Nat} (bytes : Nat) (spurious : Bool)
    {stage : ReserveStage}
    (carries : budget.Carries others (kept.add (stage.held records))) :
    (budget.tryReservePending records bytes spurious stage).1.Carries others
      (kept.add ((budget.tryReservePending records bytes spurious stage).2.held
        records bytes)) := by
  obtain ⟨countRecords, countBytes⟩ := carries
  cases stage with
  | loadRecords => exact ⟨countRecords, countBytes⟩
  | loadBytes currentRecords =>
      simp only [tryReservePending]
      split <;> exact ⟨countRecords, countBytes⟩
  | swapRecords currentRecords currentBytes =>
      simp only [tryReservePending]
      split
      · rename_i same
        simp only [ReserveStage.held, Holding.add_records, Holding.none_records] at countRecords
        refine ⟨?_, countBytes⟩
        simp only [ReserveNext.held, ReserveStage.held, Holding.add_records]
        omega
      · exact ⟨countRecords, countBytes⟩
  | swapBytes currentBytes =>
      simp only [tryReservePending]
      split
      · rename_i same
        simp only [ReserveStage.held, Holding.add_bytes] at countBytes
        refine ⟨countRecords, ?_⟩
        simp only [ReserveNext.held, Holding.add_bytes]
        omega
      · exact ⟨countRecords, countBytes⟩
  | undo =>
      simp only [ReserveStage.held, Holding.add_records] at countRecords
      refine ⟨?_, countBytes⟩
      simp only [tryReservePending, ReserveNext.held, ReserveStage.held, Holding.add_records,
        Holding.none_records]
      omega

theorem releasePending_carries {records bytes : Nat}
    (carries : budget.Carries others (kept.add ⟨records, bytes⟩)) :
    (budget.releasePending records bytes).Carries others kept := by
  obtain ⟨countRecords, countBytes⟩ := carries
  simp only [Holding.add_records, Holding.add_bytes] at countRecords countBytes
  simp only [Carries, releasePending]
  omega

theorem reserved_carries {own amount : Holding} (carries : budget.Carries others own) :
    { budget with
      pendingRecords := budget.pendingRecords + amount.records
      pendingBytes := budget.pendingBytes + amount.bytes }.Carries (others.add amount) own := by
  obtain ⟨countRecords, countBytes⟩ := carries
  simp only [Carries, Holding.add_records, Holding.add_bytes]
  omega

theorem released_carries {own amount : Holding} (carries : budget.Carries others own)
    (records : amount.records ≤ others.records) (bytes : amount.bytes ≤ others.bytes) :
    (budget.releasePending amount.records amount.bytes).Carries
      ⟨others.records - amount.records, others.bytes - amount.bytes⟩ own := by
  obtain ⟨countRecords, countBytes⟩ := carries
  simp only [Carries, releasePending]
  omega

end PendingBudget

structure IngressBudgets where
  node : PendingBudget
  assignment : PendingBudget
  deriving DecidableEq

namespace IngressBudgets

def canAdmit (budgets : IngressBudgets) (records bytes : Nat) : Bool :=
  budgets.assignment.canAdmit records bytes && budgets.node.canAdmit records bytes

def releasePending (budgets : IngressBudgets) (records bytes : Nat) : IngressBudgets where
  node := budgets.node.releasePending records bytes
  assignment := budgets.assignment.releasePending records bytes

end IngressBudgets

end Scripture
