import Scripture.ChunkLog

set_option autoImplicit false

/- Hard limits of one driver. -/
namespace Scripture

open ByteFormat

/-- A monotonic time, in nanoseconds. -/
abbrev Duration := Nat

def Duration.max : Duration := (2 ^ 64 - 1) * 10 ^ 9 + (10 ^ 9 - 1)

structure ChunkPolicy where
  maxChunkBytes : Nat
  maxRecordBytes : Nat
  maxChunkRecords : Nat
  maxChunkAge : Duration
  maxBufferedBytes : Nat
  maxInflightChunks : Nat
  maxUncommittedAge : Duration
  recoveryScan : RecoveryBound
  deriving DecidableEq

inductive PolicyError where
  | invalidLimit
  | phaseOneRequiresInflightOne (maxInflightChunks : Nat)
  | recordCannotFitChunk (maxRecordBytes maxChunkBytes overhead : Nat)
  deriving DecidableEq

def emptyRecord : Record := ⟨.empty, []⟩

/-- The frame whose length is the framing overhead of one record. -/
def soloRecordFrame (journal : JournalId) (record : Record) : Frame where
  journalId := journal
  baseOffset := .ofNat 0
  records := [record]
  submissions := [⟨⟨repeated 16 0⟩, 0, 0, 0, 1⟩]

def worstCaseFramingOverhead : Except PolicyError Nat :=
  (encodedChunkLen [soloRecordFrame ⟨repeated 16 0⟩ emptyRecord]).mapError fun _ => .invalidLimit

namespace ChunkPolicy

def bytesAtRisk (policy : ChunkPolicy) : Nat :=
  policy.maxBufferedBytes + policy.maxInflightChunks * policy.maxChunkBytes

/-- Validates the hard limits and that a record of the largest size fits in a chunk. -/
def validate (policy : ChunkPolicy) : Except PolicyError Unit := do
  if policy.maxChunkBytes = 0 ∨ policy.maxRecordBytes = 0 ∨ policy.maxChunkRecords = 0 ∨
      policy.maxBufferedBytes = 0 ∨ policy.maxInflightChunks = 0 ∨ policy.recoveryScan.val = 0 ∨
      policy.maxChunkAge = 0 ∨ policy.maxUncommittedAge = 0 then
    throw .invalidLimit
  if policy.maxInflightChunks ≠ 1 then
    throw (.phaseOneRequiresInflightOne policy.maxInflightChunks)
  let some inflight := Usize.checkedMul policy.maxInflightChunks policy.maxChunkBytes
    | throw .invalidLimit
  let some _ := Usize.checkedAdd policy.maxBufferedBytes inflight | throw .invalidLimit
  let overhead ← worstCaseFramingOverhead
  let some needed := Usize.checkedAdd policy.maxRecordBytes overhead | throw .invalidLimit
  if policy.maxChunkBytes < needed then
    throw (.recordCannotFitChunk policy.maxRecordBytes policy.maxChunkBytes overhead)

/-- What validation leaves of a policy for the driver to rely on. -/
structure Valid (policy : ChunkPolicy) : Prop where
  chunkBytes : 0 < policy.maxChunkBytes
  chunkRecords : 0 < policy.maxChunkRecords
  buffered : 0 < policy.maxBufferedBytes
  chunkAge : 0 < policy.maxChunkAge
  uncommittedAge : 0 < policy.maxUncommittedAge
  depthOne : policy.maxInflightChunks = 1
  bounded : policy.maxBufferedBytes + policy.maxChunkBytes ≤ Usize.max

theorem valid_of_validate {policy : ChunkPolicy} (accepted : policy.validate = .ok ()) :
    policy.Valid := by
  obtain ⟨limits, accepted⟩ := checked_eq_ok.mp accepted
  obtain ⟨depth, accepted⟩ := checked_eq_ok.mp accepted
  have one : policy.maxInflightChunks = 1 := by simpa using depth
  cases product : Usize.checkedMul policy.maxInflightChunks policy.maxChunkBytes with
  | none => simp [product, throw, throwThe, MonadExceptOf.throw] at accepted
  | some inflight =>
      cases sum : Usize.checkedAdd policy.maxBufferedBytes inflight with
      | none => simp [product, sum, throw, throwThe, MonadExceptOf.throw] at accepted
      | some total =>
          have scaled : inflight = policy.maxChunkBytes := by
            unfold Usize.checkedMul at product
            split at product
            · cases product
              rw [one, Nat.one_mul]
            · cases product
          obtain ⟨same, fits⟩ := Usize.checkedAdd_eq_some.mp sum
          simp only [not_or, ← Nat.pos_iff_ne_zero] at limits
          obtain ⟨chunkBytes, -, chunkRecords, buffered, -, -, chunkAge, uncommittedAge⟩ := limits
          exact {
            chunkBytes, chunkRecords, buffered, chunkAge, uncommittedAge
            depthOne := one
            bounded := by omega }

theorem Valid.bytesAtRisk_eq {policy : ChunkPolicy} (valid : policy.Valid) :
    policy.bytesAtRisk = policy.maxBufferedBytes + policy.maxChunkBytes := by
  rw [bytesAtRisk, valid.depthOne, Nat.one_mul]

end ChunkPolicy

end Scripture
