import Scripture.Producer.Wire
import Scripture.Spool.PreCommit

set_option autoImplicit false

/- The durable outbox of a producer: the exact bytes of its submissions and their acknowledgements,
one record behind another in a file that is replayed when the outbox is opened. -/
namespace Scripture.Producer

open ByteFormat AppendLog
open Spool (ProgressIdentity ReceiptPolicyError ScribeSpoolCapability SpooledReceipt)

def metaMagic : Bytes := [0x53, 0x50, 0x57, 0x4f, 0x55, 0x54, 0x30, 0x31]

def recordSubmit : UInt8 := 1

def recordAck : UInt8 := 2

def maxOutboxTargetBytes : Nat := 1024

structure ProducerOutboxIdentity where
  producerId : ProducerId
  producerEpoch : UInt32
  target : String
  deriving DecidableEq

/-- Without the texts of the operating system's errors. -/
inductive ProducerOutboxError where
  | io
  | identityMismatch
  | invalidIdentity (field : String)
  | invalidCapacity
  | wire (error : ProducerWireError)
  | notSubmit
  | outOfSequence (expected actual : Nat)
  | identityConflict (sequence : UInt64)
  | capacityExceeded (usedBytes attemptedBytes maxBytes : Nat)
  | epochMismatch (expected actual : UInt32)
  | unknownSequence (sequence : UInt64)
  | sequenceExhausted
  | corrupt (reason : String)
  | invalidCapability (error : ReceiptPolicyError)
  deriving DecidableEq

inductive EntryState where
  | pending (submit : Bytes)
  | acknowledged (submit : Bytes)
  deriving DecidableEq

/-- The bytes stay when a submission is acknowledged. -/
def EntryState.submit : EntryState → Bytes
  | .pending submit | .acknowledged submit => submit

/-- The entries of an outbox by sequence. -/
abbrev Entries := OrderedMap Nat EntryState

structure PendingWireSubmission where
  sequence : Nat
  encodedSubmit : Bytes
  deriving DecidableEq

structure StagedWireSubmission where
  pending : PendingWireSubmission
  spooled : Option SpooledReceipt
  deriving DecidableEq

def validateIdentity (identity : ProducerOutboxIdentity) : Except ProducerOutboxError Unit := do
  if identity.producerEpoch = 0 then throw (.invalidIdentity "producer_epoch")
  if utf8 identity.target = [] ∨ maxOutboxTargetBytes < (utf8 identity.target).length then
    throw (.invalidIdentity "target")

/-- The content of the identity file. -/
def encodeIdentity (identity : ProducerOutboxIdentity) : Except ProducerOutboxError Bytes := do
  validateIdentity identity
  return metaMagic ++ (identity.producerId.bytes.val ++ (putU32 identity.producerEpoch ++
    (putU16 (UInt16.ofNat (utf8 identity.target).length) ++ utf8 identity.target)))

/-- Writes the identity file, or compares it with the one that is there. -/
def ensureIdentity (found : Option Bytes) (identity : ProducerOutboxIdentity) :
    Except ProducerOutboxError Bytes := do
  let expected ← encodeIdentity identity
  match found with
  | none => return expected
  | some actual => if actual = expected then return expected else throw .identityMismatch

def nextSequence (entries : Entries) : Except ProducerOutboxError Nat :=
  match entries.last? with
  | none => return 0
  | some (sequence, _) =>
      if sequence < 2 ^ 64 - 1 then return sequence + 1 else throw .sequenceExhausted

def submitSequence (encodedSubmit : Bytes) : Except ProducerOutboxError UInt64 :=
  match decodeProducerWireFrame encodedSubmit with
  | .ok (.submit sequence _) => return sequence
  | .ok _ => throw .notSubmit
  | .error error => throw (.wire error)

def submitBody (sequence : UInt64) (submit : Bytes) : Bytes :=
  [recordSubmit] ++ (putU64 sequence ++ (putU32 (UInt32.ofNat submit.length) ++ submit))

def ackBody (sequence : UInt64) : Bytes := [recordAck] ++ putU64 sequence

def applySubmit (entries : Entries) (sequence : UInt64) (submit : Bytes) :
    Except ProducerOutboxError Entries := do
  match entries.find? sequence.toNat with
  | some existing =>
      if existing.submit ≠ submit then throw (.identityConflict sequence) else return entries
  | none => do
      let expected ← nextSequence entries
      if sequence.toNat ≠ expected then throw (.outOfSequence expected sequence.toNat)
      return entries.insert sequence.toNat (.pending submit)

def applyAck (entries : Entries) (sequence : UInt64) : Except ProducerOutboxError Entries :=
  match entries.find? sequence.toNat with
  | none => throw (.unknownSequence sequence)
  | some (.acknowledged _) => return entries
  | some (.pending original) => return entries.insert sequence.toNat (.acknowledged original)

def applyRecord (entries : Entries) : Bytes → Except ProducerOutboxError Entries
  | [] => throw (.corrupt "empty record")
  | kind :: remainder =>
      if kind = recordSubmit then do
        if remainder.length < 12 then throw (.corrupt "truncated submit record")
        let sequence := UInt64.ofNat (bigEndianValue (remainder.take 8))
        let submitLen := bigEndianValue ((remainder.drop 8).take 4)
        let submit := remainder.drop 12
        if submit.length ≠ submitLen then throw (.corrupt "invalid submit record")
        let carried ← submitSequence submit
        if carried ≠ sequence then throw (.corrupt "invalid submit record")
        applySubmit entries sequence submit
      else if kind = recordAck then do
        if remainder.length ≠ 8 then throw (.corrupt "invalid ACK record")
        applyAck entries (UInt64.ofNat (bigEndianValue remainder))
      else throw (.corrupt "unknown record kind")

/-- The parts of the record at the start of the bytes. -/
def bodyLen (bytes : Bytes) : Nat := bigEndianValue (bytes.take 4)

def recordBody (bytes : Bytes) : Bytes := (bytes.drop 4).take (bodyLen bytes)

def recordChecksum (bytes : Bytes) : UInt32 :=
  UInt32.ofNat (bigEndianValue ((bytes.drop (4 + bodyLen bytes)).take 4))

section digests

variable [Digests]

def frameRecord (body : Bytes) : Bytes :=
  putU32 (UInt32.ofNat body.length) ++ (body ++ putU32 (Digests.crc32c body))

def encodeSubmitRecord (sequence : UInt64) (submit : Bytes) : Except ProducerOutboxError Bytes := do
  if 2 ^ 32 ≤ submit.length then throw (.corrupt "submit frame exceeds u32")
  return frameRecord (submitBody sequence submit)

def encodeAckRecord (sequence : UInt64) : Bytes := frameRecord (ackBody sequence)

/-- The loop of the scanner. A record that is cut off ends it; `valid` counts the bytes before. -/
def scanFrom : Nat → Entries → Nat → Bytes → Except ProducerOutboxError (Entries × Nat)
  | 0, entries, valid, _ => return (entries, valid)
  | fuel + 1, entries, valid, bytes =>
      if bytes.length < 4 ∨ bytes.length < 8 + bodyLen bytes then return (entries, valid)
      else if Digests.crc32c (recordBody bytes) ≠ recordChecksum bytes then
        throw (.corrupt "record checksum")
      else do
        let entries ← applyRecord entries (recordBody bytes)
        scanFrom fuel entries (valid + (8 + bodyLen bytes)) (bytes.drop (8 + bodyLen bytes))

/-- Each record takes at least one byte, so the length of the bytes is fuel enough. -/
def scanWal (bytes : Bytes) : Except ProducerOutboxError (Entries × Nat) :=
  scanFrom bytes.length .empty 0 bytes

end digests

structure ProducerOutbox where
  identity : ProducerOutboxIdentity
  identityFile : Bytes
  wal : LogFile
  maxBytes : Nat
  usedBytes : Nat
  entries : Entries
  capability : Option ScribeSpoolCapability
  journalId : JournalId
  deriving DecidableEq

/-- How the calls to the file end, as far as they are made. `rolledBack` and `resynced` answer the
`set_len` and the `sync_all` that follow a failed sync. -/
structure WalIo where
  reply : WriteReply
  flushed : Bool
  synced : Bool
  rolledBack : Bool
  resynced : Bool
  deriving DecidableEq

def WalIo.faultless : WalIo := ⟨.written, true, true, true, true⟩

namespace ProducerOutbox

variable [Digests]

/-- Opens the files of a directory, and cuts off a record that is not whole. -/
def openInner (found : Option Bytes) (wal : LogFile) (identity : ProducerOutboxIdentity)
    (maxBytes : Nat) (capability : Option ScribeSpoolCapability) (journalId : JournalId) :
    Except ProducerOutboxError ProducerOutbox := do
  validateIdentity identity
  if maxBytes = 0 then throw .invalidCapacity
  let identityFile ← ensureIdentity found identity
  let (entries, validBytes) ← scanWal wal.bytes
  let wal := if validBytes ≠ wal.bytes.length then (wal.truncate validBytes).sync else wal
  return ⟨identity, identityFile, wal, maxBytes, validBytes, entries, capability, journalId⟩

def reserve (outbox : ProducerOutbox) (attemptedBytes : Nat) : Except ProducerOutboxError Unit :=
  match Usize.checkedAdd outbox.usedBytes attemptedBytes with
  | none => throw (.capacityExceeded outbox.usedBytes attemptedBytes outbox.maxBytes)
  | some total =>
      if outbox.maxBytes < total then
        throw (.capacityExceeded outbox.usedBytes attemptedBytes outbox.maxBytes)
      else return ()

def spooledFor (outbox : ProducerOutbox) (sequence : UInt64) : Option SpooledReceipt :=
  outbox.capability.map fun capability =>
    ⟨capability.scribeId, capability.lossBudget, ⟨outbox.journalId, outbox.identity.producerId,
      outbox.identity.producerEpoch, sequence⟩⟩

/-- The record of a submission that is new to the outbox and fits. -/
def planStage (outbox : ProducerOutbox) (sequence : UInt64) (encodedSubmit : Bytes) :
    Except ProducerOutboxError Bytes := do
  let expected ← nextSequence outbox.entries
  if sequence.toNat ≠ expected then throw (.outOfSequence expected sequence.toNat)
  let record ← encodeSubmitRecord sequence encodedSubmit
  outbox.reserve record.length
  return record

/-- A failed write or flush leaves what has reached the file; a failed sync is taken back by cutting
the file to the bytes that were used before. -/
def stageSubmit (outbox : ProducerOutbox) (encodedSubmit : Bytes) (io : WalIo) :
    ProducerOutbox × Except ProducerOutboxError StagedWireSubmission :=
  match submitSequence encodedSubmit with
  | .error error => (outbox, .error error)
  | .ok sequence =>
      let staged := fun outbox : ProducerOutbox =>
        StagedWireSubmission.mk ⟨sequence.toNat, encodedSubmit⟩ (outbox.spooledFor sequence)
      match outbox.entries.find? sequence.toNat with
      | some entry =>
          if entry.submit = encodedSubmit then (outbox, .ok (staged outbox))
          else (outbox, .error (.identityConflict sequence))
      | none => match outbox.planStage sequence encodedSubmit with
        | .error error => (outbox, .error error)
        | .ok record =>
            let wal := outbox.wal.append (io.reply.landed record)
            if io.reply ≠ .written ∨ io.flushed = false then ({ outbox with wal }, .error .io)
            else if io.synced = false then
              let wal := if io.rolledBack then wal.truncate outbox.usedBytes else wal
              ({ outbox with wal := if io.resynced then wal.sync else wal }, .error .io)
            else
              let outbox := { outbox with
                wal := wal.sync
                usedBytes := outbox.usedBytes + record.length
                entries := outbox.entries.insert sequence.toNat (.pending encodedSubmit) }
              (outbox, .ok (staged outbox))

/-- The checks of an acknowledgement. Nothing is written for one that is known. -/
def planMark (outbox : ProducerOutbox) (producerEpoch : UInt32) (sequence : UInt64) :
    Except ProducerOutboxError (Option (Bytes × Bytes)) := do
  if producerEpoch ≠ outbox.identity.producerEpoch then
    throw (.epochMismatch outbox.identity.producerEpoch producerEpoch)
  match outbox.entries.find? sequence.toNat with
  | none => throw (.unknownSequence sequence)
  | some (.acknowledged _) => return none
  | some (.pending original) =>
      let record := encodeAckRecord sequence
      outbox.reserve record.length
      return some (record, original)

/-- Here a failed sync is not taken back. -/
def markCommitted (outbox : ProducerOutbox) (producerEpoch : UInt32) (sequence : UInt64)
    (io : WalIo) : ProducerOutbox × Except ProducerOutboxError Unit :=
  match outbox.planMark producerEpoch sequence with
  | .error error => (outbox, .error error)
  | .ok none => (outbox, .ok ())
  | .ok (some (record, original)) =>
      let wal := outbox.wal.append (io.reply.landed record)
      if io.reply ≠ .written ∨ io.flushed = false ∨ io.synced = false then
        ({ outbox with wal }, .error .io)
      else
        ({ outbox with
            wal := wal.sync
            usedBytes := outbox.usedBytes + record.length
            entries := outbox.entries.insert sequence.toNat (.acknowledged original) }, .ok ())

/-- The unfinished submissions in the order of their sequences. -/
def pendingSubmissions (outbox : ProducerOutbox) : List PendingWireSubmission :=
  outbox.entries.entries.filterMap fun (sequence, state) => match state with
    | .pending encodedSubmit => some ⟨sequence, encodedSubmit⟩
    | .acknowledged _ => none

end ProducerOutbox

def sampleIdentity : ProducerOutboxIdentity := ⟨⟨repeated 16 1⟩, 1, "t"⟩

/-- The bytes of a submission of one record of one byte. -/
def sampleSubmit (sequence : UInt64) (payload : UInt8) : Bytes :=
  (encodeProducerWireFrame (.submit sequence [[payload]])).toOption.getD []

end Scripture.Producer
