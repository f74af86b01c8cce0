import Scripture.Producer.Replay

set_option autoImplicit false

/- What the file of an outbox holds along its runs. A call writes one record at most, and the record
does to the replayed entries what the call does to the entries in memory. -/
namespace Scripture.Producer

open ByteFormat AppendLog

inductive OutboxCall where
  | stage (encodedSubmit : Bytes)
  | mark (producerEpoch : UInt32) (sequence : UInt64)
  deriving DecidableEq

/-- What a call does to the entries when it is carried out. -/
def OutboxCall.effect (entries : Entries) : OutboxCall → Entries
  | .stage encodedSubmit => match submitSequence encodedSubmit with
    | .error _ => entries
    | .ok sequence => match entries.find? sequence.toNat with
      | some _ => entries
      | none => entries.insert sequence.toNat (.pending encodedSubmit)
  | .mark _ sequence => match entries.find? sequence.toNat with
    | some (.pending original) => entries.insert sequence.toNat (.acknowledged original)
    | _ => entries

/-- The file takes the whole record. -/
def WalIo.succeeds (io : WalIo) : Bool := io.reply = .written ∧ io.flushed ∧ io.synced

theorem submitSequence_short {submit : Bytes} {sequence : UInt64}
    (carries : submitSequence submit = .ok sequence) : submit.length ≤ maxFrameBytes + 4 := by
  unfold submitSequence at carries
  split at carries
  · rename_i decoded
    exact length_of_decode decoded
  · cases carries
  · cases carries

theorem applyRecord_submit {sequence : UInt64} {submit : Bytes} (entries : Entries)
    (carries : submitSequence submit = .ok sequence) (fits : submit.length < 2 ^ 32) :
    applyRecord entries (submitBody sequence submit) = applySubmit entries sequence submit := by
  have first : (putU64 sequence ++ (putU32 (UInt32.ofNat submit.length) ++ submit)).take 8 =
      putU64 sequence := List.take_left' (putU64_length _)
  have behind : (putU64 sequence ++ (putU32 (UInt32.ofNat submit.length) ++ submit)).drop 8 =
      putU32 (UInt32.ofNat submit.length) ++ submit := List.drop_left' (putU64_length _)
  have second : (putU32 (UInt32.ofNat submit.length) ++ submit).take 4 =
      putU32 (UInt32.ofNat submit.length) := List.take_left' (putU32_length _)
  have last : (putU64 sequence ++ (putU32 (UInt32.ofNat submit.length) ++ submit)).drop 12 =
      submit := by
    rw [show 12 = 8 + 4 from rfl, ← List.drop_drop, behind]
    exact List.drop_left' (putU32_length _)
  unfold applyRecord submitBody
  simp only [List.singleton_append, if_true]
  rw [if_neg, first, behind, second, last, putU64, putU32,
    bigEndianValue_bigEndian_of_lt 4 _ (UInt32.toNat_lt _),
    bigEndianValue_bigEndian_of_lt 8 _ (UInt64.toNat_lt _), toNat_u32OfNat fits,
    UInt64.ofNat_toNat, if_neg (not_not.mpr rfl), carries]
  · exact if_neg (not_not.mpr rfl)
  · simp only [List.length_append, putU64_length, putU32_length]
    omega

theorem applyRecord_ack (entries : Entries) (sequence : UInt64) :
    applyRecord entries (ackBody sequence) = applyAck entries sequence := by
  unfold applyRecord ackBody
  simp only [List.singleton_append]
  rw [if_neg (by decide), if_pos trivial, if_neg (not_not.mpr (putU64_length _)), putU64,
    bigEndianValue_bigEndian_of_lt 8 _ (UInt64.toNat_lt _), UInt64.ofNat_toNat]

namespace ProducerOutbox

variable [Digests]

def perform (outbox : ProducerOutbox) (call : OutboxCall) (io : WalIo) :
    ProducerOutbox × Except ProducerOutboxError Unit :=
  match call with
  | .stage encodedSubmit =>
      let (outbox, result) := outbox.stageSubmit encodedSubmit io
      (outbox, result.map fun _ => ())
  | .mark producerEpoch sequence => outbox.markCommitted producerEpoch sequence io

/-- The body of the record that a call writes, if it comes to that. -/
def body? (outbox : ProducerOutbox) : OutboxCall → Option Bytes
  | .stage encodedSubmit => match submitSequence encodedSubmit with
    | .error _ => none
    | .ok sequence => match outbox.entries.find? sequence.toNat with
      | some _ => none
      | none => match outbox.planStage sequence encodedSubmit with
        | .ok _ => some (submitBody sequence encodedSubmit)
        | .error _ => none
  | .mark producerEpoch sequence => match outbox.planMark producerEpoch sequence with
    | .ok (some _) => some (ackBody sequence)
    | _ => none

/-- The outbox behind a record that was written and synced. -/
def grown (outbox : ProducerOutbox) (body : Bytes) (entries : Entries) : ProducerOutbox :=
  { outbox with
    wal := (outbox.wal.append (frameRecord body)).sync
    usedBytes := outbox.usedBytes + (frameRecord body).length
    entries }

variable {outbox : ProducerOutbox} {sequence : UInt64} {bodies : List Bytes}

omit [Digests] in
theorem reserve_eq_ok {attempted : Nat} (fits : outbox.reserve attempted = .ok ()) :
    outbox.usedBytes + attempted ≤ outbox.maxBytes := by
  unfold reserve at fits
  split at fits
  · cases fits
  · rename_i total sum
    obtain ⟨rfl, -⟩ := Usize.checkedAdd_eq_some.mp sum
    split at fits
    · cases fits
    · omega

theorem planStage_eq_ok {submit record : Bytes}
    (planned : outbox.planStage sequence submit = .ok record) :
    nextSequence outbox.entries = .ok sequence.toNat ∧ submit.length < 2 ^ 32 ∧
      record = frameRecord (submitBody sequence submit) ∧
      outbox.usedBytes + record.length ≤ outbox.maxBytes := by
  obtain ⟨expected, next, planned⟩ := bind_eq_ok.mp planned
  obtain ⟨same, planned⟩ := checked_eq_ok.mp planned
  obtain ⟨framed, encoded, planned⟩ := bind_eq_ok.mp planned
  obtain ⟨_, reserved, planned⟩ := bind_eq_ok.mp planned
  obtain ⟨fits, encoded⟩ := checked_eq_ok.mp encoded
  cases encoded
  cases planned
  rw [not_not.mp same]
  exact ⟨next, by omega, rfl, reserve_eq_ok reserved⟩

theorem planMark_eq_ok {producerEpoch : UInt32} {record original : Bytes}
    (planned : outbox.planMark producerEpoch sequence = .ok (some (record, original))) :
    producerEpoch = outbox.identity.producerEpoch ∧
      outbox.entries.find? sequence.toNat = some (.pending original) ∧
      record = frameRecord (ackBody sequence) ∧
      outbox.usedBytes + record.length ≤ outbox.maxBytes := by
  obtain ⟨same, planned⟩ := checked_eq_ok.mp planned
  split at planned
  · cases planned
  · cases planned
  · rename_i held found
    obtain ⟨_, reserved, planned⟩ := bind_eq_ok.mp planned
    cases planned
    exact ⟨not_not.mp same, found, rfl, reserve_eq_ok reserved⟩

theorem perform_silent {call : OutboxCall} (silent : outbox.body? call = none) (io : WalIo) :
    (outbox.perform call io).1 = outbox := by
  cases call with
  | stage encodedSubmit =>
      simp only [perform, stageSubmit]
      simp only [body?] at silent
      cases carried : submitSequence encodedSubmit with
      | error error => rfl
      | ok sequence =>
          rw [carried] at silent
          dsimp only at silent ⊢
          cases found : outbox.entries.find? sequence.toNat with
          | some entry =>
              dsimp only
              split <;> rfl
          | none =>
              rw [found] at silent
              cases planned : outbox.planStage sequence encodedSubmit with
              | error error => rfl
              | ok record =>
                  rw [planned] at silent
                  cases silent
  | mark producerEpoch sequence =>
      simp only [perform, markCommitted]
      simp only [body?] at silent
      split at silent
      · cases silent
      · rename_i unplanned
        split
        · rfl
        · rfl
        · rename_i planned
          exact absurd planned (unplanned _)

/-- Where the file stands after a call whose write did not succeed. -/
def Strays (outbox : ProducerOutbox) (body : Bytes) (wal : LogFile) : Prop :=
  (∃ part, part <+: frameRecord body ∧ wal.bytes = outbox.wal.bytes ++ part) ∨
    wal.bytes = (outbox.wal.bytes ++ frameRecord body).take outbox.usedBytes

theorem stage_writes {encodedSubmit body : Bytes}
    (writes : outbox.body? (.stage encodedSubmit) = some body) :
    ∃ sequence, submitSequence encodedSubmit = .ok sequence ∧
      outbox.entries.find? sequence.toNat = none ∧
      outbox.planStage sequence encodedSubmit = .ok (frameRecord body) ∧
      body = submitBody sequence encodedSubmit := by
  simp only [body?] at writes
  split at writes
  · cases writes
  · rename_i sequence carried
    split at writes
    · cases writes
    · rename_i found
      split at writes
      · rename_i record planned
        cases writes
        rw [(planStage_eq_ok planned).2.2.1] at planned
        exact ⟨sequence, carried, found, planned, rfl⟩
      · cases writes

theorem mark_writes {producerEpoch : UInt32} {body : Bytes}
    (writes : outbox.body? (.mark producerEpoch sequence) = some body) :
    ∃ original, outbox.planMark producerEpoch sequence = .ok (some (frameRecord body, original)) ∧
      body = ackBody sequence := by
  simp only [body?] at writes
  split at writes
  · rename_i pair planned
    obtain ⟨record, original⟩ := pair
    cases writes
    rw [(planMark_eq_ok planned).2.2.1] at planned
    exact ⟨original, planned, rfl⟩
  · cases writes

/-- The record of a call does to the entries what the call does. -/
theorem body?_applies {call : OutboxCall} {body : Bytes} (writes : outbox.body? call = some body) :
    Spells body (frameRecord body) ∧
    applyRecord outbox.entries body = .ok (call.effect outbox.entries) ∧
    outbox.usedBytes + (frameRecord body).length ≤ outbox.maxBytes := by
  cases call with
  | stage encodedSubmit =>
      obtain ⟨sequence, carried, found, planned, rfl⟩ := stage_writes writes
      obtain ⟨next, fits, -, room⟩ := planStage_eq_ok planned
      have small : (submitBody sequence encodedSubmit).length < 2 ^ 32 := by
        have short := submitSequence_short carried
        unfold maxFrameBytes at short
        simp only [submitBody, List.length_append, putU64_length, putU32_length, List.length_cons,
          List.length_nil]
        omega
      refine ⟨⟨small, rfl⟩, ?_, room⟩
      rw [applyRecord_submit _ carried fits, applySubmit, found, OutboxCall.effect, carried]
      dsimp only
      rw [found]
      exact bind_eq_ok.mpr ⟨_, next, checked_eq_ok.mpr ⟨not_not.mpr rfl, rfl⟩⟩
  | mark producerEpoch sequence =>
      obtain ⟨original, planned, rfl⟩ := mark_writes writes
      obtain ⟨-, found, -, room⟩ := planMark_eq_ok planned
      refine ⟨⟨?_, rfl⟩, ?_, room⟩
      · simp [ackBody]
      · rw [applyRecord_ack, applyAck, found, OutboxCall.effect, found]
        rfl

theorem perform_succeeds {call : OutboxCall} {body : Bytes}
    (writes : outbox.body? call = some body) {io : WalIo} (succeeds : io.succeeds = true) :
    outbox.perform call io = (outbox.grown body (call.effect outbox.entries), .ok ()) := by
  obtain ⟨written, flushed, synced⟩ := of_decide_eq_true succeeds
  cases call with
  | stage encodedSubmit =>
      obtain ⟨sequence, carried, found, planned, rfl⟩ := stage_writes writes
      simp only [perform, stageSubmit, carried, found, planned, OutboxCall.effect, written, flushed,
        synced, WriteReply.landed]
      rfl
  | mark producerEpoch sequence =>
      obtain ⟨original, planned, rfl⟩ := mark_writes writes
      obtain ⟨-, found, -, -⟩ := planMark_eq_ok planned
      simp only [perform, markCommitted, planned, OutboxCall.effect, found, written, flushed,
        synced, WriteReply.landed]
      rfl

/-- A call whose write fails leaves everything but the file. -/
theorem perform_fails {call : OutboxCall} {body : Bytes} (writes : outbox.body? call = some body)
    {io : WalIo} (fails : io.succeeds = false) :
    ∃ wal, outbox.perform call io = ({ outbox with wal }, .error .io) ∧ outbox.Strays body wal := by
  have broken := of_decide_eq_false fails
  have landed : outbox.Strays body (outbox.wal.append (io.reply.landed (frameRecord body))) :=
    Or.inl ⟨_, io.reply.landed_prefix _, rfl⟩
  cases call with
  | stage encodedSubmit =>
      obtain ⟨sequence, carried, found, planned, rfl⟩ := stage_writes writes
      simp only [perform, stageSubmit, carried, found, planned]
      split
      · exact ⟨_, rfl, landed⟩
      · rename_i reached
        rw [not_or, not_not, Bool.not_eq_false] at reached
        split
        · refine ⟨_, rfl, ?_⟩
          rw [reached.1] at landed ⊢
          cases io.rolledBack
          · cases io.resynced <;> exact landed
          · cases io.resynced <;> exact Or.inr rfl
        · rename_i synced
          rw [Bool.not_eq_false] at synced
          exact absurd ⟨reached.1, reached.2, synced⟩ broken
  | mark producerEpoch sequence =>
      obtain ⟨original, planned, rfl⟩ := mark_writes writes
      simp only [perform, markCommitted, planned]
      split
      · exact ⟨_, rfl, landed⟩
      · rename_i reached
        simp only [not_or, not_not, Bool.not_eq_false] at reached
        exact absurd reached broken

/-- Opens the directory of an outbox again, with the file that is found there. -/
def reopen (outbox : ProducerOutbox) (wal : LogFile) (maxBytes : Nat)
    (capability : Option Spool.ScribeSpoolCapability) (journalId : JournalId) :
    Except ProducerOutboxError ProducerOutbox :=
  openInner (some outbox.identityFile) wal outbox.identity maxBytes capability journalId

/-- The file holds the bodies, the entries are what they replay to, and all bytes are counted. -/
structure Mirrors (outbox : ProducerOutbox) (bodies : List Bytes) : Prop where
  laid : Laid Spells bodies outbox.wal.bytes
  replayed : replay .empty bodies = .ok outbox.entries
  used : outbox.usedBytes = outbox.wal.bytes.length

omit [Digests] in
/-- The identity file belongs to the identity. -/
def Named (outbox : ProducerOutbox) : Prop :=
  encodeIdentity outbox.identity = .ok outbox.identityFile

theorem openInner_eq_ok {found : Option Bytes} {wal : LogFile} {identity : ProducerOutboxIdentity}
    {maxBytes : Nat} {capability : Option Spool.ScribeSpoolCapability} {journalId : JournalId}
    (opened : openInner found wal identity maxBytes capability journalId = .ok outbox) :
    outbox.Named ∧ outbox.identity = identity ∧ outbox.maxBytes = maxBytes ∧
      outbox.wal.bytes <+: wal.bytes ∧ ∃ bodies, outbox.Mirrors bodies := by
  obtain ⟨_, -, opened⟩ := bind_eq_ok.mp opened
  obtain ⟨-, opened⟩ := checked_eq_ok.mp opened
  obtain ⟨identityFile, ensured, opened⟩ := bind_eq_ok.mp opened
  obtain ⟨⟨entries, valid⟩, scanned, opened⟩ := bind_eq_ok.mp opened
  cases opened
  obtain ⟨expected, encoded, ensured⟩ := bind_eq_ok.mp ensured
  obtain ⟨bodies, count, total, covered, laid, replayed⟩ := scanFrom_ok scanned
  rw [Nat.zero_add] at total
  subst total
  have bytes : (if valid ≠ wal.bytes.length then (wal.truncate valid).sync else wal).bytes =
      wal.bytes.take valid := by
    split
    · rfl
    · rename_i whole
      rw [not_not.mp whole, List.take_length]
  refine ⟨?_, rfl, rfl, by rw [bytes]; exact List.take_prefix _ _, bodies, ?_, replayed, ?_⟩
  · split at ensured
    · cases ensured
      exact encoded
    · split at ensured
      · cases ensured
        exact encoded
      · cases ensured
  · rw [bytes]
    exact laid
  · rw [bytes, List.length_take_of_le covered]

/-- What is made of a file that was cut anywhere. -/
theorem reopen_cut (named : outbox.Named) {wal : LogFile} {maxBytes : Nat}
    (positive : maxBytes ≠ 0) (capability : Option Spool.ScribeSpoolCapability)
    (journalId : JournalId) {lost : List Bytes} {kept rest : Bytes} {entries : Entries}
    (bytes : wal.bytes = kept ++ rest) (laid : Laid Spells bodies kept)
    (torn : Torn Spells lost rest) (replayed : replay .empty bodies = .ok entries) :
    ∃ reopened, outbox.reopen wal maxBytes capability journalId = .ok reopened ∧
      reopened.wal.bytes = kept ∧ reopened.entries = entries ∧
      reopened.usedBytes = kept.length := by
  obtain ⟨_, valid, -⟩ := bind_eq_ok.mp named
  have ensured : ensureIdentity (some outbox.identityFile) outbox.identity =
      .ok outbox.identityFile :=
    bind_eq_ok.mpr ⟨_, named, if_pos rfl⟩
  have scanned := scanWal_cut laid torn replayed
  rw [← bytes] at scanned
  refine ⟨⟨outbox.identity, outbox.identityFile,
    if kept.length ≠ wal.bytes.length then (wal.truncate kept.length).sync else wal, maxBytes,
    kept.length, entries, capability, journalId⟩, ?_, ?_, rfl, rfl⟩
  · refine bind_eq_ok.mpr ⟨_, valid, checked_eq_ok.mpr ⟨positive, ?_⟩⟩
    exact bind_eq_ok.mpr ⟨_, ensured, bind_eq_ok.mpr ⟨_, scanned, rfl⟩⟩
  · show (if kept.length ≠ wal.bytes.length then (wal.truncate kept.length).sync else wal).bytes =
      kept
    split
    · rw [LogFile.sync_bytes, LogFile.truncate_bytes, bytes, List.take_left]
    · rename_i whole
      have length := not_not.mp whole
      rw [bytes, List.length_append] at length
      rw [bytes, List.eq_nil_of_length_eq_zero (by omega : rest.length = 0), List.append_nil]

theorem Mirrors.grown (mirrors : outbox.Mirrors bodies) {call : OutboxCall} {body : Bytes}
    (writes : outbox.body? call = some body) :
    (outbox.grown body (call.effect outbox.entries)).Mirrors (bodies ++ [body]) := by
  obtain ⟨spelled, applied, -⟩ := body?_applies writes
  refine ⟨mirrors.laid.concat spelled, ?_, ?_⟩
  · rw [replay_concat mirrors.replayed]
    exact applied
  · show outbox.usedBytes + (frameRecord body).length =
      (outbox.wal.bytes ++ frameRecord body).length
    rw [mirrors.used, List.length_append]

/-- A call without faults. -/
def call (outbox : ProducerOutbox) (called : OutboxCall) : ProducerOutbox :=
  (outbox.perform called .faultless).1

/-- The bodies of the records that calls without faults write. -/
def written (outbox : ProducerOutbox) : List OutboxCall → List Bytes
  | [] => []
  | called :: rest => (outbox.body? called).toList ++ (outbox.call called).written rest

theorem written_append (outbox : ProducerOutbox) (front back : List OutboxCall) :
    outbox.written (front ++ back) =
      outbox.written front ++ (Machine.run call outbox front).written back := by
  induction front generalizing outbox with
  | nil => rfl
  | cons called rest ih =>
      simp only [List.cons_append, written]
      rw [ih, List.append_assoc]
      rfl

/-- Every beginning of what is written is what some of the calls write. -/
theorem written_take (outbox : ProducerOutbox) {calls : List OutboxCall} {front : List Bytes}
    (begins : front <+: outbox.written calls) :
    ∃ count, outbox.written (calls.take count) = front := by
  induction calls generalizing outbox front with
  | nil => exact ⟨0, (List.prefix_nil.mp begins).symm⟩
  | cons called rest ih =>
      simp only [written] at begins
      cases wrote : outbox.body? called with
      | none =>
          rw [wrote] at begins
          obtain ⟨count, same⟩ := ih (outbox.call called) begins
          refine ⟨count + 1, ?_⟩
          rw [List.take_succ_cons, written, wrote, same]
          rfl
      | some body =>
          rw [wrote] at begins
          rcases List.prefix_cons_iff.mp begins with rfl | ⟨later, rfl, further⟩
          · exact ⟨0, rfl⟩
          · obtain ⟨count, same⟩ := ih (outbox.call called) further
            refine ⟨count + 1, ?_⟩
            rw [List.take_succ_cons, written, wrote, same]
            rfl

theorem Mirrors.call (mirrors : outbox.Mirrors bodies) (called : OutboxCall) :
    (outbox.call called).Mirrors (bodies ++ (outbox.body? called).toList) := by
  unfold ProducerOutbox.call
  cases wrote : outbox.body? called with
  | none =>
      rw [perform_silent wrote, Option.toList_none, List.append_nil]
      exact mirrors
  | some body =>
      rw [perform_succeeds wrote (by decide), Option.toList_some]
      exact mirrors.grown wrote

theorem Mirrors.run {outbox : ProducerOutbox} {bodies : List Bytes}
    (mirrors : outbox.Mirrors bodies)
    (calls : List OutboxCall) :
    (Machine.run ProducerOutbox.call outbox calls).Mirrors (bodies ++ outbox.written calls) := by
  induction calls generalizing outbox bodies with
  | nil =>
      rw [written, List.append_nil]
      exact mirrors
  | cons called rest ih =>
      have later := ih (mirrors.call called)
      rw [List.append_assoc] at later
      exact later

/-- What no call changes. -/
theorem perform_frame (outbox : ProducerOutbox) (called : OutboxCall) (io : WalIo) :
    (outbox.perform called io).1.identity = outbox.identity ∧
    (outbox.perform called io).1.identityFile = outbox.identityFile ∧
    (outbox.perform called io).1.maxBytes = outbox.maxBytes := by
  cases wrote : outbox.body? called with
  | none =>
      rw [perform_silent wrote]
      exact ⟨rfl, rfl, rfl⟩
  | some body =>
      cases outcome : io.succeeds with
      | true =>
          rw [perform_succeeds wrote outcome]
          exact ⟨rfl, rfl, rfl⟩
      | false =>
          obtain ⟨wal, same, -⟩ := perform_fails wrote outcome
          rw [same]
          exact ⟨rfl, rfl, rfl⟩

/-- Bytes under a known sequence are never replaced. -/
theorem stageSubmit_conflict {encodedSubmit : Bytes} {state : EntryState}
    (carried : submitSequence encodedSubmit = .ok sequence)
    (found : outbox.entries.find? sequence.toNat = some state)
    (differs : state.submit ≠ encodedSubmit) (io : WalIo) :
    outbox.stageSubmit encodedSubmit io = (outbox, .error (.identityConflict sequence)) := by
  simp only [stageSubmit, carried, found]
  exact if_neg differs

theorem laid_unique {first second : Bytes} (left : Laid Spells bodies first)
    (right : Laid Spells bodies second) : first = second :=
  left.unique (fun _ _ _ spelled again => spelled.2.trans again.2.symm) right

/-- Records beyond a cut do not fit into what the cut leaves. -/
theorem beyond_cut {front back longer : List Bytes} {whole rest bytes : Bytes}
    (laid : Laid Spells front whole) (torn : Torn Spells back rest)
    (begins : longer <+: front ++ back)
    (covers : Laid Spells longer bytes) (fits : bytes.length ≤ whole.length + rest.length) :
    bytes.length ≤ whole.length := by
  rcases List.prefix_or_prefix_of_prefix begins (List.prefix_append front back) with
    ⟨more, rfl⟩ | ⟨more, rfl⟩
  · obtain ⟨first, second, rfl, left, -⟩ := laid.split
    rw [laid_unique covers left, List.length_append]
    exact Nat.le_add_right _ _
  · obtain ⟨first, second, rfl, left, right⟩ := covers.split
    rw [laid_unique laid left] at fits ⊢
    cases right with
    | nil => simp
    | @cons body piece _ later spelled _ =>
        -- The next record is whole here, but the cut has left its beginning only.
        obtain ⟨tail, rfl⟩ : ∃ tail, back = body :: tail := by
          obtain ⟨tail, split⟩ := begins
          rw [List.append_assoc, List.append_cancel_left_eq] at split
          exact ⟨_, split.symm⟩
        have shorter : rest.length < piece.length := by
          rcases torn with rfl | ⟨item, _, record, missing, same, again, some_byte, split⟩
          · rw [spelled.2, frameRecord_length]
            simp
          · cases same
            have behind := List.length_pos_of_ne_nil some_byte
            rw [spelled.2, ← again.2, split, List.length_append]
            omega
        simp only [List.length_append] at fits
        omega

/-- Any beginning of the file of an outbox opens to what the outbox was after the calls whose
records are whole. -/
theorem prefix_restores {found : Option Bytes} {identity : ProducerOutboxIdentity} {maxBytes : Nat}
    {capability : Option Spool.ScribeSpoolCapability} {journalId : JournalId}
    {outbox : ProducerOutbox}
    (opened : openInner found .empty identity maxBytes capability journalId = .ok outbox)
    (calls : List OutboxCall) {count : Nat} {file : LogFile}
    (cut : file.bytes = (Machine.run call outbox calls).wal.bytes.take count) {laterMax : Nat}
    (positive : laterMax ≠ 0) (laterCapability : Option Spool.ScribeSpoolCapability)
    (laterJournal : JournalId) :
    ∃ done reopened, let held := Machine.run call outbox (calls.take done)
      outbox.reopen file laterMax laterCapability laterJournal = .ok reopened ∧
      held.wal.bytes <+: file.bytes ∧
      (∀ more, (Machine.run call outbox (calls.take more)).wal.bytes.length ≤ file.bytes.length →
        (Machine.run call outbox (calls.take more)).wal.bytes.length ≤ held.wal.bytes.length) ∧
      reopened.wal.bytes = held.wal.bytes ∧ reopened.entries = held.entries ∧
      nextSequence reopened.entries = nextSequence held.entries ∧
      reopened.usedBytes = held.usedBytes ∧ (∃ total, Dense reopened.entries total) ∧
      ∀ encodedSubmit io sequence state, submitSequence encodedSubmit = .ok sequence →
        reopened.entries.find? sequence.toNat = some state → state.submit ≠ encodedSubmit →
        reopened.stageSubmit encodedSubmit io =
          (reopened, .error (.identityConflict sequence)) := by
  obtain ⟨named, -, -, empty, bodies, mirrors⟩ := openInner_eq_ok opened
  obtain rfl : bodies = [] := by
    have laid := laid_length mirrors.laid
    rw [List.prefix_nil.mp empty, List.length_nil] at laid
    exact List.eq_nil_of_length_eq_zero (by omega)
  have mirrored : ∀ calls, (Machine.run call outbox calls).Mirrors (outbox.written calls) :=
    fun calls => mirrors.run calls
  obtain ⟨front, back, whole, rest, split, laid, parted, torn⟩ := (mirrored calls).laid.cut count
  rw [← cut] at parted
  obtain ⟨done, wrote⟩ := outbox.written_take
    (show front <+: outbox.written calls from ⟨back, split.symm⟩)
  have held := mirrored (calls.take done)
  rw [wrote] at held
  obtain ⟨reopened, opens, bytes, entries, used⟩ :=
    reopen_cut named positive laterCapability laterJournal parted laid torn held.replayed
  have same := laid_unique held.laid laid
  refine ⟨done, reopened, opens, ?_, ?_, ?_, entries, ?_, ?_, ?_, ?_⟩
  · rw [same, parted]
    exact List.prefix_append _ _
  · intro more fits
    have begins : outbox.written (calls.take more) <+: front ++ back := by
      rw [← split]
      nth_rewrite 2 [← List.take_append_drop more calls]
      rw [written_append]
      exact List.prefix_append _ _
    rw [parted, List.length_append] at fits
    rw [same]
    exact beyond_cut laid torn begins (mirrored (calls.take more)).laid fits
  · rw [bytes, same]
  · rw [entries]
  · rw [used, held.used, same]
  · rw [entries]
    exact replay_dense dense_empty held.replayed
  · intro encodedSubmit io sequence state carried found differs
    exact stageSubmit_conflict carried found differs io

end ProducerOutbox

namespace ProducerOutbox

/-- Two submissions, the first acknowledged, cut in the acknowledgement. -/
theorem prefix_restores_torn : ∃ (_ : Digests) (outbox : ProducerOutbox),
    openInner none .empty sampleIdentity 1000 none Spool.sampleJournal = .ok outbox ∧
    let calls := [.stage (sampleSubmit 0 7), .stage (sampleSubmit 1 8), .mark 1 0]
    let last := Machine.run call outbox calls
    last.usedBytes = 111 ∧
    ∃ done reopened, outbox.reopen (last.wal.truncate 100) 1000 none Spool.sampleJournal =
        .ok reopened ∧
      reopened.entries = (Machine.run call outbox (calls.take done)).entries := by
  refine ⟨sampleDigests, _, rfl, by decide +kernel, ?_⟩
  obtain ⟨done, reopened, opens, -, -, -, entries, -⟩ := @prefix_restores sampleDigests none
    sampleIdentity 1000 none Spool.sampleJournal _ rfl
    [.stage (sampleSubmit 0 7), .stage (sampleSubmit 1 8), .mark 1 0] 100 _
    (LogFile.truncate_bytes _ _) 1000 (by decide) none Spool.sampleJournal
  exact ⟨done, reopened, opens, entries⟩

end ProducerOutbox

end Scripture.Producer
