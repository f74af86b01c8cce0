import Scripture.Driver.Offsets
import Scripture.Driver.Waiters
import Scripture.ChunkLogRecover

set_option autoImplicit false

/- Receipts tell the truth. What a receipt or a window entry names is in the log: the slot holds a
chunk with the named id whose frame carries, at exactly the named offsets, the records of the
submission that is answered. -/
namespace Scripture

open ByteFormat

/-- The frame carries these records for this submission, from this offset on. -/
def Frame.Holds (frame : Frame) (identity : Identity) (first : Nat) (slice : List Record) : Prop :=
  ∃ span ∈ frame.submissions, span.identity = identity ∧
    first = frame.baseOffset.toNat + span.firstRecord.toNat ∧
    submissionRecords frame.records span = some slice

variable {journal : JournalId} {placed : List PlacedSubmission} {span : SubmissionRef}

/-- Every submission of a sealed frame is in it, at the offset it was admitted with. -/
theorem frameOf_holds {rest : List PlacedSubmission} {first item : PlacedSubmission}
    (whole : placed = first :: rest) (chained : Chained placed)
    (small : (placedRecords placed).length < 2 ^ 32)
    (fits : first.firstOffset.toNat + (placedRecords placed).length < 2 ^ 64)
    (member : item ∈ placed) :
    (frameOf journal first.firstOffset placed).Holds item.submission.identity
        item.firstOffset.toNat item.submission.records ∧
      item.firstOffset.toNat + item.submission.records.length < 2 ^ 64 := by
  obtain ⟨front, back, split⟩ := List.append_of_mem member
  have total : (placedRecords placed).length = (placedRecords front).length +
      (item.submission.records.length + (placedRecords back).length) := by
    rw [split, placedRecords_append, List.length_append]
    exact congrArg _ List.length_append
  have offset := chained first rest whole front item back split (by omega)
  refine ⟨⟨spanAfter front item, spanAfter_mem split small, rfl, ?_,
    submissionRecords_spanAfter split small⟩, by omega⟩
  show item.firstOffset.toNat = first.firstOffset.toNat + (UInt32.ofNat _).toNat
  rw [toNat_u32OfNat (by omega)]
  exact offset

/-- The log holds the records of a submission in this slot, at these offsets. -/
def Stored [Digests] (store : BlobStore) (log : List Bytes) (journal : JournalId) (slot : Nat)
    (chunkId : ChunkId) (identity : Identity) (first : RecordOffset) (slice : List Record) : Prop :=
  ∃ header frame, ChunkAt log store slot ⟨header, [frame]⟩ ∧ header.chunkId = chunkId ∧
    frame.journalId = journal ∧ frame.Holds identity first.toNat slice ∧
    first.toNat + slice.length < 2 ^ 64

theorem stored_of_chunkAt [Digests] {store : BlobStore} {log : List Bytes} {slot : Nat}
    {header : ChunkHeader} {rest : List PlacedSubmission} {first item : PlacedSubmission}
    (held : ChunkAt log store slot ⟨header, [frameOf journal first.firstOffset placed]⟩)
    (whole : placed = first :: rest) (chained : Chained placed)
    (small : (placedRecords placed).length < 2 ^ 32)
    (fits : first.firstOffset.toNat + (placedRecords placed).length < 2 ^ 64)
    (member : item ∈ placed) :
    Stored store log journal slot header.chunkId item.submission.identity item.firstOffset
      item.submission.records := by
  obtain ⟨holds, bound⟩ := frameOf_holds whole chained small fits member
  exact ⟨header, _, held, rfl, rfl, holds, bound⟩

/-- A receipt names where the records of the submission are. -/
def Receipt.Sound [Digests] (store : BlobStore) (log : List Bytes) (journal : JournalId)
    (submission : Submission) (receipt : Receipt) : Prop :=
  receipt.journalId = journal ∧ ∃ slice,
    Stored store log journal receipt.slot receipt.chunkId submission.identity receipt.firstOffset
      slice ∧
    receipt.nextOffset.toNat = receipt.firstOffset.toNat + slice.length ∧
    canonicalRecordsDigest slice = canonicalRecordsDigest submission.records

/-- A window entry names where the records of its submission are, and their digest. -/
def DedupReceipt.Sound [Digests] (store : BlobStore) (log : List Bytes) (journal : JournalId)
    (identity : Identity) (entry : DedupReceipt) : Prop :=
  ∃ slice, Stored store log journal entry.slot entry.chunkId identity entry.firstOffset slice ∧
    entry.recordCount.toNat = slice.length ∧
    entry.submissionDigest = canonicalRecordsDigest slice

section growth

variable [Digests] {before after : BlobStore} {log : List Bytes} {journal : JournalId}

theorem Stored.extend (grown : before.Extends after) (more : List Bytes) {slot : Nat}
    {chunkId : ChunkId} {identity : Identity} {first : RecordOffset} {slice : List Record}
    (stored : Stored before log journal slot chunkId identity first slice) :
    Stored after (log ++ more) journal slot chunkId identity first slice := by
  obtain ⟨header, frame, held, rest⟩ := stored
  exact ⟨header, frame, held.extend grown more, rest⟩

theorem Receipt.Sound.extend (grown : before.Extends after) (more : List Bytes)
    {submission : Submission} {receipt : Receipt}
    (sound : receipt.Sound before log journal submission) :
    receipt.Sound after (log ++ more) journal submission := by
  obtain ⟨owner, slice, stored, rest⟩ := sound
  exact ⟨owner, slice, stored.extend grown more, rest⟩

theorem DedupReceipt.Sound.extend (grown : before.Extends after) (more : List Bytes)
    {identity : Identity} {entry : DedupReceipt}
    (sound : entry.Sound before log journal identity) :
    entry.Sound after (log ++ more) journal identity := by
  obtain ⟨slice, stored, rest⟩ := sound
  exact ⟨slice, stored.extend grown more, rest⟩

end growth

namespace DedupWindow

/-- The receipt of one sequence. -/
def find (window : DedupWindow) (key : ProducerId × UInt32) (sequence : UInt64) :
    Option DedupReceipt :=
  (window key).bind fun entry => entry.2 sequence

theorem find_insert (window : DedupWindow) (key other : ProducerId × UInt32)
    (sequence wanted : UInt64) (receipt : DedupReceipt) :
    (window.insert key sequence receipt).find other wanted =
      if other = key ∧ wanted = sequence then some receipt else window.find other wanted := by
  unfold insert find
  by_cases sameKey : other = key
  · subst sameKey
    by_cases sameSequence : wanted = sequence
    · subst sameSequence
      simp
    · cases window other <;> simp [sameSequence]
  · simp [sameKey]

/-- After a series of insertions an entry is an old one or one of the series. -/
theorem find_foldl_insert {α : Type} (key : α → ProducerId × UInt32) (sequence : α → UInt64)
    (receipt : α → DedupReceipt) (items : List α) (window : DedupWindow)
    {wanted : ProducerId × UInt32} {number : UInt64} {entry : DedupReceipt}
    (found : (items.foldl (fun window item =>
      window.insert (key item) (sequence item) (receipt item)) window).find wanted number =
        some entry) :
    window.find wanted number = some entry ∨
      ∃ item ∈ items, key item = wanted ∧ sequence item = number ∧ receipt item = entry := by
  induction items generalizing window with
  | nil => exact Or.inl found
  | cons item rest ih =>
      rcases ih _ found with old | ⟨other, listed, facts⟩
      · rw [find_insert] at old
        split at old
        · rename_i same
          exact Or.inr ⟨item, List.mem_cons_self, same.1.symm, same.2.symm, Option.some.inj old⟩
        · exact Or.inl old
      · exact Or.inr ⟨other, List.mem_cons_of_mem _ listed, facts⟩

end DedupWindow

/-- The submissions of a recovered suffix, with their chunks and digests, in order. -/
def rebuiltItems (recovered : List RecoveredChunk) :
    List (RecoveredChunk × SubmissionRef × FixedBytes 32) :=
  recovered.flatMap fun chunk =>
    (chunk.frame.submissions.zip chunk.submissionDigests).map fun item => (chunk, item)

/-- The window entry a recovered submission gets. -/
def rebuiltEntry (item : RecoveredChunk × SubmissionRef × FixedBytes 32) : DedupReceipt :=
  let first := match item.1.frame.offsetsFor item.2.1.producerId item.2.1.producerEpoch
      item.2.1.sequence with
    | some (first, _) => first
    | none => item.1.firstOffset
  ⟨first, item.2.1.recordCount, item.1.chunkId, item.1.slot, item.1.generation, item.2.2⟩

theorem rebuildDedup_foldl (actor : Actor) (recovered : List RecoveredChunk) :
    actor.rebuildDedup recovered = (rebuiltItems recovered).foldl
      (fun actor item => actor.rebuildSubmission item.1 item.2.1 item.2.2) actor := by
  unfold Actor.rebuildDedup rebuiltItems
  induction recovered generalizing actor with
  | nil => rfl
  | cons chunk rest ih =>
      rw [List.foldl_cons, List.flatMap_cons, List.foldl_append, List.foldl_map, ih]
      rfl

theorem rebuildDedup_dedup (actor : Actor) (recovered : List RecoveredChunk) :
    (actor.rebuildDedup recovered).dedup = (rebuiltItems recovered).foldl (fun window item =>
      window.insert (item.2.1.producerId, item.2.1.producerEpoch) item.2.1.sequence
        (rebuiltEntry item)) actor.dedup := by
  rw [rebuildDedup_foldl]
  induction rebuiltItems recovered generalizing actor with
  | nil => rfl
  | cons item rest ih =>
      rw [List.foldl_cons, ih, List.foldl_cons]
      rfl

/-- The digests of a recovered chunk are those of its submissions. -/
theorem digestSubmissions_eq_ok [Digests] {records : List Record} {spans : List SubmissionRef}
    {digests : List (FixedBytes 32)}
    (digested : digestSubmissions journal records spans = .ok digests) :
    List.Forall₂ (fun span digest => ∃ slice, submissionRecords records span = some slice ∧
      digest = canonicalRecordsDigest slice) spans digests := by
  induction spans generalizing digests with
  | nil =>
      cases digested
      exact .nil
  | cons head rest ih =>
      unfold digestSubmissions at digested
      split at digested <;> [skip; cases digested]
      rename_i slice cut
      obtain ⟨others, remaining, digested⟩ := bind_eq_ok.mp digested
      cases digested
      exact .cons ⟨slice, cut, rfl⟩ (ih remaining)

theorem submissionRecords_eq_some {records slice : List Record}
    (cut : submissionRecords records span = some slice) :
    slice.length = span.recordCount.toNat ∧
      ∃ front back, records = front ++ (slice ++ back) ∧ front.length = span.firstRecord.toNat := by
  unfold submissionRecords at cut
  dsimp only at cut
  split at cut <;> [skip; cases cut]
  cases cut
  refine ⟨?_, records.take span.firstRecord.toNat, (records.drop span.firstRecord.toNat).drop
    (span.firstRecord.toNat + span.recordCount.toNat - span.firstRecord.toNat), ?_, ?_⟩
  · rw [List.length_take, List.length_drop]
    omega
  · rw [List.take_append_drop, List.take_append_drop]
  · rw [List.length_take]
    omega

/-- A frame with distinct identities finds the offset of each of its submissions. -/
theorem offsetsFor_mem {frame : FrameRef}
    (distinct : (frame.submissions.map SubmissionRef.identity).Nodup)
    (member : span ∈ frame.submissions)
    (fits : frame.baseOffset.toNat + span.firstRecord.toNat < 2 ^ 64) :
    frame.offsetsFor span.producerId span.producerEpoch span.sequence =
      some (.ofNat (frame.baseOffset.toNat + span.firstRecord.toNat), span.recordCount) := by
  have own : frame.submissions.find? (fun submission =>
      submission.producerId = span.producerId ∧ submission.producerEpoch = span.producerEpoch ∧
        submission.sequence = span.sequence) = some span := by
    cases found : frame.submissions.find? (fun submission =>
        submission.producerId = span.producerId ∧ submission.producerEpoch = span.producerEpoch ∧
          submission.sequence = span.sequence) with
    | none => simpa using List.find?_eq_none.mp found span member
    | some other =>
        have same : other.identity = span.identity := by
          have matched := List.find?_some found
          simp only [decide_eq_true_eq] at matched
          simp [SubmissionRef.identity, matched]
        rw [List.inj_on_of_nodup_map distinct (List.mem_of_find?_eq_some found) member same]
  unfold FrameRef.offsetsFor
  rw [own, Option.bind_some, RecordOffset.checkedAdd, if_pos fits]
  rfl

/-- What recovery enters in the window is in the log. -/
theorem rebuiltEntry_sound [Digests] {store : BlobStore} {log : List Bytes}
    {recovered : RecoveredChunk} {chunk : Chunk} (held : ChunkAt log store recovered.slot chunk)
    (describes : Describes journal recovered recovered.slot chunk)
    (fits : recovered.firstOffset.toNat + recovered.recordCount.toNat < 2 ^ 64)
    {digest : FixedBytes 32}
    (member : (span, digest) ∈ recovered.frame.submissions.zip recovered.submissionDigests) :
    (rebuiltEntry (recovered, span, digest)).Sound store log journal span.identity := by
  obtain ⟨records, length, frames, digested⟩ := describes.frame
  obtain ⟨slice, cut, rfl⟩ := List.forall₂_zip (digestSubmissions_eq_ok digested) member
  obtain ⟨count, front, back, split, skipped⟩ := submissionRecords_eq_some cut
  have inside := congrArg List.length split
  simp only [List.length_append] at inside
  have listed : span ∈ recovered.frame.submissions := (List.of_mem_zip member).1
  have start : recovered.frame.baseOffset.toNat + span.firstRecord.toNat < 2 ^ 64 := by
    rw [describes.base]
    omega
  have offset : (rebuiltEntry (recovered, span, canonicalRecordsDigest slice)).firstOffset =
      .ofNat (recovered.frame.baseOffset.toNat + span.firstRecord.toNat) := by
    dsimp only [rebuiltEntry]
    rw [offsetsFor_mem describes.distinct listed start]
  have first : (rebuiltEntry (recovered, span, canonicalRecordsDigest slice)).firstOffset.toNat =
      recovered.firstOffset.toNat + span.firstRecord.toNat := by
    rw [offset, RecordOffset.toNat_ofNat start, describes.base]
  have whole : chunk = ⟨chunk.header,
      [⟨journal, recovered.firstOffset, records, recovered.frame.submissions⟩]⟩ := by
    rw [← frames]
  refine ⟨slice, ⟨chunk.header, _, whole ▸ held, describes.chunkId, rfl,
    ⟨span, listed, rfl, first, cut⟩, ?_⟩, count.symm, rfl⟩
  rw [first]
  omega

/-- What a driver has promised and what it has said are true of the log. -/
structure Sound [Digests] (store : BlobStore) (driver : Driver) : Prop extends
    Framed driver, Attended driver where
  window : ∀ key sequence entry, driver.dedup.find key sequence = some entry →
    entry.Sound store driver.writer.log driver.journalId (key.1, key.2, sequence)
  receipts : ∀ ticket receipt, .receipt ticket (.ok receipt) ∈ driver.sent →
    ∃ submission, driver.offered[ticket]? = some submission ∧
      receipt.Sound store driver.writer.log driver.journalId submission

/-- A list of messages without receipts. -/
def NoReceipt (messages : List Message) : Prop :=
  ∀ ticket receipt, .receipt ticket (.ok receipt) ∉ messages

theorem NoReceipt.old {sent messages : List Message} (none : NoReceipt messages) {ticket : Nat}
    {receipt : Receipt} (said : .receipt ticket (.ok receipt) ∈ sent ++ messages) :
    .receipt ticket (.ok receipt) ∈ sent :=
  (List.mem_append.mp said).resolve_right (none ticket receipt)

theorem noReceipt_results (placed : List PlacedSubmission) (error : DriverError) :
    NoReceipt (results placed fun _ => .error error) := by
  intro ticket receipt said
  obtain ⟨-, -, -, wrong⟩ := mem_results.mp said
  cases wrong

theorem noReceipt_refusals (parked : List BlockedSubmission) (error : DriverError) :
    NoReceipt (parked.map fun item => .admission item.ticket (.error error)) := by
  simp [NoReceipt]

theorem noReceipt_single {message : Message} (other : ∀ ticket receipt,
    message ≠ .receipt ticket (.ok receipt)) : NoReceipt [message] := by
  intro ticket receipt said
  exact other ticket receipt (List.mem_singleton.mp said).symm

theorem placedRecords_item {item : PlacedSubmission} (member : item ∈ placed) :
    item.submission.records.length ≤ (placedRecords placed).length := by
  obtain ⟨front, back, rfl⟩ := List.append_of_mem member
  rw [placedRecords_append, List.length_append]
  have split : placedRecords (item :: back) = item.submission.records ++ placedRecords back := rfl
  rw [split, List.length_append]
  omega

section steps

variable [Digests] {store : BlobStore}

variable {before after driver : Driver}

/-- The truth of a driver survives a step that only adds true things. -/
theorem Sound.advance (sound : Sound store before) (framed : Framed after)
    (attended : Attended after) (journal : after.journalId = before.journalId)
    (log : ∃ more, after.writer.log = before.writer.log ++ more)
    (offered : ∃ more, after.offered = before.offered ++ more)
    (window : ∀ key sequence entry, after.dedup.find key sequence = some entry →
      before.dedup.find key sequence = some entry ∨
        entry.Sound store after.writer.log after.journalId (key.1, key.2, sequence))
    (receipts : ∀ ticket receipt, .receipt ticket (.ok receipt) ∈ after.sent →
      .receipt ticket (.ok receipt) ∈ before.sent ∨
        ∃ submission, after.offered[ticket]? = some submission ∧
          receipt.Sound store after.writer.log after.journalId submission) : Sound store after := by
  obtain ⟨moreLog, log⟩ := log
  obtain ⟨moreOffered, offered⟩ := offered
  have kept {ticket : Nat} {submission : Submission}
      (held : before.offered[ticket]? = some submission) :
      after.offered[ticket]? = some submission := by
    rw [offered, List.getElem?_append_left (List.getElem?_eq_some_iff.mp held).1]
    exact held
  exact {
    framed, attended with
    window := by
      intro key sequence entry found
      rcases window key sequence entry found with old | new
      · rw [log, journal]
        exact (sound.window key sequence entry old).extend (.refl store) moreLog
      · exact new
    receipts := by
      intro ticket receipt said
      rcases receipts ticket receipt said with old | new
      · obtain ⟨submission, held, true⟩ := sound.receipts ticket receipt old
        refine ⟨submission, kept held, ?_⟩
        rw [log, journal]
        exact true.extend (.refl store) moreLog
      · exact new }

/-- More objects make nothing false. -/
theorem Sound.extend {after : BlobStore} (grown : store.Extends after)
    (sound : Sound store driver) : Sound after driver where
  toFramed := sound.toFramed
  toAttended := sound.toAttended
  window := by
    intro key sequence entry found
    simpa using (sound.window key sequence entry found).extend grown []
  receipts := by
    intro ticket receipt said
    obtain ⟨submission, held, true⟩ := sound.receipts ticket receipt said
    exact ⟨submission, held, by simpa using true.extend grown []⟩

/-- Nothing new is promised, and nothing is said about a receipt. -/
theorem Sound.of_less (sound : Sound store before) (framed : Framed after)
    (attended : Attended after) (journal : after.journalId = before.journalId)
    (log : ∃ more, after.writer.log = before.writer.log ++ more)
    (offered : after.offered = before.offered) (window : after.dedup = before.dedup)
    (receipts : ∀ ticket receipt, .receipt ticket (.ok receipt) ∈ after.sent →
      .receipt ticket (.ok receipt) ∈ before.sent) : Sound store after :=
  sound.advance framed attended journal log ⟨[], by rw [offered, List.append_nil]⟩
    (fun _ _ _ found => Or.inl (window ▸ found)) fun _ _ said => Or.inl (receipts _ _ said)

theorem Taken.sound {taken : Driver} {submission : Submission} {ticket : Nat}
    (inHand : Taken driver submission ticket taken) (sound : Sound store driver) :
    Sound store taken := by
  have framed := inHand.framed sound.toFramed
  have attended := (inHand.attended sound.toAttended).1
  cases inHand with
  | offered =>
      exact sound.advance framed attended rfl ⟨[], by simp⟩ ⟨[submission], rfl⟩
        (fun _ _ _ => Or.inl) (fun _ _ => Or.inl)
  | parked => exact sound.of_less framed attended rfl ⟨[], by simp⟩ rfl rfl fun _ _ => id

/-- The retry's receipt is the entry's, with the end of its records. -/
theorem replayReceipt_sound (sound : Sound store driver) {submission : Submission}
    {receipt : DedupReceipt} (held : driver.Replays submission receipt) :
    (replayReceipt driver receipt).Sound store driver.writer.log driver.journalId submission := by
  obtain ⟨highest, window, entry, found, digest⟩ := held
  have listed : driver.dedup.find submission.key submission.sequence = some receipt := by
    rw [DedupWindow.find, entry]
    exact found
  obtain ⟨slice, stored, count, same⟩ := sound.window _ _ _ listed
  refine ⟨rfl, slice, stored, ?_, same.symm.trans digest⟩
  obtain ⟨-, -, -, -, -, -, fits⟩ := stored
  show ((receipt.firstOffset.checkedAdd receipt.recordCount.toNat).getD _).toNat = _
  rw [count, RecordOffset.checkedAdd, if_pos fits, Option.getD_some, RecordOffset.toNat_ofNat fits]
  rfl

/-- A commit tells the truth when its chunk is in the log. -/
theorem Sound.commit (sound : Sound store driver) {placed : List PlacedSubmission}
    {chunkId : ChunkId} {ack : ChunkAppendAck} {ledger : Ledger} {metrics : DriverMetrics}
    (framed : Framed (driver.committed placed chunkId ack ledger metrics))
    (attended : Attended (driver.committed placed chunkId ack ledger metrics))
    (stored : ∀ item ∈ placed, Stored store driver.writer.log driver.journalId ack.slot chunkId
      item.submission.identity item.firstOffset item.submission.records)
    (small : ∀ item ∈ placed, item.submission.records.length < 2 ^ 32)
    (answers : ∀ item ∈ placed, item.Answers driver.offered) :
    Sound store (driver.committed placed chunkId ack ledger metrics) := by
  refine sound.advance framed attended rfl ⟨[], (List.append_nil _).symm⟩
    ⟨[], (List.append_nil _).symm⟩ ?_ ?_
  · intro key sequence entry found
    rcases DedupWindow.find_foldl_insert _ _ _ placed driver.dedup found with
      old | ⟨item, member, rfl, rfl, rfl⟩
    · exact Or.inl old
    · exact Or.inr ⟨_, stored item member, toNat_u32OfNat (small item member), rfl⟩
  · intro ticket receipt said
    rcases List.mem_append.mp said with old | new
    · exact Or.inl old
    · obtain ⟨item, member, waits, released⟩ := mem_results.mp new
      cases released
      obtain ⟨submission, held, identity, digest⟩ := answers item member ticket waits
      have records := stored item member
      obtain ⟨-, -, -, -, -, -, fits⟩ := records
      refine Or.inr ⟨submission, held, rfl, item.submission.records, ?_, ?_, digest⟩
      · rw [identity]
        exact stored item member
      · show ((item.firstOffset.checkedAdd item.submission.records.length).getD _).toNat = _
        rw [RecordOffset.checkedAdd, if_pos fits, Option.getD_some, RecordOffset.toNat_ofNat fits]
        rfl

theorem acknowledged_stored {work : SealedWork} {ack : ChunkAppendAck}
    (acknowledged : Acknowledged before after work.chunk ack) (clean : NoCollision after.history)
    {journal : JournalId} (faithful : (PendingAppend.depthOne work).Faithful journal) :
    ∀ item ∈ work.placed, Stored after.store after.writer.log journal ack.slot work.chunk.chunkId
      item.submission.identity item.firstOffset item.submission.records := by
  obtain ⟨header, first, rest, filled, chained, result⟩ := faithful
  obtain ⟨payload, -, log, -, resolves⟩ := acknowledged.written
  have held : ChunkAt after.writer.log after.store ack.slot
      ⟨header, [frameOf journal first.firstOffset work.placed]⟩ := by
    refine ⟨work.chunk.bytes, ⟨payload, _, ?_, resolves _ _ result clean,
      List.mem_singleton_self _⟩, result.decoded⟩
    rw [acknowledged.slot, log]
    exact List.getElem?_concat_length
  intro item member
  rw [result.chunkId]
  exact stored_of_chunkAt held filled chained result.records result.offsets member

/-- A driver that has taken its pending work out, with a log that may have grown. -/
theorem Sound.of_appended (sound : Sound store before)
    {result : Except ChunkLogError ChunkAppendAck} {work : SealedWork} {writer : ChunkLogWriter}
    {held : BlobStore} {puts : List Act} (settled : Duration)
    (appends : before.Appends work result writer held puts) :
    Sound store (before.answered work result writer held puts settled) := by
  obtain ⟨put, kernel, ran⟩ := appends.ran
  have log : ∃ more, writer.log = before.writer.log ++ more := by
    cases result with
    | ok ack =>
        obtain ⟨payload, -, grown, -⟩ := (Driver.appendSealed_eq_ok ran).written
        exact ⟨[payload], grown⟩
    | error error =>
        rcases (Driver.appendSealed_eq_error ran).2 with same | ⟨payload, -, grown, -⟩
        · exact ⟨[], same.trans (List.append_nil _).symm⟩
        · exact ⟨[payload], grown⟩
  refine sound.of_less (sound.toFramed.of_idle (Or.inl rfl) rfl)
    (sound.toAttended.of_less rfl ?_ (List.Subset.refl _)) rfl log rfl rfl fun _ _ => id
  show before.openPlaced ++ [] ⊆ before.openPlaced ++ before.pendingPlaced
  exact List.append_subset.mpr ⟨List.subset_append_left _ _, List.nil_subset _⟩

theorem sound_move (move : Move before after) (clean : NoCollision after.history)
    (grown : after.store.Extends store) (sound : Sound store before) : Sound store after := by
  have framed := framed_move move sound.toFramed
  have attended := attended_move move sound.toAttended
  have same {α : Type} (list : List α) : ∃ more, list = list ++ more := ⟨[], by simp⟩
  cases move with
  | say message plain =>
      have silent : NoReceipt [message] := noReceipt_single (by rintro _ _ rfl; exact plain)
      exact sound.of_less framed attended rfl (same _) rfl rfl fun _ _ => silent.old
  | @refuse taken submission ticket inHand error =>
      have silent : NoReceipt [.admission ticket (.error error)] := noReceipt_single (by simp)
      exact (inHand.sound sound).of_less framed attended rfl (same _) rfl rfl
        fun _ _ => silent.old
  | @replay taken submission ticket inHand receipt held =>
      have offered := (inHand.attended sound.toAttended).2
      have true := replayReceipt_sound sound held
      have silent : NoReceipt [.admission ticket (.ok ())] := noReceipt_single (by simp)
      refine (inHand.sound sound).advance framed attended rfl (same _) (same _)
        (fun _ _ _ => Or.inl) ?_
      intro waiter answer said
      rcases List.mem_append.mp (silent.old said) with old | new
      · exact Or.inl old
      · cases List.mem_singleton.mp new
        refine Or.inr ⟨submission, offered, ?_⟩
        cases inHand <;> exact true
  | @joinOpen taken submission ticket inHand =>
      have silent : NoReceipt [.admission ticket (.ok ())] := noReceipt_single (by simp)
      exact (inHand.sound sound).of_less framed attended rfl (same _) rfl rfl fun _ _ => silent.old
  | @joinPending taken submission ticket inHand =>
      have silent : NoReceipt [.admission ticket (.ok ())] := noReceipt_single (by simp)
      exact (inHand.sound sound).of_less framed attended rfl (same _) rfl rfl fun _ _ => silent.old
  | park inHand =>
      exact (inHand.sound sound).of_less framed attended rfl (same _) rfl rfl fun _ _ => id
  | @place taken submission ticket inHand =>
      have silent : NoReceipt [.admission ticket (.ok ())] := noReceipt_single (by simp)
      exact (inHand.sound sound).of_less framed attended rfl (same _) rfl rfl fun _ _ => silent.old
  | sealRefused chunk first rest error =>
      exact sound.of_less framed attended rfl (same _) rfl rfl fun _ _ =>
        (noReceipt_results chunk.placed (.codec error)).old
  | commit work ack pending appends =>
      obtain ⟨put, kernel, ran⟩ := appends.ran
      have faithful := sound.pending _ pending
      have stored := acknowledged_stored (Driver.appendSealed_eq_ok ran)
        (fun act member => clean act (List.mem_append_left _ member)) faithful
      refine (sound.of_appended _ appends).commit framed attended ?_ ?_ ?_
      · intro item member
        have later := (stored item member).extend grown []
        rwa [List.append_nil] at later
      · obtain ⟨header, first, rest, -, -, result⟩ := faithful
        exact fun item member => lt_of_le_of_lt (placedRecords_item member) result.records
      · intro item member
        refine sound.waiting item (List.mem_append_right _ ?_)
        rw [pendingPlaced_of_some pending]
        exact member
  | fail work error pending appends =>
      have ready := sound.of_appended before.now appends
      refine ready.of_less framed attended rfl (same _) rfl rfl fun ticket receipt said => ?_
      have answered := (noReceipt_refusals _ _).old said
      rw [← List.append_assoc] at answered
      exact (noReceipt_results _ _).old ((noReceipt_results _ _).old answered)
  | enqueueFailed envelope placed encodedBytes message =>
      exact sound.of_less framed attended rfl (same _) rfl rfl fun _ _ =>
        (noReceipt_results placed (.invariant message)).old
  | refuseParked error =>
      exact sound.of_less framed attended rfl (same _) rfl rfl
        fun _ _ => (noReceipt_refusals before.blocked error).old
  | _ => exact sound.of_less framed attended rfl (same _) rfl rfl fun _ _ => id

/-- A driver over a recovered suffix starts with a true window. -/
theorem new_sound {config : DriverConfig} {log : List Bytes} {bound : RecoveryBound}
    {policy : GenerationPolicy} {blobs : Option BlobStore} {writer : ChunkLogWriter}
    {recovered : List RecoveredChunk} {held : BlobStore} (covers : Covers store blobs)
    (scanned : recoverFromLog config.journalId config.cohortId config.generation log bound policy
      blobs = .ok (writer, recovered))
    (mounted : Driver.new config writer recovered held = .ok driver) : Sound store driver := by
  have framed := new_framed mounted
  have attended := new_attended mounted
  obtain ⟨-, shape⟩ := Driver.new_eq_ok mounted
  obtain ⟨⟨next, owner⟩, -, fits⟩ := recoverFromLog_eq_ok covers scanned
  obtain ⟨dedup, admittedSeq, knownProducers, blank⟩ := Driver.new_blank mounted
  have window : driver.dedup = ((config.blank writer held).rebuildDedup recovered).dedup := by
    rw [shape]
  refine { framed, attended with window := ?_, receipts := ?_ }
  · intro key sequence entry found
    rw [window, rebuildDedup_dedup] at found
    rcases DedupWindow.find_foldl_insert _ _ _ _ _ found with
      old | ⟨⟨chunk, span, digest⟩, member, rfl, rfl, rfl⟩
    · cases old
    · obtain ⟨source, listed, item⟩ := List.mem_flatMap.mp member
      obtain ⟨pair, zipped, same⟩ := List.mem_map.mp item
      cases same
      obtain ⟨decoded, present, describes⟩ := recoverFromLog_chunkAt covers scanned listed
      have entered := rebuiltEntry_sound present describes (fits chunk listed) zipped
      rw [blank, owner]
      exact entered
  · rw [blank]
    rintro ticket receipt ⟨⟩

/-- Every receipt a driver without a sink releases, fresh or replayed, names a slot of the log that
holds a chunk with the named id, in which the records of a submission with the waiter's identity lie
at exactly the named offsets. -/
theorem run_receipts_sound {config : DriverConfig} {log : List Bytes} {bound : RecoveryBound}
    {policy : GenerationPolicy} {blobs : Option BlobStore} {writer : ChunkLogWriter}
    {recovered : List RecoveredChunk} {held : BlobStore} {driver : Driver}
    (covers : Covers held blobs)
    (scanned : recoverFromLog config.journalId config.cohortId config.generation log bound policy
      blobs = .ok (writer, recovered))
    (mounted : Driver.new config writer recovered held = .ok driver) (passes : List Pass)
    (plain : ∀ pass ∈ passes, pass.Plain)
    (clean : NoCollision (driver.run passes).history) (ticket : Nat) (receipt : Receipt)
    (released : .receipt ticket (.ok receipt) ∈ (driver.run passes).sent) :
    ∃ submission, (driver.run passes).offered[ticket]? = some submission ∧
      receipt.Sound (driver.run passes).store (driver.run passes).writer.log config.journalId
        submission := by
  have start : driver.store = held ∧ driver.journalId = config.journalId := by
    obtain ⟨dedup, admittedSeq, knownProducers, rfl⟩ := Driver.new_blank mounted
    exact ⟨rfl, rfl⟩
  have initial : Sound driver.store driver := by
    rw [start.1]
    exact new_sound covers scanned mounted
  have preserved (before after : Driver) (move : Move before after)
      (clean : ∀ act ∈ after.history, act.CollisionFree) (sound : Sound before.store before) :
      Sound after.store after :=
    sound_move move clean (.refl _) (sound.extend move.grown.store)
  have sound := run_invariant_of_acts preserved initial passes plain clean
  have journal : (driver.run passes).journalId = config.journalId :=
    (congrArg DriverConfig.journalId (run_config driver passes)).trans start.2
  rw [← journal]
  exact sound.receipts ticket receipt released

end steps

/-- The receipt of the one record of a small driver. -/
theorem run_receipts_sound_solo :
    ∃ receipt submission,
      let driver := @Driver.run sampleDigests (freshDriver soloPolicy)
        (soloCommands.map commandPass)
      Message.receipt 0 (.ok receipt) ∈ driver.sent ∧ driver.offered[0]? = some submission ∧
        @Receipt.Sound sampleDigests driver.store driver.writer.log
          (smallConfig soloPolicy).journalId submission receipt := by
  let digests := sampleDigests
  have mounted : Driver.new (smallConfig soloPolicy) emptyWriter [] (fun _ => none) =
      .ok (freshDriver soloPolicy) := rfl
  have scanned : recoverFromLog (smallConfig soloPolicy).journalId (smallConfig soloPolicy).cohortId
      (smallConfig soloPolicy).generation [] soloPolicy.recoveryScan (.exact 1) none =
        .ok (emptyWriter, []) := rfl
  have covers : Covers (fun _ => none) none := by rintro held ⟨⟩
  obtain ⟨result, count, -, ran⟩ := solo_run
  have clean : NoCollision
      ((freshDriver soloPolicy).run (soloCommands.map commandPass)).history := by
    rw [ran]
    intro act member
    rcases List.mem_append.mp member with old | new
    · rcases List.mem_append.mp old with first | second
      · rw [List.mem_singleton.mp first]
        trivial
      · rw [List.mem_singleton.mp second]
        trivial
    · rw [List.mem_singleton.mp new]
      trivial
  have plain : ∀ pass ∈ soloCommands.map commandPass, pass.Plain :=
    commandPass_plain (by simp [soloCommands, Command.Plain])
  have released : ∃ receipt, Message.receipt 0 (.ok receipt) ∈
      ((freshDriver soloPolicy).run (soloCommands.map commandPass)).sent := by
    rw [ran]
    exact ⟨_, List.mem_append_right _ List.mem_cons_self⟩
  obtain ⟨receipt, released⟩ := released
  obtain ⟨submission, offered, sound⟩ :=
    run_receipts_sound covers scanned mounted _ plain clean 0 receipt released
  exact ⟨receipt, submission, released, offered, sound⟩

end Scripture
