import Scripture.Driver.RunLoop
import Scripture.ChunkLogSpec

set_option autoImplicit false

/- What the compound steps of the run loop change, and that they change nothing else. -/
namespace Scripture

open ByteFormat

/-- Results for the waiters of placed submissions, in order. -/
def results (placed : List PlacedSubmission)
    (result : PlacedSubmission → Except DriverError Receipt) : List Message :=
  placed.flatMap fun item => item.waiters.map fun ticket => .receipt ticket (result item)

/-- The window entry a committed submission gets. -/
def committedEntry [Digests] (generation : UInt64) (chunkId : ChunkId) (slot : Nat)
    (item : PlacedSubmission) : DedupReceipt :=
  ⟨item.firstOffset, UInt32.ofNat item.submission.records.length, chunkId, slot, generation,
    canonicalRecordsDigest item.submission.records⟩

/-- The window after the commit of these submissions. -/
def commitWindow [Digests] (generation : UInt64) (chunkId : ChunkId) (slot : Nat)
    (window : DedupWindow) (placed : List PlacedSubmission) : DedupWindow :=
  placed.foldl (fun window item => window.insert item.submission.key item.submission.sequence
    (committedEntry generation chunkId slot item)) window

theorem uint64_le_max (left right : UInt64) : left ≤ max left right ∧ right ≤ max left right := by
  show left ≤ (if left ≤ right then right else left) ∧ right ≤ if left ≤ right then right else left
  simp only [UInt64.le_iff_toNat_le]
  split <;> omega

/-- The window has seen this sequence or a later one of the key. -/
def DedupWindow.Reaches (window : DedupWindow) (key : ProducerId × UInt32) (sequence : UInt64) :
    Prop :=
  ∃ highest entries, window key = some (highest, entries) ∧ sequence ≤ highest

theorem inDedupRange_iff {actor : Actor} {submission : Submission} :
    actor.inDedupRange submission = true ↔
      actor.dedup.Reaches submission.key submission.sequence := by
  unfold Actor.inDedupRange DedupWindow.Reaches
  cases actor.dedup submission.key with
  | none => simp
  | some entry =>
      obtain ⟨highest, entries⟩ := entry
      simp

theorem DedupWindow.reaches_insert_self (window : DedupWindow) (key : ProducerId × UInt32)
    (sequence : UInt64) (receipt : DedupReceipt) :
    (window.insert key sequence receipt).Reaches key sequence := by
  refine ⟨_, _, Function.update_self .., ?_⟩
  exact (uint64_le_max _ _).2

theorem DedupWindow.Reaches.insert {window : DedupWindow} {key other : ProducerId × UInt32}
    {sequence number : UInt64} (reaches : window.Reaches key sequence) (receipt : DedupReceipt) :
    (window.insert other number receipt).Reaches key sequence := by
  obtain ⟨highest, entries, found, below⟩ := reaches
  by_cases same : key = other
  · subst same
    refine ⟨_, _, Function.update_self .., ?_⟩
    rw [found]
    exact UInt64.le_trans below (uint64_le_max _ _).1
  · exact ⟨highest, entries, by rw [DedupWindow.insert, Function.update_of_ne same]; exact found,
      below⟩

/-- After a series of insertions the window has seen what it had seen and the whole series. -/
theorem DedupWindow.reaches_foldl_insert {α : Type} (key : α → ProducerId × UInt32)
    (sequence : α → UInt64) (receipt : α → DedupReceipt) (items : List α) (window : DedupWindow) :
    let after := items.foldl (fun window item =>
      window.insert (key item) (sequence item) (receipt item)) window
    (∀ other number, window.Reaches other number → after.Reaches other number) ∧
      ∀ item ∈ items, after.Reaches (key item) (sequence item) := by
  induction items generalizing window with
  | nil => exact ⟨fun _ _ => id, by simp⟩
  | cons head rest ih =>
      obtain ⟨kept, entered⟩ := ih (window.insert (key head) (sequence head) (receipt head))
      refine ⟨fun other number reaches => kept other number (reaches.insert _), ?_⟩
      intro item member
      rcases List.mem_cons.mp member with rfl | later
      · exact kept _ _ (window.reaches_insert_self ..)
      · exact entered item later

theorem commitWindow_reaches [Digests] (generation : UInt64) (chunkId : ChunkId) (slot : Nat)
    (placed : List PlacedSubmission) (window : DedupWindow) :
    (∀ key sequence, window.Reaches key sequence →
      (commitWindow generation chunkId slot window placed).Reaches key sequence) ∧
    ∀ item ∈ placed, (commitWindow generation chunkId slot window placed).Reaches
      item.submission.key item.submission.sequence :=
  window.reaches_foldl_insert _ _ _ placed

theorem placedRecords_append (left right : List PlacedSubmission) :
    placedRecords (left ++ right) = placedRecords left ++ placedRecords right :=
  List.flatMap_append

theorem placedRecords_singleton (item : PlacedSubmission) :
    placedRecords [item] = item.submission.records :=
  List.append_nil _

theorem recordCountOf_eq {submission : Submission} (small : submission.records.length < 2 ^ 32) :
    recordCountOf submission = UInt32.ofNat submission.records.length := by
  rw [recordCountOf, Nat.min_eq_left (by omega)]

theorem placeOffset_empty {actor : Actor} (opened : actor.openPlaced = []) :
    actor.placeOffset = actor.writer.nextOffset := by
  rw [Actor.placeOffset, opened]
  rfl

theorem openPlaced_of_some {actor : Actor} {chunk : OpenChunk}
    (opened : actor.openChunk = some chunk) : actor.openPlaced = chunk.placed := by
  rw [Actor.openPlaced, opened]

theorem pendingPlaced_of_some {actor : Actor} {pending : PendingAppend}
    (held : actor.pendingAppend = some pending) : actor.pendingPlaced = pending.placed := by
  rw [Actor.pendingPlaced, held]

theorem joinOpen_openPlaced (driver : Driver) (submission : Submission) (ticket : Nat) :
    (driver.joinOpen submission ticket).openPlaced =
      joinWaiter submission.identity ticket driver.openPlaced := by
  unfold Driver.joinOpen Actor.openPlaced Driver.send
  cases driver.openChunk <;> rfl

theorem joinPending_pendingPlaced (driver : Driver) (submission : Submission) (ticket : Nat) :
    (driver.joinPending submission ticket).pendingPlaced =
      joinWaiter submission.identity ticket driver.pendingPlaced := by
  unfold Driver.joinPending Actor.pendingPlaced Driver.send
  cases driver.pendingAppend with
  | none => rfl
  | some held => cases held <;> rfl

theorem place_openPlaced (driver : Driver) (submission : Submission) (ticket encodedBytes : Nat) :
    (driver.place submission ticket encodedBytes).openPlaced =
      driver.openPlaced ++ [⟨submission, driver.placeOffset, encodedBytes, [ticket]⟩] := by
  cases opened : driver.openChunk <;> simp [Driver.place, Driver.send, Driver.event, Driver.record,
    Actor.openPlaced, opened]

theorem spansOf_length (placed : List PlacedSubmission) (firstRecord : UInt32) :
    (spansOf placed firstRecord).1.length = placed.length := by
  induction placed generalizing firstRecord with
  | nil => rfl
  | cons item rest ih => simp only [spansOf, List.length_cons, ih]

/-- A placed submission without its waiters: what a join leaves alone. -/
def PlacedSubmission.core (item : PlacedSubmission) : PlacedSubmission :=
  { item with waiters := [] }

def OpenChunk.core (chunk : OpenChunk) : OpenChunk :=
  { chunk with placed := chunk.placed.map PlacedSubmission.core }

def PendingAppend.core (pending : PendingAppend) : PendingAppend :=
  pending.withPlaced (pending.placed.map PlacedSubmission.core)

theorem joinWaiter_core (identity : Identity) (ticket : Nat) (placed : List PlacedSubmission) :
    (joinWaiter identity ticket placed).map PlacedSubmission.core =
      placed.map PlacedSubmission.core := by
  induction placed with
  | nil => rfl
  | cons item rest ih =>
      simp only [joinWaiter]
      split
      · rfl
      · simp only [List.map_cons, ih]

theorem openChunk_join_core (identity : Identity) (ticket : Nat) (opened : Option OpenChunk) :
    (opened.map (OpenChunk.join identity ticket)).map OpenChunk.core =
      opened.map OpenChunk.core := by
  cases opened with
  | none => rfl
  | some chunk => simp [OpenChunk.join, OpenChunk.core, joinWaiter_core]

theorem pendingAppend_join_core (identity : Identity) (ticket : Nat)
    (pending : Option PendingAppend) :
    (pending.map (PendingAppend.join identity ticket)).map PendingAppend.core =
      pending.map PendingAppend.core := by
  cases pending with
  | none => rfl
  | some held =>
      cases held <;> simp [PendingAppend.join, PendingAppend.core, PendingAppend.withPlaced,
        PendingAppend.placed, joinWaiter_core]

@[simp] theorem PendingAppend.core_placed (pending : PendingAppend) :
    pending.core.placed = pending.placed.map PlacedSubmission.core := by
  cases pending <;> rfl

@[simp] theorem PendingAppend.core_encodedBytes (pending : PendingAppend) :
    pending.core.encodedBytes = pending.encodedBytes := by
  cases pending <;> rfl

variable {left right : List PlacedSubmission}

/-- What is said of placed submissions without their waiters survives a join. -/
theorem forall_placed_core {property : PlacedSubmission → Prop}
    (blind : ∀ item, property item ↔ property item.core)
    (same : left.map PlacedSubmission.core = right.map PlacedSubmission.core)
    (held : ∀ item ∈ right, property item) : ∀ item ∈ left, property item := by
  have cores : ∀ item ∈ right.map PlacedSubmission.core, property item :=
    List.forall_mem_map.mpr fun item member => (blind item).mp (held item member)
  rw [← same] at cores
  exact fun item member => (blind item).mpr (List.forall_mem_map.mp cores item member)

/-- What is computed from placed submissions without their waiters survives a join. -/
theorem map_placed_core {α : Type} (view : PlacedSubmission → α)
    (blind : ∀ item, view item = view item.core)
    (same : left.map PlacedSubmission.core = right.map PlacedSubmission.core) :
    left.map view = right.map view := by
  have through (placed : List PlacedSubmission) :
      placed.map view = (placed.map PlacedSubmission.core).map view := by
    simp only [List.map_map, Function.comp_def, ← blind]
  rw [through left, through right, same]

theorem placedRecords_core
    (same : left.map PlacedSubmission.core = right.map PlacedSubmission.core) :
    placedRecords left = placedRecords right := by
  have records := map_placed_core (fun item => item.submission.records) (fun _ => rfl) same
  simpa only [placedRecords, List.flatMap_def] using congrArg List.flatten records

section cores

variable {left right : Actor}

theorem openPlaced_core
    (same : left.openChunk.map OpenChunk.core = right.openChunk.map OpenChunk.core) :
    left.openPlaced.map PlacedSubmission.core = right.openPlaced.map PlacedSubmission.core := by
  unfold Actor.openPlaced
  cases first : left.openChunk <;> cases second : right.openChunk <;>
    simp_all [OpenChunk.core]

theorem openBytes_core
    (same : left.openChunk.map OpenChunk.core = right.openChunk.map OpenChunk.core) :
    left.openBytes = right.openBytes := by
  unfold Actor.openBytes
  cases first : left.openChunk <;> cases second : right.openChunk <;>
    simp_all [OpenChunk.core]

theorem pendingPlaced_core
    (same : left.pendingAppend.map PendingAppend.core =
      right.pendingAppend.map PendingAppend.core) :
    left.pendingPlaced.map PlacedSubmission.core =
      right.pendingPlaced.map PlacedSubmission.core := by
  have read (actor : Actor) : actor.pendingPlaced.map PlacedSubmission.core =
      (actor.pendingAppend.map PendingAppend.core).elim [] PendingAppend.placed := by
    unfold Actor.pendingPlaced
    cases actor.pendingAppend <;> simp
  rw [read, read, same]

theorem pendingBytes_core
    (same : left.pendingAppend.map PendingAppend.core =
      right.pendingAppend.map PendingAppend.core) :
    left.pendingBytes = right.pendingBytes := by
  have read (actor : Actor) : actor.pendingBytes =
      (actor.pendingAppend.map PendingAppend.core).elim 0 PendingAppend.encodedBytes := by
    unfold Actor.pendingBytes
    cases actor.pendingAppend <;> simp
  rw [read, read, same]

end cores

namespace Driver

theorem resolve_eq (driver : Driver) (placed : List PlacedSubmission)
    (result : PlacedSubmission → Except DriverError Receipt) :
    driver.resolve placed result = { driver with sent := driver.sent ++ results placed result } :=
  rfl

theorem releaseReceiptsForPlaced_eq [Digests] (driver : Driver) (placed : List PlacedSubmission)
    (chunkId : ChunkId) (ack : ChunkAppendAck) :
    ∃ ledger, driver.releaseReceiptsForPlaced placed chunkId ack =
      { driver with
        dedup := commitWindow driver.generation chunkId ack.slot driver.dedup placed
        sent := driver.sent ++
          results placed fun item => .ok (driver.receiptFor chunkId ack.slot item)
        ledger } := by
  induction placed generalizing driver with
  | nil => exact ⟨driver.ledger, by simp [releaseReceiptsForPlaced, commitWindow, results]⟩
  | cons item rest ih =>
      obtain ⟨ledger, remaining⟩ := ih (releaseOne chunkId ack.slot driver item)
      refine ⟨ledger, ?_⟩
      show (rest.foldl (releaseOne chunkId ack.slot) (releaseOne chunkId ack.slot driver item)) = _
      rw [show rest.foldl (releaseOne chunkId ack.slot) (releaseOne chunkId ack.slot driver item) =
        (releaseOne chunkId ack.slot driver item).releaseReceiptsForPlaced rest
          chunkId ack from rfl,
        remaining]
      simp [releaseOne, resolve, event, results, commitWindow, committedEntry, receiptFor]

/-- A commit enters its submissions in the window, answers their waiters and republishes the
reservation. -/
def committed [Digests] (driver : Driver) (placed : List PlacedSubmission) (chunkId : ChunkId)
    (ack : ChunkAppendAck) (ledger : Ledger) (metrics : DriverMetrics) : Driver :=
  { driver with
    dedup := commitWindow driver.generation chunkId ack.slot driver.dedup placed
    sent := driver.sent ++ results placed fun item => .ok (driver.receiptFor chunkId ack.slot item)
    reservedBytes := driver.openBytes + driver.pendingBytes
    ledger, metrics }

theorem commitPlaced_eq [Digests] (driver : Driver) (placed : List PlacedSubmission)
    (chunkId : ChunkId) (ack : ChunkAppendAck) :
    ∃ ledger metrics, driver.commitPlaced placed chunkId ack =
        driver.committed placed chunkId ack ledger metrics ∧
      metrics.reservedBytes = driver.openBytes + driver.pendingBytes := by
  unfold commitPlaced
  dsimp only
  generalize noted : { driver.event (.appendAcknowledged chunkId ack.slot) with
    ledger.effects := (driver.event (.appendAcknowledged chunkId ack.slot)).ledger.effects ++
      [Effect.chunkCommitted] } = acknowledged
  obtain ⟨ledger, released⟩ := releaseReceiptsForPlaced_eq acknowledged placed chunkId ack
  rw [released]
  subst noted
  exact ⟨ledger, _, rfl, rfl⟩

/-- An append without `ok` answers everyone: the appended submissions are uncertain, the open ones
not written, the parked ones refused. -/
def poisonedBy (driver : Driver) (work : SealedWork) (ledger : Ledger) (metrics : DriverMetrics)
    (ageSleep : Bool) (ageSleepDeadline : Option Duration) : Driver :=
  { driver with
    poisoned := true, openChunk := none, blocked := [], reservedBytes := 0
    sent := driver.sent ++
      (results work.placed (fun _ => .error (.uncertain work.chunk.chunkId)) ++
        results driver.openPlaced (fun _ => .error .notWritten)) ++
      driver.blocked.map fun parked => .admission parked.ticket (.error .poisoned)
    ledger, metrics, ageSleep, ageSleepDeadline }

theorem poison_eq (driver : Driver) (work : SealedWork) :
    ∃ ledger metrics ageSleep ageSleepDeadline,
      driver.poison work = driver.poisonedBy work ledger metrics ageSleep ageSleepDeadline ∧
        metrics.reservedBytes = 0 := by
  refine ⟨(driver.poison work).ledger, (driver.poison work).metrics, (driver.poison work).ageSleep,
    (driver.poison work).ageSleepDeadline, ?_, rfl⟩
  unfold poisonedBy
  cases opened : driver.openChunk with
  | none =>
      simp [poison, failWaiters, resolve_eq, event, poisonBlocked, opened,
        Actor.openPlaced, results]
  | some chunk =>
      simp [poison, failWaiters, resolve_eq, event, poisonBlocked, opened, Actor.openPlaced,
        clearAgeSleep]

end Driver

/-- A put met no object of equal digest and different bytes. Staging keys contain the digest, so
this is all that is ever assumed of the hash. -/
def Act.CollisionFree [Digests] : Act → Prop
  | .put before key bytes => ∀ found, before.store key = some found →
      ChunkDigest.of found = ChunkDigest.of bytes → found = bytes
  | _ => True

/-- No put of this history met a collision. -/
abbrev NoCollision [Digests] (history : List Act) : Prop := ∀ act ∈ history, act.CollisionFree

/-- A seal finds the pending slot free. -/
def Act.SealsFree : Act → Prop
  | .sealOpen before _ _ => before.pendingAppend = none
  | _ => True

/-- An old act, or one of those added. -/
theorem acts_append {fits : Act → Prop} {history : List Act} (added : List Act)
    (new : ∀ act ∈ added, fits act) :
    ∀ act ∈ history ++ added, act ∈ history ∨ fits act := by
  intro act member
  exact (List.mem_append.mp member).imp id (new act)

/-- The acts of an append: puts, and the append itself. -/
theorem acts_append_puts {fits : Act → Prop} {history puts : List Act} {before : Actor}
    {bytes : Bytes} (stored : ∀ act ∈ puts, ∃ key, act = .put before key bytes) (last : Act)
    (put : ∀ key, fits (.put before key bytes)) (new : fits last) :
    ∀ act ∈ history ++ puts ++ [last], act ∈ history ∨ fits act := by
  rw [List.append_assoc]
  apply acts_append
  intro act member
  rcases List.mem_append.mp member with placed | same
  · obtain ⟨key, rfl⟩ := stored act placed
    exact put key
  · rw [List.mem_singleton.mp same]
    exact new

/-- The chunk reached the log of `after`: the new last entry stands for it. -/
def Written [Digests] (before after : Driver) (chunk : SealedChunk) : Prop :=
  ∃ payload frame, after.writer.log = before.writer.log ++ [payload] ∧
    before.writer.Checked before.writer.nextOffset chunk frame ∧
    ∀ header sealedFrame, SealedFrom header sealedFrame chunk → NoCollision after.history →
      resolvePayload (some after.store) payload = .ok [chunk.bytes]

/-- What the append of one sealed chunk leaves behind. -/
structure Appended [Digests] (before after : Driver) (chunk : SealedChunk) : Prop where
  frame : after = { before with
    writer := after.writer, store := after.store, history := after.history }
  history : after.history = before.history ∨
    ∃ key, after.history = before.history ++ [Act.put before.toActor key chunk.bytes]
  store : before.store.Extends after.store
  owner : after.writer.journalId = before.writer.journalId ∧
    after.writer.cohortId = before.writer.cohortId ∧
    after.writer.generation = before.writer.generation

theorem Appended.eq [Digests] {before after : Driver} {chunk : SealedChunk}
    (appended : Appended before after chunk) :
    ∃ writer store puts, after = { before with
        writer, store, history := before.history ++ puts } ∧
      ∀ act ∈ puts, ∃ key, act = .put before.toActor key chunk.bytes := by
  rcases appended.history with same | ⟨key, grown⟩
  · refine ⟨after.writer, after.store, [], ?_, by simp⟩
    rw [List.append_nil, ← same]
    exact appended.frame
  · refine ⟨after.writer, after.store, [.put before.toActor key chunk.bytes], ?_, by simp⟩
    rw [← grown]
    exact appended.frame

/-- What an acknowledged append of one sealed chunk has done. -/
structure Acknowledged [Digests] (before after : Driver) (chunk : SealedChunk)
    (ack : ChunkAppendAck) : Prop where
  written : Written before after chunk
  slot : ack.slot = before.writer.log.length
  chunkId : ack.chunkId = chunk.chunkId
  alive : after.writer.poisoned = false
  advanced : ∀ frame, before.writer.Checked before.writer.nextOffset chunk frame →
    before.writer.nextOffset.toNat + frame.recordCount.toNat = after.writer.nextOffset.toNat

theorem BlobStore.create_extends (store : BlobStore) (key : String) (bytes : Bytes) :
    store.Extends (store.create key bytes) := by
  intro other blob held
  unfold BlobStore.create
  cases free : store key with
  | some found => exact held
  | none =>
      by_cases same : other = key
      · subst same
        rw [free] at held
        cases held
      · dsimp only
        rw [Function.update_of_ne same]
        exact held

/-- After a create the key holds the bytes, or what it held before. -/
theorem BlobStore.create_self (store : BlobStore) (key : String) (bytes : Bytes) :
    ∃ found, store.create key bytes key = some found ∧
      (store key = some found ∨ found = bytes) := by
  unfold BlobStore.create
  cases free : store key with
  | some found => exact ⟨found, free, Or.inl rfl⟩
  | none => exact ⟨bytes, Function.update_self .., Or.inr rfl⟩

theorem putVerified_extends [Digests] (store : BlobStore) (key : String) (bytes : Bytes)
    (digest : ChunkDigest) (reply : PutReply) :
    store.Extends (putVerified store key bytes digest reply).2 := by
  unfold putVerified
  cases reply with
  | ok =>
      dsimp only
      split <;> exact store.create_extends key bytes
  | failed created reason =>
      dsimp only
      split
      · exact store.create_extends key bytes
      · exact BlobStore.Extends.refl store

theorem putVerified_eq_ok [Digests] {store after : BlobStore} {key : String} {bytes : Bytes}
    {digest : ChunkDigest} {reply : PutReply}
    (success : putVerified store key bytes digest reply = (.ok (), after)) :
    ∃ found, after key = some found ∧ ChunkDigest.of found = digest ∧
      (store key = some found ∨ found = bytes) := by
  unfold putVerified at success
  cases reply with
  | failed created reason => cases success
  | ok =>
      dsimp only at success
      split at success
      · cases success
      · rename_i same
        cases success
        obtain ⟨found, held, source⟩ := store.create_self key bytes
        rw [held] at same
        exact ⟨found, held, by simpa using same, source⟩

/-- What `commit_sealed_as_data_ref` points at. -/
theorem stagingPointer_eq_ok [Digests] {journal : JournalId} {front key : String}
    {chunk : SealedChunk} {pointer : DataRef}
    (staged : stagingPointer journal front chunk = .ok (key, pointer)) :
    pointer.blobKey = key ∧ pointer.offset = 0 ∧ pointer.length.toNat = chunk.bytes.length ∧
      pointer.chunkDigest = chunk.digest ∧ pointer.blobDigest = ChunkDigest.of chunk.bytes := by
  unfold stagingPointer at staged
  obtain ⟨-, staged⟩ := checked_eq_ok.mp staged
  obtain ⟨index, -, staged⟩ := bind_eq_ok.mp staged
  split at staged
  · obtain ⟨fits, staged⟩ := checked_eq_ok.mp staged
    cases staged
    refine ⟨rfl, rfl, ?_, rfl, rfl⟩
    rw [UInt64.toNat_ofNat']
    omega
  · cases staged

theorem fetched_staged [Digests] {store : BlobStore} {pointer : DataRef} {chunk : SealedChunk}
    (valid : pointer.Valid) (held : store pointer.blobKey = some chunk.bytes)
    (offset : pointer.offset = 0) (length : pointer.length.toNat = chunk.bytes.length)
    (chunkDigest : pointer.chunkDigest = chunk.digest)
    (blobDigest : pointer.blobDigest = ChunkDigest.of chunk.bytes)
    (digest : ChunkDigest.of chunk.bytes = chunk.digest) : Fetched store pointer chunk.bytes where
  valid := valid
  object := by
    refine ⟨chunk.bytes, held, blobDigest.symm, ?_⟩
    have whole := slice_middle [] chunk.bytes []
    rw [offset, length]
    simpa using whole
  length := length.symm
  digest := by rw [chunkDigest, digest]

theorem ChunkLogWriter.run_owner (writer : ChunkLogWriter)
    (plan : Except ChunkLogError ChunkLogWriter.Plan)
    (kernel : KernelReply) :
    (writer.run plan kernel).2.journalId = writer.journalId ∧
      (writer.run plan kernel).2.cohortId = writer.cohortId ∧
      (writer.run plan kernel).2.generation = writer.generation := by
  cases plan <;> cases kernel <;> exact ⟨rfl, rfl, rfl⟩

/-- Nothing is ever removed from the log. -/
theorem ChunkLogWriter.run_log (writer : ChunkLogWriter)
    (plan : Except ChunkLogError ChunkLogWriter.Plan)
    (kernel : KernelReply) : ∃ more, (writer.run plan kernel).2.log = writer.log ++ more := by
  cases plan with
  | error error => exact ⟨[], (List.append_nil _).symm⟩
  | ok plan =>
      cases kernel with
      | ok => exact ⟨[plan.payload], rfl⟩
      | notWritten reason => exact ⟨[], (List.append_nil _).symm⟩
      | written reason => exact ⟨[plan.payload], rfl⟩

namespace Driver

variable [Digests] {driver after : Driver} {chunk : SealedChunk} {put : PutReply}
  {kernel : KernelReply}

theorem appendBlobSinkRefs_eq (driver : Driver) (items : List BlobSinkAppendItem)
    (kernel : KernelReply) :
    ∃ writer, (∃ more, writer.log = driver.writer.log ++ more) ∧
      (driver.appendBlobSinkRefs items kernel).2 =
        { driver with writer }.record (.appendRefs driver.toActor items) := by
  unfold appendBlobSinkRefs
  split
  · exact ⟨driver.writer, ⟨[], (List.append_nil _).symm⟩, rfl⟩
  · exact ⟨_, ChunkLogWriter.run_log _ _ _, rfl⟩
  · exact ⟨_, ChunkLogWriter.run_log _ _ _, rfl⟩

theorem appendSealed_inline (inline : driver.datarefBlobs = none) :
    driver.appendSealed chunk put kernel =
      ((driver.writer.append chunk kernel).1,
        { driver with writer := (driver.writer.append chunk kernel).2 }) := by
  unfold appendSealed
  rw [inline]

/-- Either nothing was put, or the put was noted and the pointer's append follows a verified put. -/
theorem commitSealedAsDataRef_cases (driver : Driver) (front : String) (chunk : SealedChunk)
    (put : PutReply) (kernel : KernelReply) :
    (∃ error, driver.commitSealedAsDataRef front chunk put kernel = (.error error, driver)) ∨
      ∃ key pointer, stagingPointer driver.writer.journalId front chunk = .ok (key, pointer) ∧
        let noted := driver.record (.put driver.toActor key chunk.bytes)
        let stored := putVerified driver.store key chunk.bytes (ChunkDigest.of chunk.bytes) put
        (∃ error, stored.1 = .error error ∧
          driver.commitSealedAsDataRef front chunk put kernel =
            (.error error, { noted with store := stored.2 })) ∨
        (stored.1 = .ok () ∧ driver.commitSealedAsDataRef front chunk put kernel =
          ((driver.writer.appendDataRef chunk pointer kernel).1, { noted with
            store := stored.2
            writer := (driver.writer.appendDataRef chunk pointer kernel).2 })) := by
  unfold commitSealedAsDataRef
  cases staged : stagingPointer driver.writer.journalId front chunk with
  | error error => exact Or.inl ⟨error, rfl⟩
  | ok pair =>
      obtain ⟨key, pointer⟩ := pair
      refine Or.inr ⟨key, pointer, rfl, ?_⟩
      dsimp only [record]
      cases stored : putVerified driver.store key chunk.bytes (ChunkDigest.of chunk.bytes) put with
      | mk result store =>
          cases result with
          | error error => exact Or.inl ⟨error, rfl, rfl⟩
          | ok done => exact Or.inr ⟨rfl, rfl⟩

variable {result : Except ChunkLogError ChunkAppendAck}

theorem appendSealed_appended (outcome : driver.appendSealed chunk put kernel = (result, after)) :
    Appended driver after chunk := by
  cases mode : driver.datarefBlobs with
  | none =>
      rw [appendSealed_inline mode] at outcome
      cases outcome
      exact ⟨rfl, Or.inl rfl, BlobStore.Extends.refl _, ChunkLogWriter.run_owner _ _ _⟩
  | some front =>
      unfold appendSealed at outcome
      rw [mode] at outcome
      dsimp only at outcome
      rcases commitSealedAsDataRef_cases driver front chunk put kernel with
        ⟨error, same⟩ | ⟨key, pointer, -, ⟨error, -, same⟩ | ⟨-, same⟩⟩
      · cases same.symm.trans outcome
        exact ⟨rfl, Or.inl rfl, BlobStore.Extends.refl _, rfl, rfl, rfl⟩
      · cases same.symm.trans outcome
        exact ⟨rfl, Or.inr ⟨key, rfl⟩, putVerified_extends _ _ _ _ _, rfl, rfl, rfl⟩
      · cases same.symm.trans outcome
        exact ⟨rfl, Or.inr ⟨key, rfl⟩, putVerified_extends _ _ _ _ _,
          ChunkLogWriter.run_owner _ _ _⟩

/-- A verified put without a collision holds the chunk for its pointer. -/
theorem staged_fetched {key front : String} {pointer : DataRef}
    (staged : stagingPointer driver.writer.journalId front chunk = .ok (key, pointer))
    (stored : (putVerified driver.store key chunk.bytes (ChunkDigest.of chunk.bytes) put).1 =
      .ok ())
    (valid : pointer.Valid) (digest : ChunkDigest.of chunk.bytes = chunk.digest)
    (history : after.history = driver.history ++ [Act.put driver.toActor key chunk.bytes])
    (store : after.store =
      (putVerified driver.store key chunk.bytes (ChunkDigest.of chunk.bytes) put).2)
    (clean : NoCollision after.history) : Fetched after.store pointer chunk.bytes := by
  obtain ⟨sameKey, offset, length, chunkDigest, blobDigest⟩ := stagingPointer_eq_ok staged
  obtain ⟨found, held, sameDigest, source⟩ := putVerified_eq_ok (Prod.ext stored rfl)
  have sameBytes : found = chunk.bytes := by
    rcases source with old | new
    · exact clean (.put driver.toActor key chunk.bytes) (by simp [history]) found old sameDigest
    · exact new
  rw [sameBytes] at held
  have kept : after.store pointer.blobKey = some chunk.bytes := by
    rw [store, sameKey]
    exact held
  exact fetched_staged valid kept offset length chunkDigest blobDigest digest

/-- A staged chunk reached the log when its pointer did. -/
theorem written_staged {key front : String} {pointer : DataRef} {plan : ChunkLogWriter.Plan}
    (staged : stagingPointer driver.writer.journalId front chunk = .ok (key, pointer))
    (stored : (putVerified driver.store key chunk.bytes (ChunkDigest.of chunk.bytes) put).1 =
      .ok ())
    (ready : driver.writer.planDataRef chunk pointer = .ok plan)
    (history : after.history = driver.history ++ [Act.put driver.toActor key chunk.bytes])
    (store : after.store =
      (putVerified driver.store key chunk.bytes (ChunkDigest.of chunk.bytes) put).2)
    (log : after.writer.log = driver.writer.log ++ [plan.payload]) :
    Written driver after chunk := by
  obtain ⟨-, valid, frame, checks, -, encoded, -⟩ := ChunkLogWriter.planDataRef_eq_ok ready
  refine ⟨plan.payload, frame, log, checks, ?_⟩
  intro _ _ _ clean
  exact resolvePayload_dataRef encoded
    (staged_fetched staged stored valid checks.digest history store clean)

theorem inline_run (inline : driver.datarefBlobs = none)
    (outcome : driver.appendSealed chunk put kernel = (result, after)) :
    driver.writer.run (driver.writer.planAppend chunk) kernel = (result, after.writer) ∧
      after.store = driver.store := by
  rw [appendSealed_inline inline] at outcome
  obtain ⟨same, rfl⟩ := Prod.mk.inj outcome
  exact ⟨Prod.ext same rfl, rfl⟩

theorem staged_run {front : String} (mode : driver.datarefBlobs = some front)
    (outcome : driver.appendSealed chunk put kernel = (result, after)) :
    (∃ error, result = .error error ∧ after.writer = driver.writer) ∨
      ∃ key pointer, stagingPointer driver.writer.journalId front chunk = .ok (key, pointer) ∧
        (putVerified driver.store key chunk.bytes (ChunkDigest.of chunk.bytes) put).1 = .ok () ∧
        after.history = driver.history ++ [Act.put driver.toActor key chunk.bytes] ∧
        after.store =
          (putVerified driver.store key chunk.bytes (ChunkDigest.of chunk.bytes) put).2 ∧
        driver.writer.run (driver.writer.planDataRef chunk pointer) kernel =
          (result, after.writer) := by
  unfold appendSealed at outcome
  rw [mode] at outcome
  dsimp only at outcome
  rcases commitSealedAsDataRef_cases driver front chunk put kernel with
    ⟨error, same⟩ | ⟨key, pointer, staged, ⟨error, -, same⟩ | ⟨stored, same⟩⟩
  · cases same.symm.trans outcome
    exact Or.inl ⟨error, rfl, rfl⟩
  · cases same.symm.trans outcome
    exact Or.inl ⟨error, rfl, rfl⟩
  · obtain ⟨same, shape⟩ := Prod.mk.inj (same.symm.trans outcome)
    have writer : after.writer = (driver.writer.appendDataRef chunk pointer kernel).2 := by
      rw [← shape]
    refine Or.inr ⟨key, pointer, staged, stored, by rw [← shape]; rfl, by rw [← shape], ?_⟩
    rw [writer]
    exact Prod.ext same rfl

theorem written_inline {payload : Bytes} {frame : FrameRef} (bytes : payload = chunk.bytes)
    (log : after.writer.log = driver.writer.log ++ [payload])
    (checks : driver.writer.Checked driver.writer.nextOffset chunk frame) :
    Written driver after chunk := by
  refine ⟨payload, frame, log, checks, ?_⟩
  intro header sealedFrame result _
  rw [bytes]
  exact resolvePayload_sealed result _

/-- Two frames that pass the checks of one chunk are the same frame. -/
theorem checked_unique {writer : ChunkLogWriter} {expected : RecordOffset} {first second : FrameRef}
    (left : writer.Checked expected chunk first) (right : writer.Checked expected chunk second) :
    first = second := by
  obtain ⟨_, leftIndex, -⟩ := left.index
  obtain ⟨_, rightIndex, -⟩ := right.index
  cases leftIndex.symm.trans rightIndex
  rfl

theorem appendSealed_eq_ok {ack : ChunkAppendAck}
    (outcome : driver.appendSealed chunk put kernel = (.ok ack, after)) :
    Acknowledged driver after chunk ack := by
  cases mode : driver.datarefBlobs with
  | none =>
      obtain ⟨runs, -⟩ := inline_run mode outcome
      obtain ⟨plan, ready, -, rfl, writer⟩ := ChunkLogWriter.run_eq_ok runs
      obtain ⟨-, frame, checks, payload, named, -, -, -, stop⟩ :=
        ChunkLogWriter.planAppend_eq_ok ready
      exact {
        written := written_inline payload (by rw [writer]) checks
        slot := rfl
        chunkId := named
        alive := by rw [writer]
        advanced := by
          intro other passed
          rw [checked_unique passed checks, writer]
          exact stop }
  | some front =>
      rcases staged_run mode outcome with
        ⟨error, wrong, -⟩ | ⟨key, pointer, staged, stored, history, store, runs⟩
      · cases wrong
      · obtain ⟨plan, ready, -, rfl, writer⟩ := ChunkLogWriter.run_eq_ok runs
        obtain ⟨-, -, frame, checks, -, -, named, -, -, -, stop⟩ :=
          ChunkLogWriter.planDataRef_eq_ok ready
        exact {
          written := written_staged staged stored ready history store (by rw [writer])
          slot := rfl
          chunkId := named
          alive := by rw [writer]
          advanced := by
            intro other passed
            rw [checked_unique passed checks, writer]
            exact stop }

/-- A failed append moves no offset; the chunk may still have reached the log. -/
theorem appendSealed_eq_error {error : ChunkLogError}
    (outcome : driver.appendSealed chunk put kernel = (.error error, after)) :
    after.writer.nextOffset = driver.writer.nextOffset ∧
      (after.writer.log = driver.writer.log ∨ Written driver after chunk) := by
  cases mode : driver.datarefBlobs with
  | none =>
      obtain ⟨runs, -⟩ := inline_run mode outcome
      rcases ChunkLogWriter.run_eq_error runs with
        ⟨-, writer⟩ | ⟨plan, reason, ready, -, writer | writer⟩
      · exact ⟨by rw [writer], Or.inl (by rw [writer])⟩
      · exact ⟨by rw [writer], Or.inl (by rw [writer])⟩
      · obtain ⟨-, frame, checks, payload, -⟩ := ChunkLogWriter.planAppend_eq_ok ready
        exact ⟨by rw [writer], Or.inr (written_inline payload (by rw [writer]) checks)⟩
  | some front =>
      rcases staged_run mode outcome with
        ⟨_, -, writer⟩ | ⟨key, pointer, staged, stored, history, store, runs⟩
      · exact ⟨by rw [writer], Or.inl (by rw [writer])⟩
      · rcases ChunkLogWriter.run_eq_error runs with
          ⟨-, writer⟩ | ⟨plan, reason, ready, -, writer | writer⟩
        · exact ⟨by rw [writer], Or.inl (by rw [writer])⟩
        · exact ⟨by rw [writer], Or.inl (by rw [writer])⟩
        · exact ⟨by rw [writer],
            Or.inr (written_staged staged stored ready history store (by rw [writer]))⟩

theorem stagingPointer_discontinuity (journal : JournalId) (front : String) (chunk : SealedChunk)
    (wanted actual : UInt64) :
    stagingPointer journal front chunk ≠ .error (.offsetDiscontinuity wanted actual) := by
  intro failed
  unfold stagingPointer at failed
  rcases checked_eq_error.mp failed with ⟨-, wrong⟩ | ⟨-, failed⟩
  · cases wrong
  rcases bind_eq_error.mp failed with wrong | ⟨index, -, failed⟩
  · cases decoded : decodeIndex chunk.bytes <;> rw [decoded] at wrong <;> cases wrong
  split at failed
  · rcases checked_eq_error.mp failed with ⟨-, wrong⟩ | ⟨-, failed⟩
    · cases wrong
    · cases failed
  · cases failed

theorem putVerified_discontinuity (store : BlobStore) (key : String) (bytes : Bytes)
    (digest : ChunkDigest) (reply : PutReply) (wanted actual : UInt64) :
    (putVerified store key bytes digest reply).1 ≠ .error (.offsetDiscontinuity wanted actual) := by
  unfold putVerified
  cases reply with
  | failed created reason => rintro ⟨⟩
  | ok =>
      dsimp only
      split <;> rintro ⟨⟩

/-- The append of a chunk that starts at the writer's offset never reports a discontinuity. -/
theorem appendSealed_discontinuity {header : ChunkHeader} {frame : FrameRef}
    (index : decodeIndex chunk.bytes = .ok ⟨header, [frame]⟩)
    (base : frame.baseOffset = driver.writer.nextOffset) (wanted actual : UInt64) :
    (driver.appendSealed chunk put kernel).1 ≠ .error (.offsetDiscontinuity wanted actual) := by
  have issued {plan : Except ChunkLogError ChunkLogWriter.Plan}
      (passes : plan ≠ .error (.offsetDiscontinuity wanted actual)) :
      (driver.writer.run plan kernel).1 ≠ .error (.offsetDiscontinuity wanted actual) := by
    intro failed
    rcases ChunkLogWriter.run_eq_error (Prod.ext failed rfl) with
      ⟨wrong, -⟩ | ⟨_, reason, -, wrong, -⟩
    · exact passes wrong
    · cases wrong
  cases mode : driver.datarefBlobs with
  | none =>
      rw [appendSealed_inline mode]
      exact issued (ChunkLogWriter.planAppend_discontinuity index base wanted actual)
  | some front =>
      unfold appendSealed
      rw [mode]
      dsimp only
      unfold commitSealedAsDataRef
      cases staged : stagingPointer driver.writer.journalId front chunk with
      | error error =>
          rintro ⟨⟩
          exact stagingPointer_discontinuity _ _ _ wanted actual staged
      | ok pair =>
          obtain ⟨key, pointer⟩ := pair
          dsimp only [record]
          cases stored : putVerified driver.store key chunk.bytes (ChunkDigest.of chunk.bytes)
              put with
          | mk result store =>
              cases result with
              | error error =>
                  rintro ⟨⟩
                  exact putVerified_discontinuity _ _ _ _ _ wanted actual (congrArg Prod.fst stored)
              | ok done =>
                  exact issued (ChunkLogWriter.planDataRef_discontinuity index base wanted actual)

end Driver

end Scripture
