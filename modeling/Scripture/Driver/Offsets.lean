import Scripture.Driver.Budget

set_option autoImplicit false

/- Where submissions lie. The spans of a sealed frame and the offsets given out at admission name
the same records, for the open chunk and for whatever is pending. -/
namespace Scripture

open ByteFormat

/-- The span of one submission behind these submissions. -/
def spanAfter (front : List PlacedSubmission) (item : PlacedSubmission) : SubmissionRef where
  producerId := item.submission.producerId
  producerEpoch := item.submission.producerEpoch
  sequence := item.submission.sequence
  firstRecord := UInt32.ofNat (placedRecords front).length
  recordCount := UInt32.ofNat item.submission.records.length

theorem spansOf_append (front back : List PlacedSubmission) (start : UInt32) :
    spansOf (front ++ back) start =
      ((spansOf front start).1 ++ (spansOf back (spansOf front start).2).1,
        (spansOf back (spansOf front start).2).2) := by
  induction front generalizing start with
  | nil => rfl
  | cons item rest ih => simp only [List.cons_append, spansOf, ih]

/-- The cursor of the span loop counts records, as long as there are fewer than `2^32`. -/
theorem spansOf_cursor (placed : List PlacedSubmission) (start : UInt32)
    (small : start.toNat + (placedRecords placed).length < 2 ^ 32) :
    (spansOf placed start).2.toNat = start.toNat + (placedRecords placed).length := by
  induction placed generalizing start with
  | nil => rfl
  | cons item rest ih =>
      have split : placedRecords (item :: rest) = item.submission.records ++ placedRecords rest :=
        rfl
      rw [split, List.length_append] at small ⊢
      have count : (recordCountOf item.submission).toNat = item.submission.records.length := by
        rw [recordCountOf_eq (by omega), toNat_u32OfNat (by omega)]
      have moved : (saturatingAddU32 start (recordCountOf item.submission)).toNat =
          start.toNat + item.submission.records.length := by
        rw [saturatingAddU32, count, Nat.min_eq_left (by omega), toNat_u32OfNat (by omega)]
      simp only [spansOf]
      rw [ih _ (by omega), moved]
      omega

variable {placed left right : List PlacedSubmission}

theorem spanAfter_mem {front back : List PlacedSubmission} {item : PlacedSubmission}
    (split : placed = front ++ item :: back) (small : (placedRecords placed).length < 2 ^ 32) :
    spanAfter front item ∈ (spansOf placed 0).1 := by
  have total : (placedRecords placed).length = (placedRecords front).length +
      (item.submission.records.length + (placedRecords back).length) := by
    rw [split, placedRecords_append, List.length_append]
    exact congrArg _ List.length_append
  have cursor := spansOf_cursor front 0 (by simp; omega)
  have start : (spansOf front 0).2 = UInt32.ofNat (placedRecords front).length := by
    apply UInt32.toNat_inj.mp
    rw [cursor, toNat_u32OfNat (by omega)]
    simp
  rw [split, spansOf_append]
  refine List.mem_append_right _ ?_
  simp only [spansOf]
  rw [start, recordCountOf_eq (by omega)]
  exact List.mem_cons_self

theorem submissionRecords_spanAfter {front back : List PlacedSubmission} {item : PlacedSubmission}
    (split : placed = front ++ item :: back) (small : (placedRecords placed).length < 2 ^ 32) :
    submissionRecords (placedRecords placed) (spanAfter front item) =
      some item.submission.records := by
  have parts : placedRecords placed =
      placedRecords front ++ (item.submission.records ++ placedRecords back) := by
    rw [split, placedRecords_append]
    rfl
  have total := congrArg List.length parts
  rw [List.length_append, List.length_append] at total
  have first : (spanAfter front item).firstRecord.toNat = (placedRecords front).length :=
    toNat_u32OfNat (by omega)
  have count : (spanAfter front item).recordCount.toNat = item.submission.records.length :=
    toNat_u32OfNat (by omega)
  unfold submissionRecords
  rw [first, count]
  dsimp only
  rw [if_pos (by omega), parts, List.drop_left, Nat.add_sub_cancel_left, List.take_left]

/-- The offsets of placed submissions follow one another from a base, as far as offsets go. -/
def LaidFrom (base : Nat) (placed : List PlacedSubmission) : Prop :=
  ∀ front item back, placed = front ++ item :: back →
    base + (placedRecords front).length < 2 ^ 64 →
    item.firstOffset.toNat = base + (placedRecords front).length

theorem LaidFrom.nil (base : Nat) : LaidFrom base [] := by
  intro front item back split
  exact absurd split (by simp)

theorem LaidFrom.append {base : Nat} {item : PlacedSubmission} (laid : LaidFrom base placed)
    (next : base + (placedRecords placed).length < 2 ^ 64 →
      item.firstOffset.toNat = base + (placedRecords placed).length) :
    LaidFrom base (placed ++ [item]) := by
  intro front other back split fits
  rcases List.append_eq_append_iff.mp split.symm with ⟨middle, whole, rest⟩ | ⟨middle, whole, rest⟩
  · cases middle with
    | nil =>
        cases rest
        rw [List.append_nil] at whole
        subst whole
        exact next fits
    | cons head tail =>
        cases rest
        exact laid front _ tail whole fits
  · cases middle with
    | nil =>
        cases rest
        rw [List.append_nil] at whole
        subst whole
        exact next fits
    | cons head tail =>
        have length := congrArg List.length rest
        simp at length

theorem LaidFrom.of_core {base : Nat}
    (same : left.map PlacedSubmission.core = right.map PlacedSubmission.core)
    (laid : LaidFrom base right) : LaidFrom base left := by
  intro front item back split fits
  rw [split, List.map_append, List.map_cons] at same
  obtain ⟨before, others, whole, frontCore, restCore⟩ := List.map_eq_append_iff.mp same.symm
  obtain ⟨other, after, rfl, itemCore, -⟩ := List.map_eq_cons_iff.mp restCore
  have records : placedRecords front = placedRecords before := placedRecords_core frontCore.symm
  have offset : other.core.firstOffset = item.core.firstOffset :=
    congrArg PlacedSubmission.firstOffset itemCore
  rw [records] at fits ⊢
  refine (congrArg RecordOffset.toNat offset).symm.trans ?_
  exact laid before other after whole fits

theorem placeOffset_laid {actor : Actor} {base : Nat} (laid : LaidFrom base actor.openPlaced)
    (opened : actor.openPlaced ≠ [])
    (fits : base + (placedRecords actor.openPlaced).length < 2 ^ 64) :
    actor.placeOffset.toNat = base + (placedRecords actor.openPlaced).length := by
  obtain ⟨front, last, whole⟩ := (List.eq_nil_or_concat actor.openPlaced).resolve_left opened
  rw [List.concat_eq_append] at whole
  have final : actor.openPlaced.getLast? = some last := by rw [whole, List.getLast?_concat]
  rw [whole, placedRecords_append, placedRecords_singleton, List.length_append] at fits ⊢
  have start := laid front last [] whole (by omega)
  have next : last.firstOffset.checkedAdd last.submission.records.length =
      some (.ofNat (last.firstOffset.toNat + last.submission.records.length)) :=
    if_pos (by omega)
  unfold Actor.placeOffset
  rw [final]
  dsimp only
  rw [next, Option.getD_some, RecordOffset.toNat_ofNat (by omega), start]
  omega

/-- The offsets of placed submissions follow their first one. -/
def Chained (placed : List PlacedSubmission) : Prop :=
  ∀ first rest, placed = first :: rest → LaidFrom first.firstOffset.toNat placed

theorem Chained.of_core (same : left.map PlacedSubmission.core = right.map PlacedSubmission.core)
    (chained : Chained right) : Chained left := by
  rintro first rest rfl
  obtain ⟨other, others, whole, core, -⟩ := List.map_eq_cons_iff.mp same.symm
  have offset : other.core.firstOffset = first.core.firstOffset :=
    congrArg PlacedSubmission.firstOffset core
  have laid := chained other others whole
  rw [show other.firstOffset = first.firstOffset from offset] at laid
  exact laid.of_core same

theorem Chained.place {actor : Actor} (chained : Chained actor.openPlaced) (submission : Submission)
    (encodedBytes : Nat) (waiters : List Nat) :
    Chained (actor.openPlaced ++ [⟨submission, actor.placeOffset, encodedBytes, waiters⟩]) := by
  intro first rest whole
  cases opened : actor.openPlaced with
  | nil =>
      rw [opened] at whole
      cases whole
      exact (LaidFrom.nil _).append fun _ => rfl
  | cons head tail =>
      have laid := chained head tail opened
      rw [opened] at whole
      cases whole
      rw [← opened]
      exact laid.append (placeOffset_laid laid (by simp [opened]))

/-- The pending work carries exactly its placed submissions, at their offsets. -/
def PendingAppend.Faithful [Digests] (journal : JournalId) : PendingAppend → Prop
  | .depthOne work => ∃ header first rest, work.placed = first :: rest ∧ Chained work.placed ∧
      SealedFrom header (frameOf journal first.firstOffset work.placed) work.chunk
  | .blobSink envelope placed _ _ => ∃ first rest, placed = first :: rest ∧ Chained placed ∧
      envelope.journalId = journal ∧ envelope.baseOffset = first.firstOffset ∧
      envelope.records = placedRecords placed ∧ envelope.submissions = (spansOf placed 0).1

theorem spansOf_core (same : left.map PlacedSubmission.core = right.map PlacedSubmission.core)
    (start : UInt32) :
    spansOf left start = spansOf right start := by
  induction left generalizing right start with
  | nil =>
      rw [List.map_eq_nil_iff.mp same.symm]
  | cons item rest ih =>
      obtain ⟨other, others, rfl, core, tail⟩ := List.map_eq_cons_iff.mp same.symm
      have submission : other.core.submission = item.core.submission :=
        congrArg PlacedSubmission.submission core
      simp only [spansOf, ih tail.symm]
      rw [show other.submission = item.submission from submission]

theorem frameOf_core (same : left.map PlacedSubmission.core = right.map PlacedSubmission.core)
    (journal : JournalId) (base : RecordOffset) :
    frameOf journal base left = frameOf journal base right := by
  rw [frameOf, frameOf, placedRecords_core same, spansOf_core same]

theorem PendingAppend.Faithful.join [Digests] {journal : JournalId} {pending : PendingAppend}
    (faithful : pending.Faithful journal) (identity : Identity) (ticket : Nat) :
    (pending.join identity ticket).Faithful journal := by
  have head {placed : List PlacedSubmission} {first : PlacedSubmission}
      {rest : List PlacedSubmission} (whole : placed = first :: rest) :
      ∃ other others, joinWaiter identity ticket placed = other :: others ∧
        other.firstOffset = first.firstOffset := by
    have same := joinWaiter_core identity ticket placed
    rw [whole, List.map_cons] at same
    obtain ⟨other, others, joined, core, -⟩ := List.map_eq_cons_iff.mp same
    have offset : other.core.firstOffset = first.core.firstOffset :=
      congrArg PlacedSubmission.firstOffset core
    exact ⟨other, others, by rw [whole]; exact joined, offset⟩
  cases pending with
  | depthOne work =>
      obtain ⟨header, first, rest, whole, chained, sealed⟩ := faithful
      obtain ⟨other, others, joined, offset⟩ := head whole
      have cores := joinWaiter_core identity ticket work.placed
      refine ⟨header, other, others, joined, chained.of_core cores, ?_⟩
      show SealedFrom header (frameOf journal other.firstOffset
        (joinWaiter identity ticket work.placed)) work.chunk
      rw [frameOf_core cores, offset]
      exact sealed
  | blobSink envelope placed encodedBytes enqueued =>
      obtain ⟨first, rest, whole, chained, owner, base, records, spans⟩ := faithful
      obtain ⟨other, others, joined, offset⟩ := head whole
      have cores := joinWaiter_core identity ticket placed
      refine ⟨other, others, joined, chained.of_core cores, owner, base.trans offset.symm, ?_, ?_⟩
      · rw [records]
        exact (placedRecords_core cores).symm
      · rw [spans]
        exact congrArg Prod.fst (spansOf_core cores 0).symm

/-- Offsets and frames of everything a driver holds. -/
structure Framed [Digests] (driver : Driver) : Prop where
  openChained : Chained driver.openPlaced
  pending : ∀ pending, driver.pendingAppend = some pending → pending.Faithful driver.journalId

section steps

variable [Digests]

variable {before after : Driver}

theorem Framed.of_same (framed : Framed before) (journal : after.journalId = before.journalId)
    (opened : after.openChunk.map OpenChunk.core = before.openChunk.map OpenChunk.core)
    (pending : after.pendingAppend = before.pendingAppend) : Framed after where
  openChained := framed.openChained.of_core (openPlaced_core opened)
  pending := by rw [pending, journal]; exact framed.pending

theorem Framed.of_idle (framed : Framed before)
    (opened : after.openChunk = before.openChunk ∨ after.openChunk = none)
    (pending : after.pendingAppend = none) : Framed after where
  openChained := by
    rcases opened with same | none
    · rw [Actor.openPlaced, same]
      exact framed.openChained
    · rw [Actor.openPlaced, none]
      rintro first rest ⟨⟩
  pending := by
    rw [pending]
    rintro held ⟨⟩

/-- The open chunk is taken, and what is pending carries it or is what it was. -/
theorem Framed.of_taken (framed : Framed before) (journal : after.journalId = before.journalId)
    (opened : after.openChunk = none)
    (pending : ∀ held, after.pendingAppend = some held →
      before.pendingAppend = some held ∨ held.Faithful before.journalId) : Framed after where
  openChained := by
    rw [Actor.openPlaced, opened]
    rintro first rest ⟨⟩
  pending := by
    intro held present
    rw [journal]
    exact (pending held present).elim (framed.pending held) id

theorem Taken.framed {driver taken : Driver} {submission : Submission} {ticket : Nat}
    (inHand : Taken driver submission ticket taken) (framed : Framed driver) : Framed taken := by
  cases inHand <;> exact framed.of_same rfl rfl rfl

theorem framed_move (move : Move before after) (framed : Framed before) : Framed after := by
  cases move with
  | quiet => exact framed.of_same rfl rfl rfl
  | say => exact framed.of_same rfl rfl rfl
  | refuse inHand => exact (inHand.framed framed).of_same rfl rfl rfl
  | replay inHand => exact (inHand.framed framed).of_same rfl rfl rfl
  | joinOpen inHand => exact (inHand.framed framed).of_same rfl (openChunk_join_core _ _ _) rfl
  | @joinPending taken submission ticket inHand =>
      have held := inHand.framed framed
      refine ⟨held.openChained, ?_⟩
      intro pending present
      obtain ⟨old, before, rfl⟩ := Option.map_eq_some_iff.mp present
      exact (held.pending old before).join submission.identity ticket
  | park inHand => exact (inHand.framed framed).of_same rfl rfl rfl
  | @place taken submission ticket inHand encodedBytes sized fresh room =>
      have held := inHand.framed framed
      refine ⟨?_, held.pending⟩
      rw [place_openPlaced]
      exact held.openChained.place submission encodedBytes [ticket]
  | sealNothing chunk opened empty =>
      exact framed.of_taken rfl rfl fun held present => Or.inl present
  | sealRefused chunk first rest error opened filled refused =>
      exact framed.of_taken rfl rfl fun held present => Or.inl present
  | sealChunk chunk first rest result opened filled depthOne success =>
      refine framed.of_taken rfl rfl fun held present => Or.inr ?_
      cases present
      have chained := framed.openChained
      rw [openPlaced_of_some opened] at chained
      exact ⟨before.sealHeader, first, rest, filled, chained, sealSingleFrameChunk_eq_ok success⟩
  | sealEnvelope chunk first rest bytes opened filled sink success =>
      refine framed.of_taken rfl rfl fun held present => Or.inr ?_
      cases present
      have chained := framed.openChained
      rw [openPlaced_of_some opened] at chained
      exact ⟨first, rest, filled, chained, rfl, rfl, rfl, rfl⟩
  | commit => exact framed.of_idle (Or.inl rfl) rfl
  | fail => exact framed.of_idle (Or.inr rfl) rfl
  | enqueue envelope placed encodedBytes pending =>
      refine ⟨framed.openChained, ?_⟩
      intro held present
      cases present
      have faithful := framed.pending _ pending
      exact faithful
  | enqueueFailed => exact framed.of_idle (Or.inl rfl) rfl
  | close => exact framed.of_same rfl rfl rfl
  | refuseParked => exact framed.of_same rfl rfl rfl
  | exit => exact framed.of_same rfl rfl rfl

theorem framed_sinkMove (move : SinkMove before after) (framed : Framed before) : Framed after := by
  cases move with
  | appendRefs => exact framed.of_same rfl rfl rfl
  | misreport => exact framed.of_idle (Or.inl rfl) rfl
  | report => exact framed.of_idle (Or.inl rfl) rfl

theorem new_framed {config : DriverConfig} {writer : ChunkLogWriter}
    {recovered : List RecoveredChunk} {store : BlobStore} {driver : Driver}
    (mounted : Driver.new config writer recovered store = .ok driver) : Framed driver := by
  obtain ⟨dedup, admittedSeq, knownProducers, rfl⟩ := Driver.new_blank mounted
  exact ⟨by rintro first rest ⟨⟩, by rintro pending ⟨⟩⟩

end steps

end Scripture
