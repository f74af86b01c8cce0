import Scripture.ChunkLogOperations
import Scripture.Driver.Outcomes
import Scripture.Driver.SinkReceipts

set_option autoImplicit false

/- The owners of one journal, one after another over one log: what each life leaves behind, what
recovery makes of it, and that nothing is lost or committed twice on the way. -/
namespace Scripture

open ByteFormat

section Tiling

variable [Digests] {store : BlobStore} {journal : JournalId} {cohort : CohortId} {ceiling : UInt64}
  {log : List Bytes} {view : List Chunk} {stop : Nat}

/-- Each entry of the log holds one chunk of the journal. The chunks continue one another from
offset zero, and their generations never go back and stay below the ceiling. -/
structure Tiled (journal : JournalId) (cohort : CohortId) (ceiling : UInt64) (store : BlobStore)
    (log : List Bytes) (view : List Chunk) (stop : Nat) : Prop where
  holds : List.Forall₂ (fun payload chunk => Holds store payload [chunk]) log view
  owned : ∀ chunk ∈ view,
    chunk.header.cohortId = cohort ∧ chunk.frames.map Frame.journalId = [journal]
  rising : ((view.map fun chunk => chunk.header.generation) ++ [ceiling]).Pairwise (· ≤ ·)
  chained : Adjoining 0 view stop
  fits : stop < 2 ^ 64

theorem Tiled.extend {after : BlobStore} (grown : store.Extends after)
    (tiled : Tiled journal cohort ceiling store log view stop) :
    Tiled journal cohort ceiling after log view stop :=
  { tiled with holds := tiled.holds.imp fun _ _ held => held.extend grown }

theorem Tiled.raise {later : UInt64} (raised : ceiling ≤ later)
    (tiled : Tiled journal cohort ceiling store log view stop) :
    Tiled journal cohort later store log view stop :=
  { tiled with rising := by grind [tiled.rising, UInt64.le_trans] }

/-- One more chunk of the owner. -/
theorem Tiled.append (tiled : Tiled journal cohort ceiling store log view stop) {payload : Bytes}
    {header : ChunkHeader} {frame : Frame} (holds : Holds store payload [⟨header, [frame]⟩])
    (owned : Owned journal cohort ceiling ⟨header, [frame]⟩) (base : frame.baseOffset.toNat = stop)
    (fits : stop + frame.records.length < 2 ^ 64) :
    Tiled journal cohort ceiling store (log ++ [payload]) (view ++ [⟨header, [frame]⟩])
      (stop + frame.records.length) where
  holds := List.rel_append tiled.holds (.cons holds .nil)
  owned := by
    intro chunk member
    rcases List.mem_append.mp member with old | new
    · exact tiled.owned chunk old
    · rw [List.mem_singleton.mp new]
      exact ⟨owned.1, owned.2.2⟩
  rising := by
    have last : header.generation = ceiling := owned.2.1
    grind [tiled.rising, UInt64.le_refl]
  chained := adjoining_append.mpr ⟨stop, tiled.chained, base, by rw [Chunk.records_sole]; rfl⟩
  fits := fits

/-- What recovery says of a chunk. -/
def Recovers (journal : JournalId) (recovered : RecoveredChunk) (chunk : Chunk) : Prop :=
  Agrees recovered chunk ∧ Describes journal recovered recovered.slot chunk

/-- Recovery accepts chunks of rising generations. -/
theorem recoverSlots_rising {slot : Nat} {previous : Option UInt64}
    (holds : List.Forall₂ (fun payload chunk => Holds store payload [chunk]) log view)
    (owned : ∀ chunk ∈ view,
      chunk.header.cohortId = cohort ∧ chunk.frames.map Frame.journalId = [journal])
    (rising : ((view.map fun chunk => chunk.header.generation) ++ [ceiling]).Pairwise (· ≤ ·))
    (since : ∀ before ∈ previous, ∀ chunk ∈ view, before ≤ chunk.header.generation) :
    ∃ recovered, recoverSlots journal cohort (.atMost ceiling) (some store) slot previous log =
      .ok recovered ∧ List.Forall₂ (Recovers journal) recovered view := by
  induction holds generalizing slot previous with
  | nil => exact ⟨[], rfl, .nil⟩
  | @cons payload chunk _ rest first _ ih =>
      obtain ⟨above, rising⟩ := List.pairwise_cons.mp rising
      obtain ⟨inCohort, inJournal⟩ := owned chunk List.mem_cons_self
      obtain ⟨sets, resolved, made⟩ := first.resolved
      obtain ⟨bytes, none, sealedAs, last, rfl⟩ := List.forall₂_cons_right_iff.mp made
      cases last
      have accepted := GenerationPolicy.atMost_check (above ceiling (by simp))
        fun before held => since before held chunk List.mem_cons_self
      obtain ⟨recovered, done, agrees⟩ :=
        @recoverChunk_sealed _ journal cohort _ _ _ slot _ _ sealedAs inCohort inJournal accepted
      obtain ⟨_, decodes, describes⟩ := recoverChunk_eq_ok done
      cases sealedAs.decoded.symm.trans decodes
      obtain ⟨others, remaining, follow⟩ := @ih (slot + 1) (some chunk.header.generation)
        (fun other member => owned other (List.mem_cons_of_mem _ member)) rising (by
          rintro before ⟨⟩ other member
          exact above _ (List.mem_append_left _ (List.mem_map_of_mem member)))
      exact ⟨recovered :: others, bind_eq_ok.mpr ⟨_, resolved, bind_eq_ok.mpr
        ⟨([recovered], _), bind_eq_ok.mpr ⟨_, done, rfl⟩, bind_eq_ok.mpr ⟨others, remaining, rfl⟩⟩⟩,
        .cons ⟨agrees, describes.slot ▸ describes⟩ follow⟩

/-- Recovery of a tiled log succeeds for every bound, at the end of the log. -/
theorem recover_tiled (tiled : Tiled journal cohort ceiling store log view stop)
    (bound : RecoveryBound) :
    ∃ recovered, recoverFromLog journal cohort ceiling log bound (.atMost ceiling) (some store) =
        .ok (⟨journal, cohort, ceiling, log, .ofNat stop, false⟩, recovered) ∧
      List.Forall₂ (Recovers journal) recovered (view.drop (log.length - bound.val)) := by
  have later := List.drop_sublist (log.length - bound.val) view
  obtain ⟨recovered, scanned, agrees⟩ := @recoverSlots_rising _ store journal cohort ceiling _ _
    (log.length - bound.val) none (List.forall₂_drop _ tiled.holds)
    (fun chunk member => tiled.owned chunk (later.subset member))
    (tiled.rising.sublist ((later.map _).append (List.Sublist.refl _))) (by simp)
  have next : (RecordOffset.ofNat stop).toNat = stop := RecordOffset.toNat_ofNat tiled.fits
  have chained := tiled.chained
  rw [← List.take_append_drop (log.length - bound.val) view] at chained
  obtain ⟨middle, -, back⟩ := adjoining_append.mp chained
  refine ⟨recovered, recoverFromLog_agrees scanned (agrees.imp fun _ _ => And.left) ?_
    ⟨middle, next.symm ▸ back⟩, agrees⟩
  intro nothing
  have short : view = [] := by
    have length := tiled.holds.length_eq
    have none := List.drop_eq_nil_iff.mp nothing
    have positive := bound.property
    exact List.eq_nil_of_length_eq_zero (by omega)
  have empty := tiled.chained
  rw [short] at empty
  rw [next, ← empty]

end Tiling

section Life

variable [Digests] {config : DriverConfig} {found : List Bytes} {view : List Chunk} {stop : Nat}
  {chunk : SealedChunk} {header : ChunkHeader} {frame : Frame} {kernel : KernelReply}
  {result : Except ChunkLogError ChunkAppendAck}

/-- A writer of this owner has kept the log that it found, and its log is tiled up to where it goes
on. -/
structure Standing (config : DriverConfig) (found : List Bytes) (store : BlobStore)
    (writer : ChunkLogWriter) (view : List Chunk) (stop : Nat) : Prop where
  owner : writer.journalId = config.journalId ∧ writer.cohortId = config.cohortId ∧
    writer.generation = config.generation
  grown : found <+: writer.log
  tiled : Tiled config.journalId config.cohortId config.generation store writer.log view stop
  next : writer.poisoned = false → writer.nextOffset.toNat = stop

/-- A call for a sealed chunk adds this chunk, or fails and adds nothing. -/
theorem Standing.run {store after : BlobStore} {writer next : ChunkLogWriter}
    (held : Standing config found store writer view stop) (more : store.Extends after)
    (made : SealedFrom header frame chunk) {plan : Except ChunkLogError ChunkLogWriter.Plan}
    (ran : writer.run plan kernel = (result, next))
    (laid : ∀ ready, plan = .ok ready → writer.poisoned = false ∧ ∃ entry,
      writer.Checked writer.nextOffset chunk entry ∧
      Holds after ready.payload [⟨header, [frame]⟩] ∧
      writer.nextOffset.toNat + entry.recordCount.toNat = ready.advance.toNat) :
    (∃ stop, Standing config found after next (view ++ [⟨header, [frame]⟩]) stop) ∨
      Standing config found after next view stop := by
  obtain ⟨owner, grown, tiled, offset⟩ := held
  have kept := tiled.extend more
  cases plan with
  | error error =>
      cases ran
      exact .inr ⟨owner, grown, kept, offset⟩
  | ok ready =>
      obtain ⟨alive, entry, checks, holds, advance⟩ := laid ready rfl
      obtain ⟨-, owned, base, count⟩ := checks.owned made
      have start := offset alive
      have fits := made.offsets
      rw [owner.1, owner.2.1, owner.2.2] at owned
      rw [base, start] at fits
      have longer := kept.append holds owned (by rw [base, start]) fits
      have reaches := grown.trans (List.prefix_append writer.log [ready.payload])
      cases kernel with
      | ok =>
          cases ran
          refine .inl ⟨_, owner, reaches, longer, fun _ => ?_⟩
          rw [← advance, start, count]
      | notWritten reason =>
          cases ran
          exact .inr ⟨owner, grown, kept, by rintro ⟨⟩⟩
      | written reason =>
          -- The writer is poisoned here: where it goes on is only found by recovery.
          cases ran
          exact .inl ⟨_, owner, reaches, longer, by rintro ⟨⟩⟩

/-- So does the driver's append, inline or through a staged object. -/
theorem appendSealed_standing {driver after : Driver} {put : PutReply}
    (made : SealedFrom header frame chunk)
    (outcome : driver.appendSealed chunk put kernel = (result, after))
    (clean : NoCollision after.history)
    (held : Standing config found driver.store driver.writer view stop) :
    (∃ stop, Standing config found after.store after.writer (view ++ [⟨header, [frame]⟩]) stop) ∨
      Standing config found after.store after.writer view stop := by
  have more := (Driver.appendSealed_appended outcome).store
  have decoded : SealedAs chunk.bytes ⟨header, [frame]⟩ := ⟨header, frame, chunk, made, rfl, rfl⟩
  cases mode : driver.datarefBlobs with
  | none =>
      obtain ⟨ran, -⟩ := Driver.inline_run mode outcome
      refine held.run more made ran fun ready planned => ?_
      obtain ⟨alive, entry, checks, payload, -, -, -, -, advance⟩ :=
        ChunkLogWriter.planAppend_eq_ok planned
      exact ⟨alive, entry, checks, payload ▸ .inline decoded, advance⟩
  | some front =>
      rcases Driver.staged_run mode outcome with
        ⟨-, -, same⟩ | ⟨key, pointer, staged, stored, history, store, ran⟩
      · rw [same]
        exact .inr { held with tiled := held.tiled.extend more }
      · refine held.run more made ran fun ready planned => ?_
        obtain ⟨alive, valid, entry, checks, ⟨-, identity, -⟩, encoded, -, -, -, -, advance⟩ :=
          ChunkLogWriter.planDataRef_eq_ok planned
        have fetched := Driver.staged_fetched staged stored valid checks.digest history store clean
        exact ⟨alive, entry, checks, .dataRef encoded
          ⟨_, fetched, decoded, (checks.owned made).1.trans identity.symm⟩, advance⟩

/-- The identities of the submissions of a chunk. -/
def Chunk.identities (chunk : Chunk) : List Identity :=
  chunk.frames.flatMap fun frame => frame.submissions.map SubmissionRef.identity

omit [Digests] in
theorem frameOf_identities (journal : JournalId) (base : RecordOffset)
    (placed : List PlacedSubmission) :
    Chunk.identities ⟨header, [frameOf journal base placed]⟩ = Scripture.identities placed := by
  have spans (start : UInt32) :
      (spansOf placed start).1.map SubmissionRef.identity = Scripture.identities placed := by
    induction placed generalizing start with
    | nil => rfl
    | cons item rest ih => exact congrArg (List.cons _) (ih _)
  exact (List.append_nil _).trans (spans 0)

/-- Nothing is committed twice: what is committed is known to the window, and what is placed is
neither committed nor placed a second time. -/
structure Once (committed : List Identity) (driver : Driver) : Prop where
  reached : driver.poisoned = false → ∀ identity ∈ committed,
    driver.dedup.Reaches (identity.1, identity.2.1) identity.2.2
  apart : (committed ++ identities (driver.pendingPlaced ++ driver.openPlaced)).Nodup

/-- A driver and what it has made of the log that it found. If the window was rebuilt from the whole
log, nothing is in the log twice. -/
def Carried (whole : Prop) (config : DriverConfig) (found : List Bytes) (driver : Driver) : Prop :=
  ∃ view stop, Standing config found driver.store driver.writer view stop ∧
    (whole → Once (view.flatMap Chunk.identities) driver)

variable {whole : Prop} {before after : Driver}

theorem Carried.of_less (held : Carried whole config found before)
    (alive : after.poisoned = false → before.poisoned = false)
    (writer : after.writer = before.writer) (store : after.store = before.store)
    (dedup : after.dedup = before.dedup)
    (less : (identities (after.pendingPlaced ++ after.openPlaced)).Sublist
      (identities (before.pendingPlaced ++ before.openPlaced))) :
    Carried whole config found after := by
  obtain ⟨view, stop, standing, once⟩ := held
  refine ⟨view, stop, by rw [writer, store]; exact standing, fun all => ?_⟩
  obtain ⟨reached, apart⟩ := once all
  exact ⟨fun healthy => dedup ▸ reached (alive healthy), apart.sublist (less.append_left _)⟩

theorem Taken.carried {taken : Driver} {submission : Submission} {ticket : Nat}
    (inHand : Taken before submission ticket taken) (held : Carried whole config found before) :
    Carried whole config found taken := by
  cases inHand <;> exact held.of_less id rfl rfl rfl (.refl _)

/-- A submission that is not committed, pending or open is placed. -/
theorem Carried.place (held : Carried whole config found before) {submission : Submission}
    {ticket encodedBytes : Nat} (alive : before.poisoned = false)
    (uncommitted : before.inDedupRange submission = false)
    (notOpen : Actor.findPlaced before.openPlaced submission.identity = none)
    (notPending : Actor.findPlaced before.pendingPlaced submission.identity = none) :
    Carried whole config found (before.place submission ticket encodedBytes) := by
  obtain ⟨view, stop, standing, once⟩ := held
  refine ⟨view, stop, standing, fun all => ?_⟩
  obtain ⟨reached, apart⟩ := once all
  refine ⟨reached, ?_⟩
  have pending : (before.place submission ticket encodedBytes).pendingPlaced =
      before.pendingPlaced := rfl
  rw [place_openPlaced, pending, ← List.append_assoc, identities_append, ← List.append_assoc]
  refine List.nodup_append.mpr ⟨apart, List.nodup_singleton _, ?_⟩
  rintro identity listed _ new rfl
  rw [List.mem_singleton.mp new] at listed
  rcases List.mem_append.mp listed with committed | placed
  · have inRange := inDedupRange_iff.mpr (reached alive _ committed)
    rw [uncommitted] at inRange
    cases inRange
  · obtain ⟨item, member, same⟩ := List.mem_map.mp placed
    have absent {items : List PlacedSubmission} (listed : item ∈ items)
        (none : Actor.findPlaced items submission.identity = none) : False :=
      List.find?_eq_none.mp none item listed (by simpa using same)
    exact (List.mem_append.mp member).elim (absent · notPending) (absent · notOpen)

/-- The pending chunk is appended: its submissions are in the log now, or they are not. -/
theorem Carried.append (held : Carried whole config found before) (framed : Framed before)
    {work : SealedWork} {writer : ChunkLogWriter} {store : BlobStore} {puts : List Act}
    (pending : before.pendingAppend = some (.depthOne work))
    (appends : before.Appends work result writer store puts)
    (clean : NoCollision (before.history ++ puts)) :
    ∃ view stop, Standing config found store writer view stop ∧ (whole →
      (before.poisoned = false → ∀ identity ∈ view.flatMap Chunk.identities,
        before.dedup.Reaches (identity.1, identity.2.1) identity.2.2 ∨
          identity ∈ identities work.placed) ∧
      (view.flatMap Chunk.identities ++ identities before.openPlaced).Nodup) := by
  obtain ⟨view, stop, standing, once⟩ := held
  obtain ⟨header, first, rest, -, -, made⟩ := framed.pending _ pending
  obtain ⟨put, kernel, ran⟩ := appends.ran
  rcases appendSealed_standing made ran clean standing with ⟨stop, longer⟩ | same
  · refine ⟨_, stop, longer, fun all => ?_⟩
    obtain ⟨known, apart⟩ := once all
    rw [identities_append, pendingPlaced_of_some pending, ← List.append_assoc] at apart
    rw [List.flatMap_append, List.flatMap_singleton, frameOf_identities]
    exact ⟨fun alive identity member => (List.mem_append.mp member).imp (known alive identity) id,
      apart⟩
  · refine ⟨view, stop, same, fun all => ?_⟩
    obtain ⟨known, apart⟩ := once all
    rw [identities_append] at apart
    exact ⟨fun alive identity member => .inl (known alive identity member),
      apart.sublist ((List.sublist_append_right _ _).append_left _)⟩

theorem carried_move (move : Move before after) (clean : NoCollision after.history)
    (framed : Framed before) (held : Carried whole config found before) :
    Carried whole config found after := by
  have dropOpen : (identities (before.pendingPlaced ++ [])).Sublist
      (identities (before.pendingPlaced ++ before.openPlaced)) :=
    ((List.nil_sublist _).append_left _).map _
  have dropPending {placed : List PlacedSubmission} (opened : before.openPlaced = placed) :
      (identities ([] ++ placed)).Sublist
        (identities (before.pendingPlaced ++ before.openPlaced)) := by
    rw [opened]
    exact ((List.nil_sublist _).append_right _).map _
  have sealing {chunk : OpenChunk} (opened : before.openChunk = some chunk) :
      (identities (chunk.placed ++ [])).Sublist
        (identities (before.pendingPlaced ++ before.openPlaced)) := by
    rw [List.append_nil]
    exact dropPending (openPlaced_of_some opened)
  cases move with
  | refuse inHand => exact (inHand.carried held).of_less id rfl rfl rfl (.refl _)
  | replay inHand => exact (inHand.carried held).of_less id rfl rfl rfl (.refl _)
  | park inHand => exact (inHand.carried held).of_less id rfl rfl rfl (.refl _)
  | joinOpen inHand =>
      refine (inHand.carried held).of_less id rfl rfl rfl ?_
      rw [identities_append, joinOpen_openPlaced, identities_joinWaiter, ← identities_append]
      exact .refl _
  | joinPending inHand =>
      refine (inHand.carried held).of_less id rfl rfl rfl ?_
      rw [identities_append, joinPending_pendingPlaced, identities_joinWaiter, ← identities_append]
      exact .refl _
  | place inHand encodedBytes sized fresh =>
      have taken := inHand.carried held
      cases inHand <;>
        exact taken.place sized.alive fresh.uncommitted fresh.notOpen fresh.notPending
  | sealNothing => exact held.of_less id rfl rfl rfl dropOpen
  | sealRefused => exact held.of_less id rfl rfl rfl dropOpen
  | sealChunk chunk first rest result opened => exact held.of_less id rfl rfl rfl (sealing opened)
  | sealEnvelope chunk first rest bytes opened => exact held.of_less id rfl rfl rfl (sealing opened)
  | commit work ack pending appends =>
      obtain ⟨view, stop, standing, once⟩ := held.append framed pending appends
        fun act member => clean act (List.mem_append_left _ member)
      refine ⟨view, stop, standing, fun all => ⟨fun alive identity member => ?_, (once all).2⟩⟩
      obtain ⟨kept, entered⟩ := commitWindow_reaches before.generation work.chunk.chunkId ack.slot
        work.placed before.dedup
      rcases (once all).1 alive identity member with known | new
      · exact kept _ _ known
      · obtain ⟨item, listed, rfl⟩ := List.mem_map.mp new
        exact entered item listed
  | fail work error pending appends =>
      obtain ⟨view, stop, standing, once⟩ := held.append framed pending appends
        fun act member => clean act (List.mem_append_left _ member)
      exact ⟨view, stop, standing, fun all => ⟨by rintro ⟨⟩,
        (once all).2.sublist ((List.nil_sublist _).append_left _)⟩⟩
  | enqueue envelope placed encodedBytes pending =>
      refine held.of_less id rfl rfl rfl ?_
      rw [pendingPlaced_of_some pending]
      exact .refl _
  | enqueueFailed => exact held.of_less id rfl rfl rfl (dropPending rfl)
  | _ => exact held.of_less id rfl rfl rfl (.refl _)

/-- The rebuilt window knows the submissions of the recovered chunks. -/
theorem rebuildDedup_reaches {actor : Actor} {journal : JournalId} {recovered : List RecoveredChunk}
    (recovers : List.Forall₂ (Recovers journal) recovered view) :
    ∀ identity ∈ view.flatMap Chunk.identities,
      (actor.rebuildDedup recovered).dedup.Reaches (identity.1, identity.2.1) identity.2.2 := by
  intro identity listed
  obtain ⟨chunk, member, held⟩ := List.mem_flatMap.mp listed
  obtain ⟨source, present, -, describes⟩ := forall₂_mem recovers.flip member
  obtain ⟨records, -, frames, digested⟩ := describes.frame
  have spans : identity ∈ source.frame.submissions.map SubmissionRef.identity := by
    simpa [Chunk.identities, frames] using held
  rw [← List.map_fst_zip (digestSubmissions_eq_ok digested).length_eq.le, List.map_map] at spans
  obtain ⟨⟨span, digest⟩, zipped, rfl⟩ := List.mem_map.mp spans
  rw [rebuildDedup_dedup]
  exact (DedupWindow.reaches_foldl_insert _ _ _ _ _).2 (source, span, digest)
    (List.mem_flatMap.mpr ⟨source, present, List.mem_map_of_mem zipped⟩)

/-- The driver is mounted over what recovery reads of this log. -/
def MountedOver (config : DriverConfig) (store : BlobStore) (log : List Bytes)
    (bound : RecoveryBound) (driver : Driver) : Prop :=
  ∃ writer recovered, recoverFromLog config.journalId config.cohortId config.generation log bound
      (.atMost config.generation) (some store) = .ok (writer, recovered) ∧
    Driver.new config writer recovered store = .ok driver

variable {store : BlobStore} {log : List Bytes} {ceiling : UInt64} {bound : RecoveryBound}

/-- A driver starts with what recovery tells it of a tiled log. -/
theorem MountedOver.carried {driver : Driver} (mounted : MountedOver config store log bound driver)
    (tiled : Tiled config.journalId config.cohortId config.generation store log view stop)
    (distinct : whole → log.length ≤ bound.val ∧ (view.flatMap Chunk.identities).Nodup) :
    driver.store = store ∧ driver.config = config ∧ Sound store driver ∧
      Carried whole config log driver := by
  obtain ⟨writer, recovered, scanned, mounted⟩ := mounted
  have sound : Sound store driver := new_sound (by rintro held ⟨⟩; exact .refl _) scanned mounted
  obtain ⟨again, recovers, agrees⟩ := recover_tiled tiled bound
  cases scanned.symm.trans recovers
  obtain ⟨-, shape⟩ := Driver.new_eq_ok mounted
  obtain ⟨dedup, admittedSeq, knownProducers, blank⟩ := Driver.new_blank mounted
  refine ⟨by rw [blank]; rfl, by rw [blank]; rfl, sound, view, stop, ?_,
    fun all => ⟨fun _ => ?_, ?_⟩⟩
  · rw [blank]
    exact ⟨⟨rfl, rfl, rfl⟩, List.prefix_refl _, tiled, fun _ => RecordOffset.toNat_ofNat tiled.fits⟩
  · rw [Nat.sub_eq_zero_of_le (distinct all).1, List.drop_zero] at agrees
    rw [shape]
    exact rebuildDedup_reaches agrees
  · rw [blank]
    exact (List.append_nil _).symm ▸ (distinct all).2

/-- A driver at the end of its life, the log that it found, and how much of it was recovered. -/
structure Life where
  driver : Driver
  found : List Bytes
  bound : RecoveryBound

/-- The owners of one journal, one after another, without a shared sink. Each is mounted over the
log that the one before it left, whether that one was stopped, was poisoned or just ended between
two passes, and its generation is not below theirs. What a life has not appended by its end is never
appended. -/
inductive Lives (journal : JournalId) (cohort : CohortId) :
    List Life → UInt64 → BlobStore → List Bytes → Prop where
  | none (store : BlobStore) : Lives journal cohort [] 0 store []
  | next {earlier : List Life} {ceiling : UInt64} {store : BlobStore} {log : List Bytes}
      {config : DriverConfig} {bound : RecoveryBound} {driver : Driver} {passes : List Pass}
      (lives : Lives journal cohort earlier ceiling store log)
      (owner : config.journalId = journal ∧ config.cohortId = cohort)
      (later : ceiling ≤ config.generation) (mounted : MountedOver config store log bound driver)
      (plain : ∀ pass ∈ passes, pass.Plain) (clean : NoCollision (driver.run passes).history) :
      Lives journal cohort (earlier ++ [⟨driver.run passes, log, bound⟩]) config.generation
        (driver.run passes).store (driver.run passes).writer.log

/-- Every recovery read all that was there. -/
def Wide (chain : List Life) : Prop := ∀ life ∈ chain, life.found.length ≤ life.bound.val

variable {journal : JournalId} {cohort : CohortId} {chain : List Life}

/-- What the lives leave: a tiled log, without duplicates if every recovery read all that was there,
and true receipts. -/
theorem Lives.kept (lives : Lives journal cohort chain ceiling store log) :
    (∃ view stop, Tiled journal cohort ceiling store log view stop ∧
      (Wide chain → (view.flatMap Chunk.identities).Nodup)) ∧
      ∀ life ∈ chain, ∀ ticket receipt, .receipt ticket (.ok receipt) ∈ life.driver.sent →
        ∃ submission, life.driver.offered[ticket]? = some submission ∧
          receipt.Sound store log journal submission := by
  induction lives with
  | none store => exact ⟨⟨[], 0, ⟨.nil, by simp, by simp, rfl, by decide⟩, by simp⟩, by simp⟩
  | @next before _ _ found config bound driver passes lives owner later mounted plain clean ih =>
      obtain ⟨⟨view, stop, tiled, distinct⟩, earlier⟩ := ih
      obtain ⟨rfl, rfl⟩ := owner
      obtain ⟨rfl, settings, sound, carried⟩ := mounted.carried (tiled.raise later)
        fun all : Wide (before ++ [⟨driver.run passes, found, bound⟩]) =>
          ⟨all _ (List.mem_append_right _ List.mem_cons_self),
            distinct fun life member => all life (List.mem_append_left _ member)⟩
      -- Along one life the receipts stay true of a log that only grows.
      obtain ⟨grown, sound, now, stops, standing, once⟩ := run_invariant_of_acts
        (fun before after move clean (held : Grown driver before ∧ Sound before.store before ∧
            Carried _ config found before) =>
          ⟨held.1.trans move.grown,
            sound_move move clean (.refl _) (held.2.1.extend move.grown.store),
            carried_move move clean held.2.1.toFramed held.2.2⟩)
        ⟨⟨List.prefix_refl _, List.prefix_refl _, rfl, .refl _⟩, sound, carried⟩ passes plain clean
      refine ⟨⟨now, stops, standing.tiled, fun all => (List.nodup_append.mp (once all).apart).1⟩,
        ?_⟩
      obtain ⟨more, longer⟩ := standing.grown
      intro life member ticket receipt released
      rcases List.mem_append.mp member with old | new
      · obtain ⟨submission, offered, true⟩ := earlier life old ticket receipt released
        exact ⟨submission, offered, longer ▸ true.extend grown.store more⟩
      · rw [List.mem_singleton.mp new] at released ⊢
        rw [← congrArg DriverConfig.journalId (grown.config.trans settings)]
        exact sound.receipts ticket receipt released

end Life

/-- The first owner commits a record. Of the append of the second one it hears nothing good,
although it is written. -/
def lostLife : Driver :=
  @Driver.run valueDigests (freshDriver soloPolicy) (soloCommands.map commandPass ++
    [.submit (submissionOf 1 1 1), .flush 0].map fun command =>
      { commandPass command with kernel := .written "timed out" })

/-- The next owner is offered the second record again, and a third one. -/
def retriedLife : Except DriverError Driver := do
  let (writer, recovered) ← (@recoverFromLog valueDigests (smallConfig soloPolicy).journalId
    (smallConfig soloPolicy).cohortId 2 lostLife.writer.log soloPolicy.recoveryScan (.atMost 2)
    (some lostLife.store)).mapError .log
  let driver ← Driver.new { smallConfig soloPolicy with generation := 2 } writer recovered
    lostLife.store
  return @Driver.run valueDigests driver ([.submit (submissionOf 1 1 1), .flush 0,
    .submit (submissionOf 2 0 1), .flush 0].map commandPass)

def Act.isPut : Act → Bool
  | .put .. => true
  | _ => false

theorem noCollision_of_no_put [Digests] {history : List Act}
    (none : history.any Act.isPut = false) :
    NoCollision history := by
  intro act member
  have other := List.any_eq_false.mp none act member
  cases act with
  | put => exact absurd rfl other
  | _ => trivial

theorem retried_lives : ∃ (driver : Driver) (receipt : Receipt),
    driver.writer.log.length = 3 ∧ .receipt 0 (.ok receipt) ∈ lostLife.sent ∧
    @Lives valueDigests (smallConfig soloPolicy).journalId (smallConfig soloPolicy).cohortId
      [⟨lostLife, [], soloPolicy.recoveryScan⟩,
        ⟨driver, lostLife.writer.log, soloPolicy.recoveryScan⟩] 2 driver.store
          driver.writer.log := by
  let digests := valueDigests
  have facts : (retriedLife >>= fun driver =>
      .ok (driver.history.any Act.isPut, driver.writer.log.length)) = .ok (false, 3) := by
    decide +kernel
  obtain ⟨driver, lived, values⟩ := bind_eq_ok.mp facts
  obtain ⟨inline, three⟩ := Prod.mk.inj (Except.ok.inj values)
  have answered : (lostLife.released 0).isSome := by decide +kernel
  obtain ⟨receipt, found⟩ := Option.isSome_iff_exists.mp answered
  obtain ⟨⟨writer, recovered⟩, scanned, lived⟩ := bind_eq_ok.mp lived
  obtain ⟨mounted, built, lived⟩ := bind_eq_ok.mp lived
  cases lived
  have first : Lives (smallConfig soloPolicy).journalId (smallConfig soloPolicy).cohortId
      [⟨lostLife, [], soloPolicy.recoveryScan⟩] 1 lostLife.store lostLife.writer.log := by
    refine @Lives.next _ _ _ [] 0 _ [] (smallConfig soloPolicy) soloPolicy.recoveryScan
      (freshDriver soloPolicy) _ (.none fun _ => none) ⟨rfl, rfl⟩ (by decide)
      ⟨emptyWriter, [], rfl, rfl⟩ ?_ (noCollision_of_no_put (by decide +kernel))
    simp [soloCommands, Pass.Plain, Command.Plain, commandPass]
  refine ⟨_, receipt, three, Driver.released_mem found, ?_⟩
  exact @Lives.next _ _ _ _ _ _ _ { smallConfig soloPolicy with generation := 2 } _ _ _ first
    ⟨rfl, rfl⟩ (by decide) ⟨writer, recovered, mapError_eq_ok.mp scanned, built⟩
    (commandPass_plain (by simp [Command.Plain])) (noCollision_of_no_put inline)

section Owners

variable [Digests] {journal : JournalId} {cohort : CohortId} {chain : List Life} {ceiling : UInt64}
  {store : BlobStore} {log : List Bytes}

/-- After any number of lives the next owner can recover. Whatever its bound, and whether or not the
entry of an append that failed reached the log, it goes on at the end of the log, and what it
recovers are the last entries. -/
theorem lives_recover (lives : Lives journal cohort chain ceiling store log) {generation : UInt64}
    (later : ceiling ≤ generation) (bound : RecoveryBound) :
    ∃ view writer recovered,
      List.Forall₂ (fun payload chunk => Holds store payload [chunk]) log view ∧
      recoverFromLog journal cohort generation log bound (.atMost generation) (some store) =
        .ok (writer, recovered) ∧
      Adjoining 0 view writer.nextOffset.toNat ∧
      List.Forall₂ Agrees recovered (view.drop (log.length - bound.val)) := by
  obtain ⟨⟨view, stop, tiled, -⟩, -⟩ := lives.kept
  obtain ⟨recovered, scanned, recovers⟩ := recover_tiled (tiled.raise later) bound
  refine ⟨view, _, recovered, tiled.holds, scanned, ?_, recovers.imp fun _ _ => And.left⟩
  rw [RecordOffset.toNat_ofNat tiled.fits]
  exact tiled.chained

omit [Digests] in
/-- A third owner that reads two entries. -/
theorem lives_recover_retried : ∃ (_ : Digests) (driver : Driver),
    driver.writer.log.length = 3 ∧ ∃ view writer recovered,
      List.Forall₂ (fun payload chunk => Holds driver.store payload [chunk])
        driver.writer.log view ∧
      recoverFromLog (smallConfig soloPolicy).journalId (smallConfig soloPolicy).cohortId 3
        driver.writer.log ⟨2, by decide⟩ (.atMost 3) (some driver.store) = .ok (writer, recovered) ∧
      Adjoining 0 view writer.nextOffset.toNat ∧
      List.Forall₂ Agrees recovered (view.drop (driver.writer.log.length - 2)) := by
  obtain ⟨driver, -, three, -, lives⟩ := retried_lives
  exact ⟨valueDigests, driver, three,
    @lives_recover valueDigests _ _ _ _ _ _ lives 3 (by decide) _⟩

/-- Nothing acknowledged is lost: a receipt that a driver released is true of the log that all later
owners leave, whatever became of them. -/
theorem lives_receipts (lives : Lives journal cohort chain ceiling store log) (life : Life)
    (member : life ∈ chain) (ticket : Nat) (receipt : Receipt)
    (released : .receipt ticket (.ok receipt) ∈ life.driver.sent) :
    ∃ submission, life.driver.offered[ticket]? = some submission ∧
      receipt.Sound store log journal submission :=
  lives.kept.2 life member ticket receipt released

omit [Digests] in
/-- The record that the first owner did acknowledge. -/
theorem lives_receipts_retried : ∃ (_ : Digests) (driver : Driver) (receipt : Receipt),
    Message.receipt 0 (.ok receipt) ∈ lostLife.sent ∧ driver.writer.log.length = 3 ∧
    ∃ submission, lostLife.offered[0]? = some submission ∧
      receipt.Sound driver.store driver.writer.log (smallConfig soloPolicy).journalId
        submission := by
  obtain ⟨driver, receipt, three, released, lives⟩ := retried_lives
  exact ⟨valueDigests, driver, receipt, released, three,
    @lives_receipts valueDigests _ _ _ _ _ _ lives _
      List.mem_cons_self 0 receipt released⟩

/-- Nothing is committed twice: if every recovery reads the whole log, no submission of a producer
is in the log a second time, whatever was retried, refused, left unanswered or cut off. -/
theorem lives_once (lives : Lives journal cohort chain ceiling store log)
    (wide : Wide chain) :
    ∃ view, List.Forall₂ (fun payload chunk => Holds store payload [chunk]) log view ∧
      (view.flatMap Chunk.identities).Nodup := by
  obtain ⟨⟨view, stop, tiled, distinct⟩, -⟩ := lives.kept
  exact ⟨view, tiled.holds, distinct wide⟩

omit [Digests] in
/-- The retried record is in the log once. -/
theorem lives_once_retried : ∃ (_ : Digests) (driver : Driver),
    lostLife.writer.log.length = 2 ∧ driver.writer.log.length = 3 ∧
    ∃ view, List.Forall₂ (fun payload chunk => Holds driver.store payload [chunk])
      driver.writer.log view ∧ (view.flatMap Chunk.identities).Nodup := by
  obtain ⟨driver, -, three, -, lives⟩ := retried_lives
  have two : lostLife.writer.log.length = 2 := by decide +kernel
  exact ⟨valueDigests, driver, two, three,
    @lives_once valueDigests _ _ _ _ _ _ lives
      (by simp [Wide, two]; decide)⟩

end Owners

end Scripture
