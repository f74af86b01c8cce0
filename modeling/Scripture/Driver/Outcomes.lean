import Scripture.Driver.Waiters
import Scripture.Driver.Density

set_option autoImplicit false

/- What becomes of every waiter of a driver without a sink. A seal over a pending chunk drops the
waiters of that chunk, and what the drain after the last append places is dropped with the actor; in
every other run each admitted submission waits in one place or has one result, and the result says
what happened. -/
namespace Scripture

open ByteFormat Relation

/-- The submissions that were in an append. -/
def appendedItems (history : List Act) : List PlacedSubmission :=
  history.flatMap fun
    | .append _ work _ => work.placed
    | _ => []

def identities (placed : List PlacedSubmission) : List Identity :=
  placed.map (·.submission.identity)

/-- Nothing is left to drain when the last handle is dropped. -/
def Act.ClosesDrained : Act → Prop
  | .close before => before.openChunk = none ∨ before.blocked = []
  | _ => True

/-- A result that speaks about an append that did not go well. -/
def Message.Verdict : Message → Prop
  | .receipt _ (.error .notWritten) => True
  | .receipt _ (.error (.uncertain _)) => True
  | _ => False

/-- `NotWritten` is said of submissions no append ever carried, `Uncertain` of those of an append
that failed. -/
structure Honest [Digests] (driver : Driver) : Prop extends
    Attended driver, DepthOne driver where
  reached : driver.poisoned = false → ∀ item ∈ appendedItems driver.history,
    driver.dedup.Reaches item.submission.key item.submission.sequence
  apart : ∀ identity ∈ identities driver.openPlaced,
    identity ∉ identities (appendedItems driver.history ++ driver.pendingPlaced)
  silent : driver.poisoned = false → ∀ ticket, .receipt ticket (.error .notWritten) ∉ driver.sent
  notWritten : ∀ ticket, .receipt ticket (.error .notWritten) ∈ driver.sent →
    ∃ submission, driver.offered[ticket]? = some submission ∧
      submission.identity ∉ identities (appendedItems driver.history)
  uncertain : ∀ ticket chunkId, .receipt ticket (.error (.uncertain chunkId)) ∈ driver.sent →
    ∃ before work error, .append before work (.error error) ∈ driver.history ∧
      work.chunk.chunkId = chunkId ∧ ticket ∈ waitersOf work.placed

theorem appendedItems_append (left right : List Act) :
    appendedItems (left ++ right) = appendedItems left ++ appendedItems right :=
  List.flatMap_append

theorem identities_append (left right : List PlacedSubmission) :
    identities (left ++ right) = identities left ++ identities right :=
  List.map_append

theorem identities_joinWaiter (identity : Identity) (ticket : Nat)
    (placed : List PlacedSubmission) :
    identities (joinWaiter identity ticket placed) = identities placed :=
  map_placed_core (fun item => item.submission.identity) (fun _ => rfl)
    (joinWaiter_core identity ticket placed)

theorem puts_appendedItems {puts : List Act} {before : Actor} {bytes : Bytes}
    (stored : ∀ act ∈ puts, ∃ key, act = .put before key bytes) : appendedItems puts = [] := by
  refine List.flatMap_eq_nil_iff.mpr fun act member => ?_
  obtain ⟨key, rfl⟩ := stored act member
  rfl

/-- What was pending is in an append once it is offered. -/
theorem appendedItems_offered {driver : Driver} {work : SealedWork} {puts : List Act}
    {before : Actor} {bytes : Bytes} (result : Except ChunkLogError ChunkAppendAck)
    (pending : driver.pendingAppend = some (.depthOne work))
    (stored : ∀ act ∈ puts, ∃ key, act = .put before key bytes) :
    appendedItems (driver.history ++ puts ++ [Act.append driver.toActor work result]) =
      appendedItems driver.history ++ driver.pendingPlaced := by
  rw [appendedItems_append, appendedItems_append, puts_appendedItems stored, List.append_nil,
    pendingPlaced_of_some pending]
  simp [appendedItems, PendingAppend.placed]

theorem results_verdict {placed : List PlacedSubmission}
    {result : PlacedSubmission → Except DriverError Receipt}
    (fine : ∀ item ticket, ¬ (Message.receipt ticket (result item)).Verdict) :
    ∀ message ∈ results placed result, ¬ message.Verdict := by
  intro message said
  obtain ⟨item, -, answered⟩ := List.mem_flatMap.mp said
  obtain ⟨ticket, -, rfl⟩ := List.mem_map.mp answered
  exact fine item ticket

theorem refusals_verdict (parked : List BlockedSubmission) (error : DriverError) :
    ∀ message ∈ parked.map fun item => Message.admission item.ticket (.error error),
      ¬ message.Verdict := by
  intro message said
  obtain ⟨item, -, rfl⟩ := List.mem_map.mp said
  exact id

section honest

variable [Digests] {before after : Driver}

/-- A step without an append and without a verdict. -/
theorem Honest.of_same (honest : Honest before) (attended : Attended after)
    (depthOne : DepthOne after) (poisoned : after.poisoned = before.poisoned)
    (dedup : after.dedup = before.dedup) {acts : List Act}
    (history : after.history = before.history ++ acts) (others : appendedItems acts = [])
    (apart : ∀ identity ∈ identities after.openPlaced,
      identity ∉ identities (appendedItems before.history ++ after.pendingPlaced))
    (offered : ∃ more, after.offered = before.offered ++ more) {messages : List Message}
    (sent : after.sent = before.sent ++ messages) (fine : ∀ message ∈ messages, ¬ message.Verdict) :
    Honest after := by
  have items : appendedItems after.history = appendedItems before.history := by
    rw [history, appendedItems_append, others, List.append_nil]
  have old {message : Message} (verdict : message.Verdict) (said : message ∈ after.sent) :
      message ∈ before.sent := by
    rw [sent] at said
    exact (List.mem_append.mp said).resolve_right fun new => fine message new verdict
  exact {
    attended, depthOne with
    reached := by
      rw [items, dedup, poisoned]
      exact honest.reached
    apart := by rw [items]; exact apart
    silent := by
      rw [poisoned]
      exact fun alive ticket said => honest.silent alive ticket (old trivial said)
    notWritten := by
      intro ticket said
      obtain ⟨submission, held, absent⟩ := honest.notWritten ticket (old trivial said)
      obtain ⟨more, grown⟩ := offered
      refine ⟨submission, ?_, by rw [items]; exact absent⟩
      rw [grown, List.getElem?_append_left (List.getElem?_eq_some_iff.mp held).1]
      exact held
    uncertain := by
      intro ticket chunkId said
      obtain ⟨actor, work, error, failed, rest⟩ :=
        honest.uncertain ticket chunkId (old trivial said)
      exact ⟨actor, work, error, by rw [history]; exact List.mem_append_left _ failed, rest⟩ }

/-- The identities of the open chunk are among those that were open, those of the pending chunk
among those that were pending. -/
theorem Honest.apart_of_less (honest : Honest before)
    (opened : identities after.openPlaced ⊆ identities before.openPlaced)
    (pending : identities after.pendingPlaced ⊆ identities before.pendingPlaced) :
    ∀ identity ∈ identities after.openPlaced,
      identity ∉ identities (appendedItems before.history ++ after.pendingPlaced) := by
  intro identity member listed
  rw [identities_append] at listed
  refine honest.apart identity (opened member) ?_
  rw [identities_append]
  exact List.mem_append.mpr ((List.mem_append.mp listed).imp id fun held => pending held)

/-- The submission in hand is not yet in the open chunk. -/
theorem Taken.honest {taken : Driver} {submission : Submission} {ticket : Nat}
    (inHand : Taken before submission ticket taken) (honest : Honest before) : Honest taken := by
  have attended := (inHand.attended honest.toAttended).1
  have nothing : before.history = before.history ++ [] := (List.append_nil _).symm
  have silent : before.sent = before.sent ++ [] := (List.append_nil _).symm
  cases inHand with
  | offered =>
      exact honest.of_same attended ⟨honest.mode, honest.works, honest.dead⟩ rfl rfl nothing rfl
        honest.apart ⟨[submission], rfl⟩ silent (by simp)
  | parked =>
      exact honest.of_same attended ⟨honest.mode, honest.works, honest.dead⟩ rfl rfl nothing rfl
        honest.apart ⟨[], by simp⟩ silent (by simp)

/-- A fresh submission is in no append and not pending. -/
theorem Honest.fresh (honest : Honest before) {submission : Submission} {encodedBytes : Nat}
    (sized : before.Sized submission encodedBytes) (fresh : before.Fresh submission) :
    submission.identity ∉ identities (appendedItems before.history ++ before.pendingPlaced) := by
  intro listed
  obtain ⟨item, member, same⟩ := List.mem_map.mp listed
  rcases List.mem_append.mp member with appended | pending
  · have reached := honest.reached sized.alive item appended
    have identity := Prod.mk.inj same
    have sequence := Prod.mk.inj identity.2
    have key : item.submission.key = submission.key := Prod.ext identity.1 sequence.1
    rw [key, sequence.2] at reached
    have inRange := inDedupRange_iff.mpr reached
    rw [fresh.uncommitted] at inRange
    cases inRange
  · have absent := List.find?_eq_none.mp fresh.notPending item pending
    exact absent (by simpa using same)

theorem Honest.commit (honest : Honest before) (attended : Attended after)
    (depthOne : DepthOne after) (alive : before.poisoned = false)
    (items : appendedItems after.history =
      appendedItems before.history ++ before.pendingPlaced)
    (acts : before.history ⊆ after.history)
    (reached : ∀ item ∈ appendedItems before.history ++ before.pendingPlaced,
      after.dedup.Reaches item.submission.key item.submission.sequence)
    (opened : after.openPlaced = before.openPlaced) (idle : after.pendingPlaced = [])
    {messages : List Message}
    (sent : after.sent = before.sent ++ messages) (fine : ∀ message ∈ messages, ¬ message.Verdict) :
    Honest after := by
  have old {message : Message} (verdict : message.Verdict) (said : message ∈ after.sent) :
      message ∈ before.sent := by
    rw [sent] at said
    exact (List.mem_append.mp said).resolve_right fun new => fine message new verdict
  have silent (ticket : Nat) : .receipt ticket (.error .notWritten) ∉ after.sent :=
    fun said => honest.silent alive ticket (old trivial said)
  exact {
    attended, depthOne with
    reached := by
      rw [items]
      exact fun _ => reached
    apart := by
      rw [items, opened, idle, List.append_nil]
      exact honest.apart
    silent := fun _ => silent
    notWritten := fun ticket said => absurd said (silent ticket)
    uncertain := by
      intro ticket chunkId said
      obtain ⟨actor, work, error, failed, rest⟩ :=
        honest.uncertain ticket chunkId (old trivial said)
      exact ⟨actor, work, error, acts failed, rest⟩ }

/-- A failed append gives its verdicts on its own submissions and on those of the open chunk. -/
theorem Honest.fail (honest : Honest before) (attended : Attended after)
    (depthOne : DepthOne after) (alive : before.poisoned = false) {work : SealedWork}
    {error : ChunkLogError}
    (items : appendedItems after.history =
      appendedItems before.history ++ before.pendingPlaced)
    (acts : before.history ⊆ after.history)
    (failed : .append before.toActor work (.error error) ∈ after.history)
    (poisoned : after.poisoned = true) (closed : after.openPlaced = [])
    (offered : after.offered = before.offered)
    (sent : after.sent = before.sent ++
      (results work.placed (fun _ => .error (.uncertain work.chunk.chunkId)) ++
        results before.openPlaced (fun _ => .error .notWritten)) ++
      before.blocked.map fun parked => .admission parked.ticket (.error .poisoned)) :
    Honest after := by
  have verdicts {ticket : Nat} {reply : Except DriverError Receipt}
      (said : Message.receipt ticket reply ∈ after.sent)
      (verdict : (Message.receipt ticket reply).Verdict) :
      Message.receipt ticket reply ∈ before.sent ∨
        (reply = .error (.uncertain work.chunk.chunkId) ∧ ticket ∈ waitersOf work.placed) ∨
        (reply = .error .notWritten ∧ ∃ item ∈ before.openPlaced, ticket ∈ item.waiters) := by
    rw [sent] at said
    have answered := (List.mem_append.mp said).resolve_right
      fun new => refusals_verdict _ _ _ new verdict
    rcases List.mem_append.mp answered with earlier | new
    · exact Or.inl earlier
    · rcases List.mem_append.mp new with own | opened
      · obtain ⟨item, member, waits, same⟩ := mem_results.mp own
        exact Or.inr (Or.inl ⟨same.symm, List.mem_flatMap.mpr ⟨item, member, waits⟩⟩)
      · obtain ⟨item, member, waits, same⟩ := mem_results.mp opened
        exact Or.inr (Or.inr ⟨same.symm, item, member, waits⟩)
  exact {
    attended, depthOne with
    reached := by
      rw [poisoned]
      rintro ⟨⟩
    apart := by
      rw [closed]
      rintro identity ⟨⟩
    silent := by
      rw [poisoned]
      rintro ⟨⟩
    notWritten := by
      intro ticket said
      rcases verdicts said trivial with earlier | ⟨wrong, -⟩ | ⟨-, item, member, waits⟩
      · exact absurd earlier (honest.silent alive ticket)
      · cases wrong
      · obtain ⟨submission, held, identity, -⟩ :=
          honest.waiting item (List.mem_append_left _ member) ticket waits
        refine ⟨submission, by rw [offered]; exact held, ?_⟩
        rw [items, identity]
        exact honest.apart _ (List.mem_map_of_mem member)
    uncertain := by
      intro ticket chunkId said
      rcases verdicts said trivial with earlier | ⟨same, waits⟩ | ⟨wrong, -⟩
      · obtain ⟨actor, other, cause, listed, rest⟩ := honest.uncertain ticket chunkId earlier
        exact ⟨actor, other, cause, acts listed, rest⟩
      · cases same
        exact ⟨before.toActor, work, error, failed, rfl, waits⟩
      · cases wrong }

theorem honest_move (move : Move before after) (honest : Honest before) : Honest after := by
  have attended := attended_move move honest.toAttended
  have depthOne := depthOne_move move honest.toDepthOne
  have nothing : before.history = before.history ++ [] := (List.append_nil _).symm
  have silent (driver : Driver) : driver.sent = driver.sent ++ [] := (List.append_nil _).symm
  have same {α : Type} (list : List α) : ∃ more, list = list ++ more := ⟨[], by simp⟩
  have quiet : ∀ message ∈ ([] : List Message), ¬ message.Verdict := by simp
  have single {message : Message} (fine : ¬ message.Verdict) :
      ∀ other ∈ [message], ¬ other.Verdict := by simpa using fine
  cases move with
  | say message plain =>
      refine honest.of_same attended depthOne rfl rfl nothing rfl honest.apart (same _) rfl
        (single ?_)
      cases message <;> first | exact absurd plain id | exact id
  | @refuse taken submission ticket inHand error =>
      have held := inHand.honest honest
      exact held.of_same attended depthOne rfl rfl (List.append_nil _).symm rfl held.apart (same _)
        rfl (single id)
  | @replay taken submission ticket inHand receipt replays =>
      have held := inHand.honest honest
      refine held.of_same attended depthOne rfl rfl (List.append_nil _).symm rfl held.apart (same _)
        (List.append_assoc _ _ _) ?_
      intro message said
      rcases List.mem_append.mp said with first | second
      · rw [List.mem_singleton.mp first]
        exact id
      · rw [List.mem_singleton.mp second]
        exact id
  | @joinOpen taken submission ticket inHand joins =>
      have held := inHand.honest honest
      refine held.of_same attended depthOne rfl rfl (List.append_nil _).symm rfl ?_ (same _) rfl
        (single id)
      refine held.apart_of_less ?_ (List.Subset.refl _)
      rw [joinOpen_openPlaced, identities_joinWaiter]
      exact List.Subset.refl _
  | @joinPending taken submission ticket inHand absent joins =>
      have held := inHand.honest honest
      refine held.of_same attended depthOne rfl rfl (List.append_nil _).symm rfl ?_ (same _) rfl
        (single id)
      refine held.apart_of_less (List.Subset.refl _) ?_
      rw [joinPending_pendingPlaced, identities_joinWaiter]
      exact List.Subset.refl _
  | park inHand =>
      have held := inHand.honest honest
      exact held.of_same attended depthOne rfl rfl (List.append_nil _).symm rfl held.apart (same _)
        (silent _) quiet
  | @place taken submission ticket inHand encodedBytes sized fresh room =>
      have held := inHand.honest honest
      have newcomer : submission.identity ∉
          identities (appendedItems taken.history ++ taken.pendingPlaced) := by
        have absent := honest.fresh sized fresh
        cases inHand <;> exact absent
      refine held.of_same attended depthOne rfl rfl rfl rfl ?_ (same _) rfl (single id)
      rw [place_openPlaced, identities_append]
      intro identity member
      rcases List.mem_append.mp member with old | new
      · exact held.apart identity old
      · rw [List.mem_singleton.mp new]
        exact newcomer
  | sealNothing =>
      refine honest.of_same attended depthOne rfl rfl nothing rfl ?_ (same _) (silent _) quiet
      rintro identity ⟨⟩
  | sealRefused chunk first rest error =>
      refine honest.of_same attended depthOne rfl rfl rfl rfl ?_ (same _) rfl
        (results_verdict fun _ _ => id)
      rintro identity ⟨⟩
  | sealChunk chunk first rest result opened =>
      refine honest.of_same attended depthOne rfl rfl rfl rfl ?_ (same _) (silent _) quiet
      rintro identity ⟨⟩
  | sealEnvelope chunk first rest bytes opened filled sink =>
      rw [honest.mode] at sink
      cases sink
  | commit work ack pending appends =>
      have alive := honest.alive_of_pending pending
      have items := appendedItems_offered (.ok ack) pending appends.stored
      obtain ⟨kept, entered⟩ := commitWindow_reaches before.generation work.chunk.chunkId ack.slot
        work.placed before.dedup
      refine honest.commit attended depthOne alive items ?_ ?_ rfl rfl rfl
        (results_verdict fun _ _ => id)
      · exact List.Subset.trans (List.subset_append_left _ _) (List.subset_append_left _ _)
      · intro item member
        rcases List.mem_append.mp member with earlier | new
        · exact kept _ _ (honest.reached alive item earlier)
        · rw [pendingPlaced_of_some pending] at new
          exact entered item new
  | fail work error pending appends =>
      have alive := honest.alive_of_pending pending
      have items := appendedItems_offered (.error error) pending appends.stored
      exact honest.fail attended depthOne alive items
        (List.Subset.trans (List.subset_append_left _ _) (List.subset_append_left _ _))
        (List.mem_append_right _ (List.mem_singleton_self _)) rfl rfl rfl rfl
  | enqueue envelope placed encodedBytes pending =>
      obtain ⟨work, wrong⟩ := honest.works _ pending
      cases wrong
  | enqueueFailed envelope placed encodedBytes message pending =>
      obtain ⟨work, wrong⟩ := honest.works _ pending
      cases wrong
  | close =>
      exact honest.of_same attended depthOne rfl rfl rfl rfl honest.apart (same _) (silent _) quiet
  | refuseParked error =>
      exact honest.of_same attended depthOne rfl rfl nothing rfl honest.apart (same _) rfl
        (refusals_verdict _ _)
  | _ =>
      exact honest.of_same attended depthOne rfl rfl nothing rfl honest.apart (same _) (silent _)
        quiet

theorem sealOpen_closes {driver : Driver} (parked : driver.blocked = []) :
    (driver.sealOpen Driver.drainBlocked).openChunk = none ∧
      (driver.sealOpen Driver.drainBlocked).blocked = [] := by
  have refused (chunk : OpenChunk) (error : ChunkError) :
      let failed := driver.takeOpen.sealFailed Driver.drainBlocked driver.toActor chunk
        (chunkIdOf driver.nextChunk) error
      failed.openChunk = none ∧ failed.blocked = [] := by
    dsimp only [Driver.sealFailed]
    rw [Driver.drainBlocked_idle]
    · exact ⟨rfl, parked⟩
    · exact parked
  cases opened : driver.openChunk with
  | none =>
      rw [Driver.sealOpen, opened]
      exact ⟨opened, parked⟩
  | some chunk =>
      cases filled : chunk.placed with
      | nil =>
          rw [Driver.sealOpen, opened]
          dsimp only
          rw [filled]
          exact ⟨rfl, parked⟩
      | cons first rest =>
          rw [sealOpen_filled _ opened filled]
          split
          · split
            · exact refused chunk _
            · exact ⟨rfl, parked⟩
          · split
            · exact refused chunk _
            · exact ⟨rfl, parked⟩

theorem appendDepthOne_ends {driver : Driver} (held : DepthOne driver)
    (closed : driver.openChunk = none) (parked : driver.blocked = []) (pass : Pass) :
    (driver.appendDepthOne pass).openChunk = none ∧
      (driver.appendDepthOne pass).pendingAppend = none ∧
      (driver.appendDepthOne pass).blocked = [] := by
  cases waits : driver.pendingAppend with
  | none =>
      rw [Driver.appendDepthOne, waits]
      exact ⟨closed, waits, parked⟩
  | some pending =>
      obtain ⟨work, rfl⟩ := held.works _ waits
      rcases appendDepthOne_cases waits pass with
        ⟨_, _, _, _, _, _, _, _, same⟩ | ⟨_, _, _, _, _, _, _, _, _, _, same⟩
      · rw [same, Driver.drainBlocked_idle]
        · exact ⟨closed, rfl, parked⟩
        · exact parked
      · rw [same]
        exact ⟨rfl, rfl, rfl⟩

theorem close_ends {driver : Driver} (held : DepthOne driver) (idle : driver.pendingAppend = none)
    (drained : driver.openChunk = none ∨ driver.blocked = []) (pass : Pass) :
    (driver.close pass).openChunk = none ∧ (driver.close pass).pendingAppend = none := by
  cases opened : driver.openChunk with
  | none =>
      have same : (driver.close pass).openChunk = driver.openChunk ∧
          (driver.close pass).pendingAppend = driver.pendingAppend := by
        unfold Driver.close Driver.appendDepthOne
        simp [Driver.record, Driver.clearAgeSleep, opened, idle]
      rw [same.1, same.2]
      exact ⟨opened, idle⟩
  | some chunk =>
      have parked := drained.resolve_left (by simp [opened])
      have noted : DepthOne (driver.record (.close driver.toActor)).clearAgeSleep :=
        ⟨held.mode, held.works, held.dead⟩
      obtain ⟨closed, empty⟩ := @sealOpen_closes _
        (driver.record (.close driver.toActor)).clearAgeSleep parked
      have sealed : DepthOne ((driver.record (.close driver.toActor)).clearAgeSleep.sealOpen
          Driver.drainBlocked) := (sealOpen_moves _ drainBlocked_moves _).depthOne noted
      obtain ⟨ends, idle, -⟩ := appendDepthOne_ends sealed closed empty pass
      have whole : driver.close pass = { ((driver.record
          (.close driver.toActor)).clearAgeSleep.sealOpen Driver.drainBlocked).appendDepthOne
            pass with
          blocked := []
          sent := (driver.close pass).sent
          exited := true } := by
        unfold Driver.close
        dsimp only
        rw [if_pos (by simp [Driver.record, Driver.clearAgeSleep, opened])]
      rw [whole]
      exact ⟨ends, idle⟩

theorem close_noted (driver : Driver) (pass : Pass) :
    .close driver.toActor ∈ (driver.close pass).history := by
  have noted : Act.close driver.toActor ∈
      (driver.record (.close driver.toActor)).clearAgeSleep.history :=
    List.mem_append_right _ (List.mem_singleton_self _)
  have flushed : Moves (driver.record (.close driver.toActor)).clearAgeSleep
      ((if (driver.record (.close driver.toActor)).clearAgeSleep.openChunk.isSome then
        (driver.record (.close driver.toActor)).clearAgeSleep.sealOpen Driver.drainBlocked
      else (driver.record (.close driver.toActor)).clearAgeSleep).appendDepthOne pass) := by
    refine ReflTransGen.trans ?_ (appendDepthOne_moves _ pass)
    split
    · exact sealOpen_moves _ drainBlocked_moves _
    · exact ReflTransGen.refl
  exact flushed.grown.history.subset noted

theorem iterate_ends {driver : Driver} (held : DepthOne driver) (running : driver.exited = false)
    {pass : Pass} (plain : pass.Plain)
    (drained : ∀ act ∈ (driver.iterate pass).history, act.ClosesDrained)
    (ended : (driver.iterate pass).exited = true) :
    (driver.iterate pass).openChunk = none ∧ (driver.iterate pass).pendingAppend = none := by
  rcases iterate_exits held running plain ended with
    ⟨poisoned, same⟩ | ⟨now, ageSleep, deadline, idle, same⟩
  · rw [same]
    exact held.dead poisoned
  · rw [same] at drained ⊢
    have awake : DepthOne (driver.awake now ageSleep deadline) := ⟨held.mode, held.works, held.dead⟩
    exact close_ends awake (held.idle_none idle) (drained _ (close_noted _ pass)) pass

/-- What holds of the waiters of a driver, also when it has ended. -/
structure Resolved (driver : Driver) : Prop where
  conserved : ∀ ticket, driver.admissions ticket =
    driver.resolutions ticket + driver.openWaits ticket + driver.pendingWaits ticket
  once : ∀ ticket, driver.admissions ticket ≤ 1
  ended : driver.exited = true → ∀ ticket, driver.resolutions ticket = driver.admissions ticket
  notWritten : ∀ ticket, .receipt ticket (.error .notWritten) ∈ driver.sent →
    ∃ submission, driver.offered[ticket]? = some submission ∧
      ∀ before work result, .append before work result ∈ driver.history →
        ∀ item ∈ work.placed, item.submission.identity ≠ submission.identity
  uncertain : ∀ ticket chunkId, .receipt ticket (.error (.uncertain chunkId)) ∈ driver.sent →
    ∃ before work error, .append before work (.error error) ∈ driver.history ∧
      work.chunk.chunkId = chunkId ∧ ∃ item ∈ work.placed, ticket ∈ item.waiters

theorem run_ends {driver : Driver} (initial : DepthOne driver) (running : driver.exited = false)
    (passes : List Pass) (plain : ∀ pass ∈ passes, pass.Plain)
    (drained : ∀ act ∈ (driver.run passes).history, act.ClosesDrained)
    (ended : (driver.run passes).exited = true) :
    (driver.run passes).openChunk = none ∧ (driver.run passes).pendingAppend = none := by
  induction passes using List.reverseRecOn with
  | nil =>
      rw [show (driver.run []).exited = driver.exited from rfl, running] at ended
      cases ended
  | append_singleton passes pass ih =>
      have earlier (other : Pass) (member : other ∈ passes) : other.Plain :=
        plain other (List.mem_append_left _ member)
      have last : pass.Plain := plain pass (List.mem_append_right _ (List.mem_singleton_self _))
      have held : DepthOne (driver.run passes) :=
        run_invariant (fun _ _ => depthOne_move) initial passes earlier
      have grown := (iterate_moves (driver.run passes) pass last).grown.history
      rw [Driver.run_append] at drained ended ⊢
      cases atEnd : (driver.run passes).exited with
      | true =>
          have same : (driver.run passes).run [pass] = driver.run passes := by
            show (driver.run passes).iterate pass = _
            rw [Driver.iterate, if_pos atEnd]
          rw [same] at drained ⊢
          exact ih earlier drained atEnd
      | false => exact iterate_ends held atEnd last drained ended

/-- In a run in which nothing is sealed over a pending chunk and nothing is left to drain at the
end, every admitted submission is in one of the open chunk, the pending chunk and the resolved ones,
each waiter gets one result, and the results say what happened. -/
theorem run_waiters_resolved {config : DriverConfig} {writer : ChunkLogWriter}
    {recovered : List RecoveredChunk} {store : BlobStore} {driver : Driver}
    (mounted : Driver.new config writer recovered store = .ok driver)
    (depthOne : config.blobSink = false) (passes : List Pass)
    (plain : ∀ pass ∈ passes, pass.Plain)
    (free : ∀ act ∈ (driver.run passes).history, act.SealsFree)
    (drained : ∀ act ∈ (driver.run passes).history, act.ClosesDrained) :
    Resolved (driver.run passes) := by
  have tickets := new_tickets mounted
  have attended := new_attended mounted
  have start : Honest driver ∧ driver.exited = false := by
    obtain ⟨dedup, admittedSeq, knownProducers, rfl⟩ := Driver.new_blank mounted
    exact ⟨{
      attended with
      mode := depthOne
      works := by rintro pending ⟨⟩
      dead := by rintro ⟨⟩
      reached := by rintro _ item ⟨⟩
      apart := by rintro identity ⟨⟩
      silent := by rintro _ ticket ⟨⟩
      notWritten := by rintro ticket ⟨⟩
      uncertain := by rintro ticket chunkId ⟨⟩ }, rfl⟩
  have replied : Replied (driver.run passes) :=
    run_invariant (fun _ _ => replied_move) tickets.1 passes plain
  have conserved : Conserved (driver.run passes) :=
    run_invariant_of_acts (fun _ _ => conserved_move) tickets.2 passes plain free
  have honest : Honest (driver.run passes) :=
    run_invariant (fun _ _ => honest_move) start.1 passes plain
  refine ⟨conserved, replied.admitted_once, ?_, ?_, ?_⟩
  · intro ended ticket
    obtain ⟨closed, idle⟩ := run_ends start.1.toDepthOne start.2 passes plain drained ended
    have law := conserved ticket
    rw [Driver.openWaits, Driver.pendingWaits, Actor.openPlaced, Actor.pendingPlaced, closed,
      idle] at law
    exact law.symm
  · intro ticket said
    obtain ⟨submission, held, absent⟩ := honest.notWritten ticket said
    refine ⟨submission, held, fun before work result offered item member same => absent ?_⟩
    rw [← same]
    exact List.mem_map_of_mem (List.mem_flatMap.mpr ⟨_, offered, member⟩)
  · intro ticket chunkId said
    obtain ⟨before, work, error, failed, named, waits⟩ := honest.uncertain ticket chunkId said
    exact ⟨before, work, error, failed, named, List.mem_flatMap.mp waits⟩

end honest

/-- The pass in which the last handle is dropped. -/
def closedPass : Pass := { commandPass (.flush 0) with arrival := .closed }

/-- The passes that commit one record and end the driver. -/
def soloLife : List Pass := soloCommands.map commandPass ++ [closedPass]

theorem soloLife_run [Digests] : ∃ result count,
    (freshDriver soloPolicy).run soloLife =
      (soloCommitted result count).refreshAgeSleep.close closedPass := by
  obtain ⟨result, count, -, ran⟩ := solo_run
  refine ⟨result, count, ?_⟩
  rw [soloLife, Driver.run_append, ran]
  rfl

/-- The one record of a small driver is admitted and resolved before the driver ends. -/
theorem run_waiters_resolved_solo : ∃ _ : Digests,
    Resolved ((freshDriver soloPolicy).run soloLife) ∧
      ((freshDriver soloPolicy).run soloLife).exited = true ∧
      ((freshDriver soloPolicy).run soloLife).admissions 0 = 1 := by
  let digests := sampleDigests
  have mounted : Driver.new (smallConfig soloPolicy) emptyWriter [] (fun _ => none) =
      .ok (freshDriver soloPolicy) := rfl
  obtain ⟨result, count, ran⟩ := soloLife_run
  have plain : ∀ pass ∈ soloLife, pass.Plain := by
    intro pass member
    rcases List.mem_append.mp member with command | last
    · exact commandPass_plain (by simp [soloCommands, Command.Plain]) pass command
    · rw [List.mem_singleton.mp last]
      rintro command ⟨⟩
  have acts : ∀ act ∈ ((freshDriver soloPolicy).run soloLife).history,
      act.SealsFree ∧ act.ClosesDrained := by
    rw [ran]
    intro act member
    rcases List.mem_append.mp member with earlier | last
    · rcases List.mem_append.mp earlier with old | new
      · rcases List.mem_append.mp old with first | second
        · rw [List.mem_singleton.mp first]
          exact ⟨trivial, trivial⟩
        · rw [List.mem_singleton.mp second]
          exact ⟨rfl, trivial⟩
      · rw [List.mem_singleton.mp new]
        exact ⟨trivial, trivial⟩
    · rw [List.mem_singleton.mp last]
      exact ⟨trivial, Or.inl rfl⟩
  have resolved := run_waiters_resolved mounted rfl soloLife plain
    (fun act member => (acts act member).1) fun act member => (acts act member).2
  refine ⟨digests, resolved, ?_, ?_⟩
  · rw [ran]
    rfl
  · rw [ran]
    rfl

/-- The waiter of the chunk that is sealed over is admitted, and then neither waits nor has a
result. -/
theorem waiters_lost :
    Driver.new (smallConfig tightPolicy) emptyWriter [] (fun _ => none) =
        .ok (freshDriver tightPolicy) ∧
      ∃ _ : Digests,
        let final := (freshDriver tightPolicy).run (overwriteCommands.map commandPass)
        final.admissions 1 = 1 ∧ final.resolutions 1 = 0 ∧ final.openWaits 1 = 0 ∧
          final.pendingWaits 1 = 0 := by
  refine ⟨rfl, sampleDigests, ?_⟩
  obtain ⟨lead, first, second, count, -, -, ran⟩ := @overwrite_run sampleDigests
  dsimp only
  rw [ran]
  exact ⟨rfl, rfl, rfl, rfl⟩

end Scripture
