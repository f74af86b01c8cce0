import Scripture.Driver.Outcomes
import Scripture.Driver.SinkReceipts

set_option autoImplicit false

/- The flush barrier. Without a sink a flush seals and appends what is open before it answers, so
that whatever was admitted before has its result. With a sink the flush only hands the envelope over
and answers at once. -/
namespace Scripture

open ByteFormat Relation

/-- A report names the chunk of its own acknowledgement, or finds nothing pending. -/
def Act.ReportsNamed : Act → Prop
  | .report before chunkId ack => before.pendingAppend = none ∨
      (ack.chunkId = chunkId ∧ ∃ envelope placed encodedBytes enqueued,
        before.pendingAppend = some (.blobSink envelope placed encodedBytes enqueued))
  | _ => True

theorem tryEnqueueBlobSink_sent (driver : Driver) (reply : SinkReply) :
    ∃ messages, (driver.tryEnqueueBlobSink reply).sent = driver.sent ++ messages ∧
      ∀ message ∈ messages, ¬ message.Plain := by
  have none : ∃ messages, driver.sent = driver.sent ++ messages ∧
      ∀ message ∈ messages, ¬ message.Plain := ⟨[], by simp, by simp⟩
  unfold Driver.tryEnqueueBlobSink
  split
  · dsimp only
    split
    · exact none
    · cases reply with
      | ok => exact none
      | bufferFull => exact none
      | failed message =>
          refine ⟨_, rfl, fun message said => ?_⟩
          obtain ⟨ticket, reply, rfl⟩ := results_receipts said
          exact id
  · exact none

section flush

variable [Digests] {driver : Driver}

/-- The append of what is pending, followed by the drain, when it goes well. -/
theorem appendDepthOne_settles {pass : Pass} (held : DepthOne driver)
    (closed : driver.openChunk = none) (alive : (driver.appendDepthOne pass).poisoned = false) :
    ∃ middle, Moves driver middle ∧ middle.openChunk = none ∧ middle.pendingAppend = none ∧
      Moves middle (driver.appendDepthOne pass) := by
  cases waits : driver.pendingAppend with
  | none =>
      have same : driver.appendDepthOne pass = driver := by rw [Driver.appendDepthOne, waits]
      rw [same]
      exact ⟨driver, ReflTransGen.refl, closed, waits, ReflTransGen.refl⟩
  | some pending =>
      obtain ⟨work, rfl⟩ := held.works _ waits
      rcases appendDepthOne_cases waits pass with
        ⟨ack, _, _, _, _, _, appends, published, same⟩ | ⟨_, _, _, _, _, _, _, _, _, _, same⟩
      · rw [same]
        exact ⟨_, .single (.commit driver work ack waits appends published), closed, rfl,
          drainBlocked_moves _⟩
      · rw [same] at alive
        cases alive

/-- Sealing leaves nothing open, unless the codec refused the chunk and parked work took its
place. -/
theorem sealOpen_settles (held : DepthOne driver) (idle : driver.pendingAppend = none) :
    (driver.sealOpen Driver.drainBlocked).openChunk = none ∨
      ∃ middle, Moves driver middle ∧ middle.openChunk = none ∧ middle.pendingAppend = none ∧
        Moves middle (driver.sealOpen Driver.drainBlocked) := by
  cases opened : driver.openChunk with
  | none =>
      rw [Driver.sealOpen, opened]
      exact Or.inl opened
  | some chunk =>
      cases filled : chunk.placed with
      | nil =>
          rw [Driver.sealOpen, opened]
          dsimp only
          rw [filled]
          exact Or.inl rfl
      | cons first rest =>
          rw [sealOpen_filled _ opened filled, if_neg (by simp [held.mode])]
          cases codec : sealSingleFrameChunk driver.sealHeader [driver.openFrame chunk first] with
          | ok result => exact Or.inl rfl
          | error error =>
              have refused : driver.sealError (driver.openFrame chunk first) = some error := by
                simp [Driver.sealError, held.mode, codec]
              exact Or.inr ⟨_, .single (.sealRefused driver chunk first rest error opened filled
                refused), rfl, idle, drainBlocked_moves _⟩

/-- Somewhere in a flush that goes well nothing is open and nothing pending. -/
theorem flushed_settles {pass : Pass} (held : DepthOne driver) (idle : driver.pendingAppend = none)
    (alive : (driver.flushed pass).poisoned = false) :
    ∃ middle, Moves driver middle ∧ middle.openChunk = none ∧ middle.pendingAppend = none ∧
      Moves middle (driver.flushed pass) := by
  unfold Driver.flushed at alive ⊢
  cases opened : driver.openChunk with
  | none =>
      rw [if_neg (by simp [opened])] at alive ⊢
      exact appendDepthOne_settles held opened alive
  | some chunk =>
      rw [if_pos (by simp [opened])] at alive ⊢
      have sleeping : Moves driver driver.clearAgeSleep := clearAgeSleep_moves driver
      have sealing := sealOpen_moves _ drainBlocked_moves driver.clearAgeSleep
      rcases sealOpen_settles (sleeping.depthOne held) idle with
        closed | ⟨middle, reached, closed, empty, rest⟩
      · obtain ⟨middle, reached, gone, empty, rest⟩ := appendDepthOne_settles
          (sealing.depthOne (sleeping.depthOne held)) closed alive
        exact ⟨middle, (sleeping.trans sealing).trans reached, gone, empty, rest⟩
      · exact ⟨middle, sleeping.trans reached, closed, empty,
          rest.trans (appendDepthOne_moves _ pass)⟩

/-- A flush that goes well leaves nobody waiting who was answered before. -/
theorem flushed_waits {pass : Pass} (held : DepthOne driver) (idle : driver.pendingAppend = none)
    (alive : (driver.flushed pass).poisoned = false) (replied : Replied driver) {ticket : Nat}
    (answered : driver.replies ticket = 1) :
    (driver.flushed pass).openWaits ticket = 0 ∧ (driver.flushed pass).pendingWaits ticket = 0 := by
  obtain ⟨middle, reached, closed, empty, rest⟩ := flushed_settles held idle alive
  have nowhere : middle.openWaits ticket = 0 ∧ middle.pendingWaits ticket = 0 := by
    rw [Driver.openWaits, Driver.pendingWaits, Actor.openPlaced, Actor.pendingPlaced, closed, empty]
    exact ⟨rfl, rfl⟩
  exact rest.settled (reached.replied replied) (reached.answered replied answered) nowhere.1
    nowhere.2

/-- Only the handling of a flush answers it with `ok`, and only when the driver is not poisoned. -/
theorem flush_answered {pass : Pass} {responder : Nat}
    (arrived : pass.arrival = .command (.flush responder)) {answers : List Message}
    (sent : (driver.iterate pass).sent = driver.sent ++ answers)
    (answered : .flush responder (.ok ()) ∈ answers) :
    ∃ now ageSleep deadline, driver.Idle ∧ driver.poisoned = false ∧
      ((driver.awake now ageSleep deadline).flushed pass).poisoned = false ∧
      driver.iterate pass = ((driver.awake now ageSleep deadline).flushed pass).send
        (.flush responder (.ok ())) := by
  -- Whatever only answers submissions does not answer the flush.
  have silent {after : Driver} {messages : List Message}
      (said : after.sent = driver.sent ++ answers) (same : after.sent = driver.sent ++ messages)
      (none : .flush responder (.ok ()) ∉ messages) : False := by
    rw [said] at same
    rw [List.append_cancel_left same] at answered
    exact none answered
  have busy {after : Driver} (said : after.sent = driver.sent ++ answers)
      (answering : ∃ messages, after.sent = driver.sent ++ messages ∧
        ∀ message ∈ messages, ¬ message.Plain) : False := by
    obtain ⟨messages, same, others⟩ := answering
    exact silent said same fun member => others _ member trivial
  have refusals : Message.flush responder (.ok ()) ∉ driver.blocked.map fun parked =>
      .admission parked.ticket (.error .poisoned) := by simp
  have turn := driver.iterate_turn pass
  generalize driver.iterate pass = after at turn sent
  cases turn with
  | atEnd => exact (silent sent (List.append_nil _).symm (by simp)).elim
  | refuse _ _ command other =>
      cases arrived.symm.trans other
      exact (silent sent (List.append_assoc _ _ _) (by simp)).elim
  | linger => exact (silent sent rfl refusals).elim
  | leave => exact (silent sent rfl refusals).elim
  | append =>
      refine (busy sent (Answering.trans ?_ (appendDepthOne_answering _ pass)).sent).elim
      exact .quiet rfl rfl rfl
  | enqueue => exact (busy sent
        (tryEnqueueBlobSink_sent (driver.atTime pass.started) pass.sink)).elim
  | rest => exact (silent sent (List.append_nil _).symm (by simp)).elim
  | sealDue =>
      refine (busy sent
        (Answering.trans ?_ (sealOpen_answering drainBlocked_answering _)).sent).elim
      exact .quiet rfl rfl rfl
  | close _ _ _ _ _ _ other => cases arrived.symm.trans other
  | command _ alive idle now ageSleep deadline command other =>
      cases arrived.symm.trans other
      have healthy : (driver.awake now ageSleep deadline).poisoned = false := alive
      rw [handleFlush_eq healthy] at sent ⊢
      cases poisoned : ((driver.awake now ageSleep deadline).flushed pass).poisoned with
      | false => exact ⟨now, ageSleep, deadline, idle, alive, poisoned, rfl⟩
      | true =>
          rw [poisoned, if_pos rfl] at sent
          obtain ⟨messages, same, others⟩ :=
            (flushed_answering (driver.awake now ageSleep deadline) pass).sent
          have whole : (((driver.awake now ageSleep deadline).flushed pass).send
              (.flush responder (.error .poisoned))).sent =
                driver.sent ++ (messages ++ [.flush responder (.error .poisoned)]) := by
            rw [← List.append_assoc]
            exact congrArg (· ++ [Message.flush responder (.error .poisoned)]) same
          refine (silent sent whole fun member => ?_).elim
          rcases List.mem_append.mp member with answer | last
          · exact others _ answer trivial
          · cases List.mem_singleton.mp last

/-- A report that names its chunk resolves what it takes. -/
theorem conserved_sinkMove {before after : Driver} (move : SinkMove before after)
    (named : ∀ act ∈ after.history, act.ReportsNamed) (conserved : Conserved before) :
    Conserved after := by
  have silent : before.sent = before.sent ++ [] := (List.append_nil _).symm
  refine conserved.move fun ticket => ?_
  cases move with
  | appendRefs => exact .of_same silent rfl rfl rfl rfl
  | misreport chunkId ack stray =>
      rcases named (.report before.toActor chunkId ack)
          (List.mem_append_right _ (List.mem_singleton_self _)) with
        idle | ⟨same, envelope, placed, encodedBytes, enqueued, waits⟩
      · refine .of_same silent rfl rfl rfl ?_
        rw [Actor.pendingPlaced, Actor.pendingPlaced, idle]
        rfl
      · exact absurd waits (stray same envelope placed encodedBytes enqueued)
  | report _ _ _ _ _ _ pending => exact .release pending rfl rfl rfl

/-- When a flush is answered with `ok`, every submission admitted before has its result: without a
sink, or when the flush finds nothing open and nothing pending. -/
theorem run_flush_barrier {config : DriverConfig} {writer : ChunkLogWriter}
    {recovered : List RecoveredChunk} {store : BlobStore}
    (mounted : Driver.new config writer recovered store = .ok driver) (passes : List Pass)
    {pass : Pass} {responder : Nat} (arrived : pass.arrival = .command (.flush responder))
    (mode : (config.blobSink = false ∧ ∀ other ∈ passes, other.Plain) ∨
      ((driver.run passes).openChunk = none ∧ (driver.run passes).pendingAppend = none))
    (free : ∀ act ∈ ((driver.run passes).iterate pass).history, act.SealsFree)
    (named : ∀ act ∈ ((driver.run passes).iterate pass).history, act.ReportsNamed)
    {answers : List Message}
    (sent : ((driver.run passes).iterate pass).sent = (driver.run passes).sent ++ answers)
    (answered : .flush responder (.ok ()) ∈ answers) (ticket : Nat)
    (admitted : (driver.run passes).admissions ticket ≠ 0) :
    ((driver.run passes).iterate pass).resolutions ticket = 1 ∧
      ((driver.run passes).iterate pass).openWaits ticket = 0 ∧
      ((driver.run passes).iterate pass).pendingWaits ticket = 0 := by
  have tickets := new_tickets mounted
  have last (state : Driver) : state.iterate pass = state.run [pass] := rfl
  have repliedStep (before after : Driver) (step : Step before after) (replied : Replied before) :
      Replied after := by
    cases step with
    | own move => exact replied_move move replied
    | sink move => exact replied_sinkMove move replied
  have replied : Replied (driver.run passes) :=
    run_step_invariant repliedStep tickets.1 passes
  have repliedAfter : Replied ((driver.run passes).iterate pass) :=
    run_step_invariant repliedStep replied [pass]
  have conserved : Conserved ((driver.run passes).iterate pass) := by
    rw [last, ← Driver.run_append] at free named ⊢
    refine run_step_invariant_of_acts (fun before after step acts conserved => ?_) tickets.2 _
      (fun act member => And.intro (free act member) (named act member))
    cases step with
    | own move => exact conserved_move move (fun act member => (acts act member).1) conserved
    | sink move => exact conserved_sinkMove move (fun act member => (acts act member).2) conserved
  have before : (driver.run passes).replies ticket = 1 := by
    have few := admissions_le (driver.run passes) ticket
    have law := replied ticket
    split at law <;> omega
  have waits : ((driver.run passes).iterate pass).openWaits ticket = 0 ∧
      ((driver.run passes).iterate pass).pendingWaits ticket = 0 := by
    obtain ⟨now, ageSleep, deadline, idle, alive, healthy, same⟩ :=
      flush_answered arrived sent answered
    rw [same]
    rcases mode with ⟨depthOne, plain⟩ | ⟨closed, empty⟩
    · have held : DepthOne (driver.run passes) := by
        refine run_invariant (fun _ _ => depthOne_move) ?_ passes plain
        obtain ⟨dedup, admittedSeq, knownProducers, rfl⟩ := Driver.new_blank mounted
        exact ⟨depthOne, by rintro pending ⟨⟩, by rintro ⟨⟩⟩
      have awake : DepthOne ((driver.run passes).awake now ageSleep deadline) :=
        ⟨held.mode, held.works, held.dead⟩
      exact flushed_waits awake (held.idle_none idle) healthy replied before
    · have nothing : ((driver.run passes).awake now ageSleep deadline).flushed pass =
          (driver.run passes).awake now ageSleep deadline := by
        unfold Driver.flushed Driver.appendDepthOne
        simp [Driver.awake, closed, empty]
      rw [nothing]
      show (waitersOf (driver.run passes).openPlaced).count ticket = 0 ∧
        (waitersOf (driver.run passes).pendingPlaced).count ticket = 0
      rw [Actor.openPlaced, Actor.pendingPlaced, closed, empty]
      exact ⟨rfl, rfl⟩
  have grown : (driver.run passes).admissions ticket ≤
      ((driver.run passes).iterate pass).admissions ticket := by
    rw [Driver.admissions, Driver.admissions, sent]
    exact ((List.prefix_append _ _).sublist.filterMap _).count_le ticket
  have once := repliedAfter.admitted_once ticket
  have law := conserved ticket
  obtain ⟨opened, pending⟩ := waits
  omega

end flush

/-- The record of a small driver has its receipt when the flush behind it is answered. -/
theorem run_flush_barrier_solo : ∃ _ : Digests,
    let before := (freshDriver soloPolicy).run (soloCommands.map commandPass)
    let after := before.iterate (commandPass (.flush 0))
    after.sent = before.sent ++ [.flush 0 (.ok ())] ∧ before.admissions 0 = 1 ∧
      after.resolutions 0 = 1 ∧ after.openWaits 0 = 0 ∧ after.pendingWaits 0 = 0 := by
  let digests := valueDigests
  have mounted : Driver.new (smallConfig soloPolicy) emptyWriter [] (fun _ => none) =
      .ok (freshDriver soloPolicy) := rfl
  let before := (freshDriver soloPolicy).run (soloCommands.map commandPass)
  have values : (before.iterate (commandPass (.flush 0))).sent = before.sent ++
      [.flush 0 (.ok ())] ∧
      before.admissions 0 = 1 ∧
        reportedChunks (before.iterate (commandPass (.flush 0))).history = [] ∧
      ∀ act ∈ (before.iterate (commandPass (.flush 0))).history, act.SealsFree := by
    decide +kernel
  obtain ⟨sent, admitted, unreported, free⟩ := values
  have named : ∀ act ∈ (before.iterate (commandPass (.flush 0))).history, act.ReportsNamed := by
    refine acts_of_none unreported ?_
    rintro (_ | _ | _ | _ | _ | _ | _) unreported <;> trivial
  refine ⟨digests, sent, admitted, ?_⟩
  exact run_flush_barrier mounted (soloCommands.map commandPass) rfl
    (Or.inl ⟨rfl, commandPass_plain (by simp [soloCommands, Command.Plain])⟩)
    free named sent (List.mem_singleton_self _) 0 (by rw [admitted]; decide)

/-- With a sink the flush is answered while the submission is still pending. -/
theorem flush_passes_pending : ∃ _ : Digests,
    Driver.new sinkConfig emptyWriter [] (fun _ => none) = .ok sinkDriver ∧
      let before := sinkDriver.run (handPasses (submissionOf 1 0 1))
      let after := before.iterate (commandPass (.flush 0))
      after.sent = before.sent ++ [.flush 0 (.ok ())] ∧ before.admissions 0 = 1 ∧
        after.resolutions 0 = 0 ∧ after.pendingWaits 0 = 1 := by
  let digests := valueDigests
  have values : (let before := sinkDriver.run (handPasses (submissionOf 1 0 1))
      let after := before.iterate (commandPass (.flush 0))
      after.sent = before.sent ++ [.flush 0 (.ok ())] ∧ before.admissions 0 = 1 ∧
        after.resolutions 0 = 0 ∧ after.pendingWaits 0 = 1) := by
    decide +kernel
  exact ⟨digests, rfl, values⟩

end Scripture
