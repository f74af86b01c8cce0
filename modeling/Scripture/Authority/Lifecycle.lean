import Scripture.Authority.Gate

set_option autoImplicit false

/- The loop in which a Scribe waits to become the writer. A timer runs while its probes of the peer
the root names fail, and a recovery is attempted once the timer is older than the grace. The timer
belongs to no record: it keeps running when the root changes, and it starts when the root names no
peer at all. -/
namespace Scripture

open ByteFormat

section names

variable [LogletNames]

/-- `E` is what the runtime answers when it does not start. -/
inductive ScribeLifecycleError (E : Type) where
  | coordinator (error : CoordinatorError)
  | activation (error : HaActivationError E)
  | membership (message : String)
  | failClosed (message : String)
  | writerTerm (message : String)

/-- Why a process is not the writer. -/
inductive MemberReason (E : Type) where
  | transitioning
  | notWritable
  | reachable (owner : OwnerId)
  | awaitingGrace (owner : OwnerId)
  | lostRecovery (error : HaActivationError E)

structure HealthyMember (E : Type) where
  record : ServingAuthorityRecord
  memberReady : Bool
  reason : MemberReason E
  servingEndpoint : Option String

inductive ScribeRunOutcome (E : Type) where
  | lawfulWriter (session : HaServingSession)
  | healthyMember (member : HealthyMember E)

/-- What the loop does that others can see, oldest first. A probe has the instant of its answer. -/
inductive ScribeEvent where
  | observed (record : ServingAuthorityRecord)
  | probed (route : String) (instant : Nat) (reachable : Bool)
  | attempted (record : ServingAuthorityRecord) (instant : Nat)
  deriving DecidableEq

structure ScribeLifecycle where
  key : AuthorityKey
  ownerId : OwnerId
  peerGrace : Nat
  initialTerm : UInt64

/-- What one pass of the loop meets: the answers it gets, and how long it waits for each (in
nanoseconds). `probe` is asked inside the reconciliation, `probeAgain` after it. -/
structure WatchPass (E : Type) where
  root : Except CoordinatorError ObservedRootAuthority
  isWritable : Bool
  probe : Bool
  recoveryMembership : Except String Unit
  activation : Except (HaActivationError E) HaServingSession
  joinMembership : Except String Unit
  probeAgain : Bool
  untilProbe : Nat
  untilProbeAgain : Nat
  untilStamp : Nat
  overslept : Nat

namespace ScribeLifecycle

variable {E : Type} (scribe : ScribeLifecycle)

def joinMember (pass : WatchPass E) (record : ServingAuthorityRecord) (memberReady : Bool)
    (reason : MemberReason E) : Except (ScribeLifecycleError E) (ScribeRunOutcome E) := do
  pass.joinMembership.mapError .membership
  return .healthyMember ⟨record, memberReady, reason, record.state.servingEndpoint⟩

/-- The generation a recovery expects and the term it takes. -/
def recoveryTarget (record : ServingAuthorityRecord) :
    Except (ScribeLifecycleError E) (JournalGenerationRef × WriterTerm) :=
  match record.state with
  | .serving authority _ =>
      match checkedAdd64 authority.writerTerm.get 1 with
      | none => .error (.writerTerm "writer term overflow")
      | some next => do
          let term ← (WriterTerm.new next).mapError fun error => .writerTerm error.text
          return (authority.generationRef, term)
  | .transitioning intent =>
      match intent.precondition with
      | .expected generation => .ok (generation, intent.nextWriterTerm)
      | _ => .error (.failClosed "cannot resume transitioning with precondition")
  | _ => .error (.failClosed "recovery requires Serving or our Transitioning intent")

def tryRecoveryFromServingRecord (pass : WatchPass E) (record : ServingAuthorityRecord) :
    Except (ScribeLifecycleError E) (ScribeRunOutcome E) := do
  let _ ← recoveryTarget record
  pass.recoveryMembership.mapError .membership
  let session ← pass.activation.mapError .activation
  return .lawfulWriter session

/-- What a pass does about the record it has observed, at `now`. -/
def reconcileRecord (pass : WatchPass E) (now : Nat) (record : ServingAuthorityRecord)
    (attemptRecovery : Bool) :
    List ScribeEvent × Except (ScribeLifecycleError E) (ScribeRunOutcome E) :=
  if record.key ≠ scribe.key then ([], .error (.failClosed "authority key mismatch"))
  else match record.state with
    | .unassigned => ([], .error (.failClosed "root reports Unassigned; refusing silent repair"))
    | .reconciliationRequired _ _ =>
        ([], .error (.failClosed
          "root reports ReconciliationRequired; operator/tooling required"))
    | .transitioning intent =>
        if intent.candidateOwnerId = scribe.ownerId ∧ attemptRecovery then
          ([.attempted record now], tryRecoveryFromServingRecord pass record)
        else ([], joinMember pass record false .transitioning)
    | .serving authority route =>
        if authority.ownerId = scribe.ownerId then
          if pass.isWritable then
            ([], .error (.failClosed
              "local writable present for Serving owner without activated session; fail closed"))
          else ([], joinMember pass record false .notWritable)
        else
          let instant := now + pass.untilProbe
          let probed := ScribeEvent.probed route.text instant pass.probe
          if attemptRecovery ∧ ¬ pass.probe then
            ([probed, .attempted record instant],
              match tryRecoveryFromServingRecord pass record with
              | .error (.activation error) => joinMember pass record true (.lostRecovery error)
              | outcome => outcome)
          else if pass.probe then
            ([probed], joinMember pass record true (.reachable authority.ownerId))
          else ([probed], joinMember pass record true (.awaitingGrace authority.ownerId))

def reconcileOnce (pass : WatchPass E) (now : Nat) (attemptRecovery : Bool) :
    List ScribeEvent × Except (ScribeLifecycleError E) (ScribeRunOutcome E) :=
  match pass.root with
  | .error error => ([], .error (.coordinator error))
  | .ok .uninitialized => ([], do
      let _ ← (WriterTerm.new scribe.initialTerm).mapError fun error => .writerTerm error.text
      let session ← pass.activation.mapError .activation
      return .lawfulWriter session)
  | .ok (.absentOrMalformed message) => ([], .error (.failClosed
      ("root authority absent or malformed: " ++ message.getD "undecodable fence")))
  | .ok (.record record) =>
      let (events, outcome) := scribe.reconcileRecord pass now record attemptRecovery
      (.observed record :: events, outcome)

end ScribeLifecycle

/-- The loop of `await_lawful_writer` between two passes. -/
structure Watch (E : Type) where
  unreachableSince : Option Nat
  now : Nat
  events : List ScribeEvent
  result : Option (Except (ScribeLifecycleError E) HaServingSession)

namespace ScribeLifecycle

variable {E : Type} (scribe : ScribeLifecycle)

def start (now : Nat) : Watch E := ⟨none, now, [], none⟩

/-- Whether a pass may attempt a recovery: the timer is as old as the grace. -/
def attempts (watch : Watch E) : Bool :=
  match watch.unreachableSince with
  | some since => scribe.peerGrace ≤ watch.now - since
  | none => false

/-- The pause between two passes. -/
def pause : Nat := 100000000

/-- A member probes the endpoint it knows of once more, and starts or stops the timer by the
answer. Without an endpoint there is no probe, and the timer starts. -/
def probeAgain (watch : Watch E) (pass : WatchPass E) (route : String) : Watch E :=
  let instant := watch.now + pass.untilProbeAgain
  let stamp := instant + pass.untilStamp
  let reachable := if route = "" then false else pass.probeAgain
  { watch with
    unreachableSince :=
      if reachable then none
      else if watch.unreachableSince.isNone then some stamp else watch.unreachableSince
    now := stamp + pause + pass.overslept
    events := if route = "" then watch.events
      else watch.events ++ [.probed route instant pass.probeAgain] }

/-- One pass of the loop. -/
def await (watch : Watch E) (pass : WatchPass E) : Watch E :=
  match watch.result with
  | some _ => watch
  | none =>
      let (events, outcome) := scribe.reconcileOnce pass watch.now (scribe.attempts watch)
      let watch := { watch with
        now := watch.now + pass.untilProbe
        events := watch.events ++ events }
      match outcome with
      | .error error => { watch with result := some (.error error) }
      | .ok (.lawfulWriter session) => { watch with result := some (.ok session) }
      | .ok (.healthyMember member) => probeAgain watch pass (member.servingEndpoint.getD "")

/-- The loop from its start. -/
def awaitLawfulWriter (now : Nat) (passes : List (WatchPass E)) : Watch E :=
  passes.foldl scribe.await (start now)

end ScribeLifecycle

namespace ScribeEvent

/-- The events from the first observation of a record on. -/
def since (record : ServingAuthorityRecord) (events : List ScribeEvent) : List ScribeEvent :=
  events.dropWhile fun event => decide (event ≠ .observed record)

/-- The probes of a route: when each was answered, and how. -/
def probesOf (route : String) (events : List ScribeEvent) : List (Nat × Bool) :=
  events.filterMap fun
    | .probed other instant reachable => if other = route then some (instant, reachable) else none
    | _ => none

def seen : ScribeEvent → Option ServingAuthorityRecord
  | .observed record => some record
  | _ => none

/-- The record observed last. -/
def lastObserved (events : List ScribeEvent) : Option ServingAuthorityRecord :=
  (events.filterMap seen).getLast?

theorem since_append (record : ServingAuthorityRecord) (events rest : List ScribeEvent) :
    since record (events ++ .observed record :: rest) =
      since record events ++ .observed record :: rest := by
  unfold since
  rw [List.dropWhile_append]
  split
  · rename_i empty
    rw [List.isEmpty_iff.mp empty]
    simp
  · rfl

theorem probesOf_append (route : String) (events rest : List ScribeEvent) :
    probesOf route (events ++ rest) = probesOf route events ++ probesOf route rest :=
  List.filterMap_append

/-- A pass on a record adds its probes to those since the record was first observed. -/
theorem probesOf_since (record : ServingAuthorityRecord) (route : String)
    (events rest : List ScribeEvent) :
    probesOf route (since record (events ++ .observed record :: rest)) =
      probesOf route (since record events) ++ probesOf route rest := by
  rw [since_append, probesOf_append]
  rfl

theorem mem_of_probesOf_since {record : ServingAuthorityRecord} {route : String}
    {events : List ScribeEvent} {probe : Nat × Bool}
    (member : probe ∈ probesOf route (since record events)) :
    ScribeEvent.probed route probe.1 probe.2 ∈ events := by
  obtain ⟨event, held, kept⟩ := List.mem_filterMap.mp member
  have inside : event ∈ events := (List.dropWhile_sublist _).subset held
  cases event with
  | observed other => cases kept
  | attempted other instant => cases kept
  | probed other instant reachable =>
      dsimp only at kept
      split at kept
      · rename_i same
        cases kept
        rw [← same]
        exact inside
      · cases kept

theorem lastObserved_append {events rest : List ScribeEvent}
    (only : ∀ event ∈ rest, event.seen = none) (record : ServingAuthorityRecord) :
    lastObserved (events ++ .observed record :: rest) = some record := by
  have nothing : rest.filterMap seen = [] := List.filterMap_eq_nil_iff.mpr only
  simp [lastObserved, List.filterMap_append, seen, nothing]

end ScribeEvent

/-- What a recovery waits for: no probe of the route answered since the record was first observed,
and the first of them was the grace ago. -/
structure Waited (grace : Nat) (record : ServingAuthorityRecord) (route : RouteHint)
    (past : List ScribeEvent) (instant : Nat) : Prop where
  unanswered : ∀ probe ∈ ScribeEvent.probesOf route.text (ScribeEvent.since record past),
    probe.2 = false
  grace : ∃ first, (ScribeEvent.probesOf route.text (ScribeEvent.since record past)).head? =
    some first ∧ first.1 + grace ≤ instant

/-- Every attempt against a serving record has waited. -/
def Fulfilled (grace : Nat) (events : List ScribeEvent) : Prop :=
  ∀ past record instant future, events = past ++ .attempted record instant :: future →
    ∀ authority route, record.state = .serving authority route →
      Waited grace record route past instant

theorem fulfilled_concat {grace : Nat} {events : List ScribeEvent} {event : ScribeEvent}
    (fulfilled : Fulfilled grace events)
    (last : ∀ record instant authority route, event = .attempted record instant →
      record.state = .serving authority route → Waited grace record route events instant) :
    Fulfilled grace (events ++ [event]) := by
  intro past record instant future split authority route serving
  rcases List.eq_nil_or_concat future with rfl | ⟨front, final, rfl⟩
  · obtain ⟨rfl, same⟩ := List.append_inj' split rfl
    exact last record instant authority route (by simpa using same) serving
  · have inside : events ++ [event] = (past ++ .attempted record instant :: front) ++ [final] := by
      rw [split]
      simp
    obtain ⟨earlier, -⟩ := List.append_inj' inside rfl
    exact fulfilled past record instant front earlier authority route serving

theorem Fulfilled.quiet {grace : Nat} {events : List ScribeEvent}
    (fulfilled : Fulfilled grace events)
    (event : ScribeEvent) (other : ∀ record instant, event ≠ .attempted record instant) :
    Fulfilled grace (events ++ [event]) := by
  apply fulfilled_concat fulfilled
  intro record instant authority route same
  exact absurd same (other record instant)

namespace ScribeLifecycle

variable {E : Type} {scribe : ScribeLifecycle} {pass : WatchPass E} {now : Nat} {attempt : Bool}

/-- A record of another owner that serves. -/
structure Peer (scribe : ScribeLifecycle) (record : ServingAuthorityRecord) (route : RouteHint) :
    Prop where
  serving : ∃ authority, record.state = .serving authority route ∧
    authority.ownerId ≠ scribe.ownerId

/-- What a reconciliation leaves behind. It attempts a recovery against a peer only when it may and
its own probe has just failed, and a member it returns names the endpoint of the record. -/
inductive Reconciled (scribe : ScribeLifecycle) (pass : WatchPass E) (now : Nat) (attempt : Bool)
    (outcome : Except (ScribeLifecycleError E) (ScribeRunOutcome E)) : List ScribeEvent → Prop
  | blind (ended : ∀ member, outcome ≠ .ok (.healthyMember member)) :
      Reconciled scribe pass now attempt outcome []
  | alone (record : ServingAuthorityRecord) (events : List ScribeEvent)
      (resumed : events = [] ∨ (∃ intent, record.state = .transitioning intent) ∧
        events = [.attempted record now])
      (settled : ∀ member, outcome = .ok (.healthyMember member) →
        member.servingEndpoint = record.state.servingEndpoint ∧
          ∀ route, ¬ scribe.Peer record route) :
      Reconciled scribe pass now attempt outcome (.observed record :: events)
  | peer (record : ServingAuthorityRecord) (route : RouteHint) (events : List ScribeEvent)
      (observed : pass.root = .ok (.record record)) (peer : scribe.Peer record route)
      (challenged : events = [] ∨ attempt = true ∧ pass.probe = false ∧
        events = [.attempted record (now + pass.untilProbe)])
      (settled : ∀ member, outcome = .ok (.healthyMember member) →
        member.servingEndpoint = some route.text) :
      Reconciled scribe pass now attempt outcome
        (.observed record :: .probed route.text (now + pass.untilProbe) pass.probe :: events)

variable {record : ServingAuthorityRecord}

theorem joinMember_endpoint {ready : Bool} {reason : MemberReason E} {member : HealthyMember E}
    (joined : joinMember pass record ready reason = .ok (.healthyMember member)) :
    member.servingEndpoint = record.state.servingEndpoint := by
  obtain ⟨_, -, made⟩ := bind_eq_ok.mp joined
  cases made
  rfl

theorem tryRecovery_not_member {member : HealthyMember E} :
    tryRecoveryFromServingRecord pass record ≠ .ok (.healthyMember member) := by
  intro returned
  obtain ⟨_, -, rest⟩ := bind_eq_ok.mp returned
  obtain ⟨_, -, rest⟩ := bind_eq_ok.mp rest
  obtain ⟨_, -, made⟩ := bind_eq_ok.mp rest
  cases made

theorem reconcileOnce_reconciled (scribe : ScribeLifecycle) (pass : WatchPass E) (now : Nat)
    (attempt : Bool) :
    Reconciled scribe pass now attempt (scribe.reconcileOnce pass now attempt).2
      (scribe.reconcileOnce pass now attempt).1 := by
  unfold reconcileOnce
  split
  · apply Reconciled.blind
    intro member returned
    cases returned
  · apply Reconciled.blind
    intro member returned
    obtain ⟨_, -, rest⟩ := bind_eq_ok.mp returned
    obtain ⟨_, -, made⟩ := bind_eq_ok.mp rest
    cases made
  · apply Reconciled.blind
    intro member returned
    cases returned
  · rename_i record observed
    dsimp only
    unfold reconcileRecord
    split
    · refine .alone record _ (.inl rfl) ?_
      intro member returned
      cases returned
    · split
      · refine .alone record _ (.inl rfl) ?_
        intro member returned
        cases returned
      · refine .alone record _ (.inl rfl) ?_
        intro member returned
        cases returned
      · rename_i intent transitioning
        split
        · refine .alone record _ (.inr ⟨⟨intent, transitioning⟩, rfl⟩) ?_
          intro member returned
          exact absurd returned tryRecovery_not_member
        · refine .alone record _ (.inl rfl) ?_
          intro member returned
          refine ⟨joinMember_endpoint returned, ?_⟩
          rintro route ⟨authority, serving, -⟩
          rw [transitioning] at serving
          cases serving
      · rename_i authority route serving
        split
        · rename_i own
          split
          · refine .alone record _ (.inl rfl) ?_
            intro member returned
            cases returned
          · refine .alone record _ (.inl rfl) ?_
            intro member returned
            refine ⟨joinMember_endpoint returned, ?_⟩
            rintro route ⟨found, serves, other⟩
            rw [serving] at serves
            cases serves
            exact other own
        · rename_i other
          have peer : scribe.Peer record route := ⟨authority, serving, other⟩
          have endpoint : record.state.servingEndpoint = some route.text := by
            rw [serving]
            rfl
          split
          · rename_i armed
            refine .peer record route _ observed peer
              (.inr ⟨armed.1, by simpa using armed.2, rfl⟩) ?_
            intro member returned
            dsimp only at returned
            split at returned
            · rw [joinMember_endpoint returned, endpoint]
            · exact absurd returned tryRecovery_not_member
          · split
            · refine .peer record route _ observed peer (.inl rfl) ?_
              intro member returned
              rw [joinMember_endpoint returned, endpoint]
            · refine .peer record route _ observed peer (.inl rfl) ?_
              intro member returned
              rw [joinMember_endpoint returned, endpoint]

/-- What the loop keeps: the timer of a peer that is still on the root started after the first probe
since the peer's record was observed. -/
structure Armed (scribe : ScribeLifecycle) (watch : Watch E) : Prop where
  past : ∀ route instant reachable, .probed route instant reachable ∈ watch.events →
    instant ≤ watch.now
  stamped : ∀ stamp, watch.unreachableSince = some stamp → stamp ≤ watch.now
  first : watch.result = none → ∀ stamp record route, watch.unreachableSince = some stamp →
    ScribeEvent.lastObserved watch.events = some record → scribe.Peer record route →
    ∃ first, (ScribeEvent.probesOf route.text (ScribeEvent.since record watch.events)).head? =
      some first ∧ first.1 ≤ stamp
  fulfilled : Fulfilled scribe.peerGrace watch.events

/-- A pass on a peer's record starts without a timer unless the pass before was on that record, and
finds a peer reachable that has been so since its record was first observed. -/
def Steady (scribe : ScribeLifecycle) (watch : Watch E) (pass : WatchPass E) : Prop :=
  ∀ record route, pass.root = .ok (.record record) → scribe.Peer record route →
    (ScribeEvent.lastObserved watch.events ≠ some record → watch.unreachableSince = none) ∧
    ((∃ probe ∈ ScribeEvent.probesOf route.text (ScribeEvent.since record watch.events),
      probe.2 = true) → pass.probe = true)

variable {watch : Watch E}

theorem attempts_eq_true (may : scribe.attempts watch = true) :
    ∃ stamp, watch.unreachableSince = some stamp ∧ scribe.peerGrace ≤ watch.now - stamp := by
  unfold attempts at may
  split at may
  · rename_i stamp running
    exact ⟨stamp, running, of_decide_eq_true may⟩
  · cases may

theorem Armed.waited {route : RouteHint} (armed : scribe.Armed watch)
    (running : watch.result = none) (steady : scribe.Steady watch pass)
    (observed : pass.root = .ok (.record record)) (peer : scribe.Peer record route)
    (may : scribe.attempts watch = true) (failed : pass.probe = false) :
    Waited scribe.peerGrace record route (watch.events ++ [.observed record,
      .probed route.text (watch.now + pass.untilProbe) pass.probe])
      (watch.now + pass.untilProbe) := by
  obtain ⟨fresh, answered⟩ := steady record route observed peer
  obtain ⟨stamp, timer, old⟩ := attempts_eq_true may
  have same : ScribeEvent.lastObserved watch.events = some record := by
    by_contra other
    rw [fresh other] at timer
    cases timer
  obtain ⟨first, head, early⟩ := armed.first running stamp record route timer same peer
  have late := armed.stamped stamp timer
  constructor
  · intro probe member
    rw [ScribeEvent.probesOf_since, List.mem_append] at member
    rcases member with earlier | now
    · by_contra reachable
      have stays := answered ⟨probe, earlier, by simpa using reachable⟩
      rw [failed] at stays
      cases stays
    · have own : probe = (watch.now + pass.untilProbe, pass.probe) := by
        simpa [ScribeEvent.probesOf] using now
      rw [own]
      exact failed
  · refine ⟨first, ?_, by omega⟩
    rw [ScribeEvent.probesOf_since, List.head?_append, head]
    rfl

theorem Armed.reconciled {events : List ScribeEvent}
    {outcome : Except (ScribeLifecycleError E) (ScribeRunOutcome E)} (armed : scribe.Armed watch)
    (running : watch.result = none) (steady : scribe.Steady watch pass)
    (reconciled : Reconciled scribe pass watch.now (scribe.attempts watch) outcome events) :
    Fulfilled scribe.peerGrace (watch.events ++ events) ∧
      ∀ route instant reachable, .probed route instant reachable ∈ watch.events ++ events →
        instant ≤ watch.now + pass.untilProbe := by
  have early : ∀ route instant reachable, .probed route instant reachable ∈ watch.events →
      instant ≤ watch.now + pass.untilProbe := by
    intro route instant reachable member
    exact (armed.past route instant reachable member).trans (Nat.le_add_right _ _)
  cases reconciled with
  | blind ended =>
      rw [List.append_nil]
      exact ⟨armed.fulfilled, early⟩
  | alone record events resumed settled =>
      have seen := armed.fulfilled.quiet (.observed record) (by simp)
      rcases resumed with rfl | ⟨⟨intent, transitioning⟩, rfl⟩
      · refine ⟨seen, ?_⟩
        simpa using early
      · refine ⟨?_, by simpa using early⟩
        rw [List.append_cons]
        apply fulfilled_concat seen
        intro other instant authority route same serving
        cases same
        rw [transitioning] at serving
        cases serving
  | peer record route events observed peer challenged settled =>
      have seen := armed.fulfilled.quiet (.observed record) (by simp)
      have probed := seen.quiet (.probed route.text (watch.now + pass.untilProbe) pass.probe)
        (by simp)
      rw [List.append_assoc, List.singleton_append] at probed
      have within : ∀ other instant reachable, .probed other instant reachable ∈ watch.events ++
          .observed record :: .probed route.text (watch.now + pass.untilProbe)
            pass.probe :: events →
          instant ≤ watch.now + pass.untilProbe := by
        intro other instant reachable member
        rcases List.mem_append.mp member with before | now
        · exact early other instant reachable before
        · rcases challenged with rfl | ⟨-, -, rfl⟩
          · simp only [List.mem_cons, List.not_mem_nil, or_false] at now
            rcases now with now | now
            · cases now
            · cases now
              exact Nat.le_refl _
          · simp only [List.mem_cons, List.not_mem_nil, or_false] at now
            rcases now with now | now | now
            · cases now
            · cases now
              exact Nat.le_refl _
            · cases now
      refine ⟨?_, within⟩
      rcases challenged with rfl | ⟨may, failed, rfl⟩
      · exact probed
      · have split : watch.events ++ [.observed record, .probed route.text
            (watch.now + pass.untilProbe) pass.probe, .attempted record
            (watch.now + pass.untilProbe)] = (watch.events ++ [.observed record,
            .probed route.text (watch.now + pass.untilProbe) pass.probe]) ++
            [.attempted record (watch.now + pass.untilProbe)] := by simp
        rw [split]
        apply fulfilled_concat probed
        intro found instant authority hint same serving
        cases same
        obtain ⟨other, serves, -⟩ := peer.serving
        rw [serving] at serves
        cases serves
        exact armed.waited running steady observed peer may failed

/-- The first probe since a peer's record was observed, after a pass on that record. -/
theorem Armed.head {route : RouteHint} {rest : List ScribeEvent} {stamp : Nat}
    (armed : scribe.Armed watch) (running : watch.result = none)
    (steady : scribe.Steady watch pass) (observed : pass.root = .ok (.record record))
    (peer : scribe.Peer record route)
    (timer : watch.unreachableSince = some stamp ∨
      watch.unreachableSince = none ∧ watch.now + pass.untilProbe ≤ stamp) :
    ∃ first, (ScribeEvent.probesOf route.text (ScribeEvent.since record (watch.events ++
        .observed record :: .probed route.text (watch.now + pass.untilProbe) pass.probe ::
          rest))).head? = some first ∧ first.1 ≤ stamp := by
  rw [ScribeEvent.probesOf_since, List.head?_append]
  have own : (ScribeEvent.probesOf route.text (.probed route.text (watch.now + pass.untilProbe)
      pass.probe :: rest)).head? = some (watch.now + pass.untilProbe, pass.probe) := by
    simp [ScribeEvent.probesOf]
  rcases timer with kept | ⟨-, late⟩
  · have same : ScribeEvent.lastObserved watch.events = some record := by
      by_contra other
      rw [(steady record route observed peer).1 other] at kept
      cases kept
    obtain ⟨first, head, early⟩ := armed.first running stamp record route kept same peer
    exact ⟨first, by rw [head]; rfl, early⟩
  · cases earlier : (ScribeEvent.probesOf route.text
        (ScribeEvent.since record watch.events)).head? with
    | none => exact ⟨_, own, late⟩
    | some first =>
        have member := ScribeEvent.mem_of_probesOf_since (List.mem_of_head? earlier)
        have before := armed.past _ _ _ member
        exact ⟨first, rfl, by omega⟩

theorem probeAgain_unreachableSince {route : String} {stamp : Nat}
    (timer : (probeAgain watch pass route).unreachableSince = some stamp) :
    watch.unreachableSince = some stamp ∨
      watch.unreachableSince = none ∧
        stamp = watch.now + pass.untilProbeAgain + pass.untilStamp := by
  cases off : watch.unreachableSince with
  | none =>
      simp only [probeAgain, off, Option.isNone_none, if_true, Option.ite_none_left_eq_some,
        Option.some.injEq] at timer
      exact .inr ⟨rfl, timer.2.symm⟩
  | some started =>
      simp only [probeAgain, off, Option.isNone_some, Bool.false_eq_true, if_false,
        Option.ite_none_left_eq_some] at timer
      exact .inl timer.2

theorem probeAgain_events (watch : Watch E) (pass : WatchPass E) (route : String) :
    ∃ again, (probeAgain watch pass route).events = watch.events ++ again ∧
      (again = [] ∨
        again = [.probed route (watch.now + pass.untilProbeAgain) pass.probeAgain]) := by
  unfold probeAgain
  dsimp only
  split
  · exact ⟨[], by simp, .inl rfl⟩
  · exact ⟨_, rfl, .inr rfl⟩

theorem probeAgain_now (watch : Watch E) (pass : WatchPass E) (route : String) :
    watch.now + pass.untilProbeAgain + pass.untilStamp ≤ (probeAgain watch pass route).now := by
  unfold probeAgain
  dsimp only
  omega

/-- The second probe of a pass keeps everything but the timer's own condition. -/
theorem probeAgain_armed {route : String}
    (past : ∀ other instant reachable, .probed other instant reachable ∈ watch.events →
      instant ≤ watch.now)
    (stamped : ∀ stamp, watch.unreachableSince = some stamp → stamp ≤ watch.now)
    (fulfilled : Fulfilled scribe.peerGrace watch.events)
    (first : ∀ stamp record hint, (probeAgain watch pass route).unreachableSince = some stamp →
      ScribeEvent.lastObserved (probeAgain watch pass route).events = some record →
      scribe.Peer record hint → ∃ first, (ScribeEvent.probesOf hint.text
        (ScribeEvent.since record (probeAgain watch pass route).events)).head? = some first ∧
        first.1 ≤ stamp) :
    scribe.Armed (probeAgain watch pass route) := by
  obtain ⟨again, grown, probed⟩ := probeAgain_events watch pass route
  have later := probeAgain_now watch pass route
  refine ⟨?_, ?_, fun _ => first, ?_⟩
  · intro other instant reachable member
    rw [grown, List.mem_append] at member
    rcases member with before | now
    · have early := past other instant reachable before
      omega
    · rcases probed with rfl | rfl
      · cases now
      · cases List.mem_singleton.mp now
        omega
  · intro stamp timer
    rcases probeAgain_unreachableSince timer with kept | ⟨-, set⟩
    · have early := stamped stamp kept
      omega
    · omega
  · rw [grown]
    rcases probed with rfl | rfl
    · rw [List.append_nil]
      exact fulfilled
    · exact fulfilled.quiet _ (by simp)

theorem await_armed (armed : scribe.Armed watch) (steady : scribe.Steady watch pass) :
    scribe.Armed (scribe.await watch pass) := by
  unfold await
  split
  · exact armed
  · rename_i running
    have reconciled := scribe.reconcileOnce_reconciled pass watch.now (scribe.attempts watch)
    generalize scribe.reconcileOnce pass watch.now (scribe.attempts watch) = result at reconciled ⊢
    obtain ⟨events, outcome⟩ := result
    dsimp only at reconciled ⊢
    obtain ⟨fulfilled, early⟩ := armed.reconciled running steady reconciled
    have stamped : ∀ stamp, watch.unreachableSince = some stamp →
        stamp ≤ watch.now + pass.untilProbe := by
      intro stamp timer
      exact (armed.stamped stamp timer).trans (Nat.le_add_right _ _)
    split
    · exact ⟨early, stamped, by simp, fulfilled⟩
    · exact ⟨early, stamped, by simp, fulfilled⟩
    · rename_i member
      refine probeAgain_armed early stamped fulfilled ?_
      intro stamp record hint timer last peer
      obtain ⟨again, grown, probed⟩ := probeAgain_events { watch with
        now := watch.now + pass.untilProbe
        events := watch.events ++ events } pass (member.servingEndpoint.getD "")
      have unseen : ∀ event ∈ again, event.seen = none := by
        rcases probed with rfl | rfl
        · simp
        · simp [ScribeEvent.seen]
      rw [grown] at last ⊢
      cases reconciled with
      | blind ended => exact absurd rfl (ended member)
      | alone found rest resumed settled =>
          obtain ⟨-, nobody⟩ := settled member rfl
          have only : ∀ event ∈ rest ++ again, event.seen = none := by
            intro event held
            rcases List.mem_append.mp held with old | new
            · rcases resumed with rfl | ⟨-, rfl⟩
              · cases old
              · cases List.mem_singleton.mp old
                rfl
            · exact unseen event new
          rw [List.append_assoc, List.cons_append, ScribeEvent.lastObserved_append only] at last
          cases last
          exact absurd peer (nobody hint)
      | peer found route rest observed named challenged settled =>
          have only : ∀ event ∈ .probed route.text (watch.now + pass.untilProbe) pass.probe ::
              (rest ++ again), event.seen = none := by
            intro event held
            rcases List.mem_cons.mp held with rfl | held
            · rfl
            · rcases List.mem_append.mp held with old | new
              · rcases challenged with rfl | ⟨-, -, rfl⟩
                · cases old
                · cases List.mem_singleton.mp old
                  rfl
              · exact unseen event new
          rw [List.append_assoc, List.cons_append, List.cons_append] at last ⊢
          rw [ScribeEvent.lastObserved_append only] at last
          cases last
          obtain ⟨authority, serving, -⟩ := peer.serving
          obtain ⟨other, serves, -⟩ := named.serving
          rw [serving] at serves
          cases serves
          apply armed.head running steady observed peer
          rcases probeAgain_unreachableSince timer with kept | ⟨off, set⟩
          · exact .inl kept
          · refine .inr ⟨off, ?_⟩
            dsimp only at set
            omega

theorem start_armed (now : Nat) : scribe.Armed (start now : Watch E) := by
  refine ⟨by simp [start], by simp [start], by simp [start], ?_⟩
  intro past record instant future split
  simp [start] at split

end ScribeLifecycle

/-- Another owner's record, under a loglet and a term. -/
def peerRecord (loglet : LogletId) (term : WriterTerm) : ServingAuthorityRecord :=
  .new sampleKey (.serving ⟨⟨repeated 16 2⟩, term, ⟨0, loglet, 0, repeated 32 0⟩⟩
    ⟨"tcp://peer:1", by decide, by decide⟩)

/-- The intent of that owner. -/
def peerIntent (loglet : LogletId) (term : WriterTerm) : ServingAuthorityRecord :=
  .new sampleKey (.transitioning ⟨⟨repeated 16 9⟩, .recoveryPromotion,
    .expected ⟨0, loglet, 0, repeated 32 0⟩, ⟨repeated 16 2⟩, term⟩)

omit [LogletNames] in
def sampleLoglet : @LogletId nonemptyNames := @LogletId.mk nonemptyNames "g0" rfl

/-- A pass in which nothing answers, and a pause after it. -/
def silentPass (record : ServingAuthorityRecord) (overslept : Nat) : WatchPass Unit :=
  ⟨.ok (.record record), false, false, .ok (), .error .notServing, .ok (), false, 0,
    0, 0, overslept⟩

def sampleScribe : ScribeLifecycle := ⟨sampleKey, ⟨repeated 16 3⟩, 2000000000, 1⟩

theorem silentPass_steady {watch : Watch Unit} {record : ServingAuthorityRecord} {overslept : Nat}
    (fresh : ScribeEvent.lastObserved watch.events ≠ some record → watch.unreachableSince = none)
    (silent : ∀ route instant reachable, .probed route instant reachable ∈ watch.events →
      reachable = false) : sampleScribe.Steady watch (silentPass record overslept) := by
  intro found route observed peer
  cases observed
  refine ⟨fresh, ?_⟩
  rintro ⟨probe, member, reachable⟩
  have never := silent _ _ _ (ScribeEvent.mem_of_probesOf_since member)
  rw [reachable] at never
  cases never

namespace ScribeLifecycle

variable {E : Type}

/-- In a run whose passes are all steady, every recovery attempted against a peer has waited: no
probe since the peer's record was first observed was answered, and the first was the grace ago. -/
theorem awaitLawfulWriter_fulfilled (scribe : ScribeLifecycle) (now : Nat)
    (passes : List (WatchPass E))
    (steady : ∀ front pass back, passes = front ++ pass :: back →
      scribe.Steady (scribe.awaitLawfulWriter now front) pass) :
    ∀ past record instant future,
      (scribe.awaitLawfulWriter now passes).events = past ++ .attempted record instant :: future →
      ∀ authority route, record.state = .serving authority route →
        Waited scribe.peerGrace record route past instant := by
  have armed : scribe.Armed (scribe.awaitLawfulWriter now passes) := by
    induction passes using List.reverseRecOn with
    | nil => exact start_armed now
    | append_singleton front pass ih =>
        have before := ih fun first other rest split =>
          steady first other (rest ++ [pass]) (by rw [split]; simp)
        unfold awaitLawfulWriter
        rw [List.foldl_append]
        exact await_armed before (steady front pass [] rfl)
  exact armed.fulfilled

omit [LogletNames] in
/-- A peer that does not answer for longer than the grace. -/
theorem awaitLawfulWriter_fulfilled_silent : ∃ (_ : LogletNames) (record : ServingAuthorityRecord)
    (past future : List ScribeEvent) (authority : WriterAuthority) (route : RouteHint),
    (sampleScribe.awaitLawfulWriter 0
      [silentPass record 2000000000, silentPass record 0]).events =
      past ++ .attempted record 2100000000 :: future ∧
    record.state = .serving authority route ∧
    Waited sampleScribe.peerGrace record route past 2100000000 := by
  let names := nonemptyNames
  let record := peerRecord sampleLoglet firstTerm
  have events : (sampleScribe.awaitLawfulWriter 0 [silentPass record 2000000000]).events =
      [.observed record, .probed "tcp://peer:1" 0 false, .probed "tcp://peer:1" 0 false] := rfl
  have attempted : (sampleScribe.awaitLawfulWriter 0
      [silentPass record 2000000000, silentPass record 0]).events =
      [.observed record, .probed "tcp://peer:1" 0 false, .probed "tcp://peer:1" 0 false,
        .observed record, .probed "tcp://peer:1" 2100000000 false] ++
        .attempted record 2100000000 :: [.probed "tcp://peer:1" 2100000000 false] := by
    decide
  refine ⟨names, record, _, _, _, _, attempted, rfl, ?_⟩
  refine awaitLawfulWriter_fulfilled sampleScribe 0 _ ?_ _ _ _ _ attempted _ _ rfl
  intro front pass back split
  match front, split with
  | [], split =>
      cases split
      exact silentPass_steady (fun _ => rfl) (by simp [awaitLawfulWriter, start])
  | [_], split =>
      cases split
      apply silentPass_steady
      · intro other
        exact absurd rfl other
      · rw [events]
        simp
  | [_, _], split => cases split
  | _ :: _ :: _ :: _, split => cases split

omit [LogletNames] in
/-- A writer that has just been promoted is challenged at its first missed probe, because the root
had been in transition for longer than the grace. -/
theorem fresh_writer_challenged : ∃ (_ : LogletNames) (intent record : ServingAuthorityRecord)
    (past future : List ScribeEvent) (authority : WriterAuthority) (route : RouteHint),
    (sampleScribe.awaitLawfulWriter 0
      [silentPass intent 2000000000, silentPass record 0]).events =
      past ++ .attempted record 2100000000 :: future ∧
    record.state = .serving authority route ∧ authority.ownerId ≠ sampleScribe.ownerId ∧
    ScribeEvent.probesOf route.text (ScribeEvent.since record past) = [(2100000000, false)] ∧
    ¬ Waited sampleScribe.peerGrace record route past 2100000000 := by
  let names := nonemptyNames
  let intent := peerIntent sampleLoglet secondTerm
  let record := peerRecord sampleLoglet secondTerm
  have attempted : (sampleScribe.awaitLawfulWriter 0
      [silentPass intent 2000000000, silentPass record 0]).events =
      [.observed intent, .observed record, .probed "tcp://peer:1" 2100000000 false] ++
        .attempted record 2100000000 :: [.probed "tcp://peer:1" 2100000000 false] := by
    decide
  have single : ScribeEvent.probesOf "tcp://peer:1" (ScribeEvent.since record
      [.observed intent, .observed record, .probed "tcp://peer:1" 2100000000 false]) =
      [(2100000000, false)] := rfl
  refine ⟨names, intent, record, _, _, _, _, attempted, rfl, by decide, single, ?_⟩
  rintro ⟨-, first, head, early⟩
  have probe : first = (2100000000, false) := (Option.some.inj head).symm
  rw [probe] at early
  exact absurd early (by decide)

end ScribeLifecycle

end names

end Scripture
