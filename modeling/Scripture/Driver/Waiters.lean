import Scripture.Driver.Progress

set_option autoImplicit false

/- Who waits for what. A ticket stands for the two channels of a submission. On the first its
admission is answered, once, or the submission is parked; on the second an admitted submission is
resolved, once, or it waits in the open or in the pending chunk. -/
namespace Scripture

open ByteFormat

/-- Every waiter of a placed submission was offered the same submission. -/
def PlacedSubmission.Answers [Digests] (offered : List Submission) (item : PlacedSubmission) :
    Prop :=
  ∀ ticket ∈ item.waiters, ∃ submission, offered[ticket]? = some submission ∧
    submission.identity = item.submission.identity ∧
    canonicalRecordsDigest item.submission.records = canonicalRecordsDigest submission.records

/-- Every waiter and every parked submission stands under the ticket it was offered with. -/
structure Attended [Digests] (driver : Driver) : Prop where
  waiting : ∀ item ∈ driver.openPlaced ++ driver.pendingPlaced, item.Answers driver.offered
  parked : ∀ item ∈ driver.blocked, driver.offered[item.ticket]? = some item.submission

variable {placed : List PlacedSubmission}

theorem mem_results {result : PlacedSubmission → Except DriverError Receipt} {ticket : Nat}
    {reply : Except DriverError Receipt} :
    Message.receipt ticket reply ∈ results placed result ↔
      ∃ item ∈ placed, ticket ∈ item.waiters ∧ result item = reply := by
  simp [results]

/-- A join adds the waiter to the submission that was found, and changes no other. -/
theorem joinWaiter_eq {identity : Identity} (ticket : Nat) {item : PlacedSubmission}
    (found : Actor.findPlaced placed identity = some item) :
    ∃ front back, placed = front ++ item :: back ∧
      joinWaiter identity ticket placed =
        front ++ { item with waiters := item.waiters ++ [ticket] } :: back := by
  induction placed with
  | nil => cases found
  | cons head rest ih =>
      rw [Actor.findPlaced, List.find?_cons] at found
      split at found
      · rename_i same
        cases found
        refine ⟨[], rest, rfl, ?_⟩
        rw [joinWaiter, if_pos (by simpa using same)]
        rfl
      · rename_i different
        obtain ⟨front, back, split, joined⟩ := ih found
        refine ⟨head :: front, back, by rw [split]; rfl, ?_⟩
        rw [joinWaiter, if_neg (by simpa using different), joined]
        rfl

/-- The tickets that wait for these submissions. -/
def waitersOf (placed : List PlacedSubmission) : List Nat := placed.flatMap (·.waiters)

theorem waitersOf_append (left right : List PlacedSubmission) :
    waitersOf (left ++ right) = waitersOf left ++ waitersOf right :=
  List.flatMap_append

theorem waitersOf_joinWaiter {identity : Identity} (ticket : Nat) {item : PlacedSubmission}
    (found : Actor.findPlaced placed identity = some item) (other : Nat) :
    (waitersOf (joinWaiter identity ticket placed)).count other =
      (waitersOf placed).count other + [ticket].count other := by
  obtain ⟨front, back, split, joined⟩ := joinWaiter_eq ticket found
  have flat (head : PlacedSubmission) :
      waitersOf (front ++ head :: back) = waitersOf front ++ (head.waiters ++ waitersOf back) := by
    rw [waitersOf_append]
    rfl
  rw [joined, split, flat, flat]
  simp only [List.count_append]
  omega

section attended

variable [Digests]

theorem PlacedSubmission.Answers.grow {offered : List Submission} {item : PlacedSubmission}
    (answers : item.Answers offered) (more : List Submission) : item.Answers (offered ++ more) := by
  intro ticket waits
  obtain ⟨submission, held, same⟩ := answers ticket waits
  refine ⟨submission, ?_, same⟩
  rw [List.getElem?_append_left (List.getElem?_eq_some_iff.mp held).1]
  exact held

/-- After a join every waiter is still answered with its own submission. -/
theorem answers_joinWaiter {offered : List Submission} {placed : List PlacedSubmission}
    (answers : ∀ item ∈ placed, item.Answers offered) {submission : Submission} {ticket : Nat}
    (held : offered[ticket]? = some submission) (joins : Actor.Joins placed submission) :
    ∀ item ∈ joinWaiter submission.identity ticket placed, item.Answers offered := by
  obtain ⟨old, found, digest⟩ := joins
  have identity : old.submission.identity = submission.identity := by
    simpa using List.find?_some found
  obtain ⟨front, back, split, joined⟩ := joinWaiter_eq ticket found
  rw [joined]
  rw [split] at answers
  intro item member
  rcases List.mem_append.mp member with before | behind
  · exact answers item (List.mem_append_left _ before)
  · rcases List.mem_cons.mp behind with rfl | after
    · intro waiter waits
      rcases List.mem_append.mp waits with earlier | new
      · exact answers old (List.mem_append_right _ List.mem_cons_self) waiter earlier
      · rw [List.mem_singleton.mp new]
        exact ⟨submission, held, identity.symm, digest⟩
    · exact answers item (List.mem_append_right _ (List.mem_cons_of_mem _ after))

/-- Everyone who waits waited before, or has been offered. -/
theorem Attended.advance {before after : Driver} (attended : Attended before)
    (offered : ∃ more, after.offered = before.offered ++ more)
    (waiting : ∀ item ∈ after.openPlaced ++ after.pendingPlaced,
      item ∈ before.openPlaced ++ before.pendingPlaced ∨ item.Answers after.offered)
    (parked : ∀ item ∈ after.blocked, item ∈ before.blocked ∨
      after.offered[item.ticket]? = some item.submission) : Attended after := by
  obtain ⟨more, offered⟩ := offered
  refine ⟨?_, ?_⟩
  · intro item member
    rcases waiting item member with old | new
    · rw [offered]
      exact (attended.waiting item old).grow more
    · exact new
  · intro item member
    rcases parked item member with old | new
    · have held := attended.parked item old
      rw [offered, List.getElem?_append_left (List.getElem?_eq_some_iff.mp held).1]
      exact held
    · exact new

/-- Nobody new waits. -/
theorem Attended.of_less {before after : Driver} (attended : Attended before)
    (offered : after.offered = before.offered)
    (waiting : after.openPlaced ++ after.pendingPlaced ⊆ before.openPlaced ++ before.pendingPlaced)
    (parked : after.blocked ⊆ before.blocked) : Attended after :=
  attended.advance ⟨[], by rw [offered, List.append_nil]⟩
    (fun _ member => Or.inl (waiting member)) fun _ member => Or.inl (parked member)

/-- A submission in hand was offered under its ticket. -/
theorem Taken.attended {driver taken : Driver} {submission : Submission} {ticket : Nat}
    (inHand : Taken driver submission ticket taken) (attended : Attended driver) :
    Attended taken ∧ taken.offered[ticket]? = some submission := by
  cases inHand with
  | offered =>
      refine ⟨?_, by simp⟩
      exact attended.advance ⟨[submission], rfl⟩ (fun _ => Or.inl) fun _ => Or.inl
  | parked item rest front =>
      refine ⟨?_, attended.parked item (by simp [front])⟩
      refine attended.of_less rfl (List.Subset.refl _) ?_
      rw [front]
      exact List.subset_cons_self item rest

theorem attended_move {before after : Driver} (move : Move before after)
    (attended : Attended before) : Attended after := by
  have same {α : Type} (list : List α) : ∃ more, list = list ++ more := ⟨[], by simp⟩
  have dropped : before.openPlaced ++ [] ⊆ before.openPlaced ++ before.pendingPlaced :=
    List.append_subset.mpr ⟨List.subset_append_left _ _, List.nil_subset _⟩
  cases move with
  | refuse inHand =>
      exact (inHand.attended attended).1.of_less rfl (List.Subset.refl _) (List.Subset.refl _)
  | replay inHand =>
      exact (inHand.attended attended).1.of_less rfl (List.Subset.refl _) (List.Subset.refl _)
  | @joinOpen taken submission ticket inHand held =>
      obtain ⟨attended, offered⟩ := inHand.attended attended
      have joins : Actor.Joins taken.openPlaced submission := by cases inHand <;> exact held
      refine attended.advance (same _) ?_ fun _ => Or.inl
      rw [joinOpen_openPlaced]
      intro item member
      rcases List.mem_append.mp member with joined | kept
      · exact Or.inr (answers_joinWaiter (fun other listed =>
          attended.waiting other (List.mem_append_left _ listed)) offered joins item joined)
      · exact Or.inl (List.mem_append_right _ kept)
  | @joinPending taken submission ticket inHand absent held =>
      obtain ⟨attended, offered⟩ := inHand.attended attended
      have joins : Actor.Joins taken.pendingPlaced submission := by cases inHand <;> exact held
      refine attended.advance (same _) ?_ fun _ => Or.inl
      rw [joinPending_pendingPlaced]
      intro item member
      rcases List.mem_append.mp member with kept | joined
      · exact Or.inl (List.mem_append_left _ kept)
      · exact Or.inr (answers_joinWaiter (fun other listed =>
          attended.waiting other (List.mem_append_right _ listed)) offered joins item joined)
  | @park taken submission ticket inHand encodedBytes =>
      obtain ⟨attended, offered⟩ := inHand.attended attended
      refine attended.advance (same _) (fun _ => Or.inl) ?_
      intro item member
      rcases List.mem_append.mp member with old | new
      · exact Or.inl old
      · rw [List.mem_singleton.mp new]
        exact Or.inr offered
  | @place taken submission ticket inHand encodedBytes sized fresh room =>
      obtain ⟨attended, offered⟩ := inHand.attended attended
      refine attended.advance (same _) ?_ fun _ => Or.inl
      rw [place_openPlaced]
      intro item member
      rcases List.mem_append.mp member with opened | kept
      · rcases List.mem_append.mp opened with old | new
        · exact Or.inl (List.mem_append_left _ old)
        · rw [List.mem_singleton.mp new]
          refine Or.inr fun waiter waits => ⟨submission, ?_, rfl, rfl⟩
          rw [List.mem_singleton.mp waits]
          exact offered
      · exact Or.inl (List.mem_append_right _ kept)
  | sealNothing => exact attended.of_less rfl (List.subset_append_right _ _) (List.Subset.refl _)
  | sealRefused => exact attended.of_less rfl (List.subset_append_right _ _) (List.Subset.refl _)
  | sealChunk chunk first rest result opened =>
      refine attended.of_less rfl ?_ (List.Subset.refl _)
      rw [openPlaced_of_some opened]
      exact List.subset_append_left _ _
  | sealEnvelope chunk first rest bytes opened =>
      refine attended.of_less rfl ?_ (List.Subset.refl _)
      rw [openPlaced_of_some opened]
      exact List.subset_append_left _ _
  | commit => exact attended.of_less rfl dropped (List.Subset.refl _)
  | fail => exact attended.of_less rfl (List.nil_subset _) (List.nil_subset _)
  | enqueue envelope placed encodedBytes pending =>
      refine attended.of_less rfl ?_ (List.Subset.refl _)
      rw [pendingPlaced_of_some pending]
      exact List.Subset.refl _
  | enqueueFailed => exact attended.of_less rfl dropped (List.Subset.refl _)
  | refuseParked => exact attended.of_less rfl (List.Subset.refl _) (List.nil_subset _)
  | _ => exact attended.of_less rfl (List.Subset.refl _) (List.Subset.refl _)

theorem attended_sinkMove {before after : Driver} (move : SinkMove before after)
    (attended : Attended before) : Attended after := by
  have dropped : before.openPlaced ++ [] ⊆ before.openPlaced ++ before.pendingPlaced :=
    List.append_subset.mpr ⟨List.subset_append_left _ _, List.nil_subset _⟩
  cases move with
  | appendRefs => exact attended.of_less rfl (List.Subset.refl _) (List.Subset.refl _)
  | misreport => exact attended.of_less rfl dropped (List.Subset.refl _)
  | report => exact attended.of_less rfl dropped (List.Subset.refl _)

theorem new_attended {config : DriverConfig} {writer : ChunkLogWriter}
    {recovered : List RecoveredChunk} {store : BlobStore} {driver : Driver}
    (mounted : Driver.new config writer recovered store = .ok driver) : Attended driver := by
  obtain ⟨dedup, admittedSeq, knownProducers, rfl⟩ := Driver.new_blank mounted
  exact ⟨by rintro item ⟨⟩, by rintro item ⟨⟩⟩

end attended

/-- The ticket whose admission this message answers. -/
def Message.replied : Message → Option Nat
  | .admission ticket _ => some ticket
  | _ => none

/-- The ticket this message admits. -/
def Message.admitted : Message → Option Nat
  | .admission ticket (.ok _) => some ticket
  | _ => none

/-- The ticket this message gives a result. -/
def Message.resolved : Message → Option Nat
  | .receipt ticket _ => some ticket
  | _ => none

namespace Driver

/-- How often the admission of a ticket was answered. -/
def replies (driver : Driver) (ticket : Nat) : Nat :=
  (driver.sent.filterMap Message.replied).count ticket

/-- How often a ticket was admitted. -/
def admissions (driver : Driver) (ticket : Nat) : Nat :=
  (driver.sent.filterMap Message.admitted).count ticket

/-- How many results a ticket got. -/
def resolutions (driver : Driver) (ticket : Nat) : Nat :=
  (driver.sent.filterMap Message.resolved).count ticket

/-- How often a ticket is parked. -/
def parkings (driver : Driver) (ticket : Nat) : Nat :=
  (driver.blocked.map (·.ticket)).count ticket

/-- How often a ticket waits in the open chunk. -/
def openWaits (driver : Driver) (ticket : Nat) : Nat :=
  (waitersOf driver.openPlaced).count ticket

/-- How often a ticket waits in the pending chunk. -/
def pendingWaits (driver : Driver) (ticket : Nat) : Nat :=
  (waitersOf driver.pendingPlaced).count ticket

end Driver

/-- Every ticket is answered once or parked once. -/
def Replied (driver : Driver) : Prop :=
  ∀ ticket, driver.replies ticket + driver.parkings ticket =
    if ticket < driver.offered.length then 1 else 0

/-- Every admitted ticket has its result or waits for it. -/
def Conserved (driver : Driver) : Prop :=
  ∀ ticket, driver.admissions ticket =
    driver.resolutions ticket + driver.openWaits ticket + driver.pendingWaits ticket

/-- Who is admitted between two states has a result or waits in the end, but for waiters that are
`lost`. -/
def Balance (before after : Driver) (ticket lost : Nat) : Prop :=
  after.openWaits ticket + after.pendingWaits ticket + after.resolutions ticket +
      before.admissions ticket + lost =
    before.openWaits ticket + before.pendingWaits ticket + before.resolutions ticket +
      after.admissions ticket

section tickets

variable {before after : Driver}

theorem results_receipts {placed : List PlacedSubmission}
    {result : PlacedSubmission → Except DriverError Receipt} {message : Message}
    (said : message ∈ results placed result) : ∃ ticket reply, message = .receipt ticket reply := by
  obtain ⟨item, -, answered⟩ := List.mem_flatMap.mp said
  obtain ⟨ticket, -, rfl⟩ := List.mem_map.mp answered
  exact ⟨ticket, _, rfl⟩

@[simp] theorem results_replied (placed : List PlacedSubmission)
    (result : PlacedSubmission → Except DriverError Receipt) :
    (results placed result).filterMap Message.replied = [] := by
  refine List.filterMap_eq_nil_iff.mpr fun message said => ?_
  obtain ⟨ticket, reply, rfl⟩ := results_receipts said
  rfl

@[simp] theorem results_admitted (placed : List PlacedSubmission)
    (result : PlacedSubmission → Except DriverError Receipt) :
    (results placed result).filterMap Message.admitted = [] := by
  refine List.filterMap_eq_nil_iff.mpr fun message said => ?_
  obtain ⟨ticket, reply, rfl⟩ := results_receipts said
  rfl

@[simp] theorem results_resolved (placed : List PlacedSubmission)
    (result : PlacedSubmission → Except DriverError Receipt) :
    (results placed result).filterMap Message.resolved = waitersOf placed := by
  induction placed with
  | nil => rfl
  | cons item rest ih =>
      have head : results (item :: rest) result =
          item.waiters.map (fun ticket => .receipt ticket (result item)) ++
            results rest result := rfl
      rw [head, List.filterMap_append, ih, List.filterMap_map]
      simp [waitersOf, Function.comp_def, Message.resolved]

@[simp] theorem refusals_replied (parked : List BlockedSubmission) (error : DriverError) :
    (parked.map fun item => Message.admission item.ticket (.error error)).filterMap
      Message.replied = parked.map (·.ticket) := by
  simp [List.filterMap_map, Function.comp_def, Message.replied]

@[simp] theorem refusals_admitted (parked : List BlockedSubmission) (error : DriverError) :
    (parked.map fun item => Message.admission item.ticket (.error error)).filterMap
      Message.admitted = [] := by
  simp [Message.admitted]

@[simp] theorem refusals_resolved (parked : List BlockedSubmission) (error : DriverError) :
    (parked.map fun item => Message.admission item.ticket (.error error)).filterMap
      Message.resolved = [] := by
  simp [Message.resolved]

theorem Message.Plain.silent {message : Message} (plain : message.Plain) :
    message.replied = none ∧ message.admitted = none ∧ message.resolved = none := by
  cases message <;> first | exact absurd plain id | exact ⟨rfl, rfl, rfl⟩

variable {messages : List Message} {submission : Submission} {ticket : Nat} {driver : Driver}

theorem sent_counts (sent : after.sent = before.sent ++ messages) (ticket : Nat) :
    after.replies ticket =
        before.replies ticket + (messages.filterMap Message.replied).count ticket ∧
      after.admissions ticket =
        before.admissions ticket + (messages.filterMap Message.admitted).count ticket ∧
      after.resolutions ticket =
        before.resolutions ticket + (messages.filterMap Message.resolved).count ticket := by
  simp only [Driver.replies, Driver.admissions, Driver.resolutions, sent, List.filterMap_append,
    List.count_append, and_self]

/-- What is sent in a step answers as many tickets as are offered or leave the parked ones. -/
theorem Replied.advance (replied : Replied before) (sent : after.sent = before.sent ++ messages)
    (balance : ∀ ticket, (messages.filterMap Message.replied).count ticket +
      after.parkings ticket + (if ticket < before.offered.length then 1 else 0) =
        before.parkings ticket + if ticket < after.offered.length then 1 else 0) :
    Replied after := by
  intro ticket
  have old := replied ticket
  have new := balance ticket
  have counted := (sent_counts sent ticket).1
  omega

/-- No admission is answered, nothing is offered and nothing is parked. -/
theorem Replied.of_same (replied : Replied before) (sent : after.sent = before.sent ++ messages)
    (silent : messages.filterMap Message.replied = []) (parked : after.blocked = before.blocked)
    (offered : after.offered = before.offered) : Replied after := by
  refine replied.advance sent fun ticket => ?_
  rw [silent, Driver.parkings, Driver.parkings, parked, offered, List.count_nil]
  omega

/-- The submission in hand is answered at once. -/
theorem Replied.answer {taken : Driver} (inHand : Taken before submission ticket taken)
    (replied : Replied before) (sent : after.sent = taken.sent ++ messages)
    (answers : messages.filterMap Message.replied = [ticket])
    (parked : after.blocked = taken.blocked) (offered : after.offered = taken.offered) :
    Replied after := by
  cases inHand with
  | offered =>
      refine replied.advance sent fun other => ?_
      rw [answers, Driver.parkings, Driver.parkings, parked, offered]
      simp only [List.length_append, List.length_singleton, List.count_singleton, beq_iff_eq]
      split <;> split <;> split <;> omega
  | parked item rest front =>
      refine replied.advance sent fun other => ?_
      rw [answers, Driver.parkings, Driver.parkings, parked, offered, front]
      simp only [List.map_cons, List.count_cons, List.count_nil]
      omega

theorem Balance.of_sent {lost : Nat} (sent : after.sent = before.sent ++ messages)
    (balance : (messages.filterMap Message.admitted).count ticket +
      before.openWaits ticket + before.pendingWaits ticket =
        (messages.filterMap Message.resolved).count ticket +
          after.openWaits ticket + after.pendingWaits ticket + lost) :
    Balance before after ticket lost := by
  obtain ⟨-, admitted, resolved⟩ := sent_counts sent ticket
  unfold Balance
  omega

/-- Nobody is admitted or gets a result, and the same tickets wait. -/
theorem Balance.of_same (sent : after.sent = before.sent ++ messages)
    (admitted : messages.filterMap Message.admitted = [])
    (resolved : messages.filterMap Message.resolved = [])
    (opened : after.openPlaced = before.openPlaced)
    (pending : waitersOf after.pendingPlaced = waitersOf before.pendingPlaced) :
    Balance before after ticket 0 := by
  refine .of_sent sent ?_
  rw [admitted, resolved, Driver.openWaits, Driver.openWaits, opened, Driver.pendingWaits,
    Driver.pendingWaits, pending, Nat.add_zero]

theorem Taken.balance {taken : Driver} {number lost : Nat}
    (inHand : Taken driver submission number taken) (balance : Balance taken after ticket lost) :
    Balance driver after ticket lost := by
  cases inHand <;> exact balance

/-- The results go to the waiters of what was pending. -/
theorem Balance.release {pending : PendingAppend} (held : before.pendingAppend = some pending)
    {result : PlacedSubmission → Except DriverError Receipt}
    (sent : after.sent = before.sent ++ results pending.placed result)
    (opened : after.openPlaced = before.openPlaced) (idle : after.pendingAppend = none) :
    Balance before after ticket 0 := by
  refine .of_sent sent ?_
  rw [results_admitted, results_resolved, Driver.openWaits, Driver.openWaits, opened,
    Driver.pendingWaits, Driver.pendingWaits, pendingPlaced_of_some held, Actor.pendingPlaced, idle]
  simp only [List.count_nil, waitersOf, List.flatMap_nil]
  omega

/-- Who waited in the open chunk waits in the pending one. -/
theorem Balance.seal (sent : after.sent = before.sent) (opened : after.openPlaced = [])
    (pending : after.pendingPlaced = before.openPlaced) :
    Balance before after ticket (before.pendingWaits ticket) := by
  refine .of_sent (sent.trans (List.append_nil _).symm) ?_
  rw [Driver.openWaits, Driver.openWaits, Driver.pendingWaits, Driver.pendingWaits, opened, pending]
  simp [waitersOf]

theorem Conserved.move (conserved : Conserved before)
    (balance : ∀ ticket, Balance before after ticket 0) : Conserved after := by
  intro ticket
  have old := conserved ticket
  have new := balance ticket
  unfold Balance at new
  omega

theorem admitted_sublist (messages : List Message) :
    (messages.filterMap Message.admitted).Sublist (messages.filterMap Message.replied) := by
  induction messages with
  | nil => exact List.Sublist.refl _
  | cons message rest ih =>
      cases message with
      | admission other reply =>
          cases reply with
          | ok => exact ih.cons_cons _
          | error => exact ih.cons _
      | _ => exact ih

theorem admissions_le (driver : Driver) (ticket : Nat) :
    driver.admissions ticket ≤ driver.replies ticket :=
  (admitted_sublist driver.sent).count_le ticket

/-- A ticket is admitted once at most. -/
theorem Replied.admitted_once (replied : Replied driver) (ticket : Nat) :
    driver.admissions ticket ≤ 1 := by
  have fewer := admissions_le driver ticket
  have law := replied ticket
  split at law <;> omega

theorem new_tickets {config : DriverConfig} {writer : ChunkLogWriter}
    {recovered : List RecoveredChunk} {store : BlobStore}
    (mounted : Driver.new config writer recovered store = .ok driver) :
    Replied driver ∧ Conserved driver := by
  obtain ⟨dedup, admittedSeq, knownProducers, rfl⟩ := Driver.new_blank mounted
  exact ⟨fun _ => rfl, fun _ => rfl⟩

end tickets

section laws

variable [Digests]

variable {before after : Driver}

theorem replied_move (move : Move before after) (replied : Replied before) : Replied after := by
  have silent (driver : Driver) : driver.sent = driver.sent ++ [] := (List.append_nil _).symm
  cases move with
  | say message plain =>
      refine replied.of_same rfl ?_ rfl rfl
      simp [plain.silent.1]
  | refuse inHand error => exact Replied.answer inHand replied rfl rfl rfl rfl
  | @replay taken submission ticket inHand receipt held =>
      have answers : [Message.receipt ticket (.ok (replayReceipt before receipt)),
          .admission ticket (.ok ())].filterMap Message.replied = [ticket] := rfl
      exact Replied.answer inHand replied (List.append_assoc _ _ _) answers rfl rfl
  | joinOpen inHand => exact Replied.answer inHand replied rfl rfl rfl rfl
  | joinPending inHand => exact Replied.answer inHand replied rfl rfl rfl rfl
  | @park taken submission ticket inHand encodedBytes =>
      cases inHand with
      | offered =>
          refine replied.advance (silent before) fun other => ?_
          rw [Driver.parkings, Driver.parkings, Driver.park]
          simp only [List.map_append, List.count_append, List.length_append, List.length_singleton,
            List.map_cons, List.map_nil, List.count_singleton, List.filterMap_nil, List.count_nil,
            beq_iff_eq]
          split <;> split <;> split <;> omega
      | parked item rest front =>
          refine replied.advance (silent before) fun other => ?_
          rw [Driver.parkings, Driver.parkings, Driver.park, front]
          simp only [List.map_append, List.count_append, List.map_cons, List.map_nil,
            List.count_cons, List.count_nil, List.filterMap_nil]
          omega
  | place inHand => exact Replied.answer inHand replied rfl rfl rfl rfl
  | sealRefused => exact replied.of_same rfl (results_replied _ _) rfl rfl
  | commit => exact replied.of_same rfl (results_replied _ _) rfl rfl
  | fail =>
      refine replied.advance (List.append_assoc _ _ _) fun ticket => ?_
      rw [List.filterMap_append, List.filterMap_append, results_replied, results_replied,
        refusals_replied]
      simp only [Driver.parkings, List.nil_append]
      exact Nat.add_zero _
  | enqueueFailed => exact replied.of_same rfl (results_replied _ _) rfl rfl
  | refuseParked error =>
      refine replied.advance rfl fun ticket => ?_
      rw [refusals_replied]
      simp [Driver.parkings]
  | _ => exact replied.of_same (silent before) rfl rfl rfl

theorem replied_sinkMove (move : SinkMove before after) (replied : Replied before) :
    Replied after := by
  have silent : before.sent = before.sent ++ [] := (List.append_nil _).symm
  cases move with
  | appendRefs => exact replied.of_same silent rfl rfl rfl
  | misreport => exact replied.of_same silent rfl rfl rfl
  | report => exact replied.of_same rfl (results_replied _ _) rfl rfl

/-- Waiters are lost only when a seal takes the slot of a pending chunk. -/
theorem Move.balance (move : Move before after) (ticket : Nat) :
    ∃ lost, Balance before after ticket lost ∧
      ((∀ act ∈ after.history, act.SealsFree) → lost = 0) := by
  have silent (driver : Driver) : driver.sent = driver.sent ++ [] := (List.append_nil _).symm
  have kept (balance : Balance before after ticket 0) : ∃ lost, Balance before after ticket lost ∧
      ((∀ act ∈ after.history, act.SealsFree) → lost = 0) := ⟨0, balance, fun _ => rfl⟩
  have sealedFree {chunkId : ChunkId} {bytes : Nat}
      (listed : .sealOpen before.toActor chunkId (.ok bytes) ∈ after.history)
      (free : ∀ act ∈ after.history, act.SealsFree) : before.pendingWaits ticket = 0 := by
    have idle : before.pendingAppend = none := free _ listed
    rw [Driver.pendingWaits, Actor.pendingPlaced, idle]
    rfl
  cases move with
  | say message plain =>
      refine kept (.of_same rfl ?_ ?_ rfl rfl)
      · simp [plain.silent.2.1]
      · simp [plain.silent.2.2]
  | refuse inHand error => exact kept (inHand.balance (.of_same rfl rfl rfl rfl rfl))
  | @replay taken submission number inHand receipt held =>
      exact kept (inHand.balance (.of_sent (List.append_assoc _ _ _) rfl))
  | @joinOpen taken submission number inHand held =>
      obtain ⟨item, found, -⟩ := held
      have joins : Actor.findPlaced taken.openPlaced submission.identity = some item := by
        cases inHand <;> exact found
      refine kept (inHand.balance (.of_sent rfl ?_))
      rw [Driver.openWaits, Driver.openWaits, joinOpen_openPlaced,
        waitersOf_joinWaiter number joins]
      show [number].count ticket + _ + taken.pendingWaits ticket = 0 + _ + taken.pendingWaits ticket
      omega
  | @joinPending taken submission number inHand absent held =>
      obtain ⟨item, found, -⟩ := held
      have joins : Actor.findPlaced taken.pendingPlaced submission.identity = some item := by
        cases inHand <;> exact found
      refine kept (inHand.balance (.of_sent rfl ?_))
      rw [Driver.pendingWaits, Driver.pendingWaits, joinPending_pendingPlaced,
        waitersOf_joinWaiter number joins]
      show [number].count ticket + taken.openWaits ticket + _ = 0 + taken.openWaits ticket + _
      omega
  | park inHand => exact kept (inHand.balance (.of_same (silent _) rfl rfl rfl rfl))
  | @place taken submission number inHand encodedBytes sized fresh room =>
      refine kept (inHand.balance (.of_sent rfl ?_))
      rw [Driver.openWaits, Driver.openWaits, place_openPlaced, waitersOf_append,
        List.count_append]
      show [number].count ticket + _ + taken.pendingWaits ticket =
        0 + (_ + [number].count ticket) + taken.pendingWaits ticket
      omega
  | sealNothing chunk opened empty =>
      refine kept (.of_same (silent _) rfl rfl ?_ rfl)
      rw [openPlaced_of_some opened, empty]
      rfl
  | sealRefused chunk first rest error opened =>
      have sent : (before.takeOpen.sealFailed id before.toActor chunk (chunkIdOf before.nextChunk)
          error).sent = before.sent ++ results chunk.placed fun _ => .error (.codec error) := rfl
      refine kept (.of_sent sent ?_)
      rw [results_admitted, results_resolved, Driver.openWaits, openPlaced_of_some opened]
      show 0 + _ + before.pendingWaits ticket = _ + 0 + before.pendingWaits ticket
      omega
  | sealChunk chunk first rest result opened =>
      exact ⟨_, .seal rfl rfl (openPlaced_of_some opened).symm,
        sealedFree (List.mem_append_right _ (List.mem_singleton_self _))⟩
  | sealEnvelope chunk first rest bytes opened =>
      exact ⟨_, .seal rfl rfl (openPlaced_of_some opened).symm,
        sealedFree (List.mem_append_right _ (List.mem_singleton_self _))⟩
  | commit work ack pending => exact kept (.release pending rfl rfl rfl)
  | fail work error pending =>
      refine kept (.of_sent (List.append_assoc _ _ _) ?_)
      simp only [List.filterMap_append, results_admitted, results_resolved, refusals_admitted,
        refusals_resolved, List.append_nil, List.count_append, List.count_nil]
      rw [Driver.pendingWaits, pendingPlaced_of_some pending]
      show 0 + (waitersOf before.openPlaced).count ticket + (waitersOf work.placed).count ticket =
        (waitersOf work.placed).count ticket + (waitersOf before.openPlaced).count ticket + 0 + 0
      omega
  | enqueue envelope placed encodedBytes pending =>
      refine kept (.of_same (silent _) rfl rfl rfl ?_)
      rw [pendingPlaced_of_some pending]
      rfl
  | enqueueFailed envelope placed encodedBytes message pending =>
      exact kept (.release pending rfl rfl rfl)
  | refuseParked error =>
      exact kept (.of_same rfl (refusals_admitted _ _) (refusals_resolved _ _) rfl rfl)
  | _ => exact kept (.of_same (silent _) rfl rfl rfl rfl)

theorem conserved_move (move : Move before after) (free : ∀ act ∈ after.history, act.SealsFree)
    (conserved : Conserved before) :
    Conserved after := by
  refine conserved.move fun ticket => ?_
  obtain ⟨lost, balance, none⟩ := move.balance ticket
  rwa [none free] at balance

/-- Whoever starts to wait has the admission answered in the same move. -/
theorem Move.waits_le (move : Move before after) (ticket : Nat) :
    after.openWaits ticket + after.pendingWaits ticket + before.replies ticket ≤
      before.openWaits ticket + before.pendingWaits ticket + after.replies ticket := by
  obtain ⟨lost, balance, -⟩ := move.balance ticket
  obtain ⟨messages, sent⟩ := move.grown.sent
  obtain ⟨replied, admitted, resolved⟩ := sent_counts sent.symm ticket
  have fewer := (admitted_sublist messages).count_le ticket
  unfold Balance at balance
  omega

theorem Moves.replied (moves : Moves before after) (replied : Replied before) : Replied after := by
  induction moves with
  | refl => exact replied
  | tail _ move ih => exact replied_move move ih

/-- An answered ticket stays answered. -/
theorem Moves.answered (moves : Moves before after) (replied : Replied before) {ticket : Nat}
    (answered : before.replies ticket = 1) :
    after.replies ticket = 1 := by
  have more : before.replies ticket ≤ after.replies ticket :=
    (moves.grown.sent.sublist.filterMap _).count_le ticket
  have law := moves.replied replied ticket
  split at law <;> omega

/-- A ticket whose admission is answered does not start to wait again. -/
theorem Moves.settled (moves : Moves before after) (replied : Replied before) {ticket : Nat}
    (answered : before.replies ticket = 1) (opened : before.openWaits ticket = 0)
    (pending : before.pendingWaits ticket = 0) :
    after.openWaits ticket = 0 ∧ after.pendingWaits ticket = 0 := by
  have waits : after.openWaits ticket + after.pendingWaits ticket + before.replies ticket ≤
      before.openWaits ticket + before.pendingWaits ticket + after.replies ticket := by
    induction moves with
    | refl => exact Nat.le_refl _
    | tail _ move ih =>
        have step := move.waits_le ticket
        omega
  have again := moves.answered replied answered
  omega

end laws

/-- A stretch of the code that answers submissions only: it ends nothing, takes no new submission
and answers no other command. -/
structure Answering (before after : Driver) : Prop where
  exited : after.exited = before.exited
  offered : after.offered = before.offered
  sent : ∃ messages, after.sent = before.sent ++ messages ∧ ∀ message ∈ messages, ¬ message.Plain

namespace Answering

variable {before middle after : Driver}

theorem quiet (exited : after.exited = before.exited) (offered : after.offered = before.offered)
    (sent : after.sent = before.sent) : Answering before after :=
  ⟨exited, offered, [], by rw [sent, List.append_nil], by simp⟩

theorem trans (first : Answering before middle) (second : Answering middle after) :
    Answering before after := by
  obtain ⟨early, sentEarly, answersEarly⟩ := first.sent
  obtain ⟨late, sentLate, answersLate⟩ := second.sent
  refine ⟨second.exited.trans first.exited, second.offered.trans first.offered, early ++ late,
    ?_, ?_⟩
  · rw [sentLate, sentEarly, List.append_assoc]
  · intro message said
    exact (List.mem_append.mp said).elim (answersEarly message) (answersLate message)

theorem send (exited : after.exited = before.exited) (offered : after.offered = before.offered)
    {message : Message} (sent : after.sent = before.sent ++ [message]) (answers : ¬ message.Plain) :
    Answering before after :=
  ⟨exited, offered, [message], sent, by simpa using answers⟩

theorem resolve (exited : after.exited = before.exited) (offered : after.offered = before.offered)
    {placed : List PlacedSubmission} {result : PlacedSubmission → Except DriverError Receipt}
    (sent : after.sent = before.sent ++ results placed result) : Answering before after := by
  refine ⟨exited, offered, _, sent, fun message said => ?_⟩
  obtain ⟨ticket, reply, rfl⟩ := results_receipts said
  exact id

end Answering

section answering

variable [Digests] {driver : Driver}

theorem sealOpen_answering {drain : Driver → Driver}
    (drains : ∀ before, Answering before (drain before)) (driver : Driver) :
    Answering driver (driver.sealOpen drain) := by
  have refused (chunk : OpenChunk) (error : ChunkError) :
      Answering driver (driver.takeOpen.sealFailed drain driver.toActor chunk
        (chunkIdOf driver.nextChunk) error) := by
    refine Answering.trans ?_ (drains _)
    exact .resolve rfl rfl rfl
  cases opened : driver.openChunk with
  | none =>
      rw [Driver.sealOpen, opened]
      exact .quiet rfl rfl rfl
  | some chunk =>
      cases filled : chunk.placed with
      | nil =>
          rw [Driver.sealOpen, opened]
          dsimp only
          rw [filled]
          exact .quiet rfl rfl rfl
      | cons first rest =>
          rw [sealOpen_filled drain opened filled]
          split
          · split
            · exact refused chunk _
            · exact .quiet rfl rfl rfl
          · split
            · exact refused chunk _
            · exact .quiet rfl rfl rfl

theorem admit_answering {drain : Driver → Driver}
    (drains : ∀ before, Answering before (drain before)) (driver : Driver)
    (submission : Submission) (ticket : Nat) :
    Answering driver (driver.admitSubmission drain submission ticket) := by
  unfold Driver.admitSubmission
  split
  · rename_i refusal _
    unfold Driver.refuse
    cases refusal.event <;> exact .send rfl rfl rfl id
  · rename_i receipt _
    refine ⟨rfl, rfl,
      [.receipt ticket (.ok (replayReceipt driver receipt)), .admission ticket (.ok ())],
      List.append_assoc _ _ _, ?_⟩
    simp [Message.Plain]
  · exact .send rfl rfl rfl id
  · exact .send rfl rfl rfl id
  · exact .quiet rfl rfl rfl
  · rename_i encodedBytes _
    have placed : Answering driver (driver.place submission ticket encodedBytes) :=
      .send rfl rfl rfl id
    dsimp only [Driver.admitReady]
    split
    · refine Answering.trans ?_ (sealOpen_answering drains _)
      exact .send rfl rfl rfl id
    · exact placed

theorem drainFor_answering (fuel : Nat) (driver : Driver) :
    Answering driver (driver.drainFor fuel) := by
  induction fuel generalizing driver with
  | zero => exact .quiet rfl rfl rfl
  | succ fuel ih =>
      unfold Driver.drainFor
      split
      · exact .quiet rfl rfl rfl
      · rename_i parked rest _
        dsimp only
        split
        · refine Answering.trans ?_ (ih _)
          exact .send rfl rfl rfl id
        · split
          · exact .quiet rfl rfl rfl
          · refine Answering.trans (Answering.trans ?_ (admit_answering ih _ _ _)) (ih _)
            exact .quiet rfl rfl rfl

theorem drainBlocked_answering (driver : Driver) : Answering driver driver.drainBlocked :=
  drainFor_answering _ driver

theorem appendDepthOne_answering (driver : Driver) (pass : Pass) :
    Answering driver (driver.appendDepthOne pass) := by
  cases held : driver.pendingAppend with
  | none =>
      rw [Driver.appendDepthOne, held]
      exact .quiet rfl rfl rfl
  | some pending =>
      cases pending with
      | blobSink envelope placed encodedBytes enqueued =>
          rw [Driver.appendDepthOne, held]
          exact .quiet rfl rfl rfl
      | depthOne work =>
          rcases appendDepthOne_cases held pass with
            ⟨_, _, _, _, _, _, _, _, same⟩ | ⟨_, _, _, _, _, _, _, _, _, _, same⟩
          · rw [same]
            refine Answering.trans ?_ (drainBlocked_answering _)
            exact .resolve rfl rfl rfl
          · rw [same]
            refine ⟨rfl, rfl, _, List.append_assoc _ _ _, fun message said => ?_⟩
            rcases List.mem_append.mp said with resolved | refused
            · rcases List.mem_append.mp resolved with one | other
              · obtain ⟨ticket, reply, rfl⟩ := results_receipts one
                exact id
              · obtain ⟨ticket, reply, rfl⟩ := results_receipts other
                exact id
            · obtain ⟨parked, -, rfl⟩ := List.mem_map.mp refused
              exact id

/-- What a flush does before it answers. -/
def Driver.flushed (driver : Driver) (pass : Pass) : Driver :=
  (if driver.openChunk.isSome then driver.clearAgeSleep.sealOpen Driver.drainBlocked
  else driver).appendDepthOne pass

theorem flushed_answering (driver : Driver) (pass : Pass) :
    Answering driver (driver.flushed pass) := by
  refine Answering.trans ?_ (appendDepthOne_answering _ pass)
  split
  · refine Answering.trans ?_ (sealOpen_answering drainBlocked_answering _)
    exact .quiet rfl rfl rfl
  · exact .quiet rfl rfl rfl

theorem handleFlush_eq {responder : Nat} {pass : Pass} (alive : driver.poisoned = false) :
    driver.handleCommand (.flush responder) pass = (driver.flushed pass).send
      (.flush responder (if (driver.flushed pass).poisoned then .error .poisoned else .ok ())) := by
  rw [Driver.handleCommand, if_neg (by simp [alive])]
  rfl

theorem handleFlush_exited (driver : Driver) (responder : Nat) (pass : Pass) :
    (driver.handleCommand (.flush responder) pass).exited = driver.exited := by
  unfold Driver.handleCommand
  dsimp only
  split
  · rfl
  · exact (flushed_answering driver pass).exited

end answering

/-- Without a sink an idle driver has nothing pending. -/
theorem DepthOne.idle_none {driver : Driver} (held : DepthOne driver) (idle : driver.Idle) :
    driver.pendingAppend = none := by
  rcases idle with none | ⟨envelope, placed, encodedBytes, waits⟩
  · exact none
  · obtain ⟨work, wrong⟩ := held.works _ waits
    cases wrong

/-- A driver without a sink ends in a pass that finds it poisoned, or that finds all handles
gone. -/
theorem iterate_exits [Digests] {driver : Driver} (held : DepthOne driver)
    (running : driver.exited = false) {pass : Pass} (plain : pass.Plain)
    (ended : (driver.iterate pass).exited = true) :
    (driver.poisoned = true ∧ driver.iterate pass =
        { (driver.atTime pass.started).poisonBlocked with exited := true }) ∨
      ∃ now ageSleep deadline, driver.Idle ∧
        driver.iterate pass = (driver.awake now ageSleep deadline).close pass := by
  have runs {state : Driver} (atEnd : state.exited = true) (same : state.exited = driver.exited) :
      False := by
    rw [same, running] at atEnd
    cases atEnd
  have turn := driver.iterate_turn pass
  generalize driver.iterate pass = after at turn ended
  cases turn with
  | atEnd ended => exact absurd running (by simp [ended])
  | refuse _ _ command =>
      exfalso
      cases command <;> exact runs ended rfl
  | linger => exact (runs ended rfl).elim
  | leave _ poisoned => exact Or.inl ⟨poisoned, rfl⟩
  | append => exact (runs ended (appendDepthOne_answering _ pass).exited).elim
  | enqueue _ _ envelope placed encodedBytes pending =>
      obtain ⟨work, wrong⟩ := held.works _ pending
      cases wrong
  | rest => exact (runs ended rfl).elim
  | sealDue => exact (runs ended (sealOpen_answering drainBlocked_answering _).exited).elim
  | command _ _ idle now ageSleep deadline command arrived =>
      exfalso
      have asked := plain command arrived
      cases command with
      | submit submission =>
          exact runs ended (admit_answering drainBlocked_answering _ _ _).exited
      | flush responder => exact runs ended (handleFlush_exited _ responder pass)
      | blobSinkSeal => exact asked
      | blobSinkAppendRefs => exact asked
      | blobSinkCommitted => exact asked
  | close _ _ idle now ageSleep deadline => exact Or.inr ⟨now, ageSleep, deadline, idle, rfl⟩

end Scripture
