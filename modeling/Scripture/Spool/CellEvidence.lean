import Scripture.Spool.CellAccounting

set_option autoImplicit false

/- What the segment of a cell proves about its submissions. The evidence holds in every run in which
frames are appended behind whole frames only, and no identity is submitted to the segment twice. -/
namespace Scripture.Spool

open ByteFormat AppendLog

section segment

variable [Digests]

/-- The frames of a segment that a sync has covered, those behind them, and perhaps the beginning of
one more. -/
def Stands (old new : List SpoolFrame) (file : LogFile) : Prop :=
  ∃ lost front back rest, file.bytes = front ++ (back ++ rest) ∧ front.length = file.synced ∧
    Laid Spells old front ∧ Laid Spells new back ∧ Torn Spells lost rest

/-- The frames a scan of the synced bytes finds. -/
def syncedFrames (file : LogFile) : List SpoolFrame := scannedFrames (file.bytes.take file.synced)

variable {old new : List SpoolFrame}

theorem Stands.synced {file : LogFile} (stands : Stands old new file) :
    syncedFrames file = old := by
  obtain ⟨lost, front, back, rest, split, covered, first, -, -⟩ := stands
  rw [syncedFrames, split, ← covered, List.take_left]
  exact (scanBytes_laid first).1

theorem Stands.scanned {file : LogFile} (stands : Stands old new file) :
    scannedFrames file.bytes = old ++ new := by
  obtain ⟨lost, front, back, rest, split, -, first, second, torn⟩ := stands
  rw [split, ← List.append_assoc]
  exact (scanBytes_cut (first.append second) torn).1

/-- After a crash the synced frames are found, some of those behind them, and no corruption. -/
theorem Stands.crash {file : LogFile} (stands : Stands old new file) (count : Nat) :
    ∃ kept gone, new = kept ++ gone ∧ scannedFrames (file.crash count).bytes = old ++ kept ∧
      (scanBytes (file.crash count).bytes).2.isCorruptMiddle = false := by
  obtain ⟨lost, front, back, rest, split, covered, first, second, torn⟩ := stands
  obtain ⟨kept, gone, whole, part, rfl, laid, parted, torn⟩ :=
    second.cut_torn torn (max count file.synced - front.length)
  have bytes : (file.crash count).bytes = (front ++ whole) ++ part := by
    rw [LogFile.crash_bytes, split, List.take_append, List.take_of_length_le (by omega), parted,
      List.append_assoc]
  obtain ⟨scanned, tail⟩ := scanBytes_cut (first.append laid) torn
  refine ⟨kept, gone, rfl, ?_, ?_⟩
  · rw [bytes]
    exact scanned
  · rw [bytes, tail]
    split <;> rfl

/-- What a write behind whole frames leaves: the frame is missing, there, or there and synced. -/
theorem Stands.persist {storage : FileSpoolStorage} (stands : Stands old new storage.segment)
    (whole : Whole storage.segment) (frame : SpoolFrame) (reply : WriteReply) (synced : Bool) :
    let after := storage.persist frame reply synced
    ∃ grown behind added, old <+: grown ∧ Stands grown behind after.1.segment ∧
      grown ++ behind = old ++ new ++ added ∧ (added = [] ∨ added = [frame]) ∧
      (after.2 = .ok () → grown = old ++ new ++ [frame]) := by
  obtain ⟨lost, front, back, rest, split, covered, first, second, torn⟩ := stands
  obtain rfl : rest = [] := by
    refine untorn_of_clean (first.append second) torn ?_
    rw [List.append_assoc, ← split]
    exact whole
  rw [List.append_nil] at split
  rcases storage.persist_cases frame reply synced with
    ⟨error, same⟩ | ⟨encoded, part, encodes, begins, segment, failed⟩ | ⟨encoded, encodes, same⟩
  · refine ⟨old, new, [], List.prefix_rfl, ?_, by simp, Or.inl rfl, ?_⟩
    · rw [same]
      exact ⟨lost, front, back, [], by simpa using split, covered, first, second, torn⟩
    · rw [same]
      intro persisted
      cases persisted
  · have unsynced : (storage.persist frame reply synced).2 = .ok () →
        old = old ++ new ++ [frame] := by
      rw [failed]
      intro persisted
      cases persisted
    have spelled := encodeFrame_spells encodes
    rcases torn_of_prefix spelled begins with rfl | torn
    · refine ⟨old, new ++ [frame], [frame], List.prefix_rfl, ?_, by simp, Or.inr rfl, unsynced⟩
      rw [segment]
      refine ⟨[], front, back ++ part, [], ?_, covered, first, second.concat spelled, Or.inl rfl⟩
      rw [LogFile.append_bytes, split, List.append_nil, List.append_assoc]
    · refine ⟨old, new, [], List.prefix_rfl, ?_, by simp, Or.inl rfl, unsynced⟩
      rw [segment]
      refine ⟨[frame], front, back, part, ?_, covered, first, second, torn⟩
      rw [LogFile.append_bytes, split, List.append_assoc]
  · refine ⟨old ++ new ++ [frame], [], [frame], ⟨new ++ [frame], by simp⟩, ?_, by simp, Or.inr rfl,
      fun _ => rfl⟩
    rw [same]
    refine ⟨[], front ++ back ++ encoded, [], [], ?_, ?_,
      (first.append second).concat (encodeFrame_spells encodes), .nil, Or.inl rfl⟩
    · rw [LogFile.sync_bytes, LogFile.append_bytes, split]
      simp
    · rw [LogFile.sync_synced, LogFile.append_bytes, split]

end segment

/-- The receipts of the driver. -/
abbrev Answers := List (Submission × Except DriverError Receipt)

/-- Frames in which every identity is submitted and reported once at most, and reported only behind
its submission and after its receipt. -/
structure History (journalId : JournalId) (answers : Answers) (frames : List SpoolFrame) :
    Prop where
  submittedOnce : (submitted frames).Nodup
  reportedOnce : (progressed frames).Nodup
  reports : ∀ front identity back, frames = front ++ .progress identity :: back →
    identity ∈ submitted front ∧ ∃ submission receipt, (submission, .ok receipt) ∈ answers ∧
      progressIdentity journalId submission = identity

namespace History

variable {journalId : JournalId} {answers : Answers} {frames : List SpoolFrame}

theorem nil : History journalId answers [] := by
  refine ⟨List.nodup_nil, List.nodup_nil, ?_⟩
  intro front identity back empty
  cases front <;> cases empty

theorem mono (history : History journalId answers frames) {later : Answers}
    (more : answers ⊆ later) : History journalId later frames := by
  refine ⟨history.submittedOnce, history.reportedOnce, ?_⟩
  intro front identity back split
  obtain ⟨behind, submission, receipt, answered, same⟩ := history.reports front identity back split
  exact ⟨behind, submission, receipt, more answered, same⟩

theorem front {later : List SpoolFrame} (history : History journalId answers (frames ++ later)) :
    History journalId answers frames := by
  have submissions := history.submittedOnce
  have reports := history.reportedOnce
  rw [submitted_append] at submissions
  rw [progressed_append] at reports
  refine ⟨submissions.of_append_left, reports.of_append_left, ?_⟩
  intro front identity back split
  refine history.reports front identity (back ++ later) ?_
  rw [split, List.append_assoc, List.cons_append]

theorem mem_progressed {identity : ProgressIdentity} (member : identity ∈ progressed frames) :
    ∃ front back, frames = front ++ .progress identity :: back := by
  obtain ⟨frame, among, reports⟩ := List.mem_filterMap.mp member
  obtain ⟨front, back, split⟩ := List.append_of_mem among
  cases frame with
  | progress other =>
      cases reports
      exact ⟨front, back, split⟩
  | submission _ _ => cases reports
  | preCommit _ _ _ _ _ => cases reports

theorem reported_submitted (history : History journalId answers frames)
    {identity : ProgressIdentity} (member : identity ∈ progressed frames) :
    identity ∈ submitted frames := by
  obtain ⟨front, back, split⟩ := mem_progressed member
  rw [split, submitted_append]
  exact List.mem_append_left _ (history.reports front identity back split).1

theorem submit (history : History journalId answers frames) {submission : Submission}
    (absent : progressIdentity journalId submission ∉ submitted frames) :
    History journalId answers (frames ++ [.submission journalId submission]) := by
  refine ⟨?_, ?_, ?_⟩
  · rw [submitted_append]
    exact nodup_concat_iff.mpr ⟨history.submittedOnce, absent⟩
  · rw [progressed_append]
    exact (List.append_nil (progressed frames)).symm ▸ history.reportedOnce
  · intro front identity back split
    -- The new frame reports nothing, so the report stands among the earlier frames.
    rcases List.eq_nil_or_concat back with rfl | ⟨earlier, last, rfl⟩
    · have last := (List.append_inj' split rfl).2
      cases last
    · rw [List.concat_eq_append, ← List.cons_append, ← List.append_assoc] at split
      exact history.reports front identity earlier (List.append_inj' split rfl).1

theorem report (history : History journalId answers frames) {submission : Submission}
    {receipt : Receipt} (present : progressIdentity journalId submission ∈ submitted frames)
    (absent : progressIdentity journalId submission ∉ progressed frames)
    (answered : (submission, .ok receipt) ∈ answers) :
    History journalId answers (frames ++ [.progress (progressIdentity journalId submission)]) := by
  refine ⟨?_, ?_, ?_⟩
  · rw [submitted_append]
    exact (List.append_nil (submitted frames)).symm ▸ history.submittedOnce
  · rw [progressed_append]
    exact nodup_concat_iff.mpr ⟨history.reportedOnce, absent⟩
  · intro front identity back split
    rcases List.eq_nil_or_concat back with rfl | ⟨earlier, last, rfl⟩
    · obtain ⟨rfl, last⟩ := List.append_inj' split rfl
      cases last
      exact ⟨present, submission, receipt, answered, rfl⟩
    · rw [List.concat_eq_append, ← List.cons_append, ← List.append_assoc] at split
      exact history.reports front identity earlier (List.append_inj' split rfl).1

end History

/-- The frames hold a submission and, behind it, its progress. -/
def Proven (journalId : JournalId) (frames : List SpoolFrame) (submission : Submission) : Prop :=
  ∃ front middle back, frames = front ++ .submission journalId submission ::
    (middle ++ .progress (progressIdentity journalId submission) :: back)

/-- What a course needs of the synced frames and of the receipts. -/
def Course.Backed (journalId : JournalId) (old : List SpoolFrame) (answers : Answers) :
    Course → Prop
  | .calling plan .settling _ | .calling plan .forwarding _ | .arrived plan .forwarded _
  | .arrived plan (.forwardFailed _) _ | .receipting plan =>
      .submission journalId plan.submission ∈ old
  | .persisting plan receipt =>
      .submission journalId plan.submission ∈ old ∧ (plan.submission, .ok receipt) ∈ answers
  | .releasing plan _ (.ok receipt) | .finishing plan (.ok receipt)
  | .finished plan (.ok receipt) =>
      Proven journalId old plan.submission ∧ (plan.submission, .ok receipt) ∈ answers
  | _ => True

/-- The identity of a durable submission whose progress was not written yet. -/
def Course.unreported (journalId : JournalId) : Course → Option ProgressIdentity
  | .calling plan .settling _ | .calling plan .forwarding _ | .arrived plan .forwarded _
  | .arrived plan (.forwardFailed _) _ | .receipting plan | .persisting plan _ =>
      some (progressIdentity journalId plan.submission)
  | _ => none

variable {journalId : JournalId}

theorem Proven.mono {frames grown : List SpoolFrame} {submission : Submission}
    (proven : Proven journalId frames submission) (longer : frames <+: grown) :
    Proven journalId grown submission := by
  obtain ⟨front, middle, back, rfl⟩ := proven
  obtain ⟨later, rfl⟩ := longer
  exact ⟨front, middle, back ++ later, by simp⟩

theorem Course.Backed.mono {old grown : List SpoolFrame} {answers more : Answers}
    {course : Course} (backed : course.Backed journalId old answers) (longer : old <+: grown)
    (kept : answers ⊆ more) : course.Backed journalId grown more := by
  unfold Course.Backed at backed ⊢
  split at backed <;> first
    | exact longer.subset backed
    | exact ⟨longer.subset backed.1, kept backed.2⟩
    | exact ⟨backed.1.mono longer, kept backed.2⟩
    | trivial

theorem Course.unreported_submitted {old : List SpoolFrame} {answers : Answers} {course : Course}
    {identity : ProgressIdentity} (backed : course.Backed journalId old answers)
    (unreported : course.unreported journalId = some identity) : identity ∈ submitted old := by
  have submits : ∀ submission : Submission, .submission journalId submission ∈ old →
      progressIdentity journalId submission ∈ submitted old := fun submission member =>
    List.mem_filterMap.mpr ⟨_, member, rfl⟩
  unfold Course.unreported at unreported
  split at unreported <;> cases unreported
  case _ => exact submits _ backed
  case _ => exact submits _ backed
  case _ => exact submits _ backed
  case _ => exact submits _ backed
  case _ => exact submits _ backed
  case _ => exact submits _ backed.1

/-- The identities of one place among those of the calls. -/
theorem unreported_split (front back : List Course) (course : Course) :
    (front ++ course :: back).filterMap (Course.unreported journalId) =
      front.filterMap (Course.unreported journalId) ++ ((course.unreported journalId).toList ++
        back.filterMap (Course.unreported journalId)) := by
  rw [List.filterMap_append, List.filterMap_cons]
  cases course.unreported journalId <;> rfl

/-- The evidence a cell has gathered. -/
structure Evidence [Digests] (journalId : JournalId) (file : LogFile) (calls : List Course)
    (forwards : List Submission) (answers : Answers) (old new : List SpoolFrame) : Prop where
  stands : Stands old new file
  history : History journalId answers (old ++ new)
  forwarded : ∀ submission ∈ forwards, .submission journalId submission ∈ old
  backed : ∀ course ∈ calls, course.Backed journalId old answers
  distinct : (calls.filterMap (Course.unreported journalId)).Nodup
  unreported : ∀ identity ∈ calls.filterMap (Course.unreported journalId),
    identity ∉ progressed (old ++ new)

namespace Evidence

variable [Digests] {journalId : JournalId} {file : LogFile} {front back : List Course}
  {course : Course} {forwards : List Submission} {answers : Answers} {old new : List SpoolFrame}

/-- Everything but the place that changes is kept. -/
theorem change
    (evidence : Evidence journalId file (front ++ course :: back) forwards answers old new)
    {after : LogFile} {next : Course} {handed : List Submission} {more : Answers}
    {grown behind : List SpoolFrame} (longer : old <+: grown) (stands : Stands grown behind after)
    (history : History journalId more (grown ++ behind))
    (forwarded : ∀ submission ∈ handed,
      submission ∈ forwards ∨ .submission journalId submission ∈ old)
    (kept : answers ⊆ more) (backed : next.Backed journalId grown more)
    (distinct : ((front ++ next :: back).filterMap (Course.unreported journalId)).Nodup)
    (unreported : ∀ identity ∈ (front ++ next :: back).filterMap (Course.unreported journalId),
      identity ∉ progressed (grown ++ behind)) :
    Evidence journalId after (front ++ next :: back) handed more grown behind := by
  refine ⟨stands, history, ?_, ?_, distinct, unreported⟩
  · intro submission member
    rcases forwarded submission member with earlier | durable
    · exact longer.subset (evidence.forwarded submission earlier)
    · exact longer.subset durable
  · intro other member
    rcases List.mem_append.mp member with before | after
    · exact (evidence.backed other (List.mem_append_left _ before)).mono longer kept
    · rcases List.mem_cons.mp after with rfl | after
      · exact backed
      · exact (evidence.backed other (by simp [after])).mono longer kept

theorem move (evidence : Evidence journalId file (front ++ course :: back) forwards answers old new)
    {next : Course} {handed : List Submission} {more : Answers}
    (forwarded : ∀ submission ∈ handed,
      submission ∈ forwards ∨ .submission journalId submission ∈ old)
    (kept : answers ⊆ more) (backed : next.Backed journalId old more)
    (same : next.unreported journalId = none ∨
      next.unreported journalId = course.unreported journalId) :
    Evidence journalId file (front ++ next :: back) handed more old new := by
  have fewer : ((front ++ next :: back).filterMap (Course.unreported journalId)).Sublist
      ((front ++ course :: back).filterMap (Course.unreported journalId)) := by
    rw [unreported_split, unreported_split]
    refine (List.Sublist.refl _).append (List.Sublist.append ?_ (List.Sublist.refl _))
    rcases same with none | same
    · rw [none]
      exact List.nil_sublist _
    · rw [same]
  refine evidence.change List.prefix_rfl evidence.stands (evidence.history.mono kept) forwarded kept
    backed (fewer.nodup evidence.distinct) ?_
  intro identity member
  exact evidence.unreported identity (fewer.subset member)

/-- Every identity that is not reported yet was submitted. -/
theorem unreported_submitted {calls : List Course}
    (evidence : Evidence journalId file calls forwards answers old new) :
    ∀ identity ∈ calls.filterMap (Course.unreported journalId),
      identity ∈ submitted (old ++ new) := by
  intro identity member
  obtain ⟨course, among, unreported⟩ := List.mem_filterMap.mp member
  rw [submitted_append]
  exact List.mem_append_left _
    (Course.unreported_submitted (evidence.backed course among) unreported)

/-- The frame of a submission whose identity is new to the segment. -/
theorem submit {storage : FileSpoolStorage} {plan : Plan} {taken : Bool}
    (evidence : Evidence journalId storage.segment (front ++ .calling plan .writing taken :: back)
      forwards answers old new)
    (whole : Whole storage.segment)
    (absent : progressIdentity journalId plan.submission ∉
      submitted (scannedFrames storage.segment.bytes))
    (reply : WriteReply) (synced : Bool) (next : Course)
    (course : (next = .calling plan .settling taken ∧
        (storage.persist (.submission journalId plan.submission) reply synced).2 = .ok ()) ∨
      ∃ error, next = .calling plan (.aborting error) taken) :
    ∃ grown behind, Evidence journalId
      (storage.persist (.submission journalId plan.submission) reply synced).1.segment
      (front ++ next :: back) forwards answers grown behind := by
  rw [evidence.stands.scanned] at absent
  obtain ⟨grown, behind, added, longer, stands, frames, which, durable⟩ :=
    evidence.stands.persist whole (.submission journalId plan.submission) reply synced
  have history : History journalId answers (grown ++ behind) := by
    rw [frames]
    rcases which with rfl | rfl
    · rw [List.append_nil]
      exact evidence.history
    · exact evidence.history.submit absent
  have reports : progressed (grown ++ behind) = progressed (old ++ new) := by
    rw [frames, progressed_append]
    rcases which with rfl | rfl <;> exact List.append_nil _
  have distinct := evidence.distinct
  have unreported := evidence.unreported
  have earlier := evidence.unreported_submitted
  rw [unreported_split] at distinct unreported earlier
  refine ⟨grown, behind, evidence.change longer stands history (fun _ member => Or.inl member)
    (List.Subset.refl _) ?_ ?_ ?_⟩
  · rcases course with ⟨rfl, persisted⟩ | ⟨error, rfl⟩
    · rw [durable persisted]
      exact List.mem_append_right _ (List.mem_singleton.mpr rfl)
    · trivial
  · rw [unreported_split]
    rcases course with ⟨rfl, -⟩ | ⟨error, rfl⟩
    · exact List.nodup_middle.mpr (List.nodup_cons.mpr
        ⟨fun member => absent (earlier _ member), distinct⟩)
    · exact distinct
  · rw [reports, unreported_split]
    rcases course with ⟨rfl, -⟩ | ⟨error, rfl⟩
    · intro identity member
      rcases List.mem_cons.mp (List.perm_middle.mem_iff.mp member) with rfl | member
      · exact fun reported => absent (evidence.history.reported_submitted reported)
      · exact unreported identity member
    · exact unreported

/-- The progress frame of a submission that has its receipt. -/
theorem report {storage : FileSpoolStorage} {plan : Plan} {receipt : Receipt}
    (evidence : Evidence journalId storage.segment (front ++ .persisting plan receipt :: back)
      forwards answers old new)
    (whole : Whole storage.segment) (reply : WriteReply) (synced : Bool) (next : Course)
    (course : (next = .releasing plan none (.ok receipt) ∧
        (storage.persist (.progress (progressIdentity journalId plan.submission)) reply synced).2 =
          .ok ()) ∨
      ∃ cause error, next = .releasing plan cause (.error error)) :
    ∃ grown behind, Evidence journalId
      (storage.persist (.progress (progressIdentity journalId plan.submission)) reply
        synced).1.segment
      (front ++ next :: back) forwards answers grown behind := by
  obtain ⟨durable, answered⟩ := evidence.backed (.persisting plan receipt) (by simp)
  obtain ⟨grown, behind, added, longer, stands, frames, which, synced⟩ :=
    evidence.stands.persist whole (.progress (progressIdentity journalId plan.submission)) reply
      synced
  have distinct := evidence.distinct
  have unreported := evidence.unreported
  rw [unreported_split] at distinct unreported
  obtain ⟨alone, distinct⟩ := List.nodup_cons.mp (List.nodup_middle.mp distinct)
  have waiting := unreported _ (List.perm_middle.mem_iff.mpr List.mem_cons_self)
  have others := fun identity member =>
    unreported identity (List.perm_middle.mem_iff.mpr (List.mem_cons_of_mem _ member))
  have present : progressIdentity journalId plan.submission ∈ submitted (old ++ new) := by
    rw [submitted_append]
    exact List.mem_append_left _ (List.mem_filterMap.mpr ⟨_, durable, rfl⟩)
  have history : History journalId answers (grown ++ behind) := by
    rw [frames]
    rcases which with rfl | rfl
    · rw [List.append_nil]
      exact evidence.history
    · exact evidence.history.report present waiting answered
  have fewer : (front ++ next :: back).filterMap (Course.unreported journalId) =
      front.filterMap (Course.unreported journalId) ++
        back.filterMap (Course.unreported journalId) := by
    rw [unreported_split]
    rcases course with ⟨rfl, -⟩ | ⟨cause, error, rfl⟩ <;> rfl
  refine ⟨grown, behind, evidence.change longer stands history (fun _ member => Or.inl member)
    (List.Subset.refl _) ?_ ?_ ?_⟩
  · rcases course with ⟨rfl, persisted⟩ | ⟨cause, error, rfl⟩
    · obtain ⟨first, second, rfl⟩ := List.append_of_mem durable
      refine ⟨⟨first, second ++ new, [], ?_⟩, answered⟩
      rw [synced persisted]
      simp
    · trivial
  · rw [fewer]
    exact distinct
  · rw [fewer, frames, progressed_append]
    intro identity member reported
    rcases List.mem_append.mp reported with before | added
    · exact others identity member before
    · rcases which with rfl | rfl
      · cases added
      · rw [List.mem_singleton.mp added] at member
        exact alone member

end Evidence

theorem CellShared.poison_storage (shared : CellShared) (cause : SpoolPoisonCause) :
    (shared.poison cause).storage = shared.storage := by
  unfold CellShared.poison
  split <;> rfl

section steps

variable [Digests] [ErrorTexts]

/-- A step of a call that does not write. -/
theorem callerStep_plain (shared : CellShared) (input : CallerInput) {course : Course}
    (silent : ∀ plan taken, course ≠ .calling plan .writing taken) (journalId : JournalId)
    {old : List SpoolFrame} {answers : Answers} (backed : course.Backed journalId old answers) :
    (callerStep shared input course).1.storage = shared.storage ∧
    (callerStep shared input course).2.Backed journalId old answers ∧
    ((callerStep shared input course).2.unreported journalId = none ∨
      (callerStep shared input course).2.unreported journalId = course.unreported journalId) := by
  have poisoned := shared.poison_storage .forwardFailed
  cases course with
  | entered submission =>
      simp only [callerStep]
      split
      · exact ⟨rfl, trivial, Or.inl rfl⟩
      · split
        · exact ⟨rfl, trivial, Or.inl rfl⟩
        · split <;> exact ⟨rfl, trivial, Or.inl rfl⟩
  | reserving plan =>
      simp only [callerStep]
      split <;> exact ⟨rfl, trivial, Or.inl rfl⟩
  | slotting plan =>
      simp only [callerStep]
      split <;> exact ⟨rfl, trivial, Or.inl rfl⟩
  | queueing plan =>
      simp only [callerStep]
      split <;> exact ⟨rfl, trivial, Or.inl rfl⟩
  | calling plan stage taken =>
      cases stage with
      | writing => exact absurd rfl (silent plan taken)
      | aborting error => exact ⟨rfl, trivial, Or.inl rfl⟩
      | settling => exact ⟨rfl, backed, Or.inr rfl⟩
      | forwarding =>
          simp only [callerStep]
          split
          · exact ⟨rfl, backed, Or.inr rfl⟩
          · exact ⟨poisoned, backed, Or.inr rfl⟩
  | _ => exact ⟨rfl, backed, Or.inr rfl⟩

/-- A step of the completer that does not write. -/
theorem completerStep_plain (shared : CellShared) (input : CompleterInput) {course : Course}
    (silent : ∀ plan receipt, course ≠ .persisting plan receipt) (journalId : JournalId)
    {old : List SpoolFrame} {answers : Answers} (backed : course.Backed journalId old answers) :
    (completerStep shared input course).1.storage = shared.storage ∧
    (completerStep shared input course).2.Backed journalId old
      (SpoolCell.resolved course input answers) ∧
    ((completerStep shared input course).2.unreported journalId = none ∨
      (completerStep shared input course).2.unreported journalId =
        course.unreported journalId) := by
  cases course with
  | arrived plan delivery taken =>
      cases taken with
      | false => cases delivery <;> exact ⟨rfl, backed, Or.inr rfl⟩
      | true =>
          cases delivery with
          | canceled => exact ⟨rfl, trivial, Or.inl rfl⟩
          | forwardFailed error => exact ⟨rfl, trivial, Or.inl rfl⟩
          | forwarded => exact ⟨rfl, backed, Or.inr rfl⟩
  | receipting plan =>
      simp only [completerStep]
      split
      · exact ⟨rfl, trivial, Or.inl rfl⟩
      · rename_i receipt answered
        refine ⟨rfl, ⟨backed, ?_⟩, Or.inr rfl⟩
        rw [SpoolCell.resolved, answered]
        exact List.mem_append_right _ (List.mem_singleton.mpr rfl)
  | persisting plan receipt => exact absurd rfl (silent plan receipt)
  | releasing plan cause outcome =>
      refine ⟨?_, ?_, Or.inl rfl⟩
      · cases cause with
        | none => rfl
        | some cause => exact (shared.release plan.progressBytes 1).poison_storage cause
      · cases outcome with
        | error error => trivial
        | ok receipt => exact backed
  | finishing plan outcome =>
      refine ⟨rfl, ?_, Or.inl rfl⟩
      cases outcome with
      | error error => trivial
      | ok receipt => exact backed
  | _ => exact ⟨rfl, backed, Or.inr rfl⟩

end steps

namespace SpoolCell

variable [Digests]

/-- A frame is appended behind whole frames, and a submission only where its identity was not
submitted before. -/
def AppendsClean (cell : SpoolCell) (event : CellEvent) : Prop :=
  ∀ frame ∈ cell.appends event, Whole cell.shared.storage.segment ∧
    ∀ identity ∈ submissionIdentity frame,
      identity ∉ submitted (scannedFrames cell.shared.storage.segment.bytes)

instance (cell : SpoolCell) (event : CellEvent) : Decidable (cell.AppendsClean event) := by
  unfold AppendsClean
  infer_instance

def Evident (cell : SpoolCell) : Prop :=
  ∃ old new, Evidence cell.shared.journalId cell.shared.storage.segment cell.calls cell.forwards
    cell.answers old new

variable {cell : SpoolCell}

theorem evident_open {journalId : JournalId} {config : SpoolConfig}
    (opened : SpoolCell.open journalId config .empty = .ok cell) : cell.Evident := by
  obtain ⟨-, -, built⟩ := bind_eq_ok.mp opened
  cases built
  refine ⟨[], [], ⟨[], [], [], [], rfl, rfl, .nil, .nil, Or.inl rfl⟩, .nil, ?_, ?_, ?_, ?_⟩
  · intro submission member
    cases member
  · intro course member
    cases member
  · exact List.nodup_nil
  · intro identity member
    cases member

variable [ErrorTexts]

theorem evident_advance (evident : cell.Evident) (call : Nat) (input : CallerInput)
    (clean : cell.AppendsClean (.advance call input)) :
    (cell.advance call input).Evident := by
  unfold advance
  cases found : cell.calls[call]? with
  | none => exact evident
  | some course =>
      obtain ⟨old, new, evidence⟩ := evident
      obtain ⟨front, back, split, changed, -⟩ := list_split found
      rw [split] at evidence
      have backed := evidence.backed course (by simp)
      unfold Evident
      dsimp only
      rw [changed, (callerStep_frame cell.shared input course).1]
      by_cases writes : ∃ plan taken, course = .calling plan .writing taken
      · obtain ⟨plan, taken, rfl⟩ := writes
        obtain ⟨whole, absent⟩ := clean (.submission cell.shared.journalId plan.submission)
          (by rw [appends, found]; rfl)
        have submits := evidence.submit whole (absent _ rfl) input.reply input.synced
        simp only [callerStep, handed]
        split
        · rename_i storage error persisted
          rw [persisted] at submits
          exact submits _ (Or.inr ⟨error, rfl⟩)
        · rename_i storage persisted
          rw [persisted] at submits
          exact submits _ (Or.inl ⟨rfl, rfl⟩)
      · obtain ⟨storage, after, same⟩ := callerStep_plain cell.shared input
          (fun plan taken same => writes ⟨plan, taken, same⟩) cell.shared.journalId backed
        rw [storage]
        refine ⟨old, new, evidence.move ?_ (List.Subset.refl _) after same⟩
        intro submission member
        unfold handed at member
        split at member
        · rcases List.mem_append.mp member with earlier | settled
          · exact Or.inl earlier
          · rw [List.mem_singleton.mp settled]
            exact Or.inr backed
        · exact Or.inl member

omit [ErrorTexts] in
/-- A change of one call that leaves the segment alone and asks for no more than before. -/
theorem evident_modify (evident : cell.Evident) (call : Nat) {change : Course → Course}
    (weaker : ∀ course old answers, course.Backed cell.shared.journalId old answers →
      (change course).Backed cell.shared.journalId old answers)
    (same : ∀ course, (change course).unreported cell.shared.journalId = none ∨
      (change course).unreported cell.shared.journalId =
        course.unreported cell.shared.journalId) :
    ∃ old new, Evidence cell.shared.journalId cell.shared.storage.segment
      (cell.calls.modify call change) cell.forwards cell.answers old new := by
  cases found : cell.calls[call]? with
  | none =>
      rw [list_modify_absent found]
      exact evident
  | some course =>
      obtain ⟨old, new, evidence⟩ := evident
      obtain ⟨front, back, split, -, changed⟩ := list_split found
      rw [split] at evidence
      rw [changed]
      exact ⟨old, new, evidence.move (fun _ member => Or.inl member) (List.Subset.refl _)
        (weaker course _ _ (evidence.backed course (by simp))) (same course)⟩

theorem evident_complete (evident : cell.Evident) (input : CompleterInput)
    (clean : cell.AppendsClean (.complete input)) : (cell.complete input).Evident := by
  unfold complete
  split
  · exact evident
  · split
    · split
      · exact evident
      · refine evident_modify evident _ ?_ ?_
        · intro course old answers backed
          cases course with
          | calling plan stage taken => cases stage <;> exact backed
          | arrived plan delivery taken => cases delivery <;> exact backed
          | _ => exact backed
        · intro course
          refine Or.inr ?_
          cases course with
          | calling plan stage taken => cases stage <;> rfl
          | arrived plan delivery taken => cases delivery <;> rfl
          | _ => rfl
    · rename_i call completing
      split
      · exact evident
      · rename_i course found
        obtain ⟨old, new, evidence⟩ := evident
        obtain ⟨front, back, split, changed, -⟩ := list_split found
        rw [split] at evidence
        have backed := evidence.backed course (by simp)
        unfold Evident
        dsimp only
        rw [changed, (completerStep_frame cell.shared input course).1]
        by_cases writes : ∃ plan receipt, course = .persisting plan receipt
        · obtain ⟨plan, receipt, rfl⟩ := writes
          obtain ⟨whole, -⟩ := clean
            (.progress (progressIdentity cell.shared.journalId plan.submission))
            (by rw [appends, completing, Option.bind_some, found]; rfl)
          have reports := evidence.report whole input.reply input.synced
          simp only [completerStep, resolved]
          split
          · rename_i storage persisted
            rw [persisted] at reports
            exact reports _ (Or.inl ⟨rfl, rfl⟩)
          · rename_i storage error persisted
            rw [persisted] at reports
            exact reports _ (Or.inr ⟨_, _, rfl⟩)
        · obtain ⟨storage, after, same⟩ := completerStep_plain cell.shared input
            (fun plan receipt same => writes ⟨plan, receipt, same⟩) cell.shared.journalId backed
          rw [storage]
          refine ⟨old, new, evidence.move (fun _ member => Or.inl member) ?_ after same⟩
          unfold resolved
          split
          · exact List.subset_append_left _ _
          · exact List.Subset.refl _

theorem evident_step (evident : cell.Evident) (event : CellEvent)
    (clean : cell.AppendsClean event) : (cell.step event).Evident := by
  cases event with
  | submit submission =>
      obtain ⟨old, new, evidence⟩ := evident
      have same : (cell.calls ++ [Course.entered submission]).filterMap
          (Course.unreported cell.shared.journalId) =
          cell.calls.filterMap (Course.unreported cell.shared.journalId) := by
        rw [List.filterMap_append]
        exact List.append_nil _
      refine ⟨old, new, evidence.stands, evidence.history, evidence.forwarded, ?_, ?_, ?_⟩
      · intro course member
        rcases List.mem_append.mp member with earlier | entered
        · exact evidence.backed course earlier
        · rw [List.mem_singleton.mp entered]
          trivial
      · exact same ▸ evidence.distinct
      · exact same ▸ evidence.unreported
  | advance call input => exact evident_advance evident call input clean
  | drop call =>
      refine evident_modify evident call ?_ ?_
      · intro course old answers backed
        unfold dropCall
        split
        · trivial
        · exact backed
      · intro course
        unfold dropCall
        split
        · exact Or.inl rfl
        · exact Or.inr rfl
  | complete input => exact evident_complete evident input clean
  | stop => exact evident

/-- What the segment proves. A receipt that was delivered is backed by its two frames and by the
driver's receipt, a submission is forwarded only when its frame is synced, and a crash leaves a
history without corruption in which every forwarded submission is found. -/
theorem evidence_holds {journalId : JournalId} {config : SpoolConfig} {cell : SpoolCell}
    (opened : SpoolCell.open journalId config .empty = .ok cell) {events : List CellEvent}
    (clean : Machine.Along step AppendsClean cell events) :
    let last := Machine.run step cell events
    let file := last.shared.storage.segment
    let journal := last.shared.journalId
    (∀ plan receipt, .finished plan (.ok receipt) ∈ last.calls →
      Proven journal (syncedFrames file) plan.submission ∧
        (plan.submission, .ok receipt) ∈ last.answers) ∧
    (∀ submission ∈ last.forwards, .submission journal submission ∈ syncedFrames file) ∧
    ∀ count, let report := scanAndClassify (file.crash count)
      report.corruptHistory = false ∧
      (∀ identity, (identity, .committedLocally) ∈ report.frames →
        ∃ submission receipt, (submission, .ok receipt) ∈ last.answers ∧
          progressIdentity journal submission = identity) ∧
      ∀ submission ∈ last.forwards,
        (progressIdentity journal submission, .committedLocally) ∉ report.frames →
        (progressIdentity journal submission, .pendingUnclassified) ∈ report.frames := by
  intro last file journal
  obtain ⟨old, new, evidence⟩ : last.Evident := clean.invariant
    (fun _ event evident clean => evident_step evident event clean) (evident_open opened)
  rw [evidence.stands.synced]
  refine ⟨fun plan receipt delivered => evidence.backed _ delivered, evidence.forwarded, ?_⟩
  intro count report
  obtain ⟨kept, gone, rfl, scanned, tail⟩ := evidence.stands.crash count
  have history : History journal last.answers (old ++ kept) := by
    have whole := evidence.history
    rw [← List.append_assoc] at whole
    exact whole.front
  have classes : ∀ {identity class_}, (identity, class_) ∈ report.frames ↔
      identity ∈ submitted (old ++ kept) ∧
        class_ = if identity ∈ progressed (old ++ kept) then .committedLocally
          else .pendingUnclassified := by
    intro identity class_
    rw [← scanned]
    exact mem_classifyFrames
  refine ⟨?_, ?_, ?_⟩
  · refine classifyFrames_corrupt.mpr ⟨tail, ?_⟩
    rw [scanned]
    exact ⟨history.submittedOnce, history.reportedOnce, fun _ => history.reported_submitted⟩
  · intro identity member
    obtain ⟨-, class_⟩ := classes.mp member
    by_cases reported : identity ∈ progressed (old ++ kept)
    · obtain ⟨front, back, split⟩ := History.mem_progressed reported
      exact (history.reports front identity back split).2
    · rw [if_neg reported] at class_
      cases class_
  · intro submission forwarded local_
    have present : progressIdentity journal submission ∈ submitted (old ++ kept) := by
      rw [submitted_append]
      exact List.mem_append_left _
        (List.mem_filterMap.mpr ⟨_, evidence.forwarded submission forwarded, rfl⟩)
    refine classes.mpr ⟨present, ?_⟩
    by_cases reported : progressIdentity journal submission ∈ progressed (old ++ kept)
    · exact absurd (classes.mpr ⟨present, (if_pos reported).symm⟩) local_
    · rw [if_neg reported]

end SpoolCell

namespace SpoolCell

theorem evidence_holds_one : ∃ (_ : Digests) (_ : ErrorTexts) (cell : SpoolCell),
    SpoolCell.open sampleJournal oneAtATime .empty = .ok cell ∧
    let last := Machine.run step cell (.submit (oneRecord 1 0) :: wholeCourse 0)
    last.forwards = [oneRecord 1 0] ∧
      .submission sampleJournal (oneRecord 1 0) ∈ syncedFrames last.shared.storage.segment := by
  refine ⟨sampleDigests, sampleTexts, _, rfl, by decide +kernel, ?_⟩
  have proven := @evidence_holds sampleDigests sampleTexts sampleJournal oneAtATime _ rfl
    (.submit (oneRecord 1 0) :: wholeCourse 0) (by decide +kernel)
  exact proven.2.1 (oneRecord 1 0) (by decide +kernel)

/-- A submission whose frame was written but not synced is refused; when it is tried again its frame
stands in the segment twice, and a crash after its receipt finds a corrupt history. -/
theorem evidence_spoiled : ∃ (_ : Digests) (_ : ErrorTexts) (cell : SpoolCell),
    SpoolCell.open sampleJournal oneAtATime .empty = .ok cell ∧
    let last := Machine.run step cell
      (.submit (oneRecord 1 0) :: (List.replicate 4 (.advance 0 served) ++
        .advance 0 ⟨.written, false, .ok ()⟩ :: .advance 0 served ::
        (List.replicate 3 (.complete committed) ++ .submit (oneRecord 1 0) :: wholeCourse 1)))
    last.forwards = [oneRecord 1 0] ∧ last.answers.map Prod.fst = [oneRecord 1 0] ∧
      (scanAndClassify (last.shared.storage.segment.crash 0)).corruptHistory = true := by
  refine ⟨sampleDigests, sampleTexts, _, rfl, ?_⟩
  decide +kernel

end SpoolCell

end Scripture.Spool
