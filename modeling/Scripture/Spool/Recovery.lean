import Scripture.Spool.Index

set_option autoImplicit false

/- The classification of a spool after a crash, without replay. -/
namespace Scripture.Spool

open ByteFormat AppendLog

inductive FrameClassification where
  | committedLocally
  | pendingUnclassified
  deriving DecidableEq

/-- A file that cannot be read is left out: a scan here always has the bytes. -/
inductive RecoveryClassification where
  | cleanEmpty
  | recoveryRequired (frames : List (ProgressIdentity × FrameClassification))
      (tornTerminal corruptHistory : Bool)
  deriving DecidableEq

structure RecoveryReport where
  classification : RecoveryClassification
  committedLocally : Nat
  pendingUnclassified : Nat
  tornTerminal : Bool
  corruptHistory : Bool
  validFrames : Nat
  deriving DecidableEq

def RecoveryReport.recoveryRequired (report : RecoveryReport) : Bool :=
  report.classification ≠ .cleanEmpty

/-- What the loop over the frames has collected. -/
structure Collected where
  submissions : Finset ProgressIdentity
  progress : Finset ProgressIdentity
  ordered : List ProgressIdentity
  corrupt : Bool
  deriving DecidableEq

def Collected.add (collected : Collected) : SpoolFrame → Collected
  | .progress identity =>
      { collected with
        progress := insert identity collected.progress
        corrupt := collected.corrupt || decide (identity ∈ collected.progress) }
  | frame =>
      { collected with
        submissions := insert frame.identity collected.submissions
        ordered := collected.ordered ++ [frame.identity]
        corrupt := collected.corrupt || decide (frame.identity ∈ collected.submissions) }

def classOf (progress : Finset ProgressIdentity) (identity : ProgressIdentity) :
    FrameClassification :=
  if identity ∈ progress then .committedLocally else .pendingUnclassified

def ScanTail.isTornTerminal : ScanTail → Bool
  | .tornTerminal _ _ => true
  | _ => false

def ScanTail.isCorruptMiddle : ScanTail → Bool
  | .corruptMiddle _ => true
  | _ => false

def classifyFrames (frames : List SpoolFrame) (tail : ScanTail) : RecoveryReport :=
  let tornTerminal := tail.isTornTerminal
  let collected := frames.foldl Collected.add ⟨∅, ∅, [], tail.isCorruptMiddle⟩
  let corruptHistory := collected.corrupt ||
    decide (∃ identity ∈ collected.progress, identity ∉ collected.submissions)
  let classified := collected.ordered.map fun identity =>
    (identity, classOf collected.progress identity)
  if frames = [] ∧ tornTerminal = false ∧ corruptHistory = false then
    ⟨.cleanEmpty, 0, 0, false, false, 0⟩
  else
    { classification := .recoveryRequired classified tornTerminal corruptHistory
      committedLocally := classified.countP fun entry => entry.2 = .committedLocally
      pendingUnclassified := classified.countP fun entry => entry.2 = .pendingUnclassified
      tornTerminal
      corruptHistory
      validFrames := frames.length }

def scanAndClassify [Digests] (file : LogFile) : RecoveryReport :=
  classifyFrames (scannedFrames file.bytes) (scanBytes file.bytes).2

/-- The classifications a report gives. -/
def RecoveryReport.frames (report : RecoveryReport) :
    List (ProgressIdentity × FrameClassification) :=
  match report.classification with
  | .cleanEmpty => []
  | .recoveryRequired frames _ _ => frames

def submissionIdentity : SpoolFrame → Option ProgressIdentity
  | .progress _ => none
  | frame => some frame.identity

def progressOf : SpoolFrame → Option ProgressIdentity
  | .progress identity => some identity
  | _ => none

/-- The identities a list of frames submits, and those it reports progress of. -/
def submitted (frames : List SpoolFrame) : List ProgressIdentity :=
  frames.filterMap submissionIdentity

def progressed (frames : List SpoolFrame) : List ProgressIdentity := frames.filterMap progressOf

@[simp] theorem submitted_append (front back : List SpoolFrame) :
    submitted (front ++ back) = submitted front ++ submitted back :=
  List.filterMap_append

@[simp] theorem progressed_append (front back : List SpoolFrame) :
    progressed (front ++ back) = progressed front ++ progressed back :=
  List.filterMap_append

theorem nodup_concat_iff {α : Type} {items : List α} {item : α} :
    (items ++ [item]).Nodup ↔ items.Nodup ∧ item ∉ items := by
  rw [List.nodup_append_comm, List.singleton_append, List.nodup_cons, and_comm]

theorem toFinset_concat {items : List ProgressIdentity} {item : ProgressIdentity} :
    (items ++ [item]).toFinset = insert item items.toFinset := by
  ext other
  simp

/-- A frame submits an identity or reports progress of one. -/
theorem frame_cases (frame : SpoolFrame) :
    (submitted [frame] = [frame.identity] ∧ progressed [frame] = [] ∧
      ∀ collected : Collected, collected.add frame =
        { collected with
          submissions := insert frame.identity collected.submissions
          ordered := collected.ordered ++ [frame.identity]
          corrupt := collected.corrupt || decide (frame.identity ∈ collected.submissions) }) ∨
    (∃ identity, frame = .progress identity ∧ submitted [frame] = [] ∧
      progressed [frame] = [identity]) := by
  cases frame with
  | submission journalId held => exact Or.inl ⟨rfl, rfl, fun _ => rfl⟩
  | preCommit verseKey chunkId journalId cohortId held => exact Or.inl ⟨rfl, rfl, fun _ => rfl⟩
  | progress identity => exact Or.inr ⟨identity, rfl, rfl, rfl⟩

/-- The loop collects both lists, and finds a corruption where one of them repeats. -/
theorem collected_spec (frames : List SpoolFrame) (corrupt : Bool) :
    let collected := frames.foldl Collected.add ⟨∅, ∅, [], corrupt⟩
    collected.submissions = (submitted frames).toFinset ∧
    collected.progress = (progressed frames).toFinset ∧ collected.ordered = submitted frames ∧
    (collected.corrupt = false ↔
      corrupt = false ∧ (submitted frames).Nodup ∧ (progressed frames).Nodup) := by
  induction frames using List.reverseRecOn with
  | nil => simp [submitted, progressed]
  | append_singleton frames frame ih =>
      obtain ⟨submissions, progress, ordered, found⟩ := ih
      rw [List.foldl_append, submitted_append, progressed_append, List.foldl_cons, List.foldl_nil]
      generalize frames.foldl Collected.add ⟨∅, ∅, [], corrupt⟩ = collected at *
      rcases frame_cases frame with ⟨submits, none, added⟩ | ⟨identity, rfl, none, reports⟩
      · rw [submits, none, List.append_nil, added, toFinset_concat, nodup_concat_iff, submissions,
          ordered]
        refine ⟨rfl, progress, rfl, ?_⟩
        rw [Bool.or_eq_false_iff, found, decide_eq_false_iff_not, List.mem_toFinset]
        tauto
      · rw [none, reports, List.append_nil, toFinset_concat, nodup_concat_iff]
        simp only [Collected.add]
        refine ⟨submissions, by rw [progress], ordered, ?_⟩
        rw [Bool.or_eq_false_iff, found, progress, decide_eq_false_iff_not, List.mem_toFinset]
        tauto

/-- A report finds no corruption exactly where the scan does not stop in the middle, no identity is
submitted or reported twice, and every identity reported was submitted. -/
theorem classifyFrames_corrupt {frames : List SpoolFrame} {tail : ScanTail} :
    (classifyFrames frames tail).corruptHistory = false ↔
      tail.isCorruptMiddle = false ∧ (submitted frames).Nodup ∧ (progressed frames).Nodup ∧
        ∀ identity ∈ progressed frames, identity ∈ submitted frames := by
  obtain ⟨submissions, progress, -, found⟩ := collected_spec frames tail.isCorruptMiddle
  unfold classifyFrames
  dsimp only
  generalize frames.foldl Collected.add _ = collected at *
  have history : (collected.corrupt ||
      decide (∃ identity ∈ collected.progress, identity ∉ collected.submissions)) = false ↔
      tail.isCorruptMiddle = false ∧ (submitted frames).Nodup ∧ (progressed frames).Nodup ∧
        ∀ identity ∈ progressed frames, identity ∈ submitted frames := by
    rw [Bool.or_eq_false_iff, found, decide_eq_false_iff_not, submissions, progress]
    simp only [List.mem_toFinset, not_exists, not_and, not_not, and_assoc]
  rw [← history]
  split
  · rename_i clean
    simp only [clean.2.2]
  · rfl

/-- The classification of an identity: whether its progress was reported. -/
theorem mem_classifyFrames {frames : List SpoolFrame} {tail : ScanTail}
    {identity : ProgressIdentity} {class_ : FrameClassification} :
    (identity, class_) ∈ (classifyFrames frames tail).frames ↔
      identity ∈ submitted frames ∧
        class_ = if identity ∈ progressed frames then .committedLocally
          else .pendingUnclassified := by
  obtain ⟨-, progress, ordered, -⟩ := collected_spec frames tail.isCorruptMiddle
  have classes : (classifyFrames frames tail).frames = (submitted frames).map fun identity =>
      (identity, classOf (progressed frames).toFinset identity) := by
    unfold classifyFrames
    dsimp only
    rw [progress, ordered]
    split
    · rename_i clean
      rw [clean.1]
      rfl
    · rfl
  rw [classes, List.mem_map]
  unfold classOf
  simp only [List.mem_toFinset, Prod.mk.injEq]
  constructor
  · rintro ⟨other, member, rfl, rfl⟩
    exact ⟨member, rfl⟩
  · rintro ⟨member, rfl⟩
    exact ⟨identity, member, rfl, rfl⟩

end Scripture.Spool
