import Scripture.Machine
import Scripture.Spool.Storage

set_option autoImplicit false

/- What a reopened store reads off its frames: the last value admitted under each identity, and the
identities that were retired. Two stores of the repository are rebuilt in this way; they differ in
the frames they read. -/
namespace Scripture.Spool

open ByteFormat AppendLog

/-- Which frames a store reads as an admission and which as a retirement. -/
structure FrameReading (ι ν : Type) where
  admission : SpoolFrame → Option (ι × ν)
  retirement : SpoolFrame → Option ι

structure Index (ι ν : Type) [LinearOrder ι] where
  admitted : OrderedMap ι ν
  retired : Finset ι

section index

variable {ι ν : Type} [LinearOrder ι] (reading : FrameReading ι ν)

def Index.add (index : Index ι ν) (frame : SpoolFrame) : Index ι ν where
  admitted := match reading.admission frame with
    | some (identity, value) => index.admitted.insert identity value
    | none => index.admitted
  retired := match reading.retirement frame with
    | some identity => insert identity index.retired
    | none => index.retired

def rebuild (frames : List SpoolFrame) : Index ι ν :=
  frames.foldl (Index.add reading) ⟨.empty, ∅⟩

/-- What was admitted and not retired, in the order of the identities. -/
def Index.pending (index : Index ι ν) : List (ι × ν) :=
  index.admitted.entries.filter fun entry => entry.1 ∉ index.retired

/-- The identities a rebuilt store knows of. -/
def Index.known (index : Index ι ν) : Finset ι :=
  (index.admitted.entries.map Prod.fst).toFinset

variable {reading}

@[simp] theorem rebuild_nil : rebuild reading [] = ⟨.empty, ∅⟩ := rfl

theorem rebuild_concat (frames : List SpoolFrame) (frame : SpoolFrame) :
    rebuild reading (frames ++ [frame]) = (rebuild reading frames).add reading frame := by
  unfold rebuild
  rw [List.foldl_append]
  rfl

theorem Index.mem_known {index : Index ι ν} {identity : ι} :
    identity ∈ index.known ↔ ∃ value, index.admitted.find? identity = some value := by
  unfold Index.known
  simp only [List.mem_toFinset, List.mem_map, Prod.exists, exists_and_right, exists_eq_right,
    OrderedMap.find?_eq_some]

theorem Index.mem_pending {index : Index ι ν} {identity : ι} {value : ν} :
    (identity, value) ∈ index.pending ↔
      index.admitted.find? identity = some value ∧ identity ∉ index.retired := by
  unfold Index.pending
  rw [List.mem_filter, OrderedMap.find?_eq_some, decide_eq_true_iff]

/-- A retirement takes its identity out of what is pending. -/
theorem Index.pending_retire {index : Index ι ν} {frame : SpoolFrame} {identity : ι}
    (admits : reading.admission frame = none) (retires : reading.retirement frame = some identity) :
    (index.add reading frame).pending = index.pending.filter fun entry => entry.1 ≠ identity := by
  unfold Index.pending Index.add
  rw [admits, retires]
  dsimp only
  rw [List.filter_filter]
  apply List.filter_congr
  intro entry _
  simp [Finset.mem_insert, not_or]

/-- A new identity above all that is pending comes last. -/
theorem Index.pending_admit {index : Index ι ν} {frame : SpoolFrame} {identity : ι} {value : ν}
    (admits : reading.admission frame = some (identity, value))
    (retires : reading.retirement frame = none) (unknown : identity ∉ index.known)
    (open_ : identity ∉ index.retired) (above : ∀ entry ∈ index.pending, entry.1 < identity) :
    (index.add reading frame).pending = index.pending ++ [(identity, value)] := by
  have added : (index.add reading frame).pending =
      (index.admitted.insert identity value).entries.filter fun entry =>
        entry.1 ∉ index.retired := by
    unfold Index.pending Index.add
    rw [admits, retires]
  rw [added]
  apply OrderedMap.eq_of_sorted
  · exact (index.admitted.insert identity value).sorted.filter _
  · refine List.pairwise_append.mpr ⟨index.admitted.sorted.filter _, by simp, ?_⟩
    intro entry member last same
    rw [List.mem_singleton.mp same]
    exact above entry member
  · rintro ⟨other, held⟩
    rw [List.mem_filter, ← OrderedMap.find?_eq_some, OrderedMap.find?_insert, List.mem_append,
      Index.mem_pending, List.mem_singleton, decide_eq_true_iff]
    by_cases same : other = identity
    · subst same
      have absent : index.admitted.find? other = none := by
        cases found : index.admitted.find? other with
        | none => rfl
        | some old => exact absurd (Index.mem_known.mpr ⟨old, found⟩) unknown
      simp [open_, absent, eq_comm]
    · simp [same]

/-- Frames that admit nothing under an identity leave what was admitted under it. -/
theorem rebuild_find?_append {front back : List SpoolFrame} {identity : ι}
    (others : ∀ frame ∈ back, ∀ entry, reading.admission frame = some entry → entry.1 ≠ identity) :
    (rebuild reading (front ++ back)).admitted.find? identity =
      (rebuild reading front).admitted.find? identity := by
  induction back using List.reverseRecOn with
  | nil => rw [List.append_nil]
  | append_singleton back frame ih =>
      have before := ih fun other member => others other (List.mem_append_left _ member)
      rw [← List.append_assoc, rebuild_concat, ← before]
      unfold Index.add
      cases read : reading.admission frame with
      | none => rfl
      | some entry =>
          have other := others frame (by simp) entry read
          dsimp only
          rw [OrderedMap.find?_insert, if_neg (Ne.symm other)]

/-- What is found was admitted by one of the frames. -/
theorem admission_of_find? {frames : List SpoolFrame} {identity : ι} {value : ν}
    (found : (rebuild reading frames).admitted.find? identity = some value) :
    ∃ frame ∈ frames, reading.admission frame = some (identity, value) := by
  induction frames using List.reverseRecOn with
  | nil => cases found
  | append_singleton frames frame ih =>
      rw [rebuild_concat] at found
      unfold Index.add at found
      cases read : reading.admission frame with
      | none =>
          rw [read] at found
          obtain ⟨other, member, admitted⟩ := ih found
          exact ⟨other, List.mem_append_left _ member, admitted⟩
      | some entry =>
          rw [read] at found
          dsimp only at found
          rw [OrderedMap.find?_insert] at found
          by_cases same : identity = entry.1
          · rw [if_pos same] at found
            refine ⟨frame, by simp, ?_⟩
            rw [read, same, ← Option.some.inj found]
          · rw [if_neg same] at found
            obtain ⟨other, member, admitted⟩ := ih found
            exact ⟨other, List.mem_append_left _ member, admitted⟩

theorem mem_rebuild_retired {frames : List SpoolFrame} {identity : ι} :
    identity ∈ (rebuild reading frames).retired ↔
      ∃ frame ∈ frames, reading.retirement frame = some identity := by
  induction frames using List.reverseRecOn with
  | nil => simp
  | append_singleton frames frame ih =>
      rw [rebuild_concat]
      unfold Index.add
      cases read : reading.retirement frame with
      | none => simp [ih, read]
      | some retired => simp [ih, read, or_comm, eq_comm]

end index

section file

variable [Digests]

/-- The file holds whole frames and perhaps the beginning of one more, all of one kind. -/
def Written (kind : SpoolFrame → Prop) (file : LogFile) : Prop :=
  ∃ frames lost kept rest, file.bytes = kept ++ rest ∧ Laid Spells frames kept ∧
    Torn Spells lost rest ∧ ∀ frame ∈ frames ++ lost, kind frame

/-- The scan of a file ends behind its last frame. -/
def Whole (file : LogFile) : Prop := (scanBytes file.bytes).2 = .cleanEof

instance (file : LogFile) : Decidable (Whole file) :=
  inferInstanceAs (Decidable ((scanBytes file.bytes).2 = .cleanEof))

variable {file : LogFile} {kind : SpoolFrame → Prop}

theorem Whole.laid (whole : Whole file) :
    Laid Spells (scannedFrames file.bytes) file.bytes :=
  scanBytes_clean_iff.mp whole

theorem Whole.of_laid {frames : List SpoolFrame} (laid : Laid Spells frames file.bytes) :
    Whole file :=
  (scanBytes_laid laid).2

/-- A frame that is written and synced behind whole frames is scanned behind them. -/
theorem Whole.persist {storage : FileSpoolStorage} (whole : Whole storage.segment)
    {frame : SpoolFrame} {reply : WriteReply} {synced : Bool}
    (persisted : (storage.persist frame reply synced).2 = .ok ()) :
    Whole (storage.persist frame reply synced).1.segment ∧
      scannedFrames (storage.persist frame reply synced).1.segment.bytes =
        scannedFrames storage.segment.bytes ++ [frame] := by
  rcases storage.persist_cases frame reply synced with
    ⟨error, same⟩ | ⟨encoded, part, -, -, -, failed⟩ | ⟨encoded, encodes, same⟩
  · rw [same] at persisted
    cases persisted
  · rw [failed] at persisted
    cases persisted
  · have laid : Laid Spells (scannedFrames storage.segment.bytes ++ [frame])
        (storage.persist frame reply synced).1.segment.bytes := by
      rw [same]
      exact whole.laid.concat (encodeFrame_spells encodes)
    exact ⟨.of_laid laid, (scanBytes_laid laid).1⟩

theorem Written.scanned (written : Written kind file) :
    ∀ frame ∈ scannedFrames file.bytes, kind frame := by
  obtain ⟨frames, lost, kept, rest, split, laid, torn, all⟩ := written
  intro frame member
  rw [split, (scanBytes_cut laid torn).1] at member
  exact all frame (List.mem_append_left _ member)

theorem Written.of_laid {frames : List SpoolFrame} (laid : Laid Spells frames file.bytes)
    (all : ∀ frame ∈ frames, kind frame) :
    Written kind file :=
  ⟨frames, [], file.bytes, [], by simp, laid, Or.inl rfl, by simpa using all⟩

/-- The beginning of a frame behind whole frames. -/
theorem torn_of_prefix {frame : SpoolFrame} {encoded part : Bytes} (spelled : Spells frame encoded)
    (begins : part <+: encoded) : part = encoded ∨ Torn Spells [frame] part := by
  obtain ⟨more, rfl⟩ := begins
  by_cases none : more = []
  · exact Or.inl (by rw [none, List.append_nil])
  · exact Or.inr (Or.inr ⟨frame, [], part ++ more, more, rfl, spelled, none, rfl⟩)

theorem Written.crash (written : Written kind file) (count : Nat) :
    Written kind (file.crash count) := by
  obtain ⟨frames, lost, kept, rest, split, laid, torn, all⟩ := written
  obtain ⟨front, back, whole, part, rfl, kernel, parted, torn⟩ :=
    laid.cut_torn torn (max count file.synced)
  refine ⟨front, back ++ lost, whole, part, ?_, kernel, torn, ?_⟩
  · rw [LogFile.crash_bytes, split, parted]
  · rw [← List.append_assoc]
    exact all

/-- A frame that is written behind whole frames. -/
theorem Written.persist {storage : FileSpoolStorage} (written : Written kind storage.segment)
    (whole : Whole storage.segment) (frame : SpoolFrame) (reply : WriteReply) (synced : Bool)
    (admits : kind frame) :
    Written kind (storage.persist frame reply synced).1.segment := by
  have all : ∀ other ∈ scannedFrames storage.segment.bytes ++ [frame], kind other := by
    intro other member
    rcases List.mem_append.mp member with old | new
    · exact written.scanned other old
    · rw [List.mem_singleton.mp new]
      exact admits
  rcases storage.persist_cases frame reply synced with
    ⟨error, same⟩ | ⟨encoded, part, encodes, begins, segment, -⟩ | ⟨encoded, encodes, same⟩
  · rw [same]
    exact written
  · have spelled := encodeFrame_spells encodes
    rw [segment]
    rcases torn_of_prefix spelled begins with rfl | torn
    · exact .of_laid (whole.laid.concat spelled) all
    · exact ⟨_, [frame], _, part, rfl, whole.laid, torn, all⟩
  · rw [same]
    exact .of_laid (whole.laid.concat (encodeFrame_spells encodes)) all

/-- The file keeps a value under an identity, through any crash. -/
def Holds {ι ν : Type} [LinearOrder ι] (reading : FrameReading ι ν) (identity : ι) (value : ν)
    (file : LogFile) : Prop :=
  ∃ old new lost front back rest, file.bytes = front ++ (back ++ rest) ∧ Laid Spells old front ∧
    Laid Spells new back ∧ Torn Spells lost rest ∧ front.length ≤ file.synced ∧
    (rebuild reading old).admitted.find? identity = some value ∧
    ∀ frame ∈ new ++ lost, ∀ entry, reading.admission frame = some entry → entry.1 ≠ identity

end file

section holds

variable [Digests] {ι ν : Type} [LinearOrder ι] {reading : FrameReading ι ν} {identity : ι}
  {value : ν}

theorem Holds.found {file : LogFile} (holds : Holds reading identity value file) :
    (rebuild reading (scannedFrames file.bytes)).admitted.find? identity = some value := by
  obtain ⟨old, new, lost, front, back, rest, split, first, second, torn, -, found, others⟩ := holds
  rw [split, ← List.append_assoc, (scanBytes_cut (first.append second) torn).1,
    rebuild_find?_append fun frame member => others frame (List.mem_append_left _ member)]
  exact found

theorem Holds.crash {file : LogFile} (holds : Holds reading identity value file) (count : Nat) :
    Holds reading identity value (file.crash count) := by
  obtain ⟨old, new, lost, front, back, rest, split, first, second, torn, durable, found, others⟩ :=
    holds
  -- The frames behind the durable ones are a file of their own, cut somewhere.
  have behind : Written (fun frame => ∀ entry, reading.admission frame = some entry →
      entry.1 ≠ identity) ⟨back ++ rest, 0, Nat.zero_le _⟩ :=
    ⟨new, lost, back, rest, rfl, second, torn, others⟩
  obtain ⟨kept, gone, whole, part, parted, laid, torn, others⟩ :=
    behind.crash (max count file.synced - front.length)
  refine ⟨old, kept, gone, front, whole, part, ?_, first, laid, torn, ?_, found, others⟩
  · rw [← parted, LogFile.crash_bytes, LogFile.crash_bytes, split, List.take_append,
      List.take_of_length_le (by omega), Nat.max_zero]
  · exact durable

theorem Holds.persist {storage : FileSpoolStorage}
    (holds : Holds reading identity value storage.segment) (whole : Whole storage.segment)
    {frame : SpoolFrame} (reply : WriteReply) (synced : Bool)
    (other : ∀ entry, reading.admission frame = some entry → entry.1 ≠ identity) :
    Holds reading identity value (storage.persist frame reply synced).1.segment := by
  obtain ⟨old, new, lost, front, back, rest, split, first, second, torn, durable, found, others⟩ :=
    holds
  obtain rfl : rest = [] := by
    refine untorn_of_clean (first.append second) torn ?_
    rw [List.append_assoc, ← split]
    exact whole
  rw [List.append_nil] at split
  have later : ∀ added ∈ new ++ [frame], ∀ entry, reading.admission added = some entry →
      entry.1 ≠ identity := by
    intro added member
    rcases List.mem_append.mp member with old | same
    · exact others added (List.mem_append_left _ old)
    · rw [List.mem_singleton.mp same]
      exact other
  rcases storage.persist_cases frame reply synced with
    ⟨error, same⟩ | ⟨encoded, part, encodes, begins, segment, -⟩ | ⟨encoded, encodes, same⟩
  · rw [same]
    exact ⟨old, new, [], front, back, [], by simpa using split, first, second, Or.inl rfl, durable,
      found, fun added member => later added (List.mem_append_left _ (by simpa using member))⟩
  · have spelled := encodeFrame_spells encodes
    rw [segment]
    rcases torn_of_prefix spelled begins with rfl | torn
    · refine ⟨old, new ++ [frame], [], front, back ++ part, [], ?_, first, second.concat spelled,
        Or.inl rfl, durable, found, by simpa using later⟩
      rw [LogFile.append_bytes, split, List.append_nil, List.append_assoc]
    · refine ⟨old, new, [frame], front, back, part, ?_, first, second, torn, durable, found, later⟩
      rw [LogFile.append_bytes, split, List.append_assoc]
  · rw [same]
    refine ⟨old, new ++ [frame], [], front, back ++ encoded, [], ?_, first,
      second.concat (encodeFrame_spells encodes), Or.inl rfl, ?_, found, by simpa using later⟩
    · rw [LogFile.sync_bytes, LogFile.append_bytes, split, List.append_nil, List.append_assoc]
    · rw [LogFile.sync_synced, LogFile.append_bytes, split, List.length_append, List.length_append]
      omega

/-- A frame that was written and synced behind whole frames is kept. -/
theorem holds_of_persist {storage : FileSpoolStorage} (whole : Whole storage.segment)
    {frame : SpoolFrame} {reply : WriteReply} {synced : Bool}
    (admits : reading.admission frame = some (identity, value))
    (persisted : (storage.persist frame reply synced).2 = .ok ()) :
    Holds reading identity value (storage.persist frame reply synced).1.segment := by
  rcases storage.persist_cases frame reply synced with
    ⟨error, same⟩ | ⟨encoded, part, encodes, begins, segment, failed⟩ | ⟨encoded, encodes, same⟩
  · rw [same] at persisted
    cases persisted
  · rw [failed] at persisted
    cases persisted
  · rw [same]
    refine ⟨scannedFrames storage.segment.bytes ++ [frame], [], [], _, [], [], ?_,
      whole.laid.concat (encodeFrame_spells encodes), .nil, Or.inl rfl, ?_, ?_, ?_⟩
    · simp
    · simp
    · rw [rebuild_concat]
      unfold Index.add
      rw [admits]
      dsimp only
      rw [OrderedMap.find?_insert, if_pos rfl]
    · intro other member
      cases member

variable (reading) in
/-- What an event does to the segment of a store and to the identities the store knows. A frame is
written behind whole frames: it admits only what was unknown, and retires only for a cause. A crash
cuts the segment, and the store is read off it again. -/
inductive Turn (cause : ι → Prop) (known later : Finset ι) : LogFile → LogFile → Prop where
  | append (storage : FileSpoolStorage) (frame : SpoolFrame) (reply : WriteReply) (synced : Bool)
      (whole : Whole storage.segment)
      (fresh : ∀ entry, reading.admission frame = some entry → entry.1 ∉ known)
      (caused : ∀ identity, reading.retirement frame = some identity → cause identity)
      (kept : known ⊆ later) :
      Turn cause known later storage.segment (storage.persist frame reply synced).1.segment
  | crash (segment : LogFile) (count : Nat)
      (found : (rebuild reading (scannedFrames (segment.crash count).bytes)).known ⊆ later) :
      Turn cause known later segment (segment.crash count)
  | idle (segment : LogFile) (kept : known ⊆ later) : Turn cause known later segment segment

variable {cause : ι → Prop} {known later : Finset ι} {segment next : LogFile}

theorem Turn.written (turn : Turn reading cause known later segment next) {causes : ι → Prop}
    (wider : ∀ identity, cause identity → causes identity)
    (written : Written (fun frame => ∀ identity, reading.retirement frame = some identity →
      causes identity) segment) :
    Written (fun frame => ∀ identity, reading.retirement frame = some identity →
      causes identity) next := by
  cases turn with
  | append storage frame reply synced whole _ caused =>
      exact written.persist whole frame reply synced fun identity retires =>
        wider identity (caused identity retires)
  | crash _ count => exact written.crash count
  | idle => exact written

/-- What the segment keeps and the store knows stays so. -/
theorem Turn.holds (turn : Turn reading cause known later segment next)
    (held : Holds reading identity value segment ∧ identity ∈ known) :
    Holds reading identity value next ∧ identity ∈ later := by
  obtain ⟨holds, member⟩ := held
  cases turn with
  | append storage frame reply synced whole fresh _ kept =>
      refine ⟨holds.persist whole reply synced ?_, kept member⟩
      rintro entry admits rfl
      exact fresh entry admits member
  | crash _ count found =>
      have left := holds.crash count
      exact ⟨left, found (Index.mem_known.mpr ⟨value, left.found⟩)⟩
  | idle _ kept => exact ⟨holds, kept member⟩

section runs

variable {State Event : Type} {step : State → Event → State} {tended : State → Event → Prop}
  {segmentOf : State → LogFile} {knownOf : State → Finset ι} {causes : Event → ι → Prop}
  {state : State} {events : List Event}

variable (turns : ∀ state event, tended state event →
  Turn reading (causes event) (knownOf state) (knownOf (step state event)) (segmentOf state)
    (segmentOf (step state event)))

include turns

/-- The frames of a run that retire have their cause among all events there are. -/
theorem written_along {all : List Event} (within : events ⊆ all)
    (along : Machine.Along step tended state events)
    (written : Written (fun frame => ∀ identity, reading.retirement frame = some identity →
      ∃ event ∈ all, causes event identity) (segmentOf state)) :
    Written (fun frame => ∀ identity, reading.retirement frame = some identity →
      ∃ event ∈ all, causes event identity) (segmentOf (Machine.run step state events)) := by
  induction events generalizing state with
  | nil => exact written
  | cons event rest ih =>
      obtain ⟨member, others⟩ := List.cons_subset.mp within
      exact ih others along.2
        ((turns state event along.1).written (fun _ caused => ⟨event, member, caused⟩) written)

/-- What an event of a run has laid down is found by every later opening: it is pending, or retired
by an event of the run. -/
theorem survives_along {event : Event} {before after : List Event}
    (fresh : segmentOf state = .empty)
    (along : Machine.Along step tended state (before ++ event :: after))
    (held : Holds reading identity value
        (segmentOf (step (Machine.run step state before) event)) ∧
      identity ∈ knownOf (step (Machine.run step state before) event)) (kept : Nat) :
    let index := rebuild reading (scannedFrames
      ((segmentOf (Machine.run step state (before ++ event :: after))).crash kept).bytes)
    (identity, value) ∈ index.pending ∨ identity ∈ index.retired ∧
      ∃ cause ∈ before ++ event :: after, causes cause identity := by
  intro index
  have written := written_along turns (List.Subset.refl _) along (fresh ▸ .of_laid .nil (by simp))
  rw [Machine.along_append] at along
  have holds := (along.2.2.invariant
    (fun state event held tended => (turns state event tended).holds held) held).1
  by_cases retired : identity ∈ index.retired
  · obtain ⟨frame, member, retires⟩ := mem_rebuild_retired.mp retired
    exact Or.inr ⟨retired, (written.crash kept).scanned frame member identity retires⟩
  · refine Or.inl (Index.mem_pending.mpr ⟨?_, retired⟩)
    show (rebuild reading (scannedFrames (LogFile.crash _ kept).bytes)).admitted.find? _ = _
    rw [Machine.run_append]
    exact (holds.crash kept).found

end runs

end holds

end Scripture.Spool
