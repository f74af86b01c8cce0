import Scripture.Blob.Reader
import Scripture.ChunkLogOperations

set_option autoImplicit false

/- The console consumer: it prints the records of the log from an entry on, observes the membership
again until its time is over, and stops at a number of records. -/
namespace Scripture.Blob

open ByteFormat ChunkLogWriter

/-- The chunks of the entries that continue the log. -/
def Verse.dense (entries : List Entry) : List Chunk :=
  entries.flatMap fun entry => if entry.superseding then [] else entry.chunks

/-- Superseding entries lead to chunks that are in the log already. -/
def Verse.Earlier : List Chunk → List Entry → Prop
  | _, [] => True
  | before, entry :: rest =>
      (entry.superseding = true → ∀ chunk ∈ entry.chunks, chunk ∈ before) ∧
        Earlier (before ++ if entry.superseding then [] else entry.chunks) rest

theorem resolveOneDataRef_points [Digests] {store : BlobStore} {pointer : DataRef} {chunk : Chunk}
    (points : Points store pointer chunk) :
    resolveOneDataRef store pointer = .ok ⟨chunk, some pointer⟩ := by
  obtain ⟨bytes, fetched, made, named⟩ := points
  exact bind_eq_ok.mpr ⟨bytes, fetchDataRef_eq_ok.mpr fetched, bind_eq_ok.mpr
    ⟨chunk, mapError_eq_ok.mpr made.decoded, checked_eq_ok.mpr ⟨by simp [named], rfl⟩⟩⟩

end Scripture.Blob

namespace Scripture.Consume

open ByteFormat Scripture.Blob ChunkLogWriter

/-- One generation of the log and its durable entries. -/
structure Generation where
  logletId : String
  start : Nat
  payloads : List Bytes
  deriving DecidableEq

structure LogEntry where
  position : Nat
  logletId : String
  payload : Bytes
  deriving DecidableEq

/-- The end that the last generation gives, and the names of all. -/
def observeContiguousEnd (generations : List Generation) : Nat × List String :=
  generations.foldl (fun observed generation =>
    (generation.start + generation.payloads.length, observed.2 ++ [generation.logletId])) (0, [])

/-- The entry at the cursor, from the generation that has it. -/
def readNext (generations : List Generation) (cursor stop : Nat) : Option LogEntry :=
  if cursor < stop then
    generations.findSome? fun generation =>
      if generation.start ≤ cursor then
        (generation.payloads[cursor - generation.start]?).map
          fun payload => ⟨cursor, generation.logletId, payload⟩
      else none
  else none

structure ConsumeOptions where
  start : Nat
  untilRecords : Option Nat
  seconds : Nat
  noFollow : Bool
  deriving DecidableEq

/-- What is printed for a record. -/
structure Printed where
  entry : Nat
  recordOffset : Nat
  payload : Bytes
  digest : ChunkDigest
  deriving DecidableEq

inductive ConsumeError where
  | secondsRejected
  | observe (reason : String)
  | read (position : Nat)
  | payload (position : Nat) (error : BlobReadError)
  deriving DecidableEq

structure Progress where
  cursor : Nat
  printed : List Printed
  entriesScanned : Nat
  fingerprint : Option (List String)
  membershipChange : Bool
  deriving DecidableEq

/-- Other names than before, or more than one generation, are a change of membership. -/
def Progress.observe (progress : Progress) (names : List String) : Progress :=
  let changed := match progress.fingerprint with
    | none => false
    | some prior => decide (prior ≠ names)
  { progress with
    fingerprint := some names
    membershipChange := progress.membershipChange || changed || decide (1 < names.length) }

structure ConsumeSummary where
  entriesScanned : Nat
  recordsPrinted : Nat
  finalCursor : Nat
  membershipChange : Bool
  deriving DecidableEq

def limitReached (options : ConsumeOptions) (printed : List Printed) : Bool :=
  match options.untilRecords with
  | some limit => decide (limit ≤ printed.length)
  | none => false

/-- The records of a chunk, each with its offset if that is in range. -/
def recordsIn (chunk : Chunk) : List (Option Nat × Bytes) :=
  chunk.frames.flatMap fun frame => frame.records.zipIdx.map fun (record, index) =>
    ((frame.baseOffset.checkedAdd index).map RecordOffset.toNat, record.payload)

section

variable [Digests]

/-- Prints the records of an entry until the limit is reached. -/
def printEntry (options : ConsumeOptions) (position : Nat) :
    List (Option Nat × Bytes) → Nat → List Printed → List Printed
  | [], _, printed => printed
  | (offset, payload) :: rest, index, printed =>
      if limitReached options printed then printed
      else printEntry options position rest (index + 1)
        (printed ++ [⟨position, offset.getD index, payload, ChunkDigest.of payload⟩])

/-- The loop over the entries below the observed end. -/
def readEntries (store : BlobStore) (options : ConsumeOptions) (generations : List Generation)
    (stop : Nat) : Nat → Progress → Except ConsumeError Progress
  | 0, progress => return progress
  | fuel + 1, progress =>
      if stop ≤ progress.cursor ∨ limitReached options progress.printed then return progress
      else
        match readNext generations progress.cursor stop with
        | none => throw (.read progress.cursor)
        | some entry => do
            let resolved ← (resolveLogPayload store entry.payload).mapError
              (.payload entry.position)
            readEntries store options generations stop fuel { progress with
              cursor := entry.position + 1
              entriesScanned := progress.entriesScanned + 1
              printed := printEntry options entry.position
                (resolved.flatMap fun found => recordsIn found.chunk) 0 progress.printed }

/-- The loop over the observations that are made before the deadline. -/
def follow (store : BlobStore) (options : ConsumeOptions) :
    List (Except String (List Generation)) → Progress → Except ConsumeError Progress
  | [], progress => return progress
  | observed :: later, progress =>
      if limitReached options progress.printed then return progress
      else do
        let generations ← observed.mapError .observe
        let (stop, names) := observeContiguousEnd generations
        let progress ← readEntries store options generations stop (stop - progress.cursor)
          (progress.observe names)
        if options.noFollow then return progress else follow store options later progress

def runConsume (store : BlobStore) (options : ConsumeOptions)
    (observations : List (Except String (List Generation))) :
    Except ConsumeError (List Printed × ConsumeSummary) := do
  if ¬ options.noFollow ∧ options.seconds = 0 then throw .secondsRejected
  let progress ← follow store options observations ⟨options.start, [], 0, none, false⟩
  return (progress.printed, ⟨progress.entriesScanned, progress.printed.length, progress.cursor,
    progress.membershipChange⟩)

end

/- Items in groups, delivered within a budget: a group that is begun counts as delivered. -/
section Delivery

variable {α : Type}

def takeUpTo : Option Nat → List α → List α
  | none, items => items
  | some budget, items => items.take budget

/-- The number of groups that are begun, and the items. -/
def deliver : Option Nat → List (List α) → Nat × List α
  | _, [] => (0, [])
  | budget, group :: rest =>
      if budget = some 0 then (0, [])
      else
        let (begun, items) := deliver (budget.map (· - group.length)) rest
        (begun + 1, takeUpTo budget group ++ items)

@[simp] theorem deliver_spent (groups : List (List α)) : deliver (some 0) groups = (0, []) := by
  cases groups <;> rfl

theorem deliver_cons {budget : Option Nat} (group : List α) (rest : List (List α))
    (room : budget ≠ some 0) : deliver budget (group :: rest) =
      ((deliver (budget.map (· - group.length)) rest).1 + 1,
        takeUpTo budget group ++ (deliver (budget.map (· - group.length)) rest).2) := by
  rw [deliver, if_neg room]

theorem deliver_none (groups : List (List α)) :
    deliver none groups = (groups.length, groups.flatten) := by
  induction groups with
  | nil => rfl
  | cons group rest ih =>
      rw [deliver_cons group rest (by simp), Option.map_none, ih]
      rfl

/-- The budget ends with a group, or is enough. -/
def AtBoundary (groups : List (List α)) (budget : Nat) : Prop :=
  (∃ count, (groups.take count).flatten.length = budget) ∨ groups.flatten.length ≤ budget

theorem atBoundary_cons {group : List α} {rest : List (List α)} {budget : Nat} (some : budget ≠ 0) :
    AtBoundary (group :: rest) budget ↔
      group.length ≤ budget ∧ AtBoundary rest (budget - group.length) := by
  unfold AtBoundary
  constructor
  · rintro (⟨count, same⟩ | enough)
    · cases count with
      | zero => exact absurd same.symm some
      | succ count =>
          simp only [List.take_succ_cons, List.flatten_cons, List.length_append] at same
          exact ⟨by omega, .inl ⟨count, by omega⟩⟩
    · simp only [List.flatten_cons, List.length_append] at enough
      exact ⟨by omega, .inr (by omega)⟩
  · rintro ⟨fits, ⟨count, same⟩ | enough⟩
    · refine .inl ⟨count + 1, ?_⟩
      simp only [List.take_succ_cons, List.flatten_cons, List.length_append]
      omega
    · refine .inr ?_
      simp only [List.flatten_cons, List.length_append]
      omega

/-- What is delivered and what is left is everything, exactly if the budget ends with a group. -/
theorem deliver_resumes (budget : Nat) (groups : List (List α)) :
    (deliver (some budget) groups).2 ++ (groups.drop (deliver (some budget) groups).1).flatten =
      groups.flatten ↔ AtBoundary groups budget := by
  induction groups generalizing budget with
  | nil => simp [deliver, AtBoundary]
  | cons group rest ih =>
      by_cases zero : budget = 0
      · subst zero
        simp only [deliver_spent, List.nil_append, List.drop_zero, true_iff]
        exact .inl ⟨0, rfl⟩
      · rw [atBoundary_cons zero, deliver_cons group rest (by simpa using zero), ← ih]
        simp only [takeUpTo, Option.map_some, List.drop_succ_cons, List.flatten_cons,
          List.append_assoc]
        by_cases whole : group.length ≤ budget
        · simp only [List.take_of_length_le whole, List.append_cancel_left_eq, whole, true_and]
        · -- The group is cut off, and what is left of it is never delivered.
          have nothing : budget - group.length = 0 := by omega
          simp only [nothing, whole, false_and, iff_false, deliver_spent, List.nil_append,
            List.drop_zero]
          intro same
          have lengths := congrArg List.length same
          simp only [List.length_append, List.length_take] at lengths
          omega

end Delivery

/-- How many records may still be printed. -/
def left (options : ConsumeOptions) (printed : List Printed) : Option Nat :=
  options.untilRecords.map (· - printed.length)

theorem limitReached_iff {options : ConsumeOptions} {printed : List Printed} :
    limitReached options printed = true ↔ left options printed = some 0 := by
  unfold limitReached left
  cases options.untilRecords with
  | none => simp
  | some limit => simp [Nat.sub_eq_zero_iff_le]

theorem left_append (options : ConsumeOptions) (printed group : List Printed) :
    left options (printed ++ takeUpTo (left options printed) group) =
      (left options printed).map (· - group.length) := by
  unfold left
  cases options.untilRecords with
  | none => rfl
  | some limit =>
      simp only [Option.map_some, takeUpTo, List.length_append, List.length_take, Option.some_inj]
      omega

section

variable [Digests]

/-- The lines for the records of an entry. -/
def lines (position : Nat) (chunks : List Chunk) : List Printed :=
  (chunks.flatMap recordsIn).zipIdx.map fun ((offset, payload), index) =>
    ⟨position, offset.getD index, payload, ChunkDigest.of payload⟩

theorem printEntry_eq (options : ConsumeOptions) (position : Nat)
    (found : List (Option Nat × Bytes)) (index : Nat) (printed : List Printed) :
    printEntry options position found index printed = printed ++ takeUpTo (left options printed)
      ((found.zipIdx index).map fun ((offset, payload), index) =>
        ⟨position, offset.getD index, payload, ChunkDigest.of payload⟩) := by
  induction found generalizing index printed with
  | nil =>
      cases left options printed <;> simp [printEntry, takeUpTo]
  | cons first rest ih =>
      obtain ⟨offset, payload⟩ := first
      rw [printEntry]
      by_cases reached : limitReached options printed = true
      · rw [if_pos reached, limitReached_iff.mp reached]
        simp [takeUpTo]
      · rw [if_neg reached, ih]
        have room := mt limitReached_iff.mpr reached
        unfold left at room ⊢
        cases bounded : options.untilRecords with
        | none => simp [takeUpTo]
        | some limit =>
            simp only [bounded, Option.map_some, Option.some.injEq] at room
            have next : limit - printed.length = limit - (printed.length + 1) + 1 := by omega
            simp only [Option.map_some, takeUpTo, List.length_append, List.length_singleton,
              List.zipIdx_cons, List.map_cons]
            rw [next, List.take_succ_cons]
            simp

end

/- What the generations show of a log. -/
section Views

/-- Each generation starts where the one before it ends. -/
def Contiguous : Nat → List Generation → Prop
  | _, [] => True
  | start, generation :: rest =>
      generation.start = start ∧ Contiguous (start + generation.payloads.length) rest

def payloads (generations : List Generation) : List Bytes := generations.flatMap Generation.payloads

variable {generations : List Generation}

theorem observed_end {start : Nat} {names : List String}
    (contiguous : Contiguous start generations) :
    (generations.foldl (fun observed generation =>
      (generation.start + generation.payloads.length, observed.2 ++ [generation.logletId]))
      (start, names)).1 = start + (payloads generations).length := by
  induction generations generalizing start names with
  | nil => simp [payloads]
  | cons generation rest ih =>
      obtain ⟨rfl, later⟩ := contiguous
      rw [List.foldl_cons, ih later]
      simp [payloads, Nat.add_assoc]

theorem observeContiguousEnd_eq (contiguous : Contiguous 0 generations) :
    (observeContiguousEnd generations).1 = (payloads generations).length :=
  (observed_end contiguous).trans (Nat.zero_add _)

theorem found_entry {start index : Nat} {payload : Bytes}
    (contiguous : Contiguous start generations)
    (there : (payloads generations)[index]? = some payload) :
    ∃ name, (generations.findSome? fun generation =>
      if generation.start ≤ start + index then
        (generation.payloads[start + index - generation.start]?).map
          fun payload => (⟨start + index, generation.logletId, payload⟩ : LogEntry)
      else none) = some ⟨start + index, name, payload⟩ := by
  induction generations generalizing start index with
  | nil => simp [payloads] at there
  | cons generation rest ih =>
      obtain ⟨rfl, later⟩ := contiguous
      simp only [payloads, List.flatMap_cons] at there
      by_cases inside : index < generation.payloads.length
      · rw [List.getElem?_append_left inside] at there
        refine ⟨generation.logletId, ?_⟩
        simp [there]
      · rw [List.getElem?_append_right (by omega)] at there
        obtain ⟨name, found⟩ := ih later there
        refine ⟨name, ?_⟩
        have position : generation.start + generation.payloads.length +
            (index - generation.payloads.length) = generation.start + index := by omega
        rw [position] at found
        have outside : generation.payloads[index]? = none := List.getElem?_eq_none (by omega)
        simp [outside, found]

theorem readNext_eq (contiguous : Contiguous 0 generations) {cursor stop : Nat}
    (below : cursor < stop) {payload : Bytes}
    (there : (payloads generations)[cursor]? = some payload) :
    ∃ name, readNext generations cursor stop = some ⟨cursor, name, payload⟩ := by
  obtain ⟨name, found⟩ := found_entry contiguous there
  rw [Nat.zero_add] at found
  exact ⟨name, by rw [readNext, if_pos below, found]⟩

end Views

section

variable [Digests]

variable {store : BlobStore} {chunks : List Chunk}

theorem resolveDataRefs_points {pointers : List DataRef}
    (points : List.Forall₂ (Points store) pointers chunks) :
    ∃ resolved, resolveDataRefs store pointers = .ok resolved ∧
      resolved.map ResolvedChunk.chunk = chunks := by
  induction points with
  | nil => exact ⟨[], rfl, rfl⟩
  | cons first _ ih =>
      obtain ⟨resolved, done, same⟩ := ih
      exact ⟨_, bind_eq_ok.mpr ⟨_, resolveOneDataRef_points first, bind_eq_ok.mpr ⟨_, done, rfl⟩⟩,
        congrArg _ same⟩

theorem resolveLogPayload_holds {payload : Bytes} (holds : Holds store payload chunks) :
    ∃ resolved, resolveLogPayload store payload = .ok resolved ∧
      resolved.map ResolvedChunk.chunk = chunks := by
  cases holds with
  | inline made =>
      exact ⟨_, bind_eq_ok.mpr ⟨_, mapError_eq_ok.mpr made.payload, bind_eq_ok.mpr
        ⟨_, mapError_eq_ok.mpr made.decoded, rfl⟩⟩, rfl⟩
  | dataRef encoded points =>
      exact ⟨_, bind_eq_ok.mpr ⟨_, mapError_eq_ok.mpr (decodeLogPayload_dataRef encoded),
        bind_eq_ok.mpr ⟨_, resolveOneDataRef_points points, rfl⟩⟩, rfl⟩
  | referenceBatch encoded points =>
      obtain ⟨resolved, done, same⟩ := resolveDataRefs_points points
      exact ⟨resolved, bind_eq_ok.mpr
        ⟨_, mapError_eq_ok.mpr (decodeLogPayload_referenceBatch encoded), done⟩, same⟩

/-- The lines of all entries, entry by entry. -/
def groups (view : List (List Chunk)) : List (List Printed) :=
  view.zipIdx.map fun (chunks, position) => lines position chunks

/-- The cursor and the output once everything that may still be printed is. -/
def finish (view : List (List Chunk)) (options : ConsumeOptions) (progress : Progress) :
    Nat × List Printed :=
  let rest := deliver (left options progress.printed) ((groups view).drop progress.cursor)
  (progress.cursor + rest.1, progress.printed ++ rest.2)

/-- Nothing is left to print. -/
def Done (view : List (List Chunk)) (options : ConsumeOptions) (progress : Progress) : Prop :=
  limitReached options progress.printed = true ∨ view.length ≤ progress.cursor

theorem finish_done {view : List (List Chunk)} {options : ConsumeOptions} {progress : Progress}
    (done : Done view options progress) :
    finish view options progress = (progress.cursor, progress.printed) := by
  unfold finish
  rcases done with reached | past
  · simp [limitReached_iff.mp reached]
  · have nothing : (groups view).drop progress.cursor = [] := by
      apply List.drop_eq_nil_of_le
      simpa [groups] using past
    simp [nothing, deliver]

theorem finish_entry {view : List (List Chunk)} {options : ConsumeOptions} {progress : Progress}
    (there : view[progress.cursor]? = some chunks)
    (room : ¬ limitReached options progress.printed = true) (scanned : Nat) :
    finish view options { progress with
      cursor := progress.cursor + 1
      entriesScanned := scanned
      printed := printEntry options progress.cursor (chunks.flatMap recordsIn) 0
        progress.printed } =
      finish view options progress := by
  have shape : (groups view).drop progress.cursor =
      lines progress.cursor chunks :: (groups view).drop (progress.cursor + 1) := by
    apply List.drop_eq_getElem?_toList_append.trans
    simp [groups, there]
  unfold finish
  simp only
  rw [shape, deliver_cons _ _ (mt limitReached_iff.mpr room), printEntry_eq]
  rw [show ((chunks.flatMap recordsIn).zipIdx 0).map _ = lines progress.cursor chunks from rfl,
    left_append]
  simp only [List.append_assoc, Nat.add_assoc, Nat.add_comm 1]

section Reading

variable {store : BlobStore} {log : List Bytes} {view : List (List Chunk)}
  (holds : List.Forall₂ (Holds store) log view) (options : ConsumeOptions)

include holds

/-- The entries that one observation shows are read up to their end, or to the limit. -/
theorem readEntries_finish {generations : List Generation} (contiguous : Contiguous 0 generations)
    (shown : payloads generations <+: log) (fuel : Nat) (progress : Progress)
    (enough : (payloads generations).length ≤ progress.cursor + fuel) :
    ∃ after, readEntries store options generations (payloads generations).length fuel progress =
        .ok after ∧ finish view options after = finish view options progress ∧
      (limitReached options after.printed = true ∨ (payloads generations).length ≤
        after.cursor) := by
  induction fuel generalizing progress with
  | zero => exact ⟨progress, rfl, rfl, .inr enough⟩
  | succ fuel ih =>
      rw [readEntries]
      by_cases atEnd : (payloads generations).length ≤ progress.cursor ∨
          limitReached options progress.printed = true
      · exact ⟨progress, if_pos atEnd, rfl, atEnd.symm⟩
      · obtain ⟨below, room⟩ := not_or.mp atEnd
        have inside : progress.cursor < (payloads generations).length := by omega
        have there := List.getElem?_eq_getElem inside
        obtain ⟨name, next⟩ := readNext_eq contiguous inside there
        have entry := List.prefix_iff_getElem?.mp shown _ inside
        obtain ⟨chunks, listed, held⟩ := forall₂_getElem? holds.flip entry
        obtain ⟨resolved, done, rfl⟩ := resolveLogPayload_holds held
        rw [if_neg atEnd, next]
        obtain ⟨after, success, same, stopped⟩ := ih { progress with
          cursor := progress.cursor + 1
          entriesScanned := progress.entriesScanned + 1
          printed := printEntry options progress.cursor
            ((resolved.map ResolvedChunk.chunk).flatMap recordsIn) 0 progress.printed }
          (by simp only; omega)
        refine ⟨after, bind_eq_ok.mpr ⟨resolved, mapError_eq_ok.mpr done, ?_⟩,
          same.trans (finish_entry listed room _), stopped⟩
        rw [← success, List.flatMap_map]

/-- The observations of a run that is accepted: each shows a first part of the log, and the last
that is used shows all of it. -/
structure Observes (options : ConsumeOptions) (log : List Bytes)
    (observations : List (Except String (List Generation))) : Prop where
  accepted : options.noFollow = true ∨ options.seconds ≠ 0
  shown : ∀ observed ∈ observations, ∃ generations, observed = .ok generations ∧
    Contiguous 0 generations ∧ payloads generations <+: log
  whole : ∃ generations, (if options.noFollow then observations.head? else observations.getLast?) =
    some (.ok generations) ∧ payloads generations = log

theorem follow_finish {observations : List (Except String (List Generation))}
    (observes : Observes options log observations) (progress : Progress) :
    ∃ after, follow store options observations progress = .ok after ∧
      finish view options after = finish view options progress ∧ Done view options after := by
  induction observations generalizing progress with
  | nil =>
      obtain ⟨_, last, -⟩ := observes.whole
      simp at last
  | cons observed later ih =>
      rw [follow]
      by_cases reached : limitReached options progress.printed = true
      · exact ⟨progress, if_pos reached, rfl, .inl reached⟩
      · obtain ⟨generations, rfl, contiguous, shown⟩ := observes.shown observed List.mem_cons_self
        have stop := observeContiguousEnd_eq contiguous
        obtain ⟨middle, read, same, stopped⟩ := readEntries_finish holds options contiguous shown
          ((payloads generations).length - progress.cursor)
          (progress.observe (observeContiguousEnd generations).2)
            (by simp only [Progress.observe]; omega)
        rw [← stop] at read
        have finished : finish view options middle = finish view options progress := same
        have complete (all : payloads generations = log) : Done view options middle := by
          rw [all, holds.length_eq] at stopped
          exact stopped
        obtain ⟨last, chosen, all⟩ := observes.whole
        rw [if_neg reached]
        by_cases once : options.noFollow = true
        · rw [if_pos once, List.head?_cons] at chosen
          cases chosen
          exact ⟨middle, bind_eq_ok.mpr ⟨generations, rfl, bind_eq_ok.mpr
            ⟨middle, read, if_pos once⟩⟩, finished, complete all⟩
        · rw [if_neg once] at chosen
          suffices ∃ after, follow store options later middle = .ok after ∧
              finish view options after = finish view options middle ∧ Done view options after by
            obtain ⟨after, rest, same, done⟩ := this
            exact ⟨after, bind_eq_ok.mpr ⟨generations, rfl, bind_eq_ok.mpr
              ⟨middle, read, (if_neg once).trans rest⟩⟩, same.trans finished, done⟩
          cases later with
          | nil =>
              cases chosen
              exact ⟨middle, rfl, rfl, complete all⟩
          | cons next others =>
              rw [List.getLast?_cons_cons] at chosen
              exact ih ⟨observes.accepted, fun other member => observes.shown other
                (List.mem_cons_of_mem _ member), last, (if_neg once).trans chosen, all⟩ middle

/-- A run prints what may be printed from its start on. -/
theorem runConsume_eq {observations : List (Except String (List Generation))}
    (observes : Observes options log observations) :
    ∃ summary, runConsume store options observations = .ok
        ((deliver options.untilRecords ((groups view).drop options.start)).2, summary) ∧
      summary.finalCursor =
        options.start + (deliver options.untilRecords ((groups view).drop options.start)).1 := by
  obtain ⟨after, followed, same, done⟩ := follow_finish holds options observes
    ⟨options.start, [], 0, none, false⟩
  have allowed : left options [] = options.untilRecords := by simp [left]
  rw [finish_done done, finish] at same
  simp only [allowed, List.nil_append, Prod.mk.injEq] at same
  have accepted : ¬ (¬ options.noFollow = true ∧ options.seconds = 0) := by
    rcases observes.accepted with mode | some
    · simp [mode]
    · simp [some]
  refine ⟨⟨after.entriesScanned, after.printed.length, after.cursor, after.membershipChange⟩, ?_,
    same.1⟩
  rw [← same.2]
  exact checked_eq_ok.mpr ⟨accepted, bind_eq_ok.mpr ⟨after, followed, rfl⟩⟩

end Reading

/-- The offset and the payload of a line. -/
def Printed.content (printed : Printed) : Nat × Bytes := (printed.recordOffset, printed.payload)

/-- Records that have the offsets from the given one on. -/
def offsetted (base : Nat) (records : List Record) : List (Nat × Bytes) :=
  (records.zipIdx base).map fun (record, offset) => (offset, record.payload)

omit [Digests] in
@[simp] theorem offsetted_length (base : Nat) (records : List Record) :
    (offsetted base records).length = records.length := by
  simp [offsetted]

omit [Digests] in
theorem offsetted_append (base : Nat) (front back : List Record) :
    offsetted base (front ++ back) = offsetted base front ++
      offsetted (base + front.length) back := by
  simp [offsetted, List.zipIdx_append]

/-- The contents that the lines for a chunk have. -/
def contents (chunk : Chunk) : List (Nat × Bytes) := offsetted chunk.base chunk.records

theorem recordsIn_sealed {bytes : Bytes} {chunk : Chunk} (made : SealedAs bytes chunk) :
    recordsIn chunk = (contents chunk).map fun content => (some content.1, content.2) := by
  obtain ⟨header, frame, result, spec, -, rfl⟩ := made
  have fits := spec.offsets
  simp only [recordsIn, List.flatMap_cons, List.flatMap_nil, List.append_nil, contents, offsetted,
    Chunk.base_sole, Chunk.records_sole, List.map_map]
  rw [@List.zipIdx_eq_map_add _ frame.records frame.baseOffset.toNat, List.map_map]
  apply List.map_congr_left
  rintro ⟨record, index⟩ member
  have inside : index < frame.records.length := by
    simpa using (List.mem_zipIdx member).2.1
  have within : frame.baseOffset.toNat + index < 2 ^ 64 := by omega
  simp only [Function.comp_apply, RecordOffset.checkedAdd, if_pos within, Option.map_some,
    RecordOffset.toNat_ofNat within]

theorem lines_content {position : Nat} (made : ∀ chunk ∈ chunks, ∃ bytes, SealedAs bytes chunk) :
    (lines position chunks).map Printed.content = chunks.flatMap contents := by
  have found : chunks.flatMap recordsIn =
      (chunks.flatMap contents).map fun content => (some content.1, content.2) := by
    rw [List.map_flatMap]
    apply List.flatMap_congr
    intro chunk member
    obtain ⟨bytes, made⟩ := made chunk member
    exact recordsIn_sealed made
  rw [lines, found, List.map_map, List.zipIdx_map, List.map_map]
  simp only [Function.comp_def, Printed.content, Prod.map_fst, Prod.map_snd,
    Option.getD_some, id_eq]
  exact List.zipIdx_map_fst 0 _

theorem groups_content {view : List (List Chunk)}
    (made : ∀ chunks ∈ view, ∀ chunk ∈ chunks, ∃ bytes, SealedAs bytes chunk) :
    (groups view).map (List.map Printed.content) = view.map (List.flatMap contents) := by
  rw [groups, List.map_map, ← List.zipIdx_map_fst 0 (view.map _), List.zipIdx_map, List.map_map]
  apply List.map_congr_left
  rintro ⟨chunks, position⟩ member
  exact lines_content (made chunks (List.fst_mem_of_mem_zipIdx member))

omit [Digests] in
theorem chained_contents {start stop : Nat} (chained : Adjoining start chunks stop) :
    chunks.flatMap contents = offsetted start (chunks.flatMap Chunk.records) := by
  induction chunks generalizing start with
  | nil => rfl
  | cons chunk rest ih =>
      rw [List.flatMap_cons, List.flatMap_cons, offsetted_append, ih chained.2, contents, chained.1]

theorem Holds.made {payload : Bytes} (holds : Holds store payload chunks) :
    ∀ chunk ∈ chunks, ∃ bytes, SealedAs bytes chunk := by
  cases holds with
  | inline made => exact fun chunk member => List.mem_singleton.mp member ▸ ⟨_, made⟩
  | dataRef encoded points =>
      obtain ⟨bytes, -, made, -⟩ := points
      exact fun chunk member => List.mem_singleton.mp member ▸ ⟨bytes, made⟩
  | referenceBatch encoded points =>
      intro chunk member
      obtain ⟨pointer, -, bytes, -, made, -⟩ := forall₂_mem points.flip member
      exact ⟨bytes, made⟩

/-- A committed history of one Verse: the entries of the log hold these chunks, those that continue
the log have the offsets from zero on, and superseding ones lead to chunks that are there
already. -/
structure History (store : BlobStore) (log : List Bytes) (entries : List Entry) : Prop where
  holds : List.Forall₂ (Holds store) log (entries.map Entry.chunks)
  chained : ∃ stop, Adjoining 0 (Verse.dense entries) stop
  earlier : Verse.Earlier [] entries

/-- The records that an entry leads to. -/
def entryRecords (entry : Entry) : List Record := entry.chunks.flatMap Chunk.records

omit [Digests] in
theorem contents_length (chunks : List Chunk) :
    (chunks.flatMap contents).length = (chunks.flatMap Chunk.records).length := by
  simp [List.length_flatMap, contents]

omit [Digests] in
/-- The entries together lead to the committed records and to those of superseding entries. -/
theorem contents_split (entries : List Entry) :
    (entries.flatMap fun entry => entry.chunks.flatMap contents).length =
      ((Verse.dense entries).flatMap contents).length +
        ((entries.filter Entry.superseding).flatMap entryRecords).length := by
  induction entries with
  | nil => rfl
  | cons entry rest ih =>
      rw [Verse.dense] at ih ⊢
      cases kind : entry.superseding <;>
        simp only [List.flatMap_cons, List.length_append, List.filter_cons, kind, ih, if_true,
          List.flatMap_append, List.nil_append, contents_length entry.chunks, entryRecords,
          Bool.false_eq_true, if_false] <;> omega

omit [Digests] in
theorem contents_dense (entries : List Entry) :
    (entries.flatMap fun entry => entry.chunks.flatMap contents) =
        (Verse.dense entries).flatMap contents ↔
      ∀ entry ∈ entries, entry.superseding = true → entryRecords entry = [] := by
  constructor
  · intro same entry member kind
    have split := contents_split entries
    rw [same] at split
    have nothing : (entries.filter Entry.superseding).flatMap entryRecords = [] :=
      List.length_eq_zero_iff.mp (by omega)
    exact List.flatMap_eq_nil_iff.mp nothing entry (List.mem_filter.mpr ⟨member, kind⟩)
  · intro none
    rw [Verse.dense, List.flatMap_assoc]
    apply List.flatMap_congr
    intro entry member
    cases kind : entry.superseding with
    | false => rfl
    | true =>
        apply List.length_eq_zero_iff.mp
        have empty : entry.chunks.flatMap Chunk.records = [] := none entry member kind
        rw [contents_length, empty]
        rfl

omit [Digests] in
/-- Only the lengths of the groups matter for where a budget ends. -/
theorem atBoundary_congr {α β : Type} {left : List (List α)} {right : List (List β)}
    (same : left.map List.length = right.map List.length) (budget : Nat) :
    AtBoundary left budget ↔ AtBoundary right budget := by
  have parts (count : Nat) : (left.take count).flatten.length =
      (right.take count).flatten.length := by
    rw [List.length_flatten, List.length_flatten, List.map_take, List.map_take, same]
  have total : left.flatten.length = right.flatten.length := by
    rw [List.length_flatten, List.length_flatten, same]
  unfold AtBoundary
  rw [total]
  simp only [parts]

theorem History.groups_content {log : List Bytes} {entries : List Entry}
    (history : History store log entries) :
    (groups (entries.map Entry.chunks)).map (List.map Printed.content) =
      entries.map fun entry => entry.chunks.flatMap contents := by
  rw [Consume.groups_content, List.map_map]
  · rfl
  · intro chunks listed
    obtain ⟨payload, -, held⟩ := forall₂_mem history.holds.flip listed
    exact Holds.made held

/-- The offsets and payloads of a run from the first entry on, without a limit. -/
theorem History.content {log : List Bytes} {entries : List Entry}
    (history : History store log entries) :
    (groups (entries.map Entry.chunks)).flatten.map Printed.content =
      entries.flatMap fun entry => entry.chunks.flatMap contents := by
  rw [List.map_flatten, history.groups_content]
  rfl

end

section Samples

variable [Digests]

/-- Two records from the offset zero on. -/
def sampleFrame : Frame :=
  ⟨⟨repeated 16 9⟩, .ofNat 0, [⟨.empty, [7]⟩, ⟨.empty, [8]⟩], [⟨⟨repeated 16 1⟩, 1, 0, 0, 2⟩]⟩

def sampleChunk : Chunk := ⟨ChunkLogWriter.sampleHeader 1, [sampleFrame]⟩

/-- A chunk is appended, and a rewrite points to it once more. -/
theorem sample_history : ∃ chunk : SealedChunk,
    History (wholeStore chunk) [chunk.bytes] [⟨false, [sampleChunk]⟩] ∧
    History (wholeStore chunk) [chunk.bytes, dataRefBytes (wholePointer chunk)]
      [⟨false, [sampleChunk]⟩, ⟨true, [sampleChunk]⟩] := by
  obtain ⟨chunk, done⟩ : ∃ chunk,
      sealSingleFrameChunk (ChunkLogWriter.sampleHeader 1) [sampleFrame] = .ok chunk :=
    @sealSingleFrameChunk_succeeds _ (ChunkLogWriter.sampleHeader 1) sampleFrame 208 rfl
      (show 0 + 2 < 2 ^ 64 by decide) rfl (by decide)
  have spec := sealSingleFrameChunk_eq_ok done
  have fetched := wholePointer_fetched spec
  have made : SealedAs chunk.bytes sampleChunk := ⟨_, _, chunk, spec, rfl, rfl⟩
  have points : Points (wholeStore chunk) (wholePointer chunk) sampleChunk :=
    ⟨chunk.bytes, fetched, made, spec.chunkId.symm⟩
  refine ⟨chunk, ⟨.cons (.inline made) .nil, ⟨2, rfl, rfl⟩, ?_⟩, ⟨.cons (.inline made)
    (.cons (.dataRef (encodeDataRef_eq_ok.mpr ⟨fetched.valid, rfl⟩) points) .nil),
      ⟨2, rfl, rfl⟩, ?_⟩⟩
  · simp [Verse.Earlier]
  · simp [Verse.Earlier]

def sampleOptions : ConsumeOptions := ⟨0, none, 1, true⟩

omit [Digests] in
theorem sample_observes (log : List Bytes) :
    Observes sampleOptions log [.ok [⟨"loglet", 0, log⟩]] := by
  have whole : payloads [⟨"loglet", 0, log⟩] = log := by simp [payloads]
  refine ⟨.inl rfl, ?_, _, rfl, whole⟩
  intro observed member
  refine ⟨_, List.mem_singleton.mp member, ⟨rfl, trivial⟩, ?_⟩
  exact ⟨[], by rw [whole, List.append_nil]⟩

/-- Each record is printed twice, and a run that is stopped after the first record loses the
second. -/
theorem sample_repeated : ∃ chunk : SealedChunk,
    let log := [chunk.bytes, dataRefBytes (wholePointer chunk)]
    let view : List (Except String (List Generation)) := [.ok [⟨"loglet", 0, log⟩]]
    History (wholeStore chunk) log [⟨false, [sampleChunk]⟩, ⟨true, [sampleChunk]⟩] ∧
    (∃ all summary, runConsume (wholeStore chunk) ⟨0, none, 1, true⟩ view = .ok (all, summary) ∧
      all.map Printed.content = [(0, [7]), (1, [8]), (0, [7]), (1, [8])]) ∧
    ∃ printed summary more moreSummary,
      runConsume (wholeStore chunk) ⟨0, some 1, 1, true⟩ view = .ok (printed, summary) ∧
      runConsume (wholeStore chunk) ⟨summary.finalCursor, none, 1, true⟩ view =
        .ok (more, moreSummary) ∧
      (printed ++ more).map Printed.content = [(0, [7]), (0, [7]), (1, [8])] := by
  obtain ⟨chunk, -, history⟩ := sample_history
  have observes (start : Nat) (limit : Option Nat) : Observes ⟨start, limit, 1, true⟩ _ _ :=
    have sample := sample_observes [chunk.bytes, dataRefBytes (wholePointer chunk)]
    ⟨.inl rfl, sample.shown, sample.whole⟩
  obtain ⟨allSummary, all, -⟩ := runConsume_eq history.holds _ (observes 0 none)
  obtain ⟨summary, printed, cursor⟩ := runConsume_eq history.holds _ (observes 0 (some 1))
  obtain ⟨moreSummary, more, -⟩ := runConsume_eq history.holds _ (observes summary.finalCursor none)
  refine ⟨chunk, history, ⟨_, allSummary, all, rfl⟩, _, summary, _, moreSummary, printed, more, ?_⟩
  rw [cursor]
  rfl

end Samples

/-- A run from the first entry without a limit prints the committed records, once each and in the
order of their offsets, exactly if no superseding entry leads to a record. A run that is stopped at
a limit and one from its cursor print together what one run prints, exactly if the limit ends with
an entry. -/
theorem consume_complete [Digests] {store : BlobStore} {log : List Bytes} {entries : List Entry}
    (history : History store log entries) :
    (∀ {options : ConsumeOptions} {observations : List (Except String (List Generation))},
      Observes options log observations → options.start = 0 → options.untilRecords = none →
      ((∃ printed summary, runConsume store options observations = .ok (printed, summary) ∧
          printed.map Printed.content =
            offsetted 0 ((Verse.dense entries).flatMap Chunk.records)) ↔
        ∀ entry ∈ entries, entry.superseding = true → entryRecords entry = [])) ∧
    (∀ {options : ConsumeOptions} {first rest whole : List (Except String (List Generation))}
      (limit : Nat), Observes options log first → Observes options log rest →
      Observes options log whole →
      ((∃ printed summary more moreSummary all allSummary,
          runConsume store { options with start := 0, untilRecords := some limit } first =
            .ok (printed, summary) ∧
          runConsume store
            { options with start := summary.finalCursor, untilRecords := none } rest =
            .ok (more, moreSummary) ∧
          runConsume store { options with start := 0, untilRecords := none } whole =
            .ok (all, allSummary) ∧
          printed ++ more = all) ↔ AtBoundary (entries.map entryRecords) limit)) := by
  constructor
  · intro options observations observes start unlimited
    obtain ⟨summary, ran, -⟩ := runConsume_eq history.holds options observes
    rw [start, unlimited, List.drop_zero, deliver_none] at ran
    obtain ⟨stop, chained⟩ := history.chained
    rw [← contents_dense, ← chained_contents chained, ← history.content]
    constructor
    · rintro ⟨printed, found, again, same⟩
      cases ran.symm.trans again
      exact same
    · intro same
      exact ⟨_, summary, ran, same⟩
  · intro options first rest whole limit firstSees restSees wholeSees
    have sees {cursor : Nat} {bound : Option Nat}
        {observations : List (Except String (List Generation))}
        (observes : Observes options log observations) :
        Observes { options with start := cursor, untilRecords := bound } log observations :=
      ⟨observes.accepted, observes.shown, observes.whole⟩
    obtain ⟨summary, ran, cursor⟩ := runConsume_eq history.holds _
      (@sees 0 (some limit) _ firstSees)
    obtain ⟨moreSummary, resumed, -⟩ := runConsume_eq history.holds _
      (@sees summary.finalCursor none _ restSees)
    obtain ⟨allSummary, complete, -⟩ := runConsume_eq history.holds _ (@sees 0 none _ wholeSees)
    simp only [List.drop_zero, deliver_none, Nat.zero_add] at ran cursor resumed complete
    have lengths := congrArg (List.map List.length) history.groups_content
    simp only [List.map_map, Function.comp_def, List.length_map, contents_length] at lengths
    rw [← @atBoundary_congr _ _ (groups (entries.map Entry.chunks)) (entries.map entryRecords)
      (lengths.trans (List.map_map ..).symm), ← deliver_resumes, ← cursor]
    constructor
    · rintro ⟨_, _, _, _, _, _, ranToo, resumedToo, completeToo, same⟩
      cases ran.symm.trans ranToo
      cases resumed.symm.trans resumedToo
      cases complete.symm.trans completeToo
      exact same
    · intro same
      exact ⟨_, summary, _, moreSummary, _, allSummary, ran, resumed, complete, same⟩

/-- One chunk of two records, at the limit of two. -/
theorem consume_complete_pair : ∃ chunk : SealedChunk,
    let view : List (Except String (List Generation)) := [.ok [⟨"loglet", 0, [chunk.bytes]⟩]]
    (∃ printed summary, @runConsume sampleDigests (wholeStore chunk) sampleOptions view =
        .ok (printed, summary) ∧ printed.map Printed.content = [(0, [7]), (1, [8])]) ∧
    ∃ printed summary more moreSummary all allSummary,
      @runConsume sampleDigests (wholeStore chunk) ⟨0, some 2, 1, true⟩ view =
        .ok (printed, summary) ∧
      @runConsume sampleDigests (wholeStore chunk) ⟨summary.finalCursor, none, 1, true⟩ view =
        .ok (more, moreSummary) ∧
      @runConsume sampleDigests (wholeStore chunk) ⟨0, none, 1, true⟩ view = .ok (all, allSummary) ∧
      printed ++ more = all := by
  obtain ⟨chunk, history, -⟩ := @sample_history sampleDigests
  have observes := sample_observes [chunk.bytes]
  obtain ⟨complete, resumes⟩ := @consume_complete sampleDigests _ _ _ history
  exact ⟨chunk, (complete observes rfl rfl).mpr (by simp),
    (resumes 2 observes observes observes).mpr (.inl ⟨1, rfl⟩)⟩

/-- A chunk is rewritten: the consumer prints its records again, and after a limit inside an entry
the rest of the entry is not printed at all. -/
theorem consume_repeats : ∃ chunk : SealedChunk,
    let log := [chunk.bytes, dataRefBytes (wholePointer chunk)]
    let view : List (Except String (List Generation)) := [.ok [⟨"loglet", 0, log⟩]]
    @History sampleDigests (wholeStore chunk) log [⟨false, [sampleChunk]⟩, ⟨true, [sampleChunk]⟩] ∧
    (∃ all summary, @runConsume sampleDigests (wholeStore chunk) ⟨0, none, 1, true⟩ view =
        .ok (all, summary) ∧
      all.map Printed.content = [(0, [7]), (1, [8]), (0, [7]), (1, [8])]) ∧
    ∃ printed summary more moreSummary,
      @runConsume sampleDigests (wholeStore chunk) ⟨0, some 1, 1, true⟩ view =
        .ok (printed, summary) ∧
      @runConsume sampleDigests (wholeStore chunk) ⟨summary.finalCursor, none, 1, true⟩ view =
        .ok (more, moreSummary) ∧
      (printed ++ more).map Printed.content = [(0, [7]), (0, [7]), (1, [8])] :=
  @sample_repeated sampleDigests

end Scripture.Consume
