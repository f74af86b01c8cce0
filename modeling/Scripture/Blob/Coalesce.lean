import Scripture.Blob.Reader

set_option autoImplicit false

/- Reads of many pointers with one fetch for each run of adjacent ranges of a blob. The plan is
related to the runs it stands for, and the resolution by runs to the resolution of each pointer. -/
namespace Scripture.Blob

open ByteFormat

/-- One fetch, for one or more pointers in order. -/
structure CoalescedGet where
  blobKey : String
  start : UInt64
  stop : UInt64
  dataRefCount : Nat
  deriving DecidableEq

/-- Exclusive end offset inside the blob. -/
def endOffset (pointer : DataRef) : Except DataRefError UInt64 := do
  pointer.validate
  return pointer.offset + pointer.length

/-- The inner loop of the plan: how many pointers follow up to `stop` in the blob, and their end. -/
def extendRun (blobKey : String) (stop : UInt64) :
    List DataRef → Except DataRefError (Nat × UInt64)
  | [] => return (0, stop)
  | next :: rest => do
      next.validate
      if next.blobKey ≠ blobKey ∨ next.offset ≠ stop then return (0, stop)
      let stop ← endOffset next
      let (count, stop) ← extendRun blobKey stop rest
      return (count + 1, stop)

/-- Builds a minimal plan in iteration order. -/
def planCoalescedGets : List DataRef → Except DataRefError (List CoalescedGet)
  | [] => return []
  | first :: rest => do
      first.validate
      let stop ← endOffset first
      let (count, stop) ← extendRun first.blobKey stop rest
      let plan ← planCoalescedGets (rest.drop count)
      return ⟨first.blobKey, first.offset, stop, count + 1⟩ :: plan
termination_by refs => refs.length
decreasing_by
  rw [List.length_drop, List.length_cons]
  omega

section

variable [Digests]

/-- The bytes of a pointer in a blob that was fetched, with the checks of `fetch_data_ref`. -/
def rangeOf (blob : Bytes) (pointer : DataRef) : Except BlobReadError Bytes := do
  if ChunkDigest.of blob ≠ pointer.blobDigest then throw (.payload .blobDigestMismatch)
  let start := pointer.offset.toNat
  let stop ← (endOffset pointer).mapError .payload
  let some bytes := slice blob start stop.toNat
    | throw (.shortRead (blob.length - start) pointer.length.toNat)
  (pointer.verifyChunkBytes bytes).mapError .payload
  return bytes

/-- One turn of the loop over the pointers of a fetch. -/
def resolveFrom (blob : Bytes) (pointer : DataRef) : Except BlobReadError ResolvedChunk := do
  let bytes ← rangeOf blob pointer
  let chunk ← (decodeChunk bytes).mapError .chunk
  if chunk.header.chunkId ≠ pointer.chunkId then throw .chunkIdMismatch
  return ⟨chunk, some pointer⟩

def resolveGets (store : BlobStore) :
    List CoalescedGet → List DataRef → Except BlobReadError (List ResolvedChunk)
  | [], _ => return []
  | get :: gets, refs => do
      let some blob := store get.blobKey | throw (.objectStore get.blobKey)
      let chunks ← (refs.take get.dataRefCount).mapM (resolveFrom blob)
      let others ← resolveGets store gets (refs.drop get.dataRefCount)
      return chunks ++ others

/-- Resolves many pointers, coalescing adjacent ranges into fewer fetches. -/
def resolveDataRefsCoalesced (store : BlobStore) (refs : List DataRef) :
    Except BlobReadError (List ResolvedChunk) := do
  let plan ← (planCoalescedGets refs).mapError .payload
  resolveGets store plan refs

end

/-- Ranges that follow one another from `start` to `stop`. -/
def Adjacent (start : Nat) : List DataRef → Nat → Prop
  | [], stop => start = stop
  | pointer :: rest, stop =>
      pointer.offset.toNat = start ∧ Adjacent (start + pointer.length.toNat) rest stop

/-- The pointers that one fetch is for: they follow one another in one blob, and the range of the
fetch is the bytes that they refer to. -/
structure Covers (get : CoalescedGet) (run : List DataRef) : Prop where
  nonempty : run ≠ []
  count : get.dataRefCount = run.length
  key : ∀ pointer ∈ run, pointer.blobKey = get.blobKey
  adjacent : Adjacent get.start.toNat run get.stop.toNat
  bytes : ∀ byte, (get.start.toNat ≤ byte ∧ byte < get.stop.toNat) ↔
    ∃ pointer ∈ run, pointer.offset.toNat ≤ byte ∧
      byte < pointer.offset.toNat + pointer.length.toNat

/-- A plan and the pointers cut into its runs, none of which the next pointer would extend. -/
def Coalesced : List CoalescedGet → List DataRef → Prop
  | [], refs => refs = []
  | get :: gets, refs => ∃ run rest, refs = run ++ rest ∧ Covers get run ∧
      (∀ next ∈ rest.head?, next.blobKey ≠ get.blobKey ∨ next.offset ≠ get.stop) ∧
      Coalesced gets rest

theorem Adjacent.le {start stop : Nat} {run : List DataRef} (adjacent : Adjacent start run stop) :
    start ≤ stop := by
  induction run generalizing start with
  | nil => exact le_of_eq adjacent
  | cons pointer rest ih =>
      have := ih adjacent.2
      omega

theorem Adjacent.bytes {start stop : Nat} {run : List DataRef}
    (adjacent : Adjacent start run stop) (byte : Nat) :
    (start ≤ byte ∧ byte < stop) ↔ ∃ pointer ∈ run, pointer.offset.toNat ≤ byte ∧
      byte < pointer.offset.toNat + pointer.length.toNat := by
  induction run generalizing start with
  | nil =>
      cases adjacent
      simp
  | cons pointer rest ih =>
      have later := ih adjacent.2
      have ends := adjacent.2.le
      have begins := adjacent.1
      rw [List.exists_mem_cons_iff, ← later, begins]
      omega

theorem endOffset_eq_ok {pointer : DataRef} {stop : UInt64} :
    endOffset pointer = .ok stop ↔ pointer.Valid ∧ stop = pointer.offset + pointer.length := by
  rw [endOffset, bind_eq_ok]
  constructor
  · rintro ⟨_, valid, done⟩
    cases done
    exact ⟨DataRef.validate_eq_ok.mp valid, rfl⟩
  · rintro ⟨valid, rfl⟩
    exact ⟨(), DataRef.validate_eq_ok.mpr valid, rfl⟩

theorem stop_toNat {pointer : DataRef} (valid : pointer.Valid) :
    (pointer.offset + pointer.length).toNat = pointer.offset.toNat + pointer.length.toNat := by
  rw [UInt64.toNat_add, Nat.mod_eq_of_lt valid.range]

/-- The pointers that a run goes on with, and that the next one does not. -/
theorem extendRun_eq_ok {blobKey : String} {stop last : UInt64} {rest : List DataRef} {count : Nat}
    (extended : extendRun blobKey stop rest = .ok (count, last)) :
    count ≤ rest.length ∧ Adjacent stop.toNat (rest.take count) last.toNat ∧
      (∀ pointer ∈ rest.take count, pointer.Valid ∧ pointer.blobKey = blobKey) ∧
      ∀ next ∈ (rest.drop count).head?, next.blobKey ≠ blobKey ∨ next.offset ≠ last := by
  induction rest generalizing stop count with
  | nil =>
      cases extended
      simp [Adjacent]
  | cons next rest ih =>
      rw [extendRun] at extended
      obtain ⟨_, valid, extended⟩ := bind_eq_ok.mp extended
      have valid := DataRef.validate_eq_ok.mp valid
      split at extended
      · rename_i apart
        cases extended
        refine ⟨by simp, by simp [Adjacent], by simp, ?_⟩
        simpa using apart
      · rename_i follows
        obtain ⟨following, ended, extended⟩ := bind_eq_ok.mp extended
        obtain ⟨⟨more, final⟩, longer, extended⟩ := bind_eq_ok.mp extended
        cases extended
        obtain ⟨-, rfl⟩ := endOffset_eq_ok.mp ended
        obtain ⟨fits, adjacent, each, apart⟩ := ih longer
        rw [stop_toNat valid] at adjacent
        simp only [not_or, not_not] at follows
        obtain ⟨rfl, rfl⟩ := follows
        refine ⟨by simpa using fits, ⟨rfl, adjacent⟩, ?_, apart⟩
        rw [List.take_succ_cons, List.forall_mem_cons]
        exact ⟨⟨valid, rfl⟩, each⟩

theorem extendRun_eq_error {blobKey : String} {stop : UInt64} {rest : List DataRef}
    {error : DataRefError} (failed : extendRun blobKey stop rest = .error error) :
    ∃ pointer ∈ rest, pointer.validate = .error error := by
  induction rest generalizing stop with
  | nil => cases failed
  | cons next rest ih =>
      rw [extendRun] at failed
      rcases bind_eq_error.mp failed with invalid | ⟨_, valid, failed⟩
      · exact ⟨next, by simp, invalid⟩
      · split at failed
        · cases failed
        · rcases bind_eq_error.mp failed with wrong | ⟨following, -, failed⟩
          · rw [endOffset, valid] at wrong
            cases wrong
          · rcases bind_eq_error.mp failed with later | ⟨_, -, wrong⟩
            · obtain ⟨pointer, member, invalid⟩ := ih later
              exact ⟨pointer, List.mem_cons_of_mem _ member, invalid⟩
            · cases wrong

theorem planCoalescedGets_eq_ok {refs : List DataRef} {plan : List CoalescedGet}
    (planned : planCoalescedGets refs = .ok plan) :
    (∀ pointer ∈ refs, pointer.Valid) ∧ Coalesced plan refs := by
  induction refs using planCoalescedGets.induct generalizing plan with
  | case1 =>
      rw [planCoalescedGets] at planned
      cases planned
      exact ⟨by simp, rfl⟩
  | case2 first rest ih =>
      rw [planCoalescedGets] at planned
      obtain ⟨_, -, planned⟩ := bind_eq_ok.mp planned
      obtain ⟨stop, ended, planned⟩ := bind_eq_ok.mp planned
      obtain ⟨⟨count, last⟩, extended, planned⟩ := bind_eq_ok.mp planned
      obtain ⟨others, later, planned⟩ := bind_eq_ok.mp planned
      cases planned
      obtain ⟨valid, rfl⟩ := endOffset_eq_ok.mp ended
      obtain ⟨fits, adjacent, each, apart⟩ := extendRun_eq_ok extended
      rw [stop_toNat valid] at adjacent
      obtain ⟨laterValid, coalesced⟩ := ih count later
      have whole : first :: rest = (first :: rest.take count) ++ rest.drop count := by simp
      have run : Adjacent first.offset.toNat (first :: rest.take count) last.toNat :=
        ⟨rfl, adjacent⟩
      refine ⟨?_, first :: rest.take count, rest.drop count, whole, ?_, apart, coalesced⟩
      · rw [whole, List.forall_mem_append, List.forall_mem_cons]
        exact ⟨⟨valid, fun pointer member => (each pointer member).1⟩, laterValid⟩
      · refine ⟨by simp, by simp [fits], ?_, run, run.bytes⟩
        rw [List.forall_mem_cons]
        exact ⟨rfl, fun pointer member => (each pointer member).2⟩

theorem planCoalescedGets_eq_error {refs : List DataRef} {error : DataRefError}
    (failed : planCoalescedGets refs = .error error) :
    ∃ pointer ∈ refs, pointer.validate = .error error := by
  induction refs using planCoalescedGets.induct with
  | case1 =>
      rw [planCoalescedGets] at failed
      cases failed
  | case2 first rest ih =>
      rw [planCoalescedGets] at failed
      rcases bind_eq_error.mp failed with invalid | ⟨_, valid, failed⟩
      · exact ⟨first, by simp, invalid⟩
      rcases bind_eq_error.mp failed with wrong | ⟨stop, -, failed⟩
      · rw [endOffset, valid] at wrong
        cases wrong
      rcases bind_eq_error.mp failed with run | ⟨⟨count, last⟩, -, failed⟩
      · obtain ⟨pointer, member, invalid⟩ := extendRun_eq_error run
        exact ⟨pointer, List.mem_cons_of_mem _ member, invalid⟩
      rcases bind_eq_error.mp failed with later | ⟨others, -, wrong⟩
      · obtain ⟨pointer, member, invalid⟩ := ih count later
        exact ⟨pointer, List.mem_cons_of_mem _ (List.mem_of_mem_drop member), invalid⟩
      · cases wrong

section

variable [Digests] {store : BlobStore}

/-- What the loop does with a pointer is what its own resolution does, once the blob is there. -/
theorem resolveFrom_eq {blob : Bytes} {pointer : DataRef} (valid : pointer.Valid)
    (present : store pointer.blobKey = some blob) :
    resolveFrom blob pointer = resolveOneDataRef store pointer := by
  have validated := DataRef.validate_eq_ok.mpr valid
  have fits : ¬2 ^ 64 ≤ pointer.offset.toNat + pointer.length.toNat := by
    have := valid.range
    omega
  have fetched : fetchDataRef store pointer = rangeOf blob pointer := by
    rw [fetchDataRef, rangeOf, validated, present, endOffset_eq_ok.mpr ⟨valid, rfl⟩]
    refine (if_neg fits).trans ?_
    rw [← stop_toNat valid]
    rfl
  rw [resolveFrom, resolveOneDataRef, fetched]

theorem resolveOneDataRef_absent {pointer : DataRef} (valid : pointer.Valid)
    (absent : store pointer.blobKey = none) :
    resolveOneDataRef store pointer = .error (.objectStore pointer.blobKey) := by
  have validated := DataRef.validate_eq_ok.mpr valid
  have range := valid.range
  have fits : ¬2 ^ 64 ≤ pointer.offset.toNat + pointer.length.toNat := by omega
  simp only [resolveOneDataRef, fetchDataRef, validated, absent, if_neg fits, Except.mapError]
  rfl

omit [Digests] in
theorem mapM_eq_ok {α β ε : Type} {step : α → Except ε β} {items : List α} {results : List β} :
    items.mapM step = .ok results ↔
      List.Forall₂ (fun item result => step item = .ok result) items results := by
  induction items generalizing results with
  | nil => simp [pure, Except.pure, eq_comm]
  | cons item rest ih =>
      rw [List.mapM_cons, List.forall₂_cons_left_iff, bind_eq_ok]
      constructor
      · rintro ⟨first, taken, more⟩
        obtain ⟨others, later, done⟩ := bind_eq_ok.mp more
        cases done
        exact ⟨first, others, taken, ih.mp later, rfl⟩
      · rintro ⟨first, others, taken, later, rfl⟩
        exact ⟨first, taken, bind_eq_ok.mpr ⟨others, ih.mpr later, rfl⟩⟩

omit [Digests] in
theorem mapM_congr {α β ε : Type} {step other : α → Except ε β} {items : List α}
    (same : ∀ item ∈ items, step item = other item) : items.mapM step = items.mapM other := by
  induction items with
  | nil => rfl
  | cons item rest ih =>
      rw [List.forall_mem_cons] at same
      rw [List.mapM_cons, List.mapM_cons, same.1, ih same.2]

theorem resolveGets_eq {plan : List CoalescedGet} {refs : List DataRef}
    (valid : ∀ pointer ∈ refs, pointer.Valid) (coalesced : Coalesced plan refs) :
    resolveGets store plan refs = refs.mapM (resolveOneDataRef store) := by
  induction plan generalizing refs with
  | nil =>
      cases coalesced
      rfl
  | cons get gets ih =>
      obtain ⟨run, rest, rfl, covers, -, others⟩ := coalesced
      have later := ih (fun pointer member => valid pointer (List.mem_append_right _ member)) others
      have earlier := fun pointer member => valid pointer (List.mem_append_left rest member)
      rw [resolveGets, covers.count, List.take_left, List.drop_left, List.mapM_append, later]
      cases present : store get.blobKey with
      | none =>
          obtain ⟨first, more, rfl⟩ := List.exists_cons_of_ne_nil covers.nonempty
          have key := covers.key first (by simp)
          rw [List.mapM_cons, resolveOneDataRef_absent (earlier first (by simp))
            (key ▸ present), key]
          rfl
      | some blob =>
          have same : run.mapM (resolveFrom blob) = run.mapM (resolveOneDataRef store) :=
            mapM_congr fun pointer member =>
              resolveFrom_eq (earlier pointer member) (covers.key pointer member ▸ present)
          simp only [same]

/-- Coalesced resolution succeeds when each pointer resolves alone, with the same chunks in the same
order; and the plan is one of maximal runs of adjacent pointers, made for all valid pointers. -/
theorem resolveDataRefsCoalesced_exact (store : BlobStore) (refs : List DataRef) :
    (∀ chunks, resolveDataRefsCoalesced store refs = .ok chunks ↔
      List.Forall₂ (fun pointer chunk => resolveOneDataRef store pointer = .ok chunk) refs chunks) ∧
    match planCoalescedGets refs with
    | .ok plan => (∀ pointer ∈ refs, pointer.Valid) ∧ Coalesced plan refs
    | .error error => ∃ pointer ∈ refs, pointer.validate = .error error := by
  cases planned : planCoalescedGets refs with
  | ok plan =>
      obtain ⟨valid, coalesced⟩ := planCoalescedGets_eq_ok planned
      refine ⟨fun chunks => ?_, valid, coalesced⟩
      rw [← mapM_eq_ok, ← resolveGets_eq valid coalesced, resolveDataRefsCoalesced, planned]
      rfl
  | error error =>
      obtain ⟨pointer, member, invalid⟩ := planCoalescedGets_eq_error planned
      refine ⟨fun chunks => ?_, pointer, member, invalid⟩
      rw [resolveDataRefsCoalesced, planned]
      constructor
      · intro wrong
        cases wrong
      · intro resolved
        exfalso
        clear planned
        induction resolved with
        | nil => cases member
        | cons alone _ ih =>
            rcases List.mem_cons.mp member with rfl | later
            · rw [resolveOneDataRef, fetchDataRef, invalid] at alone
              cases alone
            · exact ih later

end

end Scripture.Blob
