import Scripture.ChunkCanonical
import Scripture.ChunkLogSpec

set_option autoImplicit false

/- What a log stands for, chunk by chunk, and what recovery says about it: every recovered chunk
describes one decoded chunk of the scanned suffix, in order. -/
namespace Scripture

open ByteFormat ByteFormat.Reader

/-- Submissions that tile a frame have distinct identities. -/
theorem tilingLoop_distinct (submissions : List SubmissionRef) (seen : List Identity)
    (cursor stop : Nat) (tiled : tilingLoop submissions seen cursor = .ok stop) :
    (submissions.map SubmissionRef.identity).Nodup ∧
      ∀ submission ∈ submissions, submission.identity ∉ seen := by
  induction submissions generalizing seen cursor with
  | nil => exact ⟨List.nodup_nil, by simp⟩
  | cons submission rest ih =>
      unfold tilingLoop at tiled
      split at tiled
      · cases tiled
      · rename_i unseen
        split at tiled
        · cases tiled
        · split at tiled
          · cases tiled
          · obtain ⟨distinct, others⟩ := ih _ _ tiled
            refine ⟨?_, ?_⟩
            · rw [List.map_cons, List.nodup_cons]
              refine ⟨?_, distinct⟩
              intro member
              obtain ⟨other, listed, same⟩ := List.mem_map.mp member
              exact others other listed (by rw [same]; exact List.mem_cons_self)
            · intro other member
              rcases List.mem_cons.mp member with rfl | listed
              · exact unseen
              · exact fun held => others other listed (List.mem_cons_of_mem _ held)

theorem validateSubmissionTiling_distinct {submissions : List SubmissionRef} {count : Nat}
    (tiled : validateSubmissionTiling submissions count = .ok ()) :
    (submissions.map SubmissionRef.identity).Nodup := by
  unfold validateSubmissionTiling at tiled
  obtain ⟨stop, looped, -⟩ := bind_eq_ok.mp tiled
  exact (tilingLoop_distinct submissions [] 0 stop looped).1

theorem decodeChunk_sole [Digests] {bytes : Bytes} {header : ChunkHeader} {entry : FrameRef}
    {chunk : Chunk} (index : decodeIndex bytes = .ok ⟨header, [entry]⟩)
    (decoded : decodeChunk bytes = .ok chunk) :
    ∃ records, records.length = entry.recordCount.toNat ∧
      chunk = ⟨header, [⟨entry.journalId, entry.baseOffset, records, entry.submissions⟩]⟩ := by
  unfold decodeChunk at decoded
  obtain ⟨-, decoded⟩ := checked_eq_ok.mp decoded
  obtain ⟨⟨⟨trailerOffset, trailerLen⟩, _⟩, -, decoded⟩ := bind_eq_ok.mp decoded
  obtain ⟨found, again, decoded⟩ := bind_eq_ok.mp decoded
  cases index.symm.trans again
  obtain ⟨-, decoded⟩ := checked_eq_ok.mp decoded
  split at decoded <;> [skip; cases decoded]
  obtain ⟨-, decoded⟩ := checked_eq_ok.mp decoded
  obtain ⟨frames, framesDecoded, decoded⟩ := bind_eq_ok.mp decoded
  cases decoded
  obtain ⟨body, records, others, -, framed, none, rfl⟩ := decodeFrames_cons framesDecoded
  cases none
  exact ⟨records, (decodeFrame_spells framed).2.2.symm, rfl⟩

/-- The chunks one log entry stands for, decoded. -/
def Stands [Digests] (store : BlobStore) (payload : Bytes) (chunks : List Chunk) : Prop :=
  ∃ sets, resolvePayload (some store) payload = .ok sets ∧
    List.Forall₂ (fun bytes chunk => decodeChunk bytes = .ok chunk) sets chunks

/-- What a whole log stands for, entry by entry. -/
abbrev LogView [Digests] (store : BlobStore) (log : List Bytes) (view : List (List Chunk)) : Prop :=
  List.Forall₂ (Stands store) log view

/-- These bytes are one of the chunks that the entry in this slot stands for, inline or through a
verified pointer. -/
def BytesAt [Digests] (log : List Bytes) (store : BlobStore) (slot : Nat) (bytes : Bytes) : Prop :=
  ∃ payload sets, log[slot]? = some payload ∧ resolvePayload (some store) payload = .ok sets ∧
    bytes ∈ sets

/-- The slot holds this chunk. -/
def ChunkAt [Digests] (log : List Bytes) (store : BlobStore) (slot : Nat) (chunk : Chunk) : Prop :=
  ∃ bytes, BytesAt log store slot bytes ∧ decodeChunk bytes = .ok chunk

section views

variable [Digests] {before after : BlobStore}

theorem BytesAt.extend (grown : before.Extends after) {log : List Bytes} (more : List Bytes)
    {slot : Nat} {bytes : Bytes} (held : BytesAt log before slot bytes) :
    BytesAt (log ++ more) after slot bytes := by
  obtain ⟨payload, sets, entry, resolved, member⟩ := held
  refine ⟨payload, sets, ?_, resolvePayload_extend grown resolved, member⟩
  rw [List.getElem?_append_left (List.getElem?_eq_some_iff.mp entry).1]
  exact entry

theorem ChunkAt.extend (grown : before.Extends after) {log : List Bytes} (more : List Bytes)
    {slot : Nat} {chunk : Chunk} (held : ChunkAt log before slot chunk) :
    ChunkAt (log ++ more) after slot chunk := by
  obtain ⟨bytes, present, decoded⟩ := held
  exact ⟨bytes, present.extend grown more, decoded⟩

end views

/-- Each entry on the left has its counterpart. -/
theorem forall₂_mem {α β : Type} {related : α → β → Prop} {left : List α} {right : List β}
    (pairs : List.Forall₂ related left right) {first : α} (member : first ∈ left) :
    ∃ second ∈ right, related first second := by
  induction pairs with
  | nil => cases member
  | cons here _ ih =>
      rcases List.mem_cons.mp member with rfl | later
      · exact ⟨_, List.mem_cons_self, here⟩
      · obtain ⟨second, listed, holds⟩ := ih later
        exact ⟨second, List.mem_cons_of_mem _ listed, holds⟩

/-- Each place on the right has its counterpart. -/
theorem forall₂_getElem? {α β : Type} {related : α → β → Prop} {left : List α} {right : List β}
    (pairs : List.Forall₂ related left right) {index : Nat} {second : β}
    (found : right[index]? = some second) :
    ∃ first, left[index]? = some first ∧ related first second := by
  obtain ⟨inside, rfl⟩ := List.getElem?_eq_some_iff.mp found
  have length := pairs.length_eq ▸ inside
  exact ⟨left[index], List.getElem?_eq_getElem length, pairs.get length inside⟩

/-- A recovered chunk describes the chunk that was decoded in its slot. -/
structure Describes [Digests] (journal : JournalId) (recovered : RecoveredChunk) (slot : Nat)
    (chunk : Chunk) : Prop where
  slot : recovered.slot = slot
  chunkId : chunk.header.chunkId = recovered.chunkId
  generation : chunk.header.generation = recovered.generation
  base : recovered.frame.baseOffset = recovered.firstOffset
  distinct : (recovered.frame.submissions.map SubmissionRef.identity).Nodup
  frame : ∃ records, records.length = recovered.recordCount.toNat ∧
    chunk.frames =
      [⟨journal, recovered.firstOffset, records, recovered.frame.submissions⟩] ∧
    digestSubmissions journal records recovered.frame.submissions =
      .ok recovered.submissionDigests

/-- The decoded chunks of a view with their slots, in order. -/
def slotted : Nat → List (List Chunk) → List (Nat × Chunk)
  | _, [] => []
  | slot, chunks :: rest => chunks.map (slot, ·) ++ slotted (slot + 1) rest

theorem slotted_mem {slot : Nat} {view : List (List Chunk)} {entry : Nat × Chunk}
    (member : entry ∈ slotted slot view) :
    ∃ index chunks, view[index]? = some chunks ∧ entry.1 = slot + index ∧ entry.2 ∈ chunks := by
  induction view generalizing slot with
  | nil => cases member
  | cons chunks rest ih =>
      rcases List.mem_append.mp member with here | later
      · obtain ⟨chunk, listed, rfl⟩ := List.mem_map.mp here
        exact ⟨0, chunks, rfl, rfl, listed⟩
      · obtain ⟨index, found, held, place, listed⟩ := ih later
        exact ⟨index + 1, found, by simpa using held, by omega, listed⟩

/-- The chunks of a dense suffix have offsets. -/
theorem denseTail_fits (chunks : List RecoveredChunk) {start stop : RecordOffset}
    (dense : denseTail chunks start = .ok stop) :
    ∀ chunk ∈ chunks, chunk.firstOffset.toNat + chunk.recordCount.toNat < 2 ^ 64 := by
  induction chunks generalizing start with
  | nil => simp
  | cons chunk rest ih =>
      unfold denseTail at dense
      split at dense
      · cases dense
      · rename_i continues
        split at dense
        · cases dense
        · rename_i next advanced
          intro other member
          rcases List.mem_cons.mp member with rfl | listed
          · have sum := RecordOffset.checkedAdd_eq_some.mp advanced
            have bound := next.toNat_lt
            simp only [ne_eq, not_not] at continues
            rw [continues]
            omega
          · exact ih dense other listed

section recovery

variable [Digests] {journal : JournalId} {cohort : CohortId} {policy : GenerationPolicy}

theorem recoverChunk_eq_ok {previous next : Option UInt64} {slot : Nat} {bytes : Bytes}
    {recovered : RecoveredChunk}
    (success : recoverChunk journal cohort policy previous slot bytes = .ok (recovered, next)) :
    ∃ chunk, decodeChunk bytes = .ok chunk ∧ Describes journal recovered slot chunk := by
  unfold recoverChunk at success
  obtain ⟨⟨header, entries⟩, indexed, success⟩ := bind_eq_ok.mp success
  obtain ⟨decoded, whole, success⟩ := bind_eq_ok.mp success
  obtain ⟨-, success⟩ := checked_eq_ok.mp success
  obtain ⟨_, -, success⟩ := bind_eq_ok.mp success
  obtain ⟨entry, sole, success⟩ := bind_eq_ok.mp success
  obtain ⟨single, owner⟩ := ChunkLogWriter.soleFrame_eq_ok sole
  dsimp only at single
  subst single
  have index := mapError_eq_ok.mp indexed
  have decodes := mapError_eq_ok.mp whole
  obtain ⟨records, length, shape⟩ := decodeChunk_sole index decodes
  obtain ⟨_, _, -, -, -, -, -, -, -, entered, -⟩ := decodeIndex_spells index
  subst shape
  dsimp only at success
  obtain ⟨digests, digested, success⟩ := bind_eq_ok.mp success
  cases success
  exact ⟨_, decodes, {
    slot := rfl
    chunkId := rfl
    generation := rfl
    base := rfl
    distinct := validateSubmissionTiling_distinct entered.tiled
    frame := ⟨records, length, by rw [owner], digested⟩ }⟩

variable {chunks : List RecoveredChunk}

theorem recoverChunks_eq_ok {slot : Nat} (sets : List Bytes) {previous next : Option UInt64}
    (success : recoverChunks journal cohort policy slot previous sets = .ok (chunks, next)) :
    ∃ decoded, List.Forall₂ (fun bytes chunk => decodeChunk bytes = .ok chunk) sets decoded ∧
      List.Forall₂ (fun recovered (entry : Nat × Chunk) =>
        Describes journal recovered entry.1 entry.2) chunks (decoded.map (slot, ·)) := by
  induction sets generalizing previous chunks with
  | nil =>
      cases success
      exact ⟨[], .nil, .nil⟩
  | cons bytes rest ih =>
      unfold recoverChunks at success
      obtain ⟨⟨recovered, middle⟩, first, success⟩ := bind_eq_ok.mp success
      obtain ⟨⟨others, last⟩, remaining, success⟩ := bind_eq_ok.mp success
      cases success
      obtain ⟨chunk, decodes, describes⟩ := recoverChunk_eq_ok first
      obtain ⟨decoded, sets, described⟩ := ih remaining
      exact ⟨chunk :: decoded, .cons decodes sets, .cons describes described⟩

/-- Recovery describes the scanned entries, chunk by chunk. -/
theorem recoverSlots_eq_ok {store : BlobStore} {blobs : Option BlobStore}
    (covers : Covers store blobs) (log : List Bytes) {slot : Nat} {previous : Option UInt64}
    (success : recoverSlots journal cohort policy blobs slot previous log = .ok chunks) :
    ∃ view, LogView store log view ∧
      List.Forall₂ (fun recovered (entry : Nat × Chunk) =>
        Describes journal recovered entry.1 entry.2) chunks (slotted slot view) := by
  induction log generalizing slot previous chunks with
  | nil =>
      cases success
      exact ⟨[], .nil, .nil⟩
  | cons payload rest ih =>
      unfold recoverSlots at success
      obtain ⟨sets, resolved, success⟩ := bind_eq_ok.mp success
      obtain ⟨⟨front, middle⟩, first, success⟩ := bind_eq_ok.mp success
      obtain ⟨others, remaining, success⟩ := bind_eq_ok.mp success
      cases success
      obtain ⟨decoded, decodes, described⟩ := recoverChunks_eq_ok sets first
      obtain ⟨view, stands, follows⟩ := ih remaining
      exact ⟨decoded :: view, .cons ⟨sets, resolvePayload_covers covers resolved, decodes⟩ stands,
        List.rel_append described follows⟩

/-- Everything a successful recovery says about its suffix. -/
theorem recoverFromLog_eq_ok {generation : UInt64} {log : List Bytes} {bound : RecoveryBound}
    {store : BlobStore} {blobs : Option BlobStore} (covers : Covers store blobs)
    {writer : ChunkLogWriter}
    (success : recoverFromLog journal cohort generation log bound policy blobs =
      .ok (writer, chunks)) :
    (∃ next, writer = ⟨journal, cohort, generation, log, next, false⟩) ∧
      (∃ view, LogView store (log.drop (log.length - bound.val)) view ∧
        List.Forall₂ (fun recovered (entry : Nat × Chunk) =>
          Describes journal recovered entry.1 entry.2) chunks
            (slotted (log.length - bound.val) view)) ∧
      ∀ chunk ∈ chunks, chunk.firstOffset.toNat + chunk.recordCount.toNat < 2 ^ 64 := by
  unfold recoverFromLog at success
  obtain ⟨found, scanned, success⟩ := bind_eq_ok.mp success
  obtain ⟨next, dense, success⟩ := bind_eq_ok.mp success
  cases success
  exact ⟨⟨next, rfl⟩, recoverSlots_eq_ok covers _ scanned, denseTail_fits _ dense⟩

theorem recoverFromLog_chunkAt {generation : UInt64} {log : List Bytes} {bound : RecoveryBound}
    {store : BlobStore} {blobs : Option BlobStore} (covers : Covers store blobs)
    {writer : ChunkLogWriter}
    (success : recoverFromLog journal cohort generation log bound policy blobs =
      .ok (writer, chunks)) {recovered : RecoveredChunk} (member : recovered ∈ chunks) :
    ∃ chunk, ChunkAt log store recovered.slot chunk ∧
      Describes journal recovered recovered.slot chunk := by
  obtain ⟨-, ⟨view, stands, described⟩, -⟩ := recoverFromLog_eq_ok covers success
  obtain ⟨⟨slot, chunk⟩, listed, describes⟩ := forall₂_mem described member
  obtain ⟨index, held, entry, place, inside⟩ := slotted_mem listed
  obtain ⟨payload, logged, stand⟩ := forall₂_getElem? stands entry
  rw [List.getElem?_drop] at logged
  have position : recovered.slot = log.length - bound.val + index := describes.slot.trans place
  rw [← position] at logged
  obtain ⟨sets, resolved, decodes⟩ := stand
  obtain ⟨bytes, member, decoded⟩ := forall₂_mem decodes.flip inside
  exact ⟨chunk, ⟨bytes, ⟨payload, sets, logged, resolved, member⟩, decoded⟩,
    describes.slot ▸ describes⟩

end recovery

end Scripture
