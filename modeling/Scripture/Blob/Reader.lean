import Scripture.ChunkLogSpec

set_option autoImplicit false

/- The reader of log payloads: an entry is resolved to its chunks after the blob and the chunk of
each pointer have been checked. -/
namespace Scripture.Blob

open ByteFormat

inductive BlobReadError where
  | payload (error : DataRefError)
  | chunk (error : ChunkError)
  | objectStore (key : String)
  | shortRead (got expected : Nat)
  | chunkIdMismatch
  deriving DecidableEq

structure ResolvedChunk where
  chunk : Chunk
  dataRef : Option DataRef
  deriving DecidableEq

section

variable [Digests]

/-- Fetches the whole object, and takes the range of the pointer from it once its digest is
right. -/
def fetchDataRef (store : BlobStore) (pointer : DataRef) : Except BlobReadError Bytes := do
  pointer.validate.mapError .payload
  let start := pointer.offset.toNat
  let stop := start + pointer.length.toNat
  if 2 ^ 64 ≤ stop then throw (.payload .rangeOverflow)
  let some blob := store pointer.blobKey | throw (.objectStore pointer.blobKey)
  if ChunkDigest.of blob ≠ pointer.blobDigest then throw (.payload .blobDigestMismatch)
  let some bytes := slice blob start stop
    | throw (.shortRead (blob.length - start) pointer.length.toNat)
  (pointer.verifyChunkBytes bytes).mapError .payload
  return bytes

def resolveOneDataRef (store : BlobStore) (pointer : DataRef) :
    Except BlobReadError ResolvedChunk := do
  let bytes ← fetchDataRef store pointer
  let chunk ← (decodeChunk bytes).mapError .chunk
  if chunk.header.chunkId ≠ pointer.chunkId then throw .chunkIdMismatch
  return ⟨chunk, some pointer⟩

def resolveDataRefs (store : BlobStore) : List DataRef → Except BlobReadError (List ResolvedChunk)
  | [] => return []
  | pointer :: rest => do
      let first ← resolveOneDataRef store pointer
      let others ← resolveDataRefs store rest
      return first :: others

def resolveLogPayload (store : BlobStore) (payload : Bytes) :
    Except BlobReadError (List ResolvedChunk) := do
  match ← (decodeLogPayload payload).mapError .payload with
  | .inlineChunk bytes => do
      let chunk ← (decodeChunk bytes).mapError .chunk
      return [⟨chunk, none⟩]
  | .dataRef pointer => do
      let resolved ← resolveOneDataRef store pointer
      return [resolved]
  | .referenceBatch pointers => resolveDataRefs store pointers

theorem fetchDataRef_eq_ok {store : BlobStore} {pointer : DataRef} {bytes : Bytes} :
    fetchDataRef store pointer = .ok bytes ↔ Fetched store pointer bytes := by
  unfold fetchDataRef
  constructor
  · intro fetched
    obtain ⟨_, valid, fetched⟩ := bind_eq_ok.mp fetched
    obtain ⟨-, fetched⟩ := checked_eq_ok.mp fetched
    split at fetched <;> [skip; cases fetched]
    rename_i blob present
    obtain ⟨digest, fetched⟩ := checked_eq_ok.mp fetched
    split at fetched <;> [skip; cases fetched]
    rename_i range found
    obtain ⟨_, verified, fetched⟩ := bind_eq_ok.mp fetched
    cases fetched
    obtain ⟨valid, length, chunkDigest⟩ := verifyChunkBytes_eq_ok.mp (mapError_eq_ok.mp verified)
    exact ⟨valid, ⟨blob, present, by simpa using digest, found⟩, length, chunkDigest⟩
  · rintro ⟨valid, ⟨blob, present, digest, found⟩, length, chunkDigest⟩
    have verified := verifyChunkBytes_eq_ok.mpr ⟨valid, length, chunkDigest⟩
    have range := valid.range
    refine bind_eq_ok.mpr ⟨(), mapError_eq_ok.mpr (DataRef.validate_eq_ok.mpr valid), ?_⟩
    refine checked_eq_ok.mpr ⟨by omega, ?_⟩
    rw [present]
    refine checked_eq_ok.mpr ⟨by simp [digest], ?_⟩
    rw [found]
    exact bind_eq_ok.mpr ⟨(), mapError_eq_ok.mpr verified, rfl⟩

end

end Scripture.Blob
