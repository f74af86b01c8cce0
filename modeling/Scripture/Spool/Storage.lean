import Scripture.AppendLog
import Scripture.Spool.Frame

set_option autoImplicit false

/- The segment file of a spool and its scanner. Opening leaves the file as it is found. -/
namespace Scripture.Spool

open ByteFormat AppendLog

structure SpoolConfig where
  maxWalBytes : Nat
  maxFrames : Nat
  maxFrameBytes : Nat
  maxInflightCompletions : Nat
  deriving DecidableEq

inductive SpoolPoisonCause where
  | forwardFailed
  | receiptFailed
  | progressFailed
  deriving DecidableEq

/-- Without the texts of the operating system's errors. -/
inductive SpoolError where
  | invalidConfig
  | capacityExceeded
  | frame (error : SpoolFrameError)
  | io
  | locked
  | recoveryRequired
  | duplicateIdentity
  | notServing
  | poisoned (cause : SpoolPoisonCause)
  | unavailable
  | progressFailed
  | forward (message : String)
  deriving DecidableEq

def SpoolConfig.validate (config : SpoolConfig) : Except SpoolError Unit :=
  if config.maxWalBytes = 0 ∨ config.maxFrames = 0 ∨ config.maxFrameBytes < 16 ∨
      config.maxInflightCompletions = 0 then throw .invalidConfig
  else return ()

structure ValidFrame where
  offset : Nat
  encodedLen : Nat
  frame : SpoolFrame
  deriving DecidableEq

/-- What the scanner found behind the last valid frame. -/
inductive ScanTail where
  | cleanEof
  | tornTerminal (offset residualBytes : Nat)
  | corruptMiddle (offset : Nat)
  deriving DecidableEq

/-- Where a scan stops that cannot decode what is left. -/
def stopTail (offset : Nat) (bytes : Bytes) (error : SpoolFrameError) : ScanTail :=
  if 4 ≤ bytes.length ∧ claimedLen bytes < bytes.length ∧ error ≠ .truncated then
    .corruptMiddle offset
  else .tornTerminal offset bytes.length

theorem stopTail_ne_cleanEof (offset : Nat) (bytes : Bytes) (error : SpoolFrameError) :
    stopTail offset bytes error ≠ .cleanEof := by
  unfold stopTail
  split
  · intro same
    cases same
  · intro same
    cases same

variable [Digests]

/-- The loop of the scanner. Each frame takes at least one byte, so the length of the bytes is fuel
enough. -/
def scanFrom : Nat → Nat → Bytes → List ValidFrame × ScanTail
  | 0, _, _ => ([], .cleanEof)
  | fuel + 1, offset, bytes =>
      if bytes = [] then ([], .cleanEof)
      else match decodeFrame bytes with
        | .ok (frame, consumed) =>
            let later := scanFrom fuel (offset + consumed) (bytes.drop consumed)
            (⟨offset, consumed, frame⟩ :: later.1, later.2)
        | .error error => ([], stopTail offset bytes error)

def scanBytes (bytes : Bytes) : List ValidFrame × ScanTail := scanFrom bytes.length 0 bytes

/-- The frames a scan finds. -/
def scannedFrames (bytes : Bytes) : List SpoolFrame := (scanBytes bytes).1.map ValidFrame.frame

structure FileSpoolStorage where
  segment : LogFile
  usedBytes : Nat
  frameCount : Nat
  deriving DecidableEq

namespace FileSpoolStorage

def «open» (segment : LogFile) : FileSpoolStorage where
  segment
  usedBytes := segment.bytes.length
  frameCount := (scanBytes segment.bytes).1.length

/-- A write that fails may leave the beginning of its frame; the counters then stay. -/
def appendFrame (storage : FileSpoolStorage) (frame : SpoolFrame) (reply : WriteReply) :
    FileSpoolStorage × Except SpoolError Unit :=
  match encodeFrame frame with
  | .error error => (storage, .error (.frame error))
  | .ok encoded =>
      let segment := storage.segment.append (reply.landed encoded)
      match reply with
      | .written =>
          (⟨segment, Usize.saturatingAdd storage.usedBytes encoded.length,
            Usize.saturatingAdd storage.frameCount 1⟩, .ok ())
      | .failed _ => ({ storage with segment }, .error .io)

def sync (storage : FileSpoolStorage) (synced : Bool) : FileSpoolStorage × Except SpoolError Unit :=
  if synced then ({ storage with segment := storage.segment.sync }, .ok ())
  else (storage, .error .io)

/-- `append_frame` and then `sync`, under one lock. -/
def persist (storage : FileSpoolStorage) (frame : SpoolFrame) (reply : WriteReply) (synced : Bool) :
    FileSpoolStorage × Except SpoolError Unit :=
  match storage.appendFrame frame reply with
  | (storage, .error error) => (storage, .error error)
  | (storage, .ok ()) => storage.sync synced

def scanValidFrames (storage : FileSpoolStorage) : List ValidFrame × ScanTail :=
  scanBytes storage.segment.bytes

end FileSpoolStorage

theorem Spells.nonempty {frame : SpoolFrame} {piece : Bytes} (spelled : Spells frame piece) :
    1 ≤ piece.length := by
  have long := (decodeFrame_eq_ok.mp spelled).1
  omega

/-- A whole frame is found, and the scan goes on behind it. -/
theorem scanFrom_append {frame : SpoolFrame} {piece : Bytes} (spelled : Spells frame piece)
    (rest : Bytes) (fuel offset : Nat) :
    scanFrom (fuel + 1) offset (piece ++ rest) =
      (⟨offset, piece.length, frame⟩ :: (scanFrom fuel (offset + piece.length) rest).1,
        (scanFrom fuel (offset + piece.length) rest).2) := by
  have some_byte := spelled.nonempty
  have present : piece ++ rest ≠ [] := by
    intro empty
    have length := congrArg List.length empty
    simp only [List.length_append, List.length_nil] at length
    omega
  rw [scanFrom, if_neg present, spelled.decode_append]
  simp only [List.drop_left]

variable {frames : List SpoolFrame}

/-- Over whole frames the scan finds each of them and goes on behind. -/
theorem scanFrom_laid {kept : Bytes} (laid : Laid Spells frames kept) (rest : Bytes)
    (fuel offset : Nat) (enough : kept.length + rest.length ≤ fuel) :
    ∃ left, rest.length ≤ left ∧
      (scanFrom fuel offset (kept ++ rest)).1.map ValidFrame.frame =
        frames ++ (scanFrom left (offset + kept.length) rest).1.map ValidFrame.frame ∧
      (scanFrom fuel offset (kept ++ rest)).2 = (scanFrom left (offset + kept.length) rest).2 := by
  induction laid generalizing fuel offset with
  | nil => exact ⟨fuel, by simpa using enough, rfl, rfl⟩
  | @cons frame piece frames kept spelled laid ih =>
      have some_byte := spelled.nonempty
      rw [List.length_append] at enough
      obtain ⟨left, rfl⟩ : ∃ left, fuel = left + 1 := ⟨fuel - 1, by omega⟩
      obtain ⟨further, long, found, tail⟩ := ih left (offset + piece.length) (by omega)
      rw [List.append_assoc, scanFrom_append spelled]
      refine ⟨further, long, ?_, ?_⟩
      · rw [List.map_cons, found, List.length_append, Nat.add_assoc]
        rfl
      · rw [tail, List.length_append, Nat.add_assoc]

/-- Nothing more is found in the beginning of a frame, and it is no corruption. -/
theorem scanFrom_torn {lost : List SpoolFrame} {rest : Bytes} (torn : Torn Spells lost rest)
    (fuel offset : Nat) (enough : rest.length ≤ fuel) :
    scanFrom fuel offset rest =
      ([], if rest = [] then .cleanEof else .tornTerminal offset rest.length) := by
  by_cases none : rest = []
  · subst none
    cases fuel with
    | zero => rfl
    | succ fuel => simp [scanFrom]
  · have some_byte : 0 < rest.length := List.length_pos_of_ne_nil none
    obtain ⟨left, rfl⟩ : ∃ left, fuel = left + 1 := ⟨fuel - 1, by omega⟩
    rcases torn with empty | ⟨frame, later, piece, more, -, spelled, cut, rfl⟩
    · exact absurd empty none
    · rw [scanFrom, if_neg none, spelled.decode_torn cut, if_neg none]
      simp [stopTail]

/-- What a scan reads off a file that was cut anywhere. -/
theorem scanBytes_cut {lost : List SpoolFrame} {kept rest : Bytes}
    (laid : Laid Spells frames kept) (torn : Torn Spells lost rest) :
    scannedFrames (kept ++ rest) = frames ∧
      (scanBytes (kept ++ rest)).2 =
        if rest = [] then .cleanEof else .tornTerminal kept.length rest.length := by
  obtain ⟨left, long, found, tail⟩ :=
    scanFrom_laid laid rest (kept ++ rest).length 0 (by rw [List.length_append])
  rw [scanFrom_torn torn left _ long] at found tail
  constructor
  · rw [List.map_nil, List.append_nil] at found
    exact found
  · rw [Nat.zero_add] at tail
    exact tail

/-- Where a scan ends cleanly there is no beginning of a further frame. -/
theorem untorn_of_clean {lost : List SpoolFrame} {kept rest : Bytes}
    (laid : Laid Spells frames kept) (torn : Torn Spells lost rest)
    (clean : (scanBytes (kept ++ rest)).2 = .cleanEof) : rest = [] := by
  by_contra some_byte
  rw [(scanBytes_cut laid torn).2, if_neg some_byte] at clean
  cases clean

theorem scanBytes_laid {bytes : Bytes} (laid : Laid Spells frames bytes) :
    scannedFrames bytes = frames ∧ (scanBytes bytes).2 = .cleanEof := by
  have cut := scanBytes_cut laid (Or.inl rfl : Torn Spells [] [])
  rwa [List.append_nil, if_pos rfl] at cut

/-- What decodes is a whole frame with the rest behind it. -/
theorem decodeFrame_split {bytes : Bytes} {frame : SpoolFrame} {consumed : Nat}
    (decoded : decodeFrame bytes = .ok (frame, consumed)) :
    ∃ piece rest, bytes = piece ++ rest ∧ piece.length = consumed ∧ Spells frame piece := by
  obtain ⟨long, total, fits, body⟩ := decodeFrame_eq_ok.mp decoded
  have front : (bytes.take consumed).length = consumed := List.length_take_of_le fits
  have claims : 4 ≤ consumed := by
    rw [total]
    exact Nat.le_add_right 4 _
  refine ⟨_, _, (List.take_append_drop consumed bytes).symm, front, ?_⟩
  refine decodeFrame_eq_ok.mpr ⟨by omega, ?_, Nat.le_refl _, ?_⟩
  · rw [front, total, claimedLen, claimedLen, List.take_take, Nat.min_eq_left (by omega)]
  · rw [List.take_length]
    exact body

/-- A scan goes over whole frames, to the end or to what it cannot decode. -/
theorem scanFrom_stops {fuel offset : Nat} {bytes : Bytes} (enough : bytes.length ≤ fuel) :
    ∃ kept rest, bytes = kept ++ rest ∧
      Laid Spells ((scanFrom fuel offset bytes).1.map ValidFrame.frame) kept ∧
      (rest = [] ∧ (scanFrom fuel offset bytes).2 = .cleanEof ∨
        ∃ error, decodeFrame rest = .error error ∧
          (scanFrom fuel offset bytes).2 = stopTail (offset + kept.length) rest error) := by
  induction fuel generalizing offset bytes with
  | zero =>
      obtain rfl : bytes = [] := List.length_eq_zero_iff.mp (by omega)
      exact ⟨[], [], rfl, .nil, Or.inl ⟨rfl, rfl⟩⟩
  | succ fuel ih =>
      by_cases none : bytes = []
      · subst none
        refine ⟨[], [], rfl, ?_, Or.inl ⟨rfl, ?_⟩⟩
        · rw [scanFrom, if_pos rfl]
          exact .nil
        · rw [scanFrom, if_pos rfl]
      · cases decoded : decodeFrame bytes with
        | error error =>
            refine ⟨[], bytes, rfl, ?_, Or.inr ⟨error, decoded, ?_⟩⟩
            · rw [scanFrom, if_neg none, decoded]
              exact .nil
            · rw [scanFrom, if_neg none, decoded]
              rfl
        | ok found =>
            obtain ⟨frame, consumed⟩ := found
            obtain ⟨piece, rest, rfl, rfl, spelled⟩ := decodeFrame_split decoded
            have some_byte := spelled.nonempty
            rw [List.length_append] at enough
            obtain ⟨kept, left, split, laid, stops⟩ := @ih (offset + piece.length) rest (by omega)
            rw [scanFrom_append spelled]
            refine ⟨piece ++ kept, left, ?_, .cons spelled laid, ?_⟩
            · rw [split, List.append_assoc]
            · rw [List.length_append, ← Nat.add_assoc]
              exact stops

/-- A scan ends cleanly exactly over whole frames. -/
theorem scanBytes_clean_iff {bytes : Bytes} :
    (scanBytes bytes).2 = .cleanEof ↔ Laid Spells (scannedFrames bytes) bytes := by
  constructor
  · intro clean
    obtain ⟨kept, rest, split, laid, stops⟩ := @scanFrom_stops _ _ 0 bytes (Nat.le_refl _)
    rcases stops with ⟨rfl, -⟩ | ⟨error, -, stopped⟩
    · rw [List.append_nil] at split
      rw [← split] at laid
      exact laid
    · exact absurd (stopped.symm.trans clean) (stopTail_ne_cleanEof _ _ _)
  · intro laid
    exact (scanBytes_laid laid).2

namespace FileSpoolStorage

/-- What `persist` can do: fail before the file is touched, leave the beginning of the frame or all
of it without a sync, or write and sync it. -/
theorem persist_cases (storage : FileSpoolStorage) (frame : SpoolFrame) (reply : WriteReply)
    (synced : Bool) :
    (∃ error, storage.persist frame reply synced = (storage, .error error)) ∨
    (∃ encoded part, encodeFrame frame = .ok encoded ∧ part <+: encoded ∧
      (storage.persist frame reply synced).1.segment = storage.segment.append part ∧
      (storage.persist frame reply synced).2 = .error .io) ∨
    (∃ encoded, encodeFrame frame = .ok encoded ∧
      storage.persist frame reply synced =
        (⟨(storage.segment.append encoded).sync,
          Usize.saturatingAdd storage.usedBytes encoded.length,
          Usize.saturatingAdd storage.frameCount 1⟩, .ok ())) := by
  unfold persist appendFrame
  cases encodes : encodeFrame frame with
  | error error => exact Or.inl ⟨.frame error, rfl⟩
  | ok encoded =>
      cases reply with
      | failed kept =>
          exact Or.inr (Or.inl ⟨encoded, encoded.take kept, rfl, List.take_prefix _ _, rfl, rfl⟩)
      | written =>
          cases synced with
          | false => exact Or.inr (Or.inl ⟨encoded, encoded, rfl, List.prefix_rfl, rfl, rfl⟩)
          | true => exact Or.inr (Or.inr ⟨encoded, rfl, rfl⟩)

/-- Without faults a frame is written and synced, or has no encoding. -/
theorem persist_written (storage : FileSpoolStorage) (frame : SpoolFrame) :
    (∃ error, storage.persist frame .written true = (storage, .error error)) ∨
    (storage.persist frame .written true).2 = .ok () := by
  unfold persist appendFrame
  cases encodeFrame frame with
  | error error => exact Or.inl ⟨.frame error, rfl⟩
  | ok encoded => exact Or.inr rfl

end FileSpoolStorage

end Scripture.Spool
