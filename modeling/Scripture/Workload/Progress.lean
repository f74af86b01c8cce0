import Scripture.DataRef

set_option autoImplicit false

/- The progress register of a consumer binding and the bytes it is stored as. -/
namespace Scripture.Workload

open ByteFormat ByteFormat.Reader

/-- A text with something in it. -/
abbrev Named := { text : String // isBlank text = false }

abbrev WorkloadId := Named
abbrev CanonRef := Named
abbrev VerseRef := Named
abbrev BindingToken := Named

inductive ProgressError where
  | casConflict
  | fenceHeld
  | staleBinding
  | invalidEpoch
  | frontierRegression
  | malformedRecord (detail : String)
  | indeterminate (detail : String)
  | io (detail : String)
  deriving DecidableEq

def BindingToken.new (text : String) : Except ProgressError BindingToken :=
  if blank : isBlank text = false then .ok ⟨text, blank⟩ else .error (.io "empty binding token")

structure BindingKey where
  workloadId : WorkloadId
  canonId : CanonRef
  verseId : VerseRef
  deriving DecidableEq

structure ConsumerBinding where
  workloadId : WorkloadId
  canonId : CanonRef
  verseId : VerseRef
  bindingEpoch : UInt64
  deriving DecidableEq

def ConsumerBinding.validate (binding : ConsumerBinding) : Except ProgressError Unit := do
  if binding.bindingEpoch = 0 then throw .invalidEpoch

def ConsumerBinding.key (binding : ConsumerBinding) : BindingKey :=
  ⟨binding.workloadId, binding.canonId, binding.verseId⟩

/-- The binding of a key under an epoch. -/
def BindingKey.under (key : BindingKey) (epoch : UInt64) : ConsumerBinding :=
  ⟨key.workloadId, key.canonId, key.verseId, epoch⟩

structure AcquiredBinding where
  binding : ConsumerBinding
  ownerToken : BindingToken
  deriving DecidableEq

structure ProgressRegister where
  binding : ConsumerBinding
  bindingToken : BindingToken
  frontier : UInt64
  lastCommitRef : Option String
  deriving DecidableEq

def maxProgressTokenBytes : Nat := 256
def maxProgressCommitRefBytes : Nat := 4096
def progressCodecHeaderBytes : Nat := 28

def maxProgressRecordBytes : Nat :=
  progressCodecHeaderBytes + maxProgressTokenBytes + maxProgressCommitRefBytes

/-- "sprg". -/
def codecMagic : Bytes := [0x73, 0x70, 0x72, 0x67]
def codecVersion : UInt8 := 1
def flagHasCommit : UInt8 := 1

def validateFrontierCommitCoherence (register : ProgressRegister) : Except ProgressError Unit :=
  match decide (register.frontier = 0), register.lastCommitRef.any fun text => !isBlank text with
  | true, false => .ok ()
  | true, true => .error (.malformedRecord "frontier is 0 but last_commit_ref is present")
  | false, true => .ok ()
  | false, false => .error (.malformedRecord "frontier > 0 but last_commit_ref is absent")

def tokenOutOfBounds (length : Nat) : ProgressError :=
  .malformedRecord
    s!"binding_token byte length {length} out of bounds 1..={maxProgressTokenBytes}"

def commitRefTooLong (length : Nat) : ProgressError :=
  .malformedRecord s!"last_commit_ref byte length {length} exceeds {maxProgressCommitRefBytes}"

/-- The bytes of a record, once its parts are known to fit. -/
def recordBytes (epoch frontier : UInt64) (token commitRef : Bytes) : Bytes :=
  codecMagic ++ ([codecVersion] ++ ([if commitRef.isEmpty then 0 else flagHasCommit] ++
    (putU16le 0 ++ (putU64le epoch ++ (putU64le frontier ++
      (putU16le (.ofNat token.length) ++ (putU16le (.ofNat commitRef.length) ++
        (token ++ commitRef))))))))

def encodeRecord (register : ProgressRegister) : Except ProgressError Bytes := do
  register.binding.validate
  validateFrontierCommitCoherence register
  let token := utf8 register.bindingToken.val
  if token.isEmpty ∨ maxProgressTokenBytes < token.length then
    throw (tokenOutOfBounds token.length)
  let commitRef := (register.lastCommitRef.map utf8).getD []
  if register.lastCommitRef.any isBlank then
    throw (.malformedRecord "last_commit_ref is present but empty")
  if maxProgressCommitRefBytes < commitRef.length then throw (commitRefTooLong commitRef.length)
  if 2 ^ 16 ≤ token.length then throw (.malformedRecord "binding_token > u16::MAX")
  if 2 ^ 16 ≤ commitRef.length then throw (.malformedRecord "last_commit_ref > u16::MAX")
  let out := recordBytes register.binding.bindingEpoch register.frontier token commitRef
  if maxProgressRecordBytes < out.length then
    throw (.malformedRecord s!"encoded register {out.length} exceeds {maxProgressRecordBytes}")
  return out

structure RecordHeader where
  flags : UInt8
  bindingEpoch : UInt64
  frontier : UInt64
  tokenLen : Nat
  commitLen : Nat

/-- The text of `{:#x}`. -/
def hexText (value : UInt8) : String := "0x" ++ String.ofList (Nat.toDigits 16 value.toNat)

def readHeader (short : ProgressError) : Reader ProgressError RecordHeader := do
  let magic ← Reader.take short 4
  Reader.require (magic = codecMagic) (.malformedRecord "invalid codec magic")
  let version ← readU8 short
  Reader.require (version = codecVersion)
    (.malformedRecord s!"unsupported codec version {version}")
  let flags ← readU8 short
  Reader.require (flags &&& ~~~flagHasCommit = 0)
    (.malformedRecord ("unknown codec flags " ++ hexText flags))
  let reserved ← readU16le short
  Reader.require (reserved = 0) (.malformedRecord "reserved bits must be zero")
  let epoch ← readU64le short
  Reader.require (epoch ≠ 0) (.malformedRecord "binding_epoch must be nonzero")
  let frontier ← readU64le short
  let tokenLen ← readU16le short
  let commitLen ← readU16le short
  return ⟨flags, epoch, frontier, tokenLen.toNat, commitLen.toNat⟩

/-- The text of a part, if it is UTF-8. -/
def decodeText (field : String) (bytes : Bytes) : Except ProgressError String :=
  match fromUtf8 bytes with
  | some text => .ok text
  | none => .error (.malformedRecord (field ++ " utf8"))

def decodeCommitRef (bytes : Bytes) : Except ProgressError (Option String) :=
  if bytes.isEmpty then .ok none
  else do
    let commit ← decodeText "last_commit_ref" bytes
    if isBlank commit then throw (.malformedRecord "last_commit_ref present but empty")
    return some commit

def decodeRecord (bytes : Bytes) (key : BindingKey) : Except ProgressError ProgressRegister := do
  if maxProgressRecordBytes < bytes.length then
    throw (.malformedRecord s!"record size {bytes.length} exceeds {maxProgressRecordBytes}")
  if bytes.length < progressCodecHeaderBytes then
    throw (.malformedRecord s!"record too short: {bytes.length} bytes")
  let (header, body) ←
    readHeader (.malformedRecord s!"record too short: {bytes.length} bytes") bytes
  if header.tokenLen = 0 ∨ maxProgressTokenBytes < header.tokenLen then
    throw (tokenOutOfBounds header.tokenLen)
  if maxProgressCommitRefBytes < header.commitLen then throw (commitRefTooLong header.commitLen)
  if header.flags &&& flagHasCommit = 0 ∧ header.commitLen ≠ 0 then
    throw (.malformedRecord "commit flag unset but commit_len != 0")
  if header.flags &&& flagHasCommit ≠ 0 ∧ header.commitLen = 0 then
    throw (.malformedRecord "commit flag set but commit_len == 0")
  let expectedLen := progressCodecHeaderBytes + header.tokenLen + header.commitLen
  if bytes.length ≠ expectedLen then
    throw (.malformedRecord (s!"record length mismatch: got {bytes.length}, expected " ++
      s!"{expectedLen} (reject trailing/truncated)"))
  let token ← decodeText "binding_token" (body.take header.tokenLen)
  let bindingToken ← (BindingToken.new token).mapError fun _ =>
    .malformedRecord "binding_token: progress store I/O: empty binding token"
  let lastCommitRef ← decodeCommitRef (body.drop header.tokenLen)
  let binding := key.under header.bindingEpoch
  binding.validate
  let register : ProgressRegister := ⟨binding, bindingToken, header.frontier, lastCommitRef⟩
  validateFrontierCommitCoherence register
  return register

theorem BindingToken.new_val (token : BindingToken) : BindingToken.new token.val = .ok token := by
  unfold BindingToken.new
  rw [dif_pos token.property]

theorem decodeText_utf8 (field text : String) : decodeText field (utf8 text) = .ok text := by
  unfold decodeText
  rw [fromUtf8_eq_some.mpr rfl]

/-- What a record that is written satisfies. -/
structure Writable (register : ProgressRegister) (bytes : Bytes) : Prop where
  epoch : register.binding.bindingEpoch ≠ 0
  coherent : validateFrontierCommitCoherence register = .ok ()
  token : (utf8 register.bindingToken.val).length ≤ maxProgressTokenBytes
  nonempty : utf8 register.bindingToken.val ≠ []
  present : register.lastCommitRef.any isBlank = false
  commitRef : ((register.lastCommitRef.map utf8).getD []).length ≤ maxProgressCommitRefBytes
  spelled : bytes = recordBytes register.binding.bindingEpoch register.frontier
    (utf8 register.bindingToken.val) ((register.lastCommitRef.map utf8).getD [])

variable {register : ProgressRegister} {bytes : Bytes}

theorem encodeRecord_eq_ok (encoded : encodeRecord register = .ok bytes) :
    Writable register bytes := by
  obtain ⟨_, validated, encoded⟩ := bind_eq_ok.mp encoded
  obtain ⟨_, coherent, encoded⟩ := bind_eq_ok.mp encoded
  obtain ⟨token, encoded⟩ := checked_eq_ok.mp encoded
  obtain ⟨present, encoded⟩ := checked_eq_ok.mp encoded
  obtain ⟨commitRef, encoded⟩ := checked_eq_ok.mp encoded
  obtain ⟨-, encoded⟩ := checked_eq_ok.mp encoded
  obtain ⟨-, encoded⟩ := checked_eq_ok.mp encoded
  obtain ⟨-, encoded⟩ := checked_eq_ok.mp encoded
  cases encoded
  have nonzero : register.binding.bindingEpoch ≠ 0 := by
    intro zero
    simp [ConsumerBinding.validate, zero, throw, throwThe, MonadExceptOf.throw] at validated
  rw [not_or] at token
  refine ⟨nonzero, coherent, by omega, ?_, by simpa using present, by omega, rfl⟩
  simpa using token.1

theorem recordBytes_length (epoch frontier : UInt64) (token commitRef : Bytes) :
    (recordBytes epoch frontier token commitRef).length =
      progressCodecHeaderBytes + token.length + commitRef.length := by
  simp only [recordBytes, List.length_append, putU16le_length, putU64le_length,
    progressCodecHeaderBytes, codecMagic, List.length_cons, List.length_nil]
  omega

theorem readHeader_recordBytes (short : ProgressError) {epoch frontier : UInt64}
    {token commitRef : Bytes} (nonzero : epoch ≠ 0) (tokenFits : token.length < 2 ^ 16)
    (commitFits : commitRef.length < 2 ^ 16) :
    readHeader short (recordBytes epoch frontier token commitRef) =
      .ok (⟨if commitRef.isEmpty then 0 else flagHasCommit, epoch, frontier, token.length,
        commitRef.length⟩, token ++ commitRef) := by
  refine Reads.andThen (Reads.take_of_length _ rfl) ?_
  refine Reads.andThen_nil (Reads.require (decide_eq_true rfl)) ?_
  refine Reads.andThen (readU8_reads _ _) ?_
  refine Reads.andThen_nil (Reads.require (decide_eq_true rfl)) ?_
  refine Reads.andThen (readU8_reads _ _) ?_
  refine Reads.andThen_nil (Reads.require ?_) ?_
  · cases commitRef.isEmpty <;> decide
  refine Reads.andThen (readU16le_reads _ _) ?_
  refine Reads.andThen_nil (Reads.require (decide_eq_true rfl)) ?_
  refine Reads.andThen (readU64le_reads _ _) ?_
  refine Reads.andThen_nil (Reads.require (decide_eq_true nonzero)) ?_
  refine Reads.andThen (readU64le_reads _ _) ?_
  refine Reads.andThen (readU16le_reads _ _) ?_
  refine Reads.andThen (readU16le_reads _ _) ?_
  rw [toNat_u16OfNat tokenFits, toNat_u16OfNat commitFits]
  rfl

theorem utf8_ne_nil {text : String} (filled : isBlank text = false) : utf8 text ≠ [] := by
  intro empty
  have read : fromUtf8 (utf8 text) = fromUtf8 (utf8 "") := congrArg fromUtf8 empty
  rw [fromUtf8_utf8, fromUtf8_utf8] at read
  cases read
  exact absurd filled (by decide)

theorem decodeCommitRef_utf8 {lastCommitRef : Option String}
    (present : lastCommitRef.any isBlank = false) :
    decodeCommitRef ((lastCommitRef.map utf8).getD []) = .ok lastCommitRef := by
  cases lastCommitRef with
  | none => rfl
  | some text =>
      have filled : isBlank text = false := by simpa using present
      show (if (utf8 text).isEmpty then _ else _) = _
      rw [if_neg (by simpa using utf8_ne_nil filled)]
      exact bind_eq_ok.mpr ⟨text, decodeText_utf8 _ text, checked_eq_ok.mpr ⟨by simp [filled], rfl⟩⟩

theorem decodeRecord_encodeRecord (encoded : encodeRecord register = .ok bytes) :
    decodeRecord bytes register.binding.key = .ok register := by
  obtain ⟨epoch, coherent, token, nonempty, present, commitRef, rfl⟩ := encodeRecord_eq_ok encoded
  generalize refIs : (register.lastCommitRef.map utf8).getD [] = ref at commitRef
  have length := recordBytes_length register.binding.bindingEpoch register.frontier
    (utf8 register.bindingToken.val) ref
  have positive : 0 < (utf8 register.bindingToken.val).length := List.length_pos_iff.mpr nonempty
  unfold maxProgressTokenBytes at token
  unfold maxProgressCommitRefBytes at commitRef
  unfold progressCodecHeaderBytes at length
  refine checked_eq_ok.mpr ⟨?_, ?_⟩
  · simp only [maxProgressRecordBytes, progressCodecHeaderBytes, maxProgressTokenBytes,
      maxProgressCommitRefBytes]
    omega
  refine checked_eq_ok.mpr ⟨by unfold progressCodecHeaderBytes; omega, ?_⟩
  refine bind_eq_ok.mpr ⟨_, readHeader_recordBytes _ epoch (by omega) (by omega), ?_⟩
  refine checked_eq_ok.mpr ⟨by simp only [maxProgressTokenBytes]; omega, ?_⟩
  refine checked_eq_ok.mpr ⟨by simp only [maxProgressCommitRefBytes]; omega, ?_⟩
  refine checked_eq_ok.mpr ⟨?_, ?_⟩
  · cases ref <;> simp [flagHasCommit]
  refine checked_eq_ok.mpr ⟨?_, ?_⟩
  · cases ref <;> simp [flagHasCommit]
  refine checked_eq_ok.mpr ⟨by simp only [progressCodecHeaderBytes]; omega, ?_⟩
  rw [List.take_left, List.drop_left]
  refine bind_eq_ok.mpr ⟨_, decodeText_utf8 _ _, ?_⟩
  refine bind_eq_ok.mpr ⟨_, mapError_eq_ok.mpr register.bindingToken.new_val, ?_⟩
  refine bind_eq_ok.mpr ⟨register.lastCommitRef, ?_, ?_⟩
  · rw [← refIs]
    exact decodeCommitRef_utf8 present
  refine bind_eq_ok.mpr ⟨(), ?_, ?_⟩
  · simp [ConsumerBinding.validate, BindingKey.under, epoch]
    rfl
  exact bind_eq_ok.mpr ⟨(), coherent, rfl⟩

theorem BindingToken.new_eq_ok {text : String} {token : BindingToken}
    (accepted : BindingToken.new text = .ok token) : token.val = text := by
  unfold BindingToken.new at accepted
  split at accepted
  · cases accepted
    rfl
  · cases accepted

theorem decodeText_eq_ok {field text : String} (decoded : decodeText field bytes = .ok text) :
    utf8 text = bytes := by
  unfold decodeText at decoded
  split at decoded
  · rename_i found
    cases decoded
    exact fromUtf8_eq_some.mp found
  · cases decoded

theorem decodeCommitRef_eq_ok {lastCommitRef : Option String}
    (decoded : decodeCommitRef bytes = .ok lastCommitRef) :
    lastCommitRef.any isBlank = false ∧ (lastCommitRef.map utf8).getD [] = bytes := by
  unfold decodeCommitRef at decoded
  split at decoded
  · rename_i empty
    cases decoded
    exact ⟨rfl, (List.isEmpty_iff.mp empty).symm⟩
  · obtain ⟨commit, spelled, decoded⟩ := bind_eq_ok.mp decoded
    obtain ⟨filled, decoded⟩ := checked_eq_ok.mp decoded
    cases decoded
    exact ⟨by simpa using filled, decodeText_eq_ok spelled⟩

theorem flags_eq {flags : UInt8} (known : flags &&& ~~~flagHasCommit = 0) :
    flags = 0 ∨ flags = flagHasCommit := by
  have all : ∀ value < 256, UInt8.ofNat value &&& ~~~flagHasCommit = 0 →
      UInt8.ofNat value = 0 ∨ UInt8.ofNat value = flagHasCommit := by
    decide +kernel
  have one := all flags.toNat flags.toNat_lt
  rw [UInt8.ofNat_toNat] at one
  exact one known

/-- What a header was read from. -/
theorem readHeader_eq_ok {short : ProgressError} {input body : Bytes} {header : RecordHeader}
    (read : readHeader short input = .ok (header, body)) :
    (header.flags = 0 ∨ header.flags = flagHasCommit) ∧ header.bindingEpoch ≠ 0 ∧
      header.tokenLen < 2 ^ 16 ∧ header.commitLen < 2 ^ 16 ∧
      input = codecMagic ++ ([codecVersion] ++ ([header.flags] ++ (putU16le 0 ++
        (putU64le header.bindingEpoch ++ (putU64le header.frontier ++
          (putU16le (.ofNat header.tokenLen) ++
            (putU16le (.ofNat header.commitLen) ++ body))))))) := by
  obtain ⟨magic, _, taken, read⟩ := bind_reads read
  obtain ⟨_, _, isMagic, read⟩ := bind_reads read
  obtain ⟨version, _, versioned, read⟩ := bind_reads read
  obtain ⟨_, _, isVersion, read⟩ := bind_reads read
  obtain ⟨flags, _, flagged, read⟩ := bind_reads read
  obtain ⟨_, _, known, read⟩ := bind_reads read
  obtain ⟨reserved, _, padded, read⟩ := bind_reads read
  obtain ⟨_, _, zero, read⟩ := bind_reads read
  obtain ⟨epoch, _, numbered, read⟩ := bind_reads read
  obtain ⟨_, _, nonzero, read⟩ := bind_reads read
  obtain ⟨frontier, _, reached, read⟩ := bind_reads read
  obtain ⟨tokenLen, _, first, read⟩ := bind_reads read
  obtain ⟨commitLen, _, second, read⟩ := bind_reads read
  cases read
  rw [take_eq_ok] at taken
  rw [readU8_eq_ok] at versioned flagged
  rw [readU16le_eq_ok] at padded first second
  rw [readU64le_eq_ok] at numbered reached
  rw [require_eq_ok, decide_eq_true_iff] at isMagic isVersion known zero nonzero
  refine ⟨flags_eq known.1, nonzero.1, tokenLen.toNat_lt, commitLen.toNat_lt, ?_⟩
  rw [taken.2, isMagic.1, isMagic.2, versioned, isVersion.1, isVersion.2, flagged, known.2, padded,
    zero.1, zero.2, numbered, nonzero.2, reached, first, second, UInt16.ofNat_toNat,
    UInt16.ofNat_toNat]
  rfl

theorem encodeRecord_of_writable (writable : Writable register bytes) :
    encodeRecord register = .ok bytes := by
  obtain ⟨epoch, coherent, token, nonempty, present, commitRef, rfl⟩ := writable
  have length := recordBytes_length register.binding.bindingEpoch register.frontier
    (utf8 register.bindingToken.val) ((register.lastCommitRef.map utf8).getD [])
  refine bind_eq_ok.mpr ⟨(), if_neg epoch, bind_eq_ok.mpr ⟨(), coherent, ?_⟩⟩
  refine checked_eq_ok.mpr ⟨?_, checked_eq_ok.mpr ⟨by simp [present], ?_⟩⟩
  · rw [List.isEmpty_iff, not_or, Nat.not_lt]
    exact ⟨nonempty, token⟩
  refine checked_eq_ok.mpr ⟨by omega, ?_⟩
  unfold maxProgressTokenBytes at token
  unfold maxProgressCommitRefBytes at commitRef
  unfold progressCodecHeaderBytes at length
  refine checked_eq_ok.mpr ⟨by omega, checked_eq_ok.mpr ⟨by omega, checked_eq_ok.mpr ⟨?_, rfl⟩⟩⟩
  rw [length, Nat.not_lt]
  simp only [maxProgressRecordBytes, progressCodecHeaderBytes, maxProgressTokenBytes,
    maxProgressCommitRefBytes]
  omega

/-- Bytes that are accepted for a key are the bytes of the record that comes out, under this key. -/
theorem encodeRecord_decodeRecord {key : BindingKey}
    (decoded : decodeRecord bytes key = .ok register) :
    encodeRecord register = .ok bytes ∧ register.binding.key = key := by
  obtain ⟨-, decoded⟩ := checked_eq_ok.mp decoded
  obtain ⟨-, decoded⟩ := checked_eq_ok.mp decoded
  obtain ⟨⟨header, body⟩, read, decoded⟩ := bind_eq_ok.mp decoded
  obtain ⟨tokenBounds, decoded⟩ := checked_eq_ok.mp decoded
  obtain ⟨commitBound, decoded⟩ := checked_eq_ok.mp decoded
  obtain ⟨unset, decoded⟩ := checked_eq_ok.mp decoded
  obtain ⟨set, decoded⟩ := checked_eq_ok.mp decoded
  obtain ⟨length, decoded⟩ := checked_eq_ok.mp decoded
  obtain ⟨token, tokenSpelled, decoded⟩ := bind_eq_ok.mp decoded
  obtain ⟨bindingToken, named, decoded⟩ := bind_eq_ok.mp decoded
  obtain ⟨lastCommitRef, commitSpelled, decoded⟩ := bind_eq_ok.mp decoded
  obtain ⟨_, -, decoded⟩ := bind_eq_ok.mp decoded
  obtain ⟨_, coherent, decoded⟩ := bind_eq_ok.mp decoded
  cases decoded
  obtain ⟨flags, epoch, tokenFits, commitFits, split⟩ := readHeader_eq_ok read
  have tokenIs : utf8 bindingToken.val = body.take header.tokenLen := by
    rw [BindingToken.new_eq_ok (mapError_eq_ok.mp named)]
    exact decodeText_eq_ok tokenSpelled
  obtain ⟨present, commitIs⟩ := decodeCommitRef_eq_ok commitSpelled
  have bodyLength : body.length = header.tokenLen + header.commitLen := by
    have lengths := congrArg List.length split
    simp only [List.length_append, putU16le_length, putU64le_length, codecMagic, List.length_cons,
      List.length_nil] at lengths
    rw [not_not] at length
    unfold progressCodecHeaderBytes at length
    omega
  have tokenLength : (body.take header.tokenLen).length = header.tokenLen :=
    List.length_take_of_le (by omega)
  have commitLength : (body.drop header.tokenLen).length = header.commitLen := by
    rw [List.length_drop]
    omega
  have flag : header.flags = if (body.drop header.tokenLen).isEmpty then 0 else flagHasCommit := by
    cases commit : body.drop header.tokenLen with
    | nil =>
        rw [commit, List.length_nil] at commitLength
        rcases flags with zero | one
        · exact zero
        · exact absurd ⟨by rw [one]; decide, commitLength.symm⟩ set
    | cons byte rest =>
        rw [commit, List.length_cons] at commitLength
        rcases flags with zero | one
        · exact absurd ⟨by rw [zero]; decide, by omega⟩ unset
        · exact one
  have whole : recordBytes header.bindingEpoch header.frontier (body.take header.tokenLen)
      (body.drop header.tokenLen) = bytes := by
    rw [split, recordBytes, ← flag, tokenLength, commitLength, List.take_append_drop]
  have nonzero : (key.under header.bindingEpoch).bindingEpoch ≠ 0 := epoch
  rw [not_or, Nat.not_lt] at tokenBounds
  rw [Nat.not_lt] at commitBound
  refine ⟨encodeRecord_of_writable ⟨nonzero, coherent, ?_, ?_, present, ?_, ?_⟩, rfl⟩
  · rw [tokenIs, tokenLength]
    exact tokenBounds.2
  · rw [tokenIs, ← List.length_pos_iff, tokenLength]
    exact Nat.pos_of_ne_zero tokenBounds.1
  · rw [commitIs, commitLength]
    exact commitBound
  · rw [tokenIs, commitIs]
    exact whole.symm

end Scripture.Workload
