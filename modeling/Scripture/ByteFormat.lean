import Mathlib

set_option autoImplicit false

/- Big-endian integers and readers that consume a prefix of a byte string. Nothing here knows
which format is being read. -/
namespace ByteFormat

abbrev Bytes := List UInt8

/-- Byte strings of one fixed length, such as identities and digests. -/
abbrev FixedBytes (width : Nat) := { bytes : Bytes // bytes.length = width }

variable {ε : Type}

/-- A checked computation succeeds exactly when each of its steps does. -/
theorem bind_eq_ok {α β : Type} {first : Except ε α} {next : α → Except ε β} {result : β} :
    (first >>= next) = .ok result ↔ ∃ value, first = .ok value ∧ next value = .ok result := by
  cases first <;> simp [Bind.bind, Except.bind]

theorem bind_error {α β : Type} (reason : ε) (next : α → Except ε β) :
    (Except.error reason >>= next) = .error reason := rfl

/-- A check that throws is passed exactly when its condition is false. -/
theorem checked_eq_ok {α β : Type} {condition : Prop} [Decidable condition] {reason : ε}
    {next : α → Except ε β} {rest : Except ε β} {result : β} :
    (if condition then (throw reason >>= next) else rest) = .ok result ↔
      ¬ condition ∧ rest = .ok result := by
  split <;> rename_i h <;> simp [h, throw, throwThe, MonadExceptOf.throw, bind_error]

theorem bind_eq_error {α β : Type} {first : Except ε α} {next : α → Except ε β} {reason : ε} :
    (first >>= next) = .error reason ↔
      first = .error reason ∨ ∃ value, first = .ok value ∧ next value = .error reason := by
  cases first <;> simp [Bind.bind, Except.bind]

theorem checked_eq_error {α β : Type} {condition : Prop} [Decidable condition] {reason : ε}
    {next : α → Except ε β} {rest : Except ε β} {result : ε} :
    (if condition then (throw reason >>= next) else rest) = .error result ↔
      (condition ∧ reason = result) ∨ (¬ condition ∧ rest = .error result) := by
  split <;> rename_i h <;> simp [h, throw, throwThe, MonadExceptOf.throw, bind_error]

theorem mapError_eq_ok {δ α : Type} {result : Except ε α} {f : ε → δ} {value : α} :
    result.mapError f = .ok value ↔ result = .ok value := by
  cases result <;> simp [Except.mapError]

theorem toOption_eq_some {α : Type} {result : Except ε α} {value : α} :
    result.toOption = some value ↔ result = .ok value := by
  cases result <;> simp [Except.toOption]

/-- The `width` low-order bytes of `value`, most significant first. -/
def bigEndian : Nat → Nat → Bytes
  | 0, _ => []
  | width + 1, value => UInt8.ofNat (value / 256 ^ width) :: bigEndian width value

/-- The value of a big-endian byte string. -/
def bigEndianValue : Bytes → Nat
  | [] => 0
  | byte :: rest => byte.toNat * 256 ^ rest.length + bigEndianValue rest

@[simp] theorem bigEndian_length (width value : Nat) : (bigEndian width value).length = width := by
  induction width with
  | zero => rfl
  | succ width ih => simp only [bigEndian, List.length_cons, ih]

theorem bigEndianValue_lt (bytes : Bytes) : bigEndianValue bytes < 256 ^ bytes.length := by
  induction bytes with
  | nil => simp [bigEndianValue]
  | cons byte rest ih =>
      have small : byte.toNat < 256 := byte.toNat_lt
      have scaled : byte.toNat * 256 ^ rest.length ≤ 255 * 256 ^ rest.length :=
        Nat.mul_le_mul_right _ (by omega)
      simp only [bigEndianValue, List.length_cons, Nat.pow_succ]
      omega

theorem bigEndianValue_bigEndian (width value : Nat) :
    bigEndianValue (bigEndian width value) = value % 256 ^ width := by
  induction width with
  | zero => simp [bigEndian, bigEndianValue, Nat.mod_one]
  | succ width ih =>
      have split := Nat.mod_mul (x := value) (a := 256 ^ width) (b := 256)
      have digit : (UInt8.ofNat (value / 256 ^ width)).toNat = value / 256 ^ width % 256 := by
        simp [UInt8.toNat_ofNat']
      simp only [bigEndian, bigEndianValue, bigEndian_length, ih, digit, Nat.pow_succ, split]
      rw [Nat.mul_comm (256 ^ width)]
      omega

theorem bigEndianValue_bigEndian_of_lt (width value : Nat) (fits : value < 256 ^ width) :
    bigEndianValue (bigEndian width value) = value := by
  rw [bigEndianValue_bigEndian, Nat.mod_eq_of_lt fits]

theorem bigEndianValue_injective (left right : Bytes) (lengths : left.length = right.length)
    (same : bigEndianValue left = bigEndianValue right) : left = right := by
  induction left generalizing right with
  | nil => exact (List.length_eq_zero_iff.mp lengths.symm).symm
  | cons byte rest ih =>
      cases right with
      | nil => simp at lengths
      | cons other tail =>
          have widths : rest.length = tail.length := by simpa using lengths
          have low := bigEndianValue_lt rest
          have high := bigEndianValue_lt tail
          simp only [bigEndianValue, widths] at same low
          have positive : 0 < 256 ^ tail.length := Nat.pow_pos (by decide)
          have digit : byte.toNat = other.toNat := by
            have quotients := congrArg (· / 256 ^ tail.length) same
            simpa [Nat.mul_comm _ (256 ^ tail.length), Nat.mul_add_div positive,
              Nat.div_eq_of_lt low, Nat.div_eq_of_lt high] using quotients
          rw [digit] at same
          rw [UInt8.toNat_inj.mp digit, ih tail widths (by omega)]

theorem bigEndian_bigEndianValue (bytes : Bytes) :
    bigEndian bytes.length (bigEndianValue bytes) = bytes := by
  apply bigEndianValue_injective
  · exact bigEndian_length _ _
  · exact bigEndianValue_bigEndian_of_lt _ _ (bigEndianValue_lt bytes)

/-- A reader takes a prefix of its input and leaves the rest, or fails. -/
abbrev Reader (ε α : Type) := Bytes → Except ε (α × Bytes)

namespace Reader

variable {ε α β : Type}

def pure (value : α) : Reader ε α := fun input => .ok (value, input)

def fail (reason : ε) : Reader ε α := fun _ => .error reason

def bind (first : Reader ε α) (next : α → Reader ε β) : Reader ε β := fun input =>
  match first input with
  | .error reason => .error reason
  | .ok (value, rest) => next value rest

instance : Monad (Reader ε) where
  pure := Reader.pure
  bind := Reader.bind

/-- The next `count` bytes, or `short` when fewer remain. -/
def take (short : ε) (count : Nat) : Reader ε Bytes := fun input =>
  if count ≤ input.length then .ok (input.take count, input.drop count) else .error short

/-- Fails with `reason` unless the condition holds; consumes nothing. -/
def require (condition : Bool) (reason : ε) : Reader ε Unit :=
  if condition then Reader.pure () else Reader.fail reason

/-- Fails with `short` unless `count` bytes remain; consumes nothing. -/
def available (short : ε) (count : Nat) : Reader ε Unit := fun input =>
  if count ≤ input.length then .ok ((), input) else .error short

/-- A value that was computed rather than read. -/
def lift (result : Except ε α) : Reader ε α := fun input =>
  match result with
  | .error reason => .error reason
  | .ok value => .ok (value, input)

/-- Reads `count` values in a row. -/
def many (item : Reader ε α) : Nat → Reader ε (List α)
  | 0 => Reader.pure []
  | count + 1 => Reader.bind item fun value =>
      Reader.bind (many item count) fun rest => Reader.pure (value :: rest)

/-- The reader consumes exactly `bytes`, whatever follows them, and returns `value`. -/
def Reads (reader : Reader ε α) (bytes : Bytes) (value : α) : Prop :=
  ∀ rest, reader (bytes ++ rest) = .ok (value, rest)

theorem Reads.pure (value : α) : Reads (Reader.pure (ε := ε) value) [] value := fun _ => rfl

theorem Reads.bind {first : Reader ε α} {next : α → Reader ε β} {front back : Bytes}
    {value : α} {result : β} (head : Reads first front value)
    (tail : Reads (next value) back result) :
    Reads (Reader.bind first next) (front ++ back) result := by
  intro rest
  rw [List.append_assoc]
  simp only [Reader.bind, head (back ++ rest), tail rest]

variable {bytes : Bytes} {count : Nat}

/-- A step that consumes nothing leaves the encoding to the rest. -/
theorem Reads.after {first : Reader ε α} {next : α → Reader ε β} {value : α} {result : β}
    (head : Reads first [] value) (tail : Reads (next value) bytes result) :
    Reads (Reader.bind first next) bytes result :=
  Reads.bind head tail

/-- What follows the encoding of the last value consumes nothing. -/
theorem Reads.last {first : Reader ε α} {next : α → Reader ε β} {value : α} {result : β}
    (head : Reads first bytes value) (tail : Reads (next value) [] result) :
    Reads (Reader.bind first next) bytes result := by
  rw [← List.append_nil bytes]
  exact Reads.bind head tail

theorem Reads.all {reader : Reader ε α} {value : α} (reads : Reads reader bytes value) :
    reader bytes = .ok (value, []) := by
  simpa using reads []

variable {rest : Bytes}

/-- What comes behind a value may depend on where the input ends. -/
theorem Reads.andThen {first : Reader ε α} {next : α → Reader ε β} {front back : Bytes}
    {value : α} {result : β} (head : Reads first front value)
    (tail : next value back = .ok (result, rest)) :
    (first >>= next) (front ++ back) = .ok (result, rest) := by
  show Reader.bind first next (front ++ back) = _
  simp only [Reader.bind, head back, tail]

variable {input : Bytes}

theorem Reads.andThen_nil {first : Reader ε α} {next : α → Reader ε β} {value : α} {result : β}
    (head : Reads first [] value) (tail : next value input = .ok (result, rest)) :
    (first >>= next) input = .ok (result, rest) :=
  Reads.andThen head tail

theorem Reads.take (short : ε) (bytes : Bytes) :
    Reads (Reader.take short bytes.length) bytes bytes := by
  intro rest
  simp [Reader.take]

theorem Reads.take_of_length (short : ε) (width : bytes.length = count) :
    Reads (Reader.take short count) bytes bytes := by
  subst width
  exact Reads.take short bytes

theorem Reads.require {condition : Bool} {reason : ε} (holds : condition = true) :
    Reads (Reader.require condition reason) [] () := by
  intro rest
  simp [Reader.require, holds, Reader.pure]

/-- Checking for the bytes of what follows succeeds when what follows is that long. -/
theorem Reads.afterAvailable {short : ε} {next : Unit → Reader ε β} {result : β}
    (enough : count ≤ bytes.length) (tail : Reads (next ()) bytes result) :
    Reads (Reader.bind (Reader.available short count) next) bytes result := by
  intro rest
  have present : count ≤ (bytes ++ rest).length := by
    rw [List.length_append]
    omega
  simp only [Reader.bind, Reader.available, if_pos present, tail rest]

theorem Reads.lift {result : Except ε α} {value : α} (success : result = .ok value) :
    Reads (Reader.lift result) [] value := by
  intro rest
  simp [Reader.lift, success]

/-- A reader followed by a computation of its value. -/
theorem Reads.map {first : Reader ε α} {value : α} (f : α → β) (head : Reads first bytes value) :
    Reads (Reader.bind first fun read => Reader.pure (f read)) bytes (f value) := by
  intro rest
  simp only [Reader.bind, head rest, Reader.pure]

theorem Reads.many {item : Reader ε α} (encode : α → Bytes) (values : List α)
    (each : ∀ value ∈ values, Reads item (encode value) value) :
    Reads (Reader.many item values.length) (values.flatMap encode) values := by
  induction values with
  | nil => exact Reads.pure []
  | cons value rest ih =>
      have first := each value (by simp)
      have remaining := ih fun other member => each other (List.mem_cons_of_mem _ member)
      simp only [List.flatMap_cons, List.length_cons]
      exact first.bind (remaining.map (value :: ·))

theorem bind_assoc {γ : Type} (first : Reader ε α) (next : α → Reader ε β)
    (last : β → Reader ε γ) :
    ((first >>= next) >>= last) = first >>= fun value => next value >>= last := by
  funext input
  show Reader.bind (Reader.bind first next) last input =
    Reader.bind first (fun value => Reader.bind (next value) last) input
  unfold Reader.bind
  cases first input <;> rfl

/-- A reader in sequence succeeds exactly when each of its parts does. -/
theorem bind_reads {first : Reader ε α} {next : α → Reader ε β} {result : β}
    (read : (first >>= next) input = .ok (result, rest)) :
    ∃ value middle, first input = .ok (value, middle) ∧ next value middle = .ok (result, rest) := by
  have unfolded : Reader.bind first next input = .ok (result, rest) := read
  unfold Reader.bind at unfolded
  split at unfolded
  · cases unfolded
  · rename_i value middle head
    exact ⟨value, middle, head, unfolded⟩

theorem take_eq_ok {short : ε} {value : Bytes} :
    Reader.take short count input = .ok (value, rest) ↔
      value.length = count ∧ input = value ++ rest := by
  unfold Reader.take
  split
  · rename_i enough
    simp only [Except.ok.injEq, Prod.mk.injEq]
    constructor
    · rintro ⟨rfl, rfl⟩
      exact ⟨List.length_take_of_le enough, (List.take_append_drop count input).symm⟩
    · rintro ⟨rfl, rfl⟩
      simp
  · rename_i short
    simp only [reduceCtorEq, false_iff]
    rintro ⟨rfl, rfl⟩
    simp at short

theorem require_eq_ok {condition : Bool} {reason : ε} {done : Unit} :
    Reader.require condition reason input = .ok (done, rest) ↔ condition = true ∧ input = rest := by
  unfold Reader.require
  split
  · rename_i holds
    simp [Reader.pure, holds]
  · rename_i fails
    simp [Reader.fail, fails]

theorem available_eq_ok {short : ε} {done : Unit} :
    Reader.available short count input = .ok (done, rest) ↔
      count ≤ input.length ∧ input = rest := by
  unfold Reader.available
  split
  · rename_i enough
    simp [enough]
  · rename_i short
    simp [short]

theorem lift_eq_ok {result : Except ε α} {value : α} :
    Reader.lift result input = .ok (value, rest) ↔ result = .ok value ∧ input = rest := by
  unfold Reader.lift
  split
  · simp
  · simp

theorem many_length {item : Reader ε α} {values : List α}
    (read : Reader.many item count input = .ok (values, rest)) : values.length = count := by
  induction count generalizing values input rest with
  | zero =>
      cases read
      rfl
  | succ count ih =>
      obtain ⟨value, middle, -, read⟩ := bind_reads read
      obtain ⟨others, last, remaining, read⟩ := bind_reads read
      cases read
      rw [List.length_cons, ih remaining]

/-- What reads many values took a piece for each of them. -/
theorem many_pieces {item : Reader ε α} {spells : α → Bytes → Prop}
    (each : ∀ input value rest, item input = .ok (value, rest) →
      ∃ piece, spells value piece ∧ input = piece ++ rest)
    {count : Nat} {values : List α} {input rest : Bytes}
    (read : Reader.many item count input = .ok (values, rest)) :
    ∃ pieces, List.Forall₂ spells values pieces ∧ input = pieces.flatten ++ rest := by
  induction count generalizing values input rest with
  | zero =>
      cases read
      exact ⟨[], .nil, rfl⟩
  | succ count ih =>
      obtain ⟨value, middle, first, read⟩ := bind_reads read
      obtain ⟨others, last, remaining, read⟩ := bind_reads read
      cases read
      obtain ⟨piece, spelled, rfl⟩ := each _ _ _ first
      obtain ⟨pieces, others, rfl⟩ := ih remaining
      exact ⟨piece :: pieces, .cons spelled others, by simp⟩

theorem many_flatMap {item : Reader ε α} {encode : α → Bytes}
    (each : ∀ input value rest, item input = .ok (value, rest) → input = encode value ++ rest)
    {values : List α} (read : Reader.many item count input = .ok (values, rest)) :
    input = values.flatMap encode ++ rest := by
  obtain ⟨pieces, spelled, rfl⟩ := @many_pieces _ _ _ (fun value piece => piece = encode value)
    (fun input value rest read => ⟨encode value, rfl, each input value rest read⟩) _ _ _ _ read
  clear read
  congr 1
  induction spelled with
  | nil => rfl
  | cons same _ ih => rw [List.flatten_cons, List.flatMap_cons, same, ih]

end Reader

/-- Reads a big-endian integer of `width` bytes. -/
def readBe {ε : Type} (short : ε) (width : Nat) : Reader ε Nat :=
  Reader.bind (Reader.take short width) fun bytes => Reader.pure (bigEndianValue bytes)

theorem readBe_reads (short : ε) (width value : Nat) (fits : value < 256 ^ width) :
    Reader.Reads (readBe short width) (bigEndian width value) value := by
  have head := Reader.Reads.take_of_length short (bigEndian_length width value)
  have decoded := head.map bigEndianValue
  rwa [bigEndianValue_bigEndian_of_lt width value fits] at decoded

variable {input rest : Bytes}

theorem readBe_eq_ok {short : ε} {width value : Nat} :
    readBe short width input = .ok (value, rest) ↔
      value < 256 ^ width ∧ input = bigEndian width value ++ rest := by
  constructor
  · intro read
    obtain ⟨bytes, middle, taken, read⟩ := Reader.bind_reads read
    cases read
    obtain ⟨rfl, rfl⟩ := Reader.take_eq_ok.mp taken
    exact ⟨bigEndianValue_lt bytes, by rw [bigEndian_bigEndianValue]⟩
  · rintro ⟨fits, rfl⟩
    exact readBe_reads short width value fits rest

def putU16 (value : UInt16) : Bytes := bigEndian 2 value.toNat
def putU32 (value : UInt32) : Bytes := bigEndian 4 value.toNat
def putU64 (value : UInt64) : Bytes := bigEndian 8 value.toNat

@[simp] theorem putU16_length (value : UInt16) : (putU16 value).length = 2 := bigEndian_length 2 _
@[simp] theorem putU32_length (value : UInt32) : (putU32 value).length = 4 := bigEndian_length 4 _
@[simp] theorem putU64_length (value : UInt64) : (putU64 value).length = 8 := bigEndian_length 8 _

def readU8 {ε : Type} (short : ε) : Reader ε UInt8 :=
  Reader.bind (readBe short 1) fun value => Reader.pure (UInt8.ofNat value)

def readU16 {ε : Type} (short : ε) : Reader ε UInt16 :=
  Reader.bind (readBe short 2) fun value => Reader.pure (UInt16.ofNat value)

def readU32 {ε : Type} (short : ε) : Reader ε UInt32 :=
  Reader.bind (readBe short 4) fun value => Reader.pure (UInt32.ofNat value)

def readU64 {ε : Type} (short : ε) : Reader ε UInt64 :=
  Reader.bind (readBe short 8) fun value => Reader.pure (UInt64.ofNat value)

/-- A number that is read and wrapped is spelled as the number is. -/
theorem Reader.wrapped_eq_ok {α : Type} {number : Reader ε Nat} {spell : Nat → Bytes} {bound : Nat}
    {wrap : Nat → α} {unwrap : α → Nat}
    (spells : ∀ {input rest : Bytes} {value : Nat},
      number input = .ok (value, rest) ↔ value < bound ∧ input = spell value ++ rest)
    (small : ∀ value, unwrap value < bound) (wrapped : ∀ value, wrap (unwrap value) = value)
    (unwrapped : ∀ value, value < bound → unwrap (wrap value) = value) {value : α} :
    Reader.bind number (fun found => Reader.pure (wrap found)) input = .ok (value, rest) ↔
      input = spell (unwrap value) ++ rest := by
  constructor
  · intro read
    obtain ⟨found, middle, taken, read⟩ := Reader.bind_reads read
    cases read
    obtain ⟨fits, rfl⟩ := spells.mp taken
    rw [unwrapped found fits]
  · intro same
    have taken := spells.mpr ⟨small value, same⟩
    simp [Reader.bind, taken, Reader.pure, wrapped]

theorem readU8_eq_ok {short : ε} {value : UInt8} :
    readU8 short input = .ok (value, rest) ↔ input = value :: rest := by
  have single : bigEndian 1 value.toNat = [value] := by simp [bigEndian]
  rw [← List.singleton_append, ← single]
  exact Reader.wrapped_eq_ok readBe_eq_ok UInt8.toNat_lt (fun _ => UInt8.ofNat_toNat)
    fun _ => UInt8.toNat_ofNat_of_lt'

theorem readU8_reads (short : ε) (value : UInt8) : Reader.Reads (readU8 short) [value] value :=
  fun _ => readU8_eq_ok.mpr rfl

theorem readU16_eq_ok {short : ε} {value : UInt16} :
    readU16 short input = .ok (value, rest) ↔ input = putU16 value ++ rest :=
  Reader.wrapped_eq_ok readBe_eq_ok UInt16.toNat_lt (fun _ => UInt16.ofNat_toNat)
    fun _ => UInt16.toNat_ofNat_of_lt'

theorem readU16_reads (short : ε) (value : UInt16) :
    Reader.Reads (readU16 short) (putU16 value) value :=
  fun _ => readU16_eq_ok.mpr rfl

theorem readU32_eq_ok {short : ε} {value : UInt32} :
    readU32 short input = .ok (value, rest) ↔ input = putU32 value ++ rest :=
  Reader.wrapped_eq_ok readBe_eq_ok UInt32.toNat_lt (fun _ => UInt32.ofNat_toNat)
    fun _ => UInt32.toNat_ofNat_of_lt'

theorem readU32_reads (short : ε) (value : UInt32) :
    Reader.Reads (readU32 short) (putU32 value) value :=
  fun _ => readU32_eq_ok.mpr rfl

theorem readU64_eq_ok {short : ε} {value : UInt64} :
    readU64 short input = .ok (value, rest) ↔ input = putU64 value ++ rest :=
  Reader.wrapped_eq_ok readBe_eq_ok UInt64.toNat_lt (fun _ => UInt64.ofNat_toNat)
    fun _ => UInt64.toNat_ofNat_of_lt'

theorem readU64_reads (short : ε) (value : UInt64) :
    Reader.Reads (readU64 short) (putU64 value) value :=
  fun _ => readU64_eq_ok.mpr rfl

/-- The low-order bytes of `value`, least significant first. -/
def littleEndian (width value : Nat) : Bytes := (bigEndian width value).reverse

def putU16le (value : UInt16) : Bytes := littleEndian 2 value.toNat
def putU64le (value : UInt64) : Bytes := littleEndian 8 value.toNat

@[simp] theorem putU16le_length (value : UInt16) : (putU16le value).length = 2 := by
  rw [putU16le, littleEndian, List.length_reverse, bigEndian_length]

@[simp] theorem putU64le_length (value : UInt64) : (putU64le value).length = 8 := by
  rw [putU64le, littleEndian, List.length_reverse, bigEndian_length]

def readLe {ε : Type} (short : ε) (width : Nat) : Reader ε Nat :=
  Reader.bind (Reader.take short width) fun bytes => Reader.pure (bigEndianValue bytes.reverse)

theorem readLe_reads (short : ε) (width value : Nat) (fits : value < 256 ^ width) :
    Reader.Reads (readLe short width) (littleEndian width value) value := by
  have width_eq : (littleEndian width value).length = width := by
    rw [littleEndian, List.length_reverse, bigEndian_length]
  have decoded := (Reader.Reads.take_of_length short width_eq).map
    fun bytes => bigEndianValue bytes.reverse
  rwa [littleEndian, List.reverse_reverse, bigEndianValue_bigEndian_of_lt width value fits]
    at decoded

theorem readLe_eq_ok {short : ε} {width value : Nat} :
    readLe short width input = .ok (value, rest) ↔
      value < 256 ^ width ∧ input = littleEndian width value ++ rest := by
  constructor
  · intro read
    obtain ⟨bytes, middle, taken, read⟩ := Reader.bind_reads read
    cases read
    obtain ⟨rfl, rfl⟩ := Reader.take_eq_ok.mp taken
    have small := bigEndianValue_lt bytes.reverse
    have spelled := bigEndian_bigEndianValue bytes.reverse
    rw [List.length_reverse] at small spelled
    exact ⟨small, by rw [littleEndian, spelled, List.reverse_reverse]⟩
  · rintro ⟨fits, rfl⟩
    exact readLe_reads short width value fits rest

def readU16le {ε : Type} (short : ε) : Reader ε UInt16 :=
  Reader.bind (readLe short 2) fun value => Reader.pure (UInt16.ofNat value)

def readU64le {ε : Type} (short : ε) : Reader ε UInt64 :=
  Reader.bind (readLe short 8) fun value => Reader.pure (UInt64.ofNat value)

theorem readU16le_eq_ok {short : ε} {value : UInt16} :
    readU16le short input = .ok (value, rest) ↔ input = putU16le value ++ rest :=
  Reader.wrapped_eq_ok readLe_eq_ok UInt16.toNat_lt (fun _ => UInt16.ofNat_toNat)
    fun _ => UInt16.toNat_ofNat_of_lt'

theorem readU16le_reads (short : ε) (value : UInt16) :
    Reader.Reads (readU16le short) (putU16le value) value :=
  fun _ => readU16le_eq_ok.mpr rfl

theorem readU64le_eq_ok {short : ε} {value : UInt64} :
    readU64le short input = .ok (value, rest) ↔ input = putU64le value ++ rest :=
  Reader.wrapped_eq_ok readLe_eq_ok UInt64.toNat_lt (fun _ => UInt64.ofNat_toNat)
    fun _ => UInt64.toNat_ofNat_of_lt'

theorem readU64le_reads (short : ε) (value : UInt64) :
    Reader.Reads (readU64le short) (putU64le value) value :=
  fun _ => readU64le_eq_ok.mpr rfl

/-- Reads a byte string of the fixed length `width`. -/
def readFixed {ε : Type} (short : ε) (width : Nat) : Reader ε (FixedBytes width) := fun input =>
  if enough : width ≤ input.length then
    .ok (⟨input.take width, by simp [enough]⟩, input.drop width)
  else .error short

theorem readFixed_reads (short : ε) {width : Nat} (value : FixedBytes width) :
    Reader.Reads (readFixed short width) value.val value := by
  intro rest
  obtain ⟨bytes, rfl⟩ := value
  simp [readFixed]

theorem readFixed_eq_ok {short : ε} {width : Nat} {value : FixedBytes width} :
    readFixed short width input = .ok (value, rest) ↔ input = value.val ++ rest := by
  constructor
  · intro read
    unfold readFixed at read
    split at read
    · cases read
      exact (List.take_append_drop width input).symm
    · cases read
  · rintro rfl
    exact readFixed_reads short value rest

/-- A sub-range of a byte string, or `none` when it runs past the end. -/
def slice (bytes : Bytes) (start stop : Nat) : Option Bytes :=
  if start ≤ stop ∧ stop ≤ bytes.length then some ((bytes.drop start).take (stop - start)) else none

theorem slice_middle (front middle back : Bytes) :
    slice (front ++ middle ++ back) front.length (front.length + middle.length) = some middle := by
  simp [slice, List.append_assoc]

theorem slice_eq_some {bytes middle : Bytes} {start stop : Nat} :
    slice bytes start stop = some middle ↔ ∃ front back,
      bytes = front ++ (middle ++ back) ∧ front.length = start ∧ start + middle.length = stop := by
  constructor
  · intro found
    unfold slice at found
    split at found
    · rename_i inside
      cases found
      refine ⟨bytes.take start, bytes.drop stop, ?_, ?_, ?_⟩
      · have rest : bytes.drop stop = (bytes.drop start).drop (stop - start) := by
          rw [List.drop_drop]
          congr 1
          omega
        rw [rest, List.take_append_drop, List.take_append_drop]
      · simp
        omega
      · simp
        omega
    · cases found
  · rintro ⟨front, back, rfl, rfl, rfl⟩
    rw [← List.append_assoc]
    exact slice_middle front middle back

theorem slice_append {bytes middle : Bytes} {start stop : Nat}
    (found : slice bytes start stop = some middle) (rest : Bytes) :
    slice (bytes ++ rest) start stop = some middle := by
  obtain ⟨front, back, rfl, starts, stops⟩ := slice_eq_some.mp found
  exact slice_eq_some.mpr ⟨front, back ++ rest, by simp, starts, stops⟩

end ByteFormat
