import Scripture.ByteFormat
import Scripture.OrderedMap

set_option autoImplicit false

/- Identities, offsets and records, and the digest that binds a producer's retry to its records.
`usize` is 64 bits wide; byte and record counts are naturals and every bounded operation of the
source says here what it does at the bound. -/
namespace Scripture

open ByteFormat

/-- The two checksums come from crates outside the repository. Nothing below depends on which
functions they are. -/
class Digests where
  crc32c : Bytes → UInt32
  blake3 : Bytes → FixedBytes 32

/-- One round of the reflected Castagnoli polynomial for each bit. -/
def crc32cStep (crc : UInt32) (byte : UInt8) : UInt32 :=
  (List.range 8).foldl
    (fun crc _ => if crc &&& 1 = 1 then (crc >>> 1) ^^^ 0x82f63b78 else crc >>> 1)
    (crc ^^^ byte.toUInt32)

/-- CRC-32C, and a 32-byte fold in the place of the cryptographic hash. -/
@[reducible] def sampleDigests : Digests where
  crc32c bytes := bytes.foldl crc32cStep 0xffffffff ^^^ 0xffffffff
  blake3 bytes := ⟨List.ofFn fun lane : Fin 32 =>
    bytes.foldl (fun state byte => state * 31 + byte + UInt8.ofNat lane.val) 7, by simp⟩

/-- Digests that a proof can compute: the value of the bytes. -/
@[reducible] def valueDigests : Digests where
  crc32c bytes := .ofNat (bigEndianValue bytes)
  blake3 bytes := ⟨bigEndian 32 (bigEndianValue bytes), bigEndian_length 32 _⟩

namespace Usize

abbrev max : Nat := 2 ^ 64 - 1

def checkedAdd (left right : Nat) : Option Nat :=
  if left + right ≤ max then some (left + right) else none

def checkedMul (left right : Nat) : Option Nat :=
  if left * right ≤ max then some (left * right) else none

def saturatingAdd (left right : Nat) : Nat := min (left + right) max

theorem checkedAdd_eq_some {left right sum : Nat} :
    checkedAdd left right = some sum ↔ left + right = sum ∧ sum ≤ max := by
  unfold checkedAdd
  split <;> simp only [Option.some.injEq, reduceCtorEq, false_iff] <;> omega

end Usize

structure JournalId where
  bytes : FixedBytes 16
  deriving DecidableEq

structure ProducerId where
  bytes : FixedBytes 16
  deriving DecidableEq

structure CohortId where
  bytes : FixedBytes 16
  deriving DecidableEq

structure ChunkId where
  bytes : FixedBytes 16
  deriving DecidableEq

structure WriterId where
  bytes : FixedBytes 16
  deriving DecidableEq

structure ChunkDigest where
  bytes : FixedBytes 32
  deriving DecidableEq

/-- Byte arrays of equal length compare lexicographically, hence by their big-endian value. -/
def JournalId.value (journal : JournalId) : Nat := bigEndianValue journal.bytes.val

/-- Sixteen equal bytes, as the repository's own tests name their identities. -/
def repeated (width : Nat) (byte : UInt8) : FixedBytes width :=
  ⟨List.replicate width byte, List.length_replicate⟩

structure RecordOffset where
  get : UInt64
  deriving DecidableEq

namespace RecordOffset

def ofNat (value : Nat) : RecordOffset := ⟨UInt64.ofNat value⟩

def toNat (offset : RecordOffset) : Nat := offset.get.toNat

/-- Advances by `count` records, or `none` on overflow. -/
def checkedAdd (offset : RecordOffset) (count : Nat) : Option RecordOffset :=
  if offset.toNat + count < 2 ^ 64 then some (ofNat (offset.toNat + count)) else none

theorem toNat_lt (offset : RecordOffset) : offset.toNat < 2 ^ 64 := offset.get.toNat_lt

theorem ext_toNat {left right : RecordOffset} (same : left.toNat = right.toNat) : left = right := by
  obtain ⟨left⟩ := left
  obtain ⟨right⟩ := right
  exact congrArg RecordOffset.mk (UInt64.toNat_inj.mp same)

theorem toNat_ofNat {value : Nat} (fits : value < 2 ^ 64) : (ofNat value).toNat = value := by
  simp only [toNat, ofNat, UInt64.toNat_ofNat']
  omega

theorem checkedAdd_eq_some {offset next : RecordOffset} {count : Nat} :
    offset.checkedAdd count = some next ↔ offset.toNat + count = next.toNat := by
  unfold checkedAdd
  split
  · rename_i fits
    rw [Option.some.injEq]
    constructor
    · rintro rfl
      exact (toNat_ofNat fits).symm
    · intro same
      exact ext_toNat ((toNat_ofNat fits).trans same)
  · have := next.toNat_lt
    simp only [reduceCtorEq, false_iff]
    omega

theorem checkedAdd_isSome {offset : RecordOffset} {count : Nat} :
    (offset.checkedAdd count).isSome ↔ offset.toNat + count < 2 ^ 64 := by
  unfold checkedAdd
  split <;> simp_all

end RecordOffset

inductive AttributeValue where
  | string (text : String)
  | i64 (number : Int64)
  | bool (flag : Bool)
  deriving DecidableEq

/-- Attributes in key order, each key once. Text compares by its UTF-8 bytes, which is the order
of its code points. -/
abbrev AttributeMap := OrderedMap String AttributeValue

namespace AttributeMap

/-- `BTreeMap::insert`: the value the key held before, and the map after. -/
def insert (map : AttributeMap) (key : String) (value : AttributeValue) :
    Option AttributeValue × AttributeMap :=
  (map.find? key, OrderedMap.insert map key value)

theorem insert_of_above {map : AttributeMap} {key : String} (value : AttributeValue)
    (above : ∀ entry ∈ map.entries, entry.1 < key) :
    (map.insert key value).1 = none ∧
      (map.insert key value).2.entries = map.entries ++ [(key, value)] := by
  refine ⟨?_, OrderedMap.entries_insert_of_above value above⟩
  rw [insert, Option.eq_none_iff_forall_ne_some]
  intro held found
  exact lt_irrefl _ (above _ (OrderedMap.find?_eq_some.mp found))

/-- The attribute loop of one record. A key must be above the one before it, and new. -/
def readWith {ε : Type} (nonCanonical : ε) (readKey : Reader ε String)
    (readValue : Reader ε AttributeValue) :
    Nat → Option String → AttributeMap → Reader ε AttributeMap
  | 0, _, attributes => return attributes
  | count + 1, previous, attributes => do
      let key ← readKey
      Reader.require (∀ last ∈ previous, last < key) nonCanonical
      let value ← readValue
      Reader.require (attributes.insert key value).1.isNone nonCanonical
      readWith nonCanonical readKey readValue count (some key) (attributes.insert key value).2

open Reader (Reads)

/-- Reading continues behind the attributes already collected; their keys are all smaller. -/
theorem readWith_reads {ε : Type} {nonCanonical : ε} {readKey : Reader ε String}
    {readValue : Reader ε AttributeValue} {entries : List (String × AttributeValue)}
    {pieces : List Bytes}
    (spelled : List.Forall₂ (fun entry piece => ∃ key value, piece = key ++ value ∧
      Reads readKey key entry.1 ∧ Reads readValue value entry.2) entries pieces)
    (collected : AttributeMap) (previous : Option String)
    (latest : ∀ last ∈ previous, ∃ value, (last, value) ∈ collected.entries)
    (sorted : (collected.entries ++ entries).Pairwise fun left right => left.1 < right.1) :
    Reads (readWith nonCanonical readKey readValue entries.length previous collected)
      pieces.flatten ⟨collected.entries ++ entries, sorted⟩ := by
  induction spelled generalizing collected previous with
  | nil =>
      have same : (⟨collected.entries ++ [], sorted⟩ : AttributeMap) = collected := by
        cases collected
        simp
      rw [same]
      exact Reads.pure collected
  | @cons entry piece rest pieces first spelled ih =>
      obtain ⟨name, typed⟩ := entry
      obtain ⟨key, value, rfl, keyRead, valueRead⟩ := first
      have above : ∀ other ∈ collected.entries, other.1 < name := by
        intro other member
        exact (List.pairwise_append.mp sorted).2.2 other member (name, typed) (by simp)
      obtain ⟨absent, inserted⟩ := insert_of_above typed above
      have nextSorted : ((collected.insert name typed).2.entries ++ rest).Pairwise
          fun left right => left.1 < right.1 := by
        rw [inserted, List.append_assoc]
        exact sorted
      have tail := ih (collected.insert name typed).2 (some name)
        (by
          intro last member
          simp only [Option.mem_def, Option.some.injEq] at member
          subst member
          exact ⟨typed, by rw [inserted]; simp⟩)
        nextSorted
      have result : (⟨(collected.insert name typed).2.entries ++ rest, nextSorted⟩ :
          AttributeMap) = ⟨collected.entries ++ (name, typed) :: rest, sorted⟩ := by
        simp only [inserted, List.append_assoc, List.cons_append, List.nil_append]
      rw [result] at tail
      rw [List.flatten_cons, List.append_assoc]
      refine Reads.bind keyRead ?_
      refine Reads.after (Reads.require ?_) ?_
      · simp only [decide_eq_true_eq]
        intro last member
        obtain ⟨held, present⟩ := latest last member
        exact above _ present
      refine Reads.bind valueRead ?_
      refine Reads.after (Reads.require ?_) tail
      simp [absent]

end AttributeMap

structure Record where
  attributes : AttributeMap
  payload : Bytes
  deriving DecidableEq

/-- The UTF-8 bytes of a string. -/
def utf8 (text : String) : Bytes := text.toByteArray.data.toList

/-- The characters `str::trim` removes. -/
def isWhitespace (character : Char) : Bool :=
  let code := character.toNat
  (9 ≤ code ∧ code ≤ 13) ∨ code = 32 ∨ code = 0x85 ∨ code = 0xa0 ∨ code = 0x1680 ∨
    (0x2000 ≤ code ∧ code ≤ 0x200a) ∨ code = 0x2028 ∨ code = 0x2029 ∨ code = 0x202f ∨
    code = 0x205f ∨ code = 0x3000

/-- `trim().is_empty()`. -/
def isBlank (text : String) : Bool := text.toList.all isWhitespace

def trimEnd (text : String) : String :=
  String.ofList (text.toList.reverse.dropWhile isWhitespace).reverse

def trim (text : String) : String := trimEnd (String.ofList (text.toList.dropWhile isWhitespace))

def hexDigit (value : Nat) : Char :=
  if value < 10 then Char.ofNat (48 + value) else Char.ofNat (87 + value)

/-- `{:02x}`. -/
def hexByte (byte : UInt8) : String :=
  String.ofList [hexDigit (byte.toNat / 16), hexDigit (byte.toNat % 16)]

/-- The string with these UTF-8 bytes, if they are well formed. -/
def fromUtf8 (bytes : Bytes) : Option String :=
  if valid : ByteArray.IsValidUTF8 ⟨bytes.toArray⟩ then some (String.ofByteArray _ valid) else none

@[simp] theorem fromUtf8_utf8 (text : String) : fromUtf8 (utf8 text) = some text := by
  have valid := text.isValidUTF8
  unfold fromUtf8 utf8
  rw [dif_pos (by simpa using valid)]

theorem fromUtf8_eq_some {bytes : Bytes} {text : String} :
    fromUtf8 bytes = some text ↔ utf8 text = bytes := by
  constructor
  · intro decoded
    unfold fromUtf8 at decoded
    split at decoded
    · cases decoded
      simp [utf8]
    · cases decoded
  · rintro rfl
    exact fromUtf8_utf8 text

def hashU64 (value : Nat) : Bytes := bigEndian 8 value

def hashBytes (value : Bytes) : Bytes := hashU64 value.length ++ value

def hashAttribute (entry : String × AttributeValue) : Bytes :=
  hashBytes (utf8 entry.1) ++
    match entry.2 with
    | .string text => [1] ++ hashBytes (utf8 text)
    | .i64 number => [2] ++ putU64 number.toUInt64
    | .bool flag => [3, if flag then 1 else 0]

def hashRecord (record : Record) : Bytes :=
  hashU64 record.attributes.entries.length ++ record.attributes.entries.flatMap hashAttribute ++
    hashBytes record.payload

/-- Everything `canonical_records_digest` feeds to its hasher, in order. -/
def canonicalRecordsBytes (records : List Record) : Bytes :=
  utf8 "scripture-submission-digest-v1" ++ hashU64 records.length ++ records.flatMap hashRecord

/-- Stable digest of one producer submission's exact canonical record sequence. -/
def canonicalRecordsDigest [Digests] (records : List Record) : FixedBytes 32 :=
  Digests.blake3 (canonicalRecordsBytes records)

end Scripture
