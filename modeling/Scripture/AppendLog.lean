import Scripture.ByteFormat

set_option autoImplicit false

/- Files that are only appended to, as logs of records that are laid one behind another, and what a
crash leaves of them. Which bytes spell a record is a parameter. -/
namespace AppendLog

open ByteFormat

/-- The bytes of a file, and how many of them a sync has covered. -/
structure LogFile where
  bytes : Bytes
  synced : Nat
  covered : synced ≤ bytes.length
  deriving DecidableEq

namespace LogFile

def empty : LogFile := ⟨[], 0, Nat.le_refl _⟩

def append (file : LogFile) (data : Bytes) : LogFile :=
  ⟨file.bytes ++ data, file.synced, by
    have := file.covered
    rw [List.length_append]
    omega⟩

def sync (file : LogFile) : LogFile := ⟨file.bytes, file.bytes.length, Nat.le_refl _⟩

/-- Cuts the file to a length. What is cut off was not lost to a crash: it may come back only if it
is written again. -/
def truncate (file : LogFile) (length : Nat) : LogFile :=
  ⟨file.bytes.take length, min file.synced length, by
    have := file.covered
    rw [List.length_take]
    omega⟩

/-- What a crash leaves: at least the bytes that were synced, and `kept` bytes if there are as many.
Bytes that are found again without a sync may still be lost to the next crash. -/
def crash (file : LogFile) (kept : Nat) : LogFile :=
  ⟨file.bytes.take (max kept file.synced), file.synced, by
    have := file.covered
    rw [List.length_take]
    omega⟩

@[simp] theorem append_bytes (file : LogFile) (data : Bytes) :
    (file.append data).bytes = file.bytes ++ data := rfl

@[simp] theorem append_synced (file : LogFile) (data : Bytes) :
    (file.append data).synced = file.synced := rfl

@[simp] theorem sync_bytes (file : LogFile) : file.sync.bytes = file.bytes := rfl

@[simp] theorem sync_synced (file : LogFile) : file.sync.synced = file.bytes.length := rfl

@[simp] theorem truncate_bytes (file : LogFile) (length : Nat) :
    (file.truncate length).bytes = file.bytes.take length := rfl

@[simp] theorem crash_bytes (file : LogFile) (kept : Nat) :
    (file.crash kept).bytes = file.bytes.take (max kept file.synced) := rfl

@[simp] theorem crash_synced (file : LogFile) (kept : Nat) :
    (file.crash kept).synced = file.synced := rfl

end LogFile

/-- How a write ends. One that fails may have left the first bytes of its data. -/
inductive WriteReply where
  | written
  | failed (kept : Nat)
  deriving DecidableEq

def WriteReply.landed (data : Bytes) : WriteReply → Bytes
  | .written => data
  | .failed kept => data.take kept

theorem WriteReply.landed_prefix (reply : WriteReply) (data : Bytes) :
    reply.landed data <+: data := by
  cases reply with
  | written => exact List.prefix_rfl
  | failed kept => exact List.take_prefix kept data

section laid

variable {α : Type} (spells : α → Bytes → Prop)

/-- The bytes are records one behind another. -/
inductive Laid : List α → Bytes → Prop
  | nil : Laid [] []
  | cons {item : α} {piece : Bytes} {items : List α} {bytes : Bytes} :
      spells item piece → Laid items bytes → Laid (item :: items) (piece ++ bytes)

/-- What stands behind the last whole record: nothing, or the beginning of the next one. -/
def Torn (items : List α) (rest : Bytes) : Prop :=
  rest = [] ∨ ∃ item later piece more, items = item :: later ∧ spells item piece ∧
    more ≠ [] ∧ piece = rest ++ more

variable {spells}

theorem Laid.append {front back : List α} {first second : Bytes} (left : Laid spells front first)
    (right : Laid spells back second) : Laid spells (front ++ back) (first ++ second) := by
  induction left with
  | nil => exact right
  | cons spelled _ ih =>
      rw [List.append_assoc]
      exact .cons spelled ih

theorem Laid.single {item : α} {piece : Bytes} (spelled : spells item piece) :
    Laid spells [item] piece := by
  have laid := Laid.cons spelled .nil
  rwa [List.append_nil] at laid

theorem Laid.concat {items : List α} {bytes piece : Bytes} {item : α}
    (laid : Laid spells items bytes)
    (spelled : spells item piece) : Laid spells (items ++ [item]) (bytes ++ piece) :=
  laid.append (.single spelled)

theorem Laid.split {front back : List α} {bytes : Bytes}
    (laid : Laid spells (front ++ back) bytes) :
    ∃ first second, bytes = first ++ second ∧ Laid spells front first ∧
      Laid spells back second := by
  induction front generalizing bytes with
  | nil => exact ⟨[], bytes, rfl, .nil, laid⟩
  | cons item front ih =>
      cases laid with
      | cons spelled laid =>
          obtain ⟨first, second, rfl, left, right⟩ := ih laid
          exact ⟨_, second, (List.append_assoc _ _ _).symm, .cons spelled left, right⟩

/-- Where a record is spelled in one way, so is a log. -/
theorem Laid.unique (functional : ∀ item piece other, spells item piece → spells item other →
    piece = other) {items : List α} {bytes others : Bytes} (left : Laid spells items bytes)
    (right : Laid spells items others) : bytes = others := by
  induction left generalizing others with
  | nil =>
      cases right
      rfl
  | cons spelled laid ih =>
      cases right with
      | cons again later => rw [functional _ _ _ spelled again, ih later]

/-- Any cut of a log leaves whole records and the beginning of one more. -/
theorem Laid.cut {items : List α} {bytes : Bytes} (laid : Laid spells items bytes) (count : Nat) :
    ∃ front back kept rest, items = front ++ back ∧ Laid spells front kept ∧
      bytes.take count = kept ++ rest ∧ Torn spells back rest := by
  induction laid generalizing count with
  | nil => exact ⟨[], [], [], [], rfl, .nil, by simp, Or.inl rfl⟩
  | @cons item piece items bytes spelled laid ih =>
      by_cases whole : piece.length ≤ count
      · obtain ⟨front, back, kept, rest, rfl, kernel, split, torn⟩ := ih (count - piece.length)
        refine ⟨item :: front, back, piece ++ kept, rest, rfl, .cons spelled kernel, ?_, torn⟩
        rw [List.take_append, List.take_of_length_le whole, split, List.append_assoc]
      · have inside : (piece ++ bytes).take count = piece.take count := by
          rw [List.take_append, Nat.sub_eq_zero_of_le (by omega), List.take_zero, List.append_nil]
        refine ⟨[], item :: items, [], piece.take count, rfl, .nil, inside, Or.inr ?_⟩
        refine ⟨item, items, piece, piece.drop count, rfl, spelled, ?_, ?_⟩
        · intro none
          have length := congrArg List.length none
          rw [List.length_drop, List.length_nil] at length
          omega
        · exact (List.take_append_drop count piece).symm

theorem Torn.append {items : List α} {rest : Bytes} (torn : Torn spells items rest)
    (later : List α) : Torn spells (items ++ later) rest := by
  rcases torn with none | ⟨item, behind, piece, more, rfl, spelled, cut, split⟩
  · exact Or.inl none
  · exact Or.inr ⟨item, behind ++ later, piece, more, rfl, spelled, cut, split⟩

theorem Torn.take {items : List α} {rest : Bytes} (torn : Torn spells items rest) (count : Nat) :
    Torn spells items (rest.take count) := by
  rcases torn with none | ⟨item, later, piece, more, rfl, spelled, cut, rfl⟩
  · exact Or.inl (by rw [none, List.take_nil])
  · refine Or.inr ⟨item, later, rest ++ more, rest.drop count ++ more, rfl, spelled, ?_, ?_⟩
    · exact fun none => cut (List.append_eq_nil_iff.mp none).2
    · rw [← List.append_assoc, List.take_append_drop]

/-- The same of a log that already ends in the beginning of a record. -/
theorem Laid.cut_torn {items lost : List α} {kept rest : Bytes} (laid : Laid spells items kept)
    (torn : Torn spells lost rest) (count : Nat) :
    ∃ front back whole part, items = front ++ back ∧ Laid spells front whole ∧
      (kept ++ rest).take count = whole ++ part ∧ Torn spells (back ++ lost) part := by
  by_cases behind : kept.length ≤ count
  · refine ⟨items, [], kept, rest.take (count - kept.length), by simp, laid, ?_, torn.take _⟩
    rw [List.take_append, List.take_of_length_le behind]
  · obtain ⟨front, back, whole, part, rfl, kernel, parted, torn⟩ := laid.cut count
    refine ⟨front, back, whole, part, rfl, kernel, ?_, torn.append lost⟩
    rw [List.take_append_of_le_length (by omega), parted]

end laid

end AppendLog
