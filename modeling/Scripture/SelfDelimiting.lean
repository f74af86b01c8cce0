import Scripture.ByteFormat

set_option autoImplicit false

/- Encodings that need no end mark: a value can be told from what follows it. Nothing here knows
which values are encoded. -/
namespace ByteFormat

variable {α β : Type}

/-- Whatever follows two encodings of valid values, they differ where the values do. -/
def SelfDelimiting (valid : α → Prop) (encode : α → Bytes) : Prop :=
  ∀ ⦃left right : α⦄ ⦃rest other : Bytes⦄, valid left → valid right →
    encode left ++ rest = encode right ++ other → left = right ∧ rest = other

namespace SelfDelimiting

variable {valid : α → Prop} {encode : α → Bytes}

theorem bigEndian (width : Nat) :
    SelfDelimiting (fun value => value < 256 ^ width) (ByteFormat.bigEndian width) := by
  intro left right rest other leftFits rightFits same
  obtain ⟨values, rests⟩ := List.append_inj same (by rw [bigEndian_length, bigEndian_length])
  have decoded := congrArg bigEndianValue values
  rw [bigEndianValue_bigEndian_of_lt _ _ leftFits,
    bigEndianValue_bigEndian_of_lt _ _ rightFits] at decoded
  exact ⟨decoded, rests⟩

/-- One encoding behind another. -/
theorem append {further : β → Prop} {spell : β → Bytes} (first : SelfDelimiting valid encode)
    (second : SelfDelimiting further spell) :
    SelfDelimiting (fun pair : α × β => valid pair.1 ∧ further pair.2)
      (fun pair => encode pair.1 ++ spell pair.2) := by
  intro left right rest other leftValid rightValid same
  rw [List.append_assoc, List.append_assoc] at same
  obtain ⟨heads, same⟩ := first leftValid.1 rightValid.1 same
  obtain ⟨tails, rests⟩ := second leftValid.2 rightValid.2 same
  exact ⟨Prod.ext heads tails, rests⟩

/-- Values that are encoded through others. -/
theorem comap {through : β → α} (delimits : SelfDelimiting valid encode)
    (injective : Function.Injective through) :
    SelfDelimiting (fun value => valid (through value)) (fun value => encode (through value)) := by
  intro left right rest other leftValid rightValid same
  obtain ⟨values, rests⟩ := delimits leftValid rightValid same
  exact ⟨injective values, rests⟩

/-- A byte string behind its length. -/
theorem lengthPrefixed (width : Nat) :
    SelfDelimiting (fun bytes : Bytes => bytes.length < 256 ^ width)
      (fun bytes => ByteFormat.bigEndian width bytes.length ++ bytes) := by
  intro left right rest other leftFits rightFits same
  rw [List.append_assoc, List.append_assoc] at same
  obtain ⟨lengths, same⟩ := bigEndian width leftFits rightFits same
  exact List.append_inj same lengths

/-- As many values on both sides, one behind another. -/
theorem flatMap (delimits : SelfDelimiting valid encode) {left right : List α} {rest other : Bytes}
    (lengths : left.length = right.length) (leftValid : ∀ value ∈ left, valid value)
    (rightValid : ∀ value ∈ right, valid value)
    (same : left.flatMap encode ++ rest = right.flatMap encode ++ other) :
    left = right ∧ rest = other := by
  induction left generalizing right with
  | nil =>
      obtain rfl : right = [] := List.length_eq_zero_iff.mp lengths.symm
      exact ⟨rfl, same⟩
  | cons value values ih =>
      cases right with
      | nil => cases lengths
      | cons counterpart counterparts =>
          rw [List.flatMap_cons, List.flatMap_cons, List.append_assoc, List.append_assoc] at same
          obtain ⟨heads, same⟩ := delimits (leftValid _ List.mem_cons_self)
            (rightValid _ List.mem_cons_self) same
          obtain ⟨tails, rests⟩ := ih (Nat.succ.inj lengths)
            (fun value member => leftValid value (List.mem_cons_of_mem _ member))
            (fun value member => rightValid value (List.mem_cons_of_mem _ member)) same
          exact ⟨by rw [heads, tails], rests⟩

/-- Values behind their number. -/
theorem counted (delimits : SelfDelimiting valid encode) (width : Nat) :
    SelfDelimiting
      (fun values : List α => values.length < 256 ^ width ∧ ∀ value ∈ values, valid value)
      (fun values => ByteFormat.bigEndian width values.length ++ values.flatMap encode) := by
  intro left right rest other leftValid rightValid same
  rw [List.append_assoc, List.append_assoc] at same
  obtain ⟨lengths, same⟩ := bigEndian width leftValid.1 rightValid.1 same
  exact delimits.flatMap lengths leftValid.2 rightValid.2 same

end SelfDelimiting

end ByteFormat
