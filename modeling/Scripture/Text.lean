import Scripture.Model

set_option autoImplicit false

/- How many bytes a text takes. -/
namespace Scripture

theorem utf8_length (text : String) : (utf8 text).length = text.utf8ByteSize := by
  rfl

theorem utf8_length_append (left right : String) :
    (utf8 (left ++ right)).length = (utf8 left).length + (utf8 right).length := by
  simp only [utf8_length, String.utf8ByteSize_append]

theorem utf8_length_ofList_le (characters : List Char) :
    (utf8 (String.ofList characters)).length ≤ 4 * characters.length := by
  rw [utf8_length, String.utf8ByteSize_ofList]
  induction characters with
  | nil => simp [String.utf8Len]
  | cons character rest ih =>
      have := character.utf8Size_le_four
      simp only [String.utf8Len, List.length_cons] at ih ⊢
      omega

/-- A 64-bit number has at most twenty digits. -/
theorem utf8_length_toString_le {number : Nat} (fits : number < 2 ^ 64) :
    (utf8 (toString number)).length ≤ 80 := by
  have digits : (Nat.toDigits 10 number).length ≤ 20 :=
    (Nat.length_toDigits_le_iff (by omega) (by omega)).mpr (by omega)
  have bound := utf8_length_ofList_le (Nat.toDigits 10 number)
  change (utf8 (String.ofList (Nat.toDigits 10 number))).length ≤ 80
  omega

theorem utf8_length_join_le (bytes : List UInt8) :
    (utf8 (String.join (bytes.map hexByte))).length ≤ 8 * bytes.length := by
  induction bytes with
  | nil => decide
  | cons byte rest ih =>
      have pair : (utf8 (hexByte byte)).length ≤ 8 := utf8_length_ofList_le _
      rw [List.map_cons, String.join_cons, utf8_length_append, List.length_cons]
      omega

end Scripture
