import Scripture.Producer.Outbox

set_option autoImplicit false

/- The replay of an outbox: what a scan makes of whole records, of a record that is cut off, and of
any file that it accepts. -/
namespace Scripture.Producer

open ByteFormat AppendLog

/-- Applies the bodies of records one after another. -/
def replay (entries : Entries) (bodies : List Bytes) : Except ProducerOutboxError Entries :=
  bodies.foldlM applyRecord entries

theorem replay_append (entries : Entries) (front back : List Bytes) :
    replay entries (front ++ back) = replay entries front >>= fun entries => replay entries back :=
  List.foldlM_append

variable {entries : Entries} {bodies : List Bytes} {count : Nat}

theorem replay_concat {middle : Entries} (replayed : replay entries bodies = .ok middle)
    (body : Bytes) :
    replay entries (bodies ++ [body]) = applyRecord middle body := by
  rw [replay_append, replayed]
  show applyRecord middle body >>= pure = _
  exact bind_pure _

theorem bodyLen_append {front : Bytes} (long : 4 ≤ front.length) (rest : Bytes) :
    bodyLen (front ++ rest) = bodyLen front := by
  rw [bodyLen, bodyLen, List.take_append_of_le_length long]

theorem putU32_bigEndianValue {piece : Bytes} (four : piece.length = 4) :
    putU32 (UInt32.ofNat (bigEndianValue piece)) = piece ∧ bigEndianValue piece < 2 ^ 32 := by
  have fits : bigEndianValue piece < 2 ^ 32 := by
    have bound := bigEndianValue_lt piece
    rw [four] at bound
    exact bound
  refine ⟨?_, fits⟩
  rw [putU32, toNat_u32OfNat fits, ← four, bigEndian_bigEndianValue]

/-- The sequences of the entries are the first `count` ones. -/
def Dense (entries : Entries) (count : Nat) : Prop :=
  ∀ sequence, (entries.find? sequence).isSome = true ↔ sequence < count

theorem Dense.next {next : Nat} (dense : Dense entries count)
    (follows : nextSequence entries = .ok next) : next = count := by
  unfold nextSequence at follows
  split at follows
  · rename_i none
    cases follows
    have absent := (dense 0).not.mp (by rw [OrderedMap.last?_eq_none none]; decide)
    omega
  · rename_i sequence state last
    obtain ⟨found, greatest⟩ := OrderedMap.last?_eq_some last
    split at follows
    · cases follows
      have present := (dense sequence).mp (by rw [found]; rfl)
      have behind : ¬ sequence + 1 < count := by
        intro more
        obtain ⟨held, further⟩ := Option.isSome_iff_exists.mp ((dense (sequence + 1)).mpr more)
        have above := greatest _ held further
        omega
      omega
    · cases follows

theorem Dense.insert_next (dense : Dense entries count) (state : EntryState) :
    Dense (entries.insert count state) (count + 1) := by
  intro sequence
  rw [OrderedMap.find?_insert]
  split
  · rename_i same
    simp [same]
  · rename_i other
    rw [dense sequence]
    omega

theorem Dense.insert_known {sequence : Nat} (dense : Dense entries count) {held : EntryState}
    (found : entries.find? sequence = some held) (state : EntryState) :
    Dense (entries.insert sequence state) count := by
  intro other
  rw [OrderedMap.find?_insert]
  split
  · rename_i same
    rw [same, ← dense sequence, found]
    simp
  · exact dense other

/-- A record keeps the entries dense, whichever it is. -/
theorem applyRecord_dense {after : Entries} {body : Bytes} (dense : Dense entries count)
    (applied : applyRecord entries body = .ok after) :
    ∃ count, Dense after count := by
  unfold applyRecord at applied
  split at applied
  · cases applied
  · split at applied
    · obtain ⟨-, applied⟩ := checked_eq_ok.mp applied
      obtain ⟨-, applied⟩ := checked_eq_ok.mp applied
      obtain ⟨carried, -, applied⟩ := bind_eq_ok.mp applied
      obtain ⟨-, applied⟩ := checked_eq_ok.mp applied
      unfold applySubmit at applied
      split at applied
      · split at applied
        · cases applied
        · cases applied
          exact ⟨count, dense⟩
      · obtain ⟨expected, next, applied⟩ := bind_eq_ok.mp applied
        obtain ⟨same, applied⟩ := checked_eq_ok.mp applied
        cases applied
        rw [not_not.mp same, dense.next next]
        exact ⟨count + 1, dense.insert_next _⟩
    · split at applied
      · obtain ⟨-, applied⟩ := checked_eq_ok.mp applied
        unfold applyAck at applied
        split at applied
        · cases applied
        · cases applied
          exact ⟨count, dense⟩
        · rename_i original found
          cases applied
          exact ⟨count, dense.insert_known found _⟩
      · cases applied

theorem replay_dense {after : Entries} (dense : Dense entries count)
    (replayed : replay entries bodies = .ok after) :
    ∃ count, Dense after count := by
  induction bodies generalizing entries count with
  | nil =>
      cases replayed
      exact ⟨count, dense⟩
  | cons body bodies ih =>
      obtain ⟨middle, applied, replayed⟩ := bind_eq_ok.mp replayed
      obtain ⟨further, dense⟩ := applyRecord_dense dense applied
      exact ih dense replayed

theorem dense_empty : Dense .empty 0 := by
  intro sequence
  simp

variable [Digests]

/-- The bytes of a record that holds a body. -/
def Spells (body piece : Bytes) : Prop := body.length < 2 ^ 32 ∧ piece = frameRecord body

@[simp] theorem frameRecord_length (body : Bytes) :
    (frameRecord body).length = 8 + body.length := by
  simp only [frameRecord, List.length_append, putU32_length]
  omega

theorem bodyLen_frameRecord {body : Bytes} (fits : body.length < 2 ^ 32) :
    bodyLen (frameRecord body) = body.length := by
  rw [bodyLen, frameRecord, List.take_left' (putU32_length _), putU32,
    bigEndianValue_bigEndian_of_lt 4 _ (UInt32.toNat_lt _), toNat_u32OfNat fits]

theorem scanFrom_record {body : Bytes} (fits : body.length < 2 ^ 32) (fuel : Nat)
    (entries : Entries) (valid : Nat) (rest : Bytes) :
    scanFrom (fuel + 1) entries valid (frameRecord body ++ rest) =
      applyRecord entries body >>= fun entries =>
        scanFrom fuel entries (valid + (8 + body.length)) rest := by
  have width : bodyLen (frameRecord body ++ rest) = body.length := by
    rw [bodyLen_append (by rw [frameRecord_length]; omega), bodyLen_frameRecord fits]
  have held : recordBody (frameRecord body ++ rest) = body := by
    rw [recordBody, width, frameRecord, List.append_assoc, List.drop_left' (putU32_length _),
      List.append_assoc, List.take_left]
  have checksum : recordChecksum (frameRecord body ++ rest) = Digests.crc32c body := by
    rw [recordChecksum, width, ← List.drop_drop, frameRecord, List.append_assoc,
      List.drop_left' (putU32_length _), List.append_assoc, List.drop_left,
      List.take_left' (putU32_length _), putU32,
      bigEndianValue_bigEndian_of_lt 4 _ (UInt32.toNat_lt _), UInt32.ofNat_toNat]
  have further : (frameRecord body ++ rest).drop (8 + body.length) = rest :=
    List.drop_left' (frameRecord_length body)
  rw [scanFrom, width, held, checksum, further, if_neg, if_neg (not_not.mpr rfl)]
  rw [List.length_append, frameRecord_length]
  omega

/-- Over whole records the scan applies each of them and goes on behind. -/
theorem scanFrom_laid {kept : Bytes} (laid : Laid Spells bodies kept) (rest : Bytes) (left : Nat)
    (entries : Entries) (valid : Nat) :
    scanFrom (bodies.length + left) entries valid (kept ++ rest) =
      replay entries bodies >>= fun entries =>
        scanFrom left entries (valid + kept.length) rest := by
  induction laid generalizing entries valid with
  | nil =>
      rw [List.length_nil, Nat.zero_add]
      rfl
  | @cons body piece bodies kept spelled laid ih =>
      obtain ⟨fits, rfl⟩ := spelled
      have fuel : (body :: bodies).length + left = bodies.length + left + 1 := by
        rw [List.length_cons]
        omega
      rw [fuel, List.append_assoc, scanFrom_record fits, List.length_append, frameRecord_length]
      show _ = (applyRecord entries body >>= fun entries => replay entries bodies) >>= _
      rw [bind_assoc]
      congr 1
      funext after
      rw [ih, Nat.add_assoc]

/-- Nothing is read from a record that is cut off. -/
theorem scanFrom_torn {lost : List Bytes} {rest : Bytes} (torn : Torn Spells lost rest)
    (fuel : Nat) (entries : Entries) (valid : Nat) :
    scanFrom fuel entries valid rest = .ok (entries, valid) := by
  cases fuel with
  | zero => rfl
  | succ fuel =>
      have cut : rest.length < 4 ∨ rest.length < 8 + bodyLen rest := by
        rcases torn with rfl | ⟨body, later, piece, more, -, ⟨fits, rfl⟩, some_byte, split⟩
        · exact Or.inl (by decide)
        · by_cases short : rest.length < 4
          · exact Or.inl short
          · have width := bodyLen_frameRecord fits
            rw [split, bodyLen_append (by omega)] at width
            have length := congrArg List.length split
            rw [frameRecord_length, List.length_append] at length
            have behind := List.length_pos_of_ne_nil some_byte
            omega
      rw [scanFrom, if_pos cut]
      rfl

theorem laid_length {kept : Bytes} (laid : Laid Spells bodies kept) :
    bodies.length ≤ kept.length := by
  induction laid with
  | nil => exact Nat.le_refl _
  | cons spelled laid ih =>
      rw [spelled.2, List.length_append, frameRecord_length, List.length_cons]
      omega

/-- What a scan makes of a file that was cut anywhere. -/
theorem scanWal_cut {lost : List Bytes} {kept rest : Bytes} (laid : Laid Spells bodies kept)
    (torn : Torn Spells lost rest) (replayed : replay .empty bodies = .ok entries) :
    scanWal (kept ++ rest) = .ok (entries, kept.length) := by
  have fuel : (kept ++ rest).length =
      bodies.length + ((kept ++ rest).length - bodies.length) := by
    have count := laid_length laid
    rw [List.length_append]
    omega
  rw [scanWal, fuel, scanFrom_laid laid, replayed]
  show scanFrom _ entries (0 + kept.length) rest = _
  rw [scanFrom_torn torn, Nat.zero_add]

theorem take_record {bytes : Bytes}
    (whole : ¬ (bytes.length < 4 ∨ bytes.length < 8 + bodyLen bytes))
    (sound : Digests.crc32c (recordBody bytes) = recordChecksum bytes) :
    Spells (recordBody bytes) (bytes.take (8 + bodyLen bytes)) := by
  have width : (recordBody bytes).length = bodyLen bytes := by
    rw [recordBody, List.length_take, List.length_drop]
    omega
  have front : (bytes.take 4).length = 4 := by
    rw [List.length_take]
    omega
  have back : ((bytes.drop (4 + bodyLen bytes)).take 4).length = 4 := by
    rw [List.length_take, List.length_drop]
    omega
  obtain ⟨lengthBytes, fits⟩ := putU32_bigEndianValue front
  refine ⟨by rw [width]; exact fits, ?_⟩
  have split : 8 + bodyLen bytes = 4 + (bodyLen bytes + 4) := by omega
  rw [frameRecord, width, bodyLen, lengthBytes, ← bodyLen, sound, recordChecksum,
    (putU32_bigEndianValue back).1, split, List.take_add, List.take_add, List.drop_drop, recordBody]

/-- What a scan accepts is whole records, and it applies them. -/
theorem scanFrom_ok {fuel : Nat} {after : Entries} {valid total : Nat} {bytes : Bytes}
    (scanned : scanFrom fuel entries valid bytes = .ok (after, total)) :
    ∃ bodies count, total = valid + count ∧ count ≤ bytes.length ∧
      Laid Spells bodies (bytes.take count) ∧ replay entries bodies = .ok after := by
  induction fuel generalizing entries valid bytes with
  | zero =>
      cases scanned
      exact ⟨[], 0, rfl, Nat.zero_le _, .nil, rfl⟩
  | succ fuel ih =>
      unfold scanFrom at scanned
      split at scanned
      · cases scanned
        exact ⟨[], 0, rfl, Nat.zero_le _, .nil, rfl⟩
      · rename_i whole
        split at scanned
        · cases scanned
        · rename_i sound
          obtain ⟨middle, applied, scanned⟩ := bind_eq_ok.mp scanned
          obtain ⟨bodies, count, rfl, covered, laid, replayed⟩ := ih scanned
          rw [List.length_drop] at covered
          refine ⟨recordBody bytes :: bodies, 8 + bodyLen bytes + count, by omega, by omega, ?_, ?_⟩
          · rw [List.take_add]
            exact .cons (take_record whole (not_not.mp sound)) laid
          · show applyRecord entries (recordBody bytes) >>= _ = _
            rw [applied]
            exact replayed

end Scripture.Producer
