import Scripture.SelfDelimiting
import Scripture.Driver.SinkReceipts

set_option autoImplicit false

/- What the digest of a submission stands for. Lists of records that are fed to the hash as the same
bytes are the same, so a retry joins or replays nothing but its own records unless the hash
collides. -/
namespace Scripture

open ByteFormat

/-- The lengths of everything in memory fit a `usize`. -/
def AttributeValue.Addressable : AttributeValue → Prop
  | .string text => (utf8 text).length ≤ Usize.max
  | .i64 _ | .bool _ => True

structure Record.Addressable (record : Record) : Prop where
  count : record.attributes.entries.length ≤ Usize.max
  entries : ∀ entry ∈ record.attributes.entries,
    (utf8 entry.1).length ≤ Usize.max ∧ entry.2.Addressable
  payload : record.payload.length ≤ Usize.max

def Addressable (records : List Record) : Prop :=
  records.length ≤ Usize.max ∧ ∀ record ∈ records, record.Addressable

theorem lt_of_le_usize {length : Nat} (fits : length ≤ Usize.max) : length < 256 ^ 8 := by
  unfold Usize.max at fits
  omega

theorem utf8_injective : Function.Injective utf8 := by
  intro left right same
  have read := congrArg fromUtf8 same
  rw [fromUtf8_utf8, fromUtf8_utf8] at read
  exact Option.some.inj read

theorem hashBytes_delimits :
    SelfDelimiting (fun bytes : Bytes => bytes.length ≤ Usize.max) hashBytes := by
  intro left right rest other leftFits rightFits same
  exact SelfDelimiting.lengthPrefixed 8 (lt_of_le_usize leftFits) (lt_of_le_usize rightFits) same

/-- The part of `hash_attribute` behind the key. -/
def hashValue : AttributeValue → Bytes
  | .string text => [1] ++ hashBytes (utf8 text)
  | .i64 number => [2] ++ putU64 number.toUInt64
  | .bool flag => [3, if flag then 1 else 0]

theorem hashValue_delimits : SelfDelimiting AttributeValue.Addressable hashValue := by
  intro left right rest other leftFits rightFits same
  cases left with
  | string text =>
      cases right with
      | string another =>
          obtain ⟨texts, rests⟩ := hashBytes_delimits.comap utf8_injective leftFits rightFits
            (List.cons.inj same).2
          exact ⟨congrArg _ texts, rests⟩
      | i64 another => exact absurd (List.cons.inj same).1 (by decide)
      | bool another => exact absurd (List.cons.inj same).1 (by decide)
  | i64 number =>
      cases right with
      | string another => exact absurd (List.cons.inj same).1 (by decide)
      | i64 another =>
          obtain ⟨numbers, rests⟩ := SelfDelimiting.bigEndian 8 number.toUInt64.toNat_lt
            another.toUInt64.toNat_lt (List.cons.inj same).2
          have words := congrArg UInt64.toInt64 (UInt64.toNat_inj.mp numbers)
          rw [Int64.toInt64_toUInt64, Int64.toInt64_toUInt64] at words
          exact ⟨congrArg _ words, rests⟩
      | bool another => exact absurd (List.cons.inj same).1 (by decide)
  | bool flag =>
      cases right with
      | string another => exact absurd (List.cons.inj same).1 (by decide)
      | i64 another => exact absurd (List.cons.inj same).1 (by decide)
      | bool another =>
          obtain ⟨flags, rests⟩ := List.cons.inj (List.cons.inj same).2
          refine ⟨?_, rests⟩
          cases flag <;> cases another <;> first | rfl | exact absurd flags (by decide)

theorem hashAttribute_delimits :
    SelfDelimiting (fun entry : String × AttributeValue =>
      (utf8 entry.1).length ≤ Usize.max ∧ entry.2.Addressable) hashAttribute := by
  have spelled : hashAttribute = fun entry => hashBytes (utf8 entry.1) ++ hashValue entry.2 := by
    funext entry
    obtain ⟨key, value⟩ := entry
    cases value <;> rfl
  rw [spelled]
  exact (hashBytes_delimits.comap utf8_injective).append hashValue_delimits

theorem hashRecord_delimits : SelfDelimiting Record.Addressable hashRecord := by
  intro left right rest other leftFits rightFits same
  unfold hashRecord at same
  rw [List.append_assoc _ (hashBytes left.payload), List.append_assoc _ (hashBytes right.payload)]
    at same
  obtain ⟨entries, same⟩ := hashAttribute_delimits.counted 8
    ⟨lt_of_le_usize leftFits.count, leftFits.entries⟩
    ⟨lt_of_le_usize rightFits.count, rightFits.entries⟩ same
  obtain ⟨payloads, rests⟩ := hashBytes_delimits leftFits.payload rightFits.payload same
  obtain ⟨⟨leftEntries, _⟩, _⟩ := left
  obtain ⟨⟨rightEntries, _⟩, _⟩ := right
  cases entries
  cases payloads
  exact ⟨rfl, rests⟩

theorem canonicalRecordsBytes_injective {left right : List Record} (leftFits : Addressable left)
    (rightFits : Addressable right)
    (same : canonicalRecordsBytes left = canonicalRecordsBytes right) : left = right := by
  unfold canonicalRecordsBytes at same
  rw [List.append_assoc, List.append_assoc] at same
  have fed := List.append_cancel_left same
  rw [← List.append_nil (_ ++ left.flatMap hashRecord),
    ← List.append_nil (_ ++ right.flatMap hashRecord)] at fed
  exact (hashRecord_delimits.counted 8 ⟨lt_of_le_usize leftFits.1, leftFits.2⟩
    ⟨lt_of_le_usize rightFits.1, rightFits.2⟩ fed).1

/-- The hash tells what two lists of records feed to it apart, if it differs. -/
def Collisionless [Digests] (left right : List Record) : Prop :=
  Digests.blake3 (canonicalRecordsBytes left) = Digests.blake3 (canonicalRecordsBytes right) →
    canonicalRecordsBytes left = canonicalRecordsBytes right

theorem eq_of_digest [Digests] {left right : List Record} (leftFits : Addressable left)
    (rightFits : Addressable right) (collisionless : Collisionless left right)
    (same : canonicalRecordsDigest left = canonicalRecordsDigest right) : left = right :=
  canonicalRecordsBytes_injective leftFits rightFits (collisionless same)

/-- What is fed to the hash determines the records. Without a collision a retry is answered from the
window, or joins an open or a pending submission, only with the records of the first attempt. -/
theorem submissionDigest_exact [Digests] :
    (∀ left right, Addressable left → Addressable right →
      canonicalRecordsBytes left = canonicalRecordsBytes right → left = right) ∧
    (∀ (actor : Actor) (retry : Submission) (original : List Record), Addressable retry.records →
      Addressable original → Collisionless original retry.records →
      (∀ receipt, actor.decideAdmission retry = .ok (.replay receipt) →
        receipt.submissionDigest = canonicalRecordsDigest original → original = retry.records) ∧
      (∀ item, actor.decideAdmission retry = .ok .joinOpen →
        Actor.findPlaced actor.openPlaced retry.identity = some item →
        item.submission.records = original → original = retry.records) ∧
      (∀ item, actor.decideAdmission retry = .ok .joinPending →
        Actor.findPlaced actor.pendingPlaced retry.identity = some item →
        item.submission.records = original → original = retry.records)) := by
  refine ⟨fun _ _ => canonicalRecordsBytes_injective, ?_⟩
  intro actor retry original retryFits originalFits collisionless
  have joined : ∀ placed item, Actor.Joins placed retry →
      Actor.findPlaced placed retry.identity = some item →
      item.submission.records = original → original = retry.records := by
    rintro placed item ⟨found, held, same⟩ present rfl
    cases held.symm.trans present
    exact eq_of_digest originalFits retryFits collisionless same
  refine ⟨?_, ?_, ?_⟩
  · intro receipt decided digest
    obtain ⟨highest, window, -, -, same⟩ := Actor.decideAdmission_eq_ok decided
    exact eq_of_digest originalFits retryFits collisionless (digest.symm.trans same)
  · intro item decided
    exact joined _ item (Actor.decideAdmission_eq_ok decided)
  · intro item decided
    exact joined _ item (Actor.decideAdmission_eq_ok decided).2

/-- The first record is sealed in an envelope. -/
def firstEnclosed : Driver :=
  (sinkDriver.submitted (commandPass (.submit (submissionOf 1 0 1))) (submissionOf 1 0 1)).enclosed
    (submissionOf 1 0 1) 0 199

/-- A retry of the one record that is sealed in an envelope and not yet taken by the sink. -/
theorem submissionDigest_exact_retry : ∃ _ : Digests,
    let retry := submissionOf 1 0 1
    firstEnclosed.decideAdmission retry = .ok .joinPending ∧
      (∀ item, Actor.findPlaced firstEnclosed.pendingPlaced retry.identity = some item →
        item.submission.records = [⟨.empty, [1]⟩] → [⟨.empty, [1]⟩] = retry.records) ∧
      (canonicalRecordsBytes [⟨.empty, [1]⟩] = canonicalRecordsBytes [⟨.empty, [1]⟩] →
        [(⟨.empty, [1]⟩ : Record)] = [⟨.empty, [1]⟩]) := by
  have fits : Addressable [⟨.empty, [1]⟩] := by
    refine ⟨by decide, ?_⟩
    intro record member
    rw [List.mem_singleton.mp member]
    exact ⟨by decide, fun entry none => absurd none (by simp [OrderedMap.empty]), by decide⟩
  let digests := valueDigests
  have joins : firstEnclosed.decideAdmission (submissionOf 1 0 1) = .ok .joinPending := by
    decide +kernel
  obtain ⟨injective, retries⟩ := @submissionDigest_exact valueDigests
  refine ⟨digests, joins, ?_, injective _ _ fits fits⟩
  intro item
  exact (retries firstEnclosed.toActor (submissionOf 1 0 1) [⟨.empty, [1]⟩] fits fits
    (fun _ => rfl)).2.2 item joins

end Scripture
