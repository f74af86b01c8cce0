import Scripture.Producer.Wire

set_option autoImplicit false

/- Producer Wire as a stream: what the codec accepts is spelled in one way, and the server splits a
stream at the lengths of its frames, wherever the transport cuts it. -/
namespace Scripture.Producer

open ByteFormat ByteFormat.Reader

/-- What is left of a byte stream: the bytes each further read delivers. A read of no bytes is the
end. -/
abbrev Fragments := List Bytes

/-- `read_exact`; `none` is an unexpected end. -/
def readExact : Fragments → Nat → Option (Bytes × Fragments)
  | [], count => if count = 0 then some ([], []) else none
  | fragment :: rest, count =>
      if count = 0 then some ([], fragment :: rest)
      else if fragment = [] then none
      else if count < fragment.length then some (fragment.take count, fragment.drop count :: rest)
      else (readExact rest (count - fragment.length)).map fun (bytes, left) =>
        (fragment ++ bytes, left)

inductive ReadFrameError where
  | exceedsCap
  | unexpectedEof
  | invalidData (error : ProducerWireError)
  deriving DecidableEq

/-- `read_frame`. A stream that ends before or inside the length of a frame is at its end. -/
def readFrame (stream : Fragments) :
    Except ReadFrameError (Option (ProducerWireFrame × Fragments)) :=
  match readExact stream 4 with
  | none => return none
  | some (front, stream) => do
      let length := bigEndianValue front
      if maxFrameBytes < length then throw .exceedsCap
      match readExact stream length with
      | none => throw .unexpectedEof
      | some (body, stream) => do
          let frame ← (decodeProducerWireFrame (front ++ body)).mapError .invalidData
          return some (frame, stream)

/-- The frames a server reads until the end of its stream. -/
def readFrames : Nat → Fragments → Except ReadFrameError (List ProducerWireFrame)
  | 0, _ => return []
  | fuel + 1, stream => do
      match ← readFrame stream with
      | none => return []
      | some (frame, stream) => do
          let later ← readFrames fuel stream
          return frame :: later

/-- Each frame takes at least one byte. -/
def splitStream (stream : Fragments) : Except ReadFrameError (List ProducerWireFrame) :=
  readFrames (stream.flatten.length + 1) stream

theorem readBytes_eq_ok {input value rest : Bytes} (read : readBytes input = .ok (value, rest)) :
    value.length ≤ maxFrameBytes ∧ input = lenPrefixed value ++ rest := by
  obtain ⟨length, middle, counted, read⟩ := bind_reads read
  obtain ⟨_, following, fits, read⟩ := bind_reads read
  rw [readU32_eq_ok] at counted
  rw [require_eq_ok, decide_eq_true_iff] at fits
  rw [take_eq_ok] at read
  obtain ⟨fits, rfl⟩ := fits
  obtain ⟨width, rfl⟩ := read
  refine ⟨by omega, ?_⟩
  rw [counted, lenPrefixed, width, UInt32.ofNat_toNat, List.append_assoc]

theorem readRecords_eq_ok {count : Nat} {records : List Bytes} {input rest : Bytes}
    (read : Reader.many readBytes count input = .ok (records, rest)) :
    (∀ record ∈ records, record.length ≤ maxFrameBytes) ∧
      input = records.flatMap lenPrefixed ++ rest := by
  induction count generalizing records input rest with
  | zero =>
      cases read
      exact ⟨List.forall_mem_nil _, rfl⟩
  | succ count ih =>
      obtain ⟨record, middle, first, read⟩ := bind_reads read
      obtain ⟨others, last, remaining, read⟩ := bind_reads read
      cases read
      obtain ⟨fits, split⟩ := readBytes_eq_ok first
      obtain ⟨othersFit, further⟩ := ih remaining
      refine ⟨List.forall_mem_cons.mpr ⟨fits, othersFit⟩, ?_⟩
      rw [split, further, List.flatMap_cons, List.append_assoc]

theorem pushRecords_of_fits {records : List Bytes}
    (fits : ∀ record ∈ records, record.length ≤ maxFrameBytes) :
    pushRecords records = .ok (records.flatMap lenPrefixed) := by
  induction records with
  | nil => rfl
  | cons record rest ih =>
      have small := fits record List.mem_cons_self
      have others := ih fun other member => fits other (List.mem_cons_of_mem _ member)
      unfold maxFrameBytes at small
      refine bind_eq_ok.mpr ⟨_, pushLenPrefixed_eq_ok.mpr ⟨by omega, rfl⟩, ?_⟩
      exact bind_eq_ok.mpr ⟨_, others, rfl⟩

theorem ProducerWireErrorCode.raw_of_decode {raw : UInt8} {code : ProducerWireErrorCode}
    (decoded : ProducerWireErrorCode.decode raw = .ok code) : code.raw = raw := by
  unfold ProducerWireErrorCode.decode at decoded
  repeat' split at decoded
  all_goals cases decoded
  all_goals
    rename_i same
    exact same.symm

theorem readFields_eq_ok {kind : UInt8} {input rest : Bytes} {frame : ProducerWireFrame}
    (read : readFields kind input = .ok (frame, rest)) :
    ∃ fields, encodeFields frame = .ok ([kind] ++ fields) ∧ input = fields ++ rest := by
  unfold readFields at read
  split at read
  · rename_i hello
    obtain ⟨producerId, _, identified, read⟩ := bind_reads read
    obtain ⟨producerEpoch, _, counted, read⟩ := bind_reads read
    obtain ⟨_, _, valid, read⟩ := bind_reads read
    rw [readFixed_eq_ok] at identified
    rw [readU32_eq_ok] at counted
    rw [require_eq_ok, decide_eq_true_iff] at valid
    cases read
    refine ⟨producerId.val ++ putU32 producerEpoch, ?_, ?_⟩
    · rw [hello]
      exact checked_eq_ok.mpr ⟨valid.1, rfl⟩
    · rw [identified, counted, valid.2, List.append_assoc]
  split at read
  · rename_i submit
    obtain ⟨sequence, _, numbered, read⟩ := bind_reads read
    obtain ⟨count, _, counted, read⟩ := bind_reads read
    obtain ⟨_, _, valid, read⟩ := bind_reads read
    obtain ⟨records, _, pieces, read⟩ := bind_reads read
    rw [readU64_eq_ok] at numbered
    rw [readU32_eq_ok] at counted
    rw [require_eq_ok, decide_eq_true_iff] at valid
    obtain ⟨⟨some_record, few⟩, same⟩ := valid
    cases read
    have number := many_length pieces
    obtain ⟨fits, split⟩ := readRecords_eq_ok pieces
    refine ⟨putU64 sequence ++ (putU32 count ++ records.flatMap lenPrefixed), ?_, ?_⟩
    · rw [submit]
      refine checked_eq_ok.mpr ⟨?_, bind_eq_ok.mpr ⟨_, pushRecords_of_fits fits, ?_⟩⟩
      · rw [not_or, Nat.not_lt, number]
        refine ⟨?_, few⟩
        rintro rfl
        exact some_record (UInt32.toNat_inj.mp number.symm)
      · rw [number, UInt32.ofNat_toNat]
        rfl
    · rw [numbered, counted, same, split, List.append_assoc, List.append_assoc]
  split at read
  · rename_i ack
    obtain ⟨producerEpoch, _, epoch, read⟩ := bind_reads read
    obtain ⟨sequence, _, numbered, read⟩ := bind_reads read
    obtain ⟨firstOffset, _, first, read⟩ := bind_reads read
    obtain ⟨nextOffset, _, next, read⟩ := bind_reads read
    obtain ⟨_, _, valid, read⟩ := bind_reads read
    rw [readU32_eq_ok] at epoch
    rw [readU64_eq_ok] at numbered first next
    rw [require_eq_ok, decide_eq_true_iff] at valid
    cases read
    refine ⟨putU32 producerEpoch ++ (putU64 sequence ++ (putU64 firstOffset ++ putU64 nextOffset)),
      ?_, ?_⟩
    · rw [ack]
      exact checked_eq_ok.mpr ⟨by rw [not_or, UInt64.not_le]; exact valid.1, rfl⟩
    · rw [epoch, numbered, first, next, valid.2]
      simp only [List.append_assoc]
  split at read
  · rename_i error
    obtain ⟨producerEpoch, _, epoch, read⟩ := bind_reads read
    obtain ⟨sequence, _, numbered, read⟩ := bind_reads read
    obtain ⟨raw, _, tagged, read⟩ := bind_reads read
    obtain ⟨code, _, decoded, read⟩ := bind_reads read
    obtain ⟨diagnostic, _, spelled, read⟩ := bind_reads read
    obtain ⟨_, _, valid, read⟩ := bind_reads read
    obtain ⟨message, _, text, read⟩ := bind_reads read
    rw [readU32_eq_ok] at epoch
    rw [readU64_eq_ok] at numbered
    rw [readU8_eq_ok] at tagged
    rw [lift_eq_ok] at decoded text
    obtain ⟨small, spelled⟩ := readBytes_eq_ok spelled
    rw [require_eq_ok, decide_eq_true_iff] at valid
    obtain ⟨valid, checked⟩ := valid
    obtain ⟨text, last⟩ := text
    cases read
    have bytes : utf8 message = diagnostic := by
      unfold decodeDiagnostic at text
      split at text
      · rename_i found
        cases text
        exact fromUtf8_eq_some.mp found
      · cases text
    unfold maxFrameBytes at small
    refine ⟨putU32 producerEpoch ++ (putU64 sequence ++ ([raw] ++ lenPrefixed diagnostic)), ?_, ?_⟩
    · rw [error, ← ProducerWireErrorCode.raw_of_decode decoded.1, ← bytes]
      rw [← bytes] at valid small
      refine checked_eq_ok.mpr ⟨by rw [not_or, Nat.not_lt]; exact valid, ?_⟩
      exact bind_eq_ok.mpr ⟨_, pushLenPrefixed_eq_ok.mpr ⟨by omega, rfl⟩, rfl⟩
    · rw [epoch, numbered, tagged, decoded.2, spelled, checked, last]
      simp only [List.append_assoc, List.cons_append, List.nil_append]
  split at read
  · rename_i close
    cases read
    exact ⟨[], by rw [close]; rfl, rfl⟩
  · cases read

theorem encode_decodeProducerWireFrame {frame : ProducerWireFrame} {bytes : Bytes}
    (decoded : decodeProducerWireFrame bytes = .ok frame) :
    encodeProducerWireFrame frame = .ok bytes := by
  obtain ⟨long, decoded⟩ := checked_eq_ok.mp decoded
  obtain ⟨length, decoded⟩ := checked_eq_ok.mp decoded
  obtain ⟨⟨found, unread⟩, read, decoded⟩ := bind_eq_ok.mp decoded
  obtain ⟨empty, decoded⟩ := checked_eq_ok.mp decoded
  cases decoded
  obtain rfl : unread = [] := by simpa using empty
  obtain ⟨start, _, taken, read⟩ := bind_reads read
  obtain ⟨_, _, known, read⟩ := bind_reads read
  obtain ⟨kind, _, tagged, read⟩ := bind_reads read
  rw [take_eq_ok] at taken
  rw [require_eq_ok, decide_eq_true_iff] at known
  rw [readU8_eq_ok] at tagged
  obtain ⟨fields, encoded, split⟩ := readFields_eq_ok read
  have body : bytes.drop 4 = magic ++ ([kind] ++ fields) := by
    rw [taken.2, known.1, known.2, tagged, split, List.append_nil]
    rfl
  rw [not_or, Nat.not_lt, not_not] at length
  have width : (bytes.drop 4).length = bigEndianValue (bytes.take 4) := by
    rw [List.length_drop]
    omega
  refine bind_eq_ok.mpr ⟨_, encoded, checked_eq_ok.mpr ⟨?_, ?_⟩⟩
  · rw [← body, width]
    omega
  · have front : (bytes.take 4).length = 4 := List.length_take_of_le (by omega)
    have number : putU32 (UInt32.ofNat (bytes.drop 4).length) = bytes.take 4 := by
      have small := bigEndianValue_lt (bytes.take 4)
      have spelled := bigEndian_bigEndianValue (bytes.take 4)
      rw [front] at small spelled
      rw [width, putU32, toNat_u32OfNat small, spelled]
    show Except.ok (lenPrefixed _) = _
    rw [← body, lenPrefixed, number, List.take_append_drop]

/-- A read that gets as much as it asks for leaves the rest of the stream, in whatever pieces. -/
theorem readExact_flatten {stream : Fragments} (alive : ∀ fragment ∈ stream, fragment ≠ [])
    {front back : Bytes} (split : stream.flatten = front ++ back) :
    ∃ left, readExact stream front.length = some (front, left) ∧ left.flatten = back ∧
      ∀ fragment ∈ left, fragment ≠ [] := by
  induction stream generalizing front with
  | nil =>
      obtain ⟨rfl, rfl⟩ := List.append_eq_nil_iff.mp split.symm
      exact ⟨[], rfl, rfl, alive⟩
  | cons fragment rest ih =>
      unfold readExact
      by_cases none : front.length = 0
      · obtain rfl := List.length_eq_zero_iff.mp none
        exact ⟨fragment :: rest, if_pos none, split, alive⟩
      rw [if_neg none, if_neg (alive fragment List.mem_cons_self)]
      rw [List.flatten_cons] at split
      have others := fun piece member => alive piece (List.mem_cons_of_mem fragment member)
      by_cases inside : front.length < fragment.length
      · have taken : fragment.take front.length = front := by
          have both := congrArg (List.take front.length) split
          rwa [List.take_append_of_le_length (by omega), List.take_left] at both
        have dropped : fragment.drop front.length ++ rest.flatten = back := by
          have both := congrArg (List.drop front.length) split
          rwa [List.drop_append_of_le_length (by omega), List.drop_left] at both
        rw [if_pos inside, taken]
        refine ⟨_, rfl, dropped, ?_⟩
        intro piece member
        rcases List.mem_cons.mp member with rfl | member
        · apply List.ne_nil_of_length_pos
          rw [List.length_drop]
          omega
        · exact others piece member
      · obtain ⟨more, rfl, tail⟩ : ∃ more, front = fragment ++ more ∧
          rest.flatten = more ++ back := by
          rcases List.append_eq_append_iff.mp split with ⟨more, whole, tail⟩ | ⟨more, whole, tail⟩
          · exact ⟨more, whole, tail⟩
          · have lengths := congrArg List.length whole
            rw [List.length_append] at lengths
            obtain rfl : more = [] := List.length_eq_zero_iff.mp (by omega)
            rw [List.append_nil] at whole
            exact ⟨[], by rw [whole, List.append_nil], tail.symm⟩
        obtain ⟨left, read, remaining, alive⟩ := ih others tail
        rw [if_neg inside, List.length_append, Nat.add_sub_cancel_left, read]
        exact ⟨left, rfl, remaining, alive⟩

/-- The next frame is read off the stream, wherever it is cut. -/
theorem readFrame_encoded {frame : ProducerWireFrame} {bytes back : Bytes} {stream : Fragments}
    (encoded : encodeProducerWireFrame frame = .ok bytes)
    (alive : ∀ fragment ∈ stream, fragment ≠ []) (split : stream.flatten = bytes ++ back) :
    ∃ left, readFrame stream = .ok (some (frame, left)) ∧ left.flatten = back ∧
      ∀ fragment ∈ left, fragment ≠ [] := by
  have decoded := decode_encodeProducerWireFrame encoded
  obtain ⟨long, checked⟩ := checked_eq_ok.mp decoded
  obtain ⟨length, -⟩ := checked_eq_ok.mp checked
  rw [not_or, Nat.not_lt, not_not] at length
  have front : (bytes.take 4).length = 4 := List.length_take_of_le (by omega)
  have width : (bytes.drop 4).length = bigEndianValue (bytes.take 4) := by
    rw [List.length_drop]
    omega
  rw [← List.take_append_drop 4 bytes, List.append_assoc] at split
  obtain ⟨middle, started, split, alive⟩ := readExact_flatten alive split
  obtain ⟨left, ended, remaining, alive⟩ := readExact_flatten alive split
  rw [front] at started
  rw [width] at ended
  refine ⟨left, ?_, remaining, alive⟩
  unfold readFrame
  rw [started]
  refine checked_eq_ok.mpr ⟨by omega, ?_⟩
  rw [ended]
  refine bind_eq_ok.mpr ⟨frame, ?_, rfl⟩
  rw [List.take_append_drop, decoded]
  rfl

theorem readFrames_encoded {written : List (ProducerWireFrame × Bytes)}
    (encoded : ∀ item ∈ written, encodeProducerWireFrame item.1 = .ok item.2) {stream : Fragments}
    (alive : ∀ fragment ∈ stream, fragment ≠ [])
    (split : stream.flatten = written.flatMap Prod.snd) {fuel : Nat}
    (enough : stream.flatten.length < fuel) :
    readFrames fuel stream = .ok (written.map Prod.fst) := by
  induction written generalizing stream fuel with
  | nil =>
      obtain ⟨left, rfl⟩ : ∃ left, fuel = left + 1 := ⟨fuel - 1, by omega⟩
      obtain rfl : stream = [] := by
        cases stream with
        | nil => rfl
        | cons fragment rest =>
            exact absurd (List.append_eq_nil_iff.mp split).1 (alive fragment List.mem_cons_self)
      rfl
  | cons item later ih =>
      obtain ⟨left, rfl⟩ : ∃ left, fuel = left + 1 := ⟨fuel - 1, by omega⟩
      have first := encoded item List.mem_cons_self
      rw [List.flatMap_cons] at split
      obtain ⟨rest, read, remaining, others⟩ := readFrame_encoded first alive split
      have some_byte : 4 ≤ item.2.length := by
        obtain ⟨long, -⟩ := checked_eq_ok.mp (decode_encodeProducerWireFrame first)
        omega
      rw [split, List.length_append] at enough
      have following := @ih (fun other member => encoded other (List.mem_cons_of_mem _ member)) rest
        others remaining left (by rw [remaining]; omega)
      refine bind_eq_ok.mpr ⟨_, read, ?_⟩
      exact bind_eq_ok.mpr ⟨_, following, rfl⟩

/-- The codec of Producer Wire is exact in both directions, and a stream of encodings is split into
its frames in whatever pieces it arrives. -/
theorem producerWire_exact :
    (∀ frame bytes, encodeProducerWireFrame frame = .ok bytes →
      decodeProducerWireFrame bytes = .ok frame) ∧
    (∀ bytes frame, decodeProducerWireFrame bytes = .ok frame →
      encodeProducerWireFrame frame = .ok bytes) ∧
    (∀ (written : List (ProducerWireFrame × Bytes)) (stream : Fragments),
      (∀ item ∈ written, encodeProducerWireFrame item.1 = .ok item.2) →
      (∀ fragment ∈ stream, fragment ≠ []) → stream.flatten = written.flatMap Prod.snd →
      splitStream stream = .ok (written.map Prod.fst)) := by
  refine ⟨fun _ _ => decode_encodeProducerWireFrame, fun _ _ => encode_decodeProducerWireFrame, ?_⟩
  intro written stream encoded alive split
  exact readFrames_encoded encoded alive split (Nat.lt_succ_self _)

/-- An error report and a close, delivered byte by byte. -/
theorem producerWire_exact_bytewise :
    let report := ProducerWireFrame.error 1 7 .backpressure "full"
    ∃ first second, encodeProducerWireFrame report = .ok first ∧
      decodeProducerWireFrame first = .ok report ∧
      encodeProducerWireFrame .close = .ok second ∧
      splitStream ((first ++ second).map fun byte => [byte]) = .ok [report, .close] := by
  intro report
  obtain ⟨decodes, encodes, splits⟩ := producerWire_exact
  obtain ⟨first, firstWritten⟩ : ∃ bytes, encodeProducerWireFrame report = .ok bytes := ⟨_, rfl⟩
  obtain ⟨second, secondWritten⟩ : ∃ bytes, encodeProducerWireFrame .close = .ok bytes := ⟨_, rfl⟩
  refine ⟨first, second, encodes _ _ (decodes _ _ firstWritten), decodes _ _ firstWritten,
    secondWritten, ?_⟩
  refine splits [(report, first), (.close, second)] _ ?_ ?_ ?_
  · simp [firstWritten, secondWritten]
  · intro fragment member
    obtain ⟨byte, -, rfl⟩ := List.mem_map.mp member
    exact List.cons_ne_nil _ _
  · rw [← List.flatMap_def, List.flatMap_singleton', List.flatMap_cons, List.flatMap_singleton]

end Scripture.Producer
