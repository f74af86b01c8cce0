import Scripture.Spool.Storage

set_option autoImplicit false

/- What a scan makes of a segment that was cut anywhere, and when it tells a corruption from a
cut. -/
namespace Scripture.Spool

open ByteFormat AppendLog

/-- Frames and their bytes, written one behind another. -/
def bytesOf (written : List (SpoolFrame × Bytes)) : Bytes := written.flatMap Prod.snd

/-- Where they lie. -/
def layout (offset : Nat) : List (SpoolFrame × Bytes) → List ValidFrame
  | [] => []
  | (frame, piece) :: rest => ⟨offset, piece.length, frame⟩ :: layout (offset + piece.length) rest

/-- What lies behind the last whole frame of the first `cut` bytes. -/
def cutTail (offset cut : Nat) : List (SpoolFrame × Bytes) → ScanTail
  | [] => .cleanEof
  | (_, piece) :: rest =>
      if piece.length ≤ cut then cutTail (offset + piece.length) (cut - piece.length) rest
      else if cut = 0 then .cleanEof
      else .tornTerminal offset cut

theorem layout_offset_le {offset : Nat} {written : List (SpoolFrame × Bytes)} {placed : ValidFrame}
    (member : placed ∈ layout offset written) : offset ≤ placed.offset := by
  induction written generalizing offset with
  | nil => cases member
  | cons item rest ih =>
      cases member with
      | head => exact Nat.le_refl _
      | tail _ member =>
          have later := ih member
          omega

theorem cutTail_zero (offset : Nat) (written : List (SpoolFrame × Bytes)) :
    cutTail offset 0 written = .cleanEof := by
  induction written generalizing offset with
  | nil => rfl
  | cons item rest ih =>
      unfold cutTail
      rw [Nat.zero_sub, ih, if_pos rfl]
      split <;> rfl

/-- The frames in front of the cut do not matter. -/
theorem cutTail_append (offset inside : Nat) (front back : List (SpoolFrame × Bytes)) :
    cutTail offset ((bytesOf front).length + inside) (front ++ back) =
      cutTail (offset + (bytesOf front).length) inside back := by
  induction front generalizing offset with
  | nil =>
      show cutTail offset (0 + inside) back = cutTail (offset + 0) inside back
      rw [Nat.zero_add, Nat.add_zero]
  | cons item rest ih =>
      have length : (bytesOf (item :: rest)).length = item.2.length + (bytesOf rest).length := by
        rw [bytesOf, List.flatMap_cons, List.length_append]
        rfl
      have whole : item.2.length ≤ (bytesOf (item :: rest)).length + inside := by omega
      have remaining : (bytesOf (item :: rest)).length + inside - item.2.length =
          (bytesOf rest).length + inside := by omega
      rw [List.cons_append, cutTail, if_pos whole, remaining, ih, length, Nat.add_assoc]

section cut

variable [Digests]

/-- The scan of a cut segment. -/
theorem scanFrom_take {written : List (SpoolFrame × Bytes)}
    (encoded : ∀ item ∈ written, encodeFrame item.1 = .ok item.2) (cut offset fuel : Nat)
    (enough : ((bytesOf written).take cut).length ≤ fuel) :
    scanFrom fuel offset ((bytesOf written).take cut) =
      ((layout offset written).filter fun placed =>
        placed.offset + placed.encodedLen ≤ offset + cut, cutTail offset cut written) := by
  induction written generalizing cut offset fuel with
  | nil =>
      rw [bytesOf, List.flatMap_nil, List.take_nil]
      exact scanFrom_torn (Or.inl rfl : Torn Spells [] []) fuel offset (Nat.zero_le _)
  | cons item rest ih =>
      obtain ⟨frame, piece⟩ := item
      have spelled : Spells frame piece := encodeFrame_spells (encoded _ List.mem_cons_self)
      have others : ∀ item ∈ rest, encodeFrame item.1 = .ok item.2 :=
        fun item member => encoded item (List.mem_cons_of_mem _ member)
      have bytes : bytesOf ((frame, piece) :: rest) = piece ++ bytesOf rest := rfl
      rw [bytes, List.take_append] at enough ⊢
      rw [layout, cutTail]
      by_cases whole : piece.length ≤ cut
      · have some_byte := spelled.nonempty
        rw [List.take_of_length_le whole] at enough ⊢
        rw [List.length_append] at enough
        obtain ⟨left, rfl⟩ : ∃ left, fuel = left + 1 := ⟨fuel - 1, by omega⟩
        have threshold : offset + piece.length + (cut - piece.length) = offset + cut := by omega
        rw [scanFrom_append spelled, ih others _ (offset + piece.length) left (by omega),
          if_pos whole, threshold, List.filter_cons_of_pos (by simpa using whole)]
      · have none : List.take (cut - piece.length) (bytesOf rest) = [] := by
          rw [Nat.sub_eq_zero_of_le (by omega), List.take_zero]
        have torn : Torn Spells [frame] (piece.take cut) := by
          refine Or.inr ⟨frame, [], piece, piece.drop cut, rfl, spelled, ?_, ?_⟩
          · intro empty
            have length := congrArg List.length empty
            rw [List.length_drop, List.length_nil] at length
            omega
          · exact (List.take_append_drop cut piece).symm
        have width : (piece.take cut).length = cut := by
          rw [List.length_take]
          omega
        rw [none, List.append_nil] at enough ⊢
        rw [scanFrom_torn torn fuel offset enough, if_neg whole, width]
        have nothing : (⟨offset, piece.length, frame⟩ :: layout (offset + piece.length) rest).filter
            (fun placed : ValidFrame => placed.offset + placed.encodedLen ≤ offset + cut) = [] := by
          rw [List.filter_eq_nil_iff]
          intro placed member
          have beyond : offset + cut < placed.offset + placed.encodedLen := by
            cases member with
            | head =>
                show offset + cut < offset + piece.length
                omega
            | tail _ member =>
                have later := layout_offset_le member
                omega
          simpa using beyond
        have empty : piece.take cut = [] ↔ cut = 0 := by
          rw [← List.length_eq_zero_iff, width]
        rw [nothing]
        simp only [empty]

/-- A scan of a cut segment finds the frames that lie wholly before the cut, where they were
written. The tail is clean at a boundary between frames, and else a tear at the start of the frame
that was cut. -/
theorem scanBytes_take (written : List (SpoolFrame × Bytes))
    (encoded : ∀ item ∈ written, encodeFrame item.1 = .ok item.2) (cut : Nat) :
    let scan := scanBytes ((bytesOf written).take cut)
    scan.1 = (layout 0 written).filter
        (fun placed => placed.offset + placed.encodedLen ≤ cut) ∧
      (∀ front back, written = front ++ back → cut = (bytesOf front).length →
        scan.2 = .cleanEof) ∧
      (∀ front frame piece back inside, written = front ++ (frame, piece) :: back →
        cut = (bytesOf front).length + inside → 0 < inside → inside < piece.length →
        scan.2 = .tornTerminal (bytesOf front).length inside) := by
  intro scan
  have scanned : scan = _ := scanFrom_take encoded cut 0 _ (Nat.le_refl _)
  rw [scanned]
  refine ⟨?_, ?_, ?_⟩
  · rw [Nat.zero_add]
  · rintro front back rfl rfl
    have tail := cutTail_append 0 0 front back
    rw [Nat.add_zero, Nat.zero_add, cutTail_zero] at tail
    exact tail
  · rintro front frame piece back inside rfl rfl positive short
    have tail := cutTail_append 0 inside front ((frame, piece) :: back)
    rw [Nat.zero_add, cutTail, if_neg (by omega), if_neg (by omega)] at tail
    exact tail

end cut

def sampleMark (sequence : UInt64) : SpoolFrame :=
  .progress (progressIdentity sampleJournal (oneRecord 1 sequence))

/-- Two progress frames, cut three bytes before the end. -/
theorem scanBytes_take_pair : ∃ _ : Digests, ∃ first second,
    encodeFrame (sampleMark 0) = .ok first ∧ encodeFrame (sampleMark 1) = .ok second ∧
      scanBytes ((bytesOf [(sampleMark 0, first), (sampleMark 1, second)]).take 113) =
        ([⟨0, 58, sampleMark 0⟩], .tornTerminal 58 55) := by
  let digests := sampleDigests
  obtain ⟨first, firstWritten, firstLength⟩ : ∃ bytes, encodeFrame (sampleMark 0) = .ok bytes ∧
    bytes.length = 58 := ⟨_, rfl, rfl⟩
  obtain ⟨second, secondWritten, secondLength⟩ : ∃ bytes, encodeFrame (sampleMark 1) = .ok bytes ∧
    bytes.length = 58 := ⟨_, rfl, rfl⟩
  refine ⟨digests, first, second, firstWritten, secondWritten, ?_⟩
  have alone : (bytesOf [(sampleMark 0, first)]).length = 58 := by
    rw [bytesOf, List.flatMap_singleton]
    exact firstLength
  obtain ⟨found, -, torn⟩ := scanBytes_take [(sampleMark 0, first), (sampleMark 1, second)]
    (by simp [firstWritten, secondWritten]) 113
  have tail := torn [(sampleMark 0, first)] (sampleMark 1) second [] 55 rfl (by rw [alone])
    (by decide) (by omega)
  rw [alone] at tail
  refine Prod.ext ?_ tail
  rw [found]
  simp [layout, firstLength, secondLength]

/-- Where a scan stopped before the end. -/
def ScanTail.offset? : ScanTail → Option Nat
  | .cleanEof => none
  | .tornTerminal offset _ => some offset
  | .corruptMiddle offset => some offset

theorem stopTail_offset? (offset : Nat) (bytes : Bytes) (error : SpoolFrameError) :
    (stopTail offset bytes error).offset? = some offset := by
  unfold stopTail
  split <;> rfl

section classification

variable [Digests]

/-- A region that is complete and not the last is a corruption; a tear is in the last region. -/
def Classified (bytes : Bytes) : Prop :=
  ∀ offset ∈ (scanBytes bytes).2.offset?,
    let rest := bytes.drop offset
    (4 ≤ rest.length → claimedLen rest < rest.length →
      (scanBytes bytes).2 = .corruptMiddle offset) ∧
    (∀ residual, (scanBytes bytes).2 = .tornTerminal offset residual →
      rest.length < 4 ∨ rest.length ≤ claimedLen rest)

/-- The scan classifies what it stops at exactly if no region behind whole frames, complete and with
more bytes behind it, decodes as truncated. -/
theorem scanBytes_classified_iff (bytes : Bytes) :
    Classified bytes ↔ ∀ frames kept rest, bytes = kept ++ rest → Laid Spells frames kept →
      4 ≤ rest.length → claimedLen rest < rest.length →
      decodeFrame rest ≠ .error .truncated := by
  constructor
  · rintro classified frames kept rest rfl laid long followed truncated
    obtain ⟨left, enough, -, tail⟩ :=
      scanFrom_laid laid rest (kept ++ rest).length 0 (by rw [List.length_append])
    obtain ⟨fuel, rfl⟩ : ∃ fuel, left = fuel + 1 := ⟨left - 1, by omega⟩
    have present : rest ≠ [] := List.ne_nil_of_length_pos (by omega)
    have stopped : (scanBytes (kept ++ rest)).2 = .tornTerminal kept.length rest.length := by
      rw [scanFrom, if_neg present, truncated, Nat.zero_add] at tail
      exact tail.trans (if_neg fun corrupt => corrupt.2.2 rfl)
    have corrupt := (classified kept.length (by rw [stopped]; rfl)).1
    rw [List.drop_left, stopped] at corrupt
    cases corrupt long followed
  · intro sound offset stoppedAt rest
    obtain ⟨kept, left, split, laid, stops⟩ := @scanFrom_stops _ _ 0 bytes (Nat.le_refl _)
    rcases stops with ⟨-, clean⟩ | ⟨error, failed, stopped⟩
    · rw [scanBytes, clean] at stoppedAt
      cases stoppedAt
    · have tail : (scanBytes bytes).2 = stopTail kept.length left error := by
        rw [Nat.zero_add] at stopped
        exact stopped
      rw [tail, stopTail_offset?] at stoppedAt
      obtain rfl : kept.length = offset := Option.some.inj stoppedAt
      have remaining : rest = left := by
        show bytes.drop kept.length = left
        rw [split, List.drop_left]
      have other : 4 ≤ left.length → claimedLen left < left.length → error ≠ .truncated := by
        intro long followed same
        rw [same] at failed
        exact sound _ kept left split laid long followed failed
      rw [remaining, tail]
      constructor
      · intro long followed
        exact if_pos ⟨long, followed, other long followed⟩
      · intro residual torn
        by_contra inside
        rw [not_or, Nat.not_lt, Nat.not_le] at inside
        rw [stopTail, if_pos ⟨inside.1, inside.2, other inside.1 inside.2⟩] at torn
        cases torn

end classification

/-- An empty body with a byte behind it is taken for a tear. -/
theorem scanBytes_misclassified : ∃ _ : Digests, ¬ Classified [0, 0, 0, 0, 1] := by
  let digests := sampleDigests
  refine ⟨digests, ?_⟩
  intro classified
  have corrupt := (classified 0 rfl).1 (by decide) (by decide)
  exact absurd corrupt (by decide)

end Scripture.Spool
