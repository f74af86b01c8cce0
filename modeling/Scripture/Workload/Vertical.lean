import Scripture.Model

set_option autoImplicit false

/- The verifier that compares what the producer sent, what Canon holds and what the Parquet files
hold. Its maps by offset are related to the entries of the three inputs one offset at a time. -/
namespace Scripture.Workload

open ByteFormat

/-- Offset-aligned source digest. -/
structure SourceOffsetDigest where
  offset : Nat
  digest : String
  deriving DecidableEq, Repr

/-- What the verifier reads of a Parquet summary. -/
structure ParquetOutputSummary where
  bindingEpoch : Nat
  rowCount : Nat
  sourceOffsetDigests : List SourceOffsetDigest
  firstOffset : Nat
  nextOffset : Nat
  deriving DecidableEq, Repr

/-- Three-way equality over the covered frontier. -/
structure VerticalVerifyReport where
  verdict : String
  producerDigests : List String
  canonDigests : List String
  parquetDigests : List String
  notes : List String
  deriving DecidableEq, Repr

def failReport (note : String) : VerticalVerifyReport :=
  { verdict := "fail", producerDigests := [], canonDigests := [], parquetDigests := [],
    notes := [note] }

/-- Hex digest of opaque payload bytes. -/
def payloadDigest [Digests] (payload : Bytes) : String :=
  String.join ((Digests.blake3 payload).val.map hexByte)

section Maps

variable {α : Type} (offset : α → Nat) (digest : α → String) (duplicate : Nat → String)
  (first next : Nat)

/-- The loop of both map builders, from the map of the items before. -/
def digestMap : List α → OrderedMap Nat String → Except String (OrderedMap Nat String)
  | [], map => .ok map
  | item :: rest, map =>
      if first ≤ offset item ∧ offset item < next then
        if (map.find? (offset item)).isSome then .error (duplicate (offset item))
        else digestMap rest (map.insert (offset item) (digest item))
      else digestMap rest map

/-- The digests that the items have at an offset. -/
def digestsAt (items : List α) (wanted : Nat) : List String :=
  (items.filter fun item => offset item = wanted).map digest

theorem digestsAt_cons (item : α) (rest : List α) (wanted : Nat) :
    digestsAt offset digest (item :: rest) wanted =
      (if offset item = wanted then [digest item] else []) ++
        digestsAt offset digest rest wanted := by
  by_cases same : offset item = wanted
  · simp [digestsAt, same]
  · simp [digestsAt, same]

/-- A map holds at each offset what the items have there; the builder fails only when an offset of
the interval comes twice. -/
theorem digestMap_spec (items : List α) (map : OrderedMap Nat String) :
    match digestMap offset digest duplicate first next items map with
    | .ok built => ∀ wanted, (built.find? wanted).toList = (map.find? wanted).toList ++
        if first ≤ wanted ∧ wanted < next then digestsAt offset digest items wanted else []
    | .error _ => ∃ wanted, (first ≤ wanted ∧ wanted < next) ∧
        2 ≤ ((map.find? wanted).toList ++ digestsAt offset digest items wanted).length := by
  induction items generalizing map with
  | nil =>
      intro wanted
      simp [digestsAt]
  | cons item rest ih =>
      rw [digestMap]
      by_cases inside : first ≤ offset item ∧ offset item < next
      · rw [if_pos inside]
        cases held : map.find? (offset item) with
        | some earlier =>
            refine ⟨offset item, inside, ?_⟩
            rw [held, digestsAt_cons, if_pos rfl]
            simp
        | none =>
            have built := ih (map.insert (offset item) (digest item))
            -- The lookup after the insertion is the lookup before, and the item.
            have inserted : ∀ wanted,
                ((map.insert (offset item) (digest item)).find? wanted).toList =
                  (map.find? wanted).toList ++
                    if offset item = wanted then [digest item] else [] := by
              intro wanted
              rw [OrderedMap.find?_insert]
              by_cases same : wanted = offset item
              · rw [same, if_pos rfl, if_pos rfl, held]
                rfl
              · rw [if_neg same, if_neg (Ne.symm same), List.append_nil]
            simp only [Option.isSome_none, Bool.false_eq_true, if_false]
            split at built
            · intro wanted
              rw [built wanted, inserted, digestsAt_cons]
              by_cases within : first ≤ wanted ∧ wanted < next
              · simp only [if_pos within, List.append_assoc]
              · have other : offset item ≠ wanted := fun same => within (same ▸ inside)
                simp only [if_neg within, if_neg other, List.append_nil]
            · obtain ⟨wanted, within, twice⟩ := built
              refine ⟨wanted, within, ?_⟩
              rw [inserted, List.append_assoc] at twice
              rw [digestsAt_cons]
              exact twice
      · rw [if_neg inside]
        have built := ih map
        have skipped : ∀ wanted, first ≤ wanted ∧ wanted < next →
            digestsAt offset digest (item :: rest) wanted =
              digestsAt offset digest rest wanted := by
          intro wanted within
          have other : offset item ≠ wanted := fun same => inside (same ▸ within)
          rw [digestsAt_cons, if_neg other, List.nil_append]
        split at built
        · intro wanted
          rw [built wanted]
          by_cases within : first ≤ wanted ∧ wanted < next
          · rw [if_pos within, if_pos within, skipped wanted within]
          · rw [if_neg within, if_neg within]
        · obtain ⟨wanted, within, twice⟩ := built
          refine ⟨wanted, within, ?_⟩
          rw [skipped wanted within]
          exact twice

/-- Items outside the interval are passed over. -/
theorem digestMap_filter (items : List α) (map : OrderedMap Nat String) :
    digestMap offset digest duplicate first next
        (items.filter fun item => first ≤ offset item ∧ offset item < next) map =
      digestMap offset digest duplicate first next items map := by
  induction items generalizing map with
  | nil => rfl
  | cons item rest ih =>
      by_cases inside : first ≤ offset item ∧ offset item < next
      · rw [List.filter_cons_of_pos (by simpa using inside), digestMap, digestMap, if_pos inside,
          if_pos inside, ih]
      · rw [List.filter_cons_of_neg (by simpa using inside), digestMap, if_neg inside]
        exact ih map

end Maps

def offsetDigestMap [Digests] (payloads : List (Nat × Bytes)) (first next : Nat) :
    Except String (OrderedMap Nat String) :=
  digestMap Prod.fst (fun entry => payloadDigest entry.2)
    (fun offset => s!"duplicate offset {offset} in payload stream") first next payloads .empty

def parquetOffsetDigestMap (summary : ParquetOutputSummary) (first next : Nat) :
    Except String (OrderedMap Nat String) :=
  digestMap SourceOffsetDigest.offset SourceOffsetDigest.digest
    (fun offset => s!"duplicate offset {offset} in parquet source_offset_digests") first next
    summary.sourceOffsetDigests .empty

/-- A span of 64 bits fits a `usize`. -/
def coversIntervalExactlyOnce (map : OrderedMap Nat String) (first next : Nat) : Bool :=
  if next < first then false
  else if map.entries.length ≠ next - first then false
  else (List.range' first (next - first)).all fun offset => (map.find? offset).isSome

def orderedDigests (map : OrderedMap Nat String) : List String := map.entries.map Prod.snd

/-- What is found wrong with three maps. -/
def verticalNotes (producerMap canonMap parquetMap : OrderedMap Nat String)
    (summary : ParquetOutputSummary) (frontier : Nat) : List String :=
  let first := summary.firstOffset
  let next := summary.nextOffset
  (if producerMap ≠ canonMap then
    ["producer digests ≠ Canon digests over covered offsets"] else []) ++
  (if canonMap ≠ parquetMap then
    ["Canon digests ≠ Parquet source_digest offsets over covered interval"] else []) ++
  (if !coversIntervalExactlyOnce producerMap first next then
    [s!"producer offsets do not cover [{first}, {next}) exactly once"] else []) ++
  (if !coversIntervalExactlyOnce canonMap first next then
    [s!"Canon offsets do not cover [{first}, {next}) exactly once"] else []) ++
  (if !coversIntervalExactlyOnce parquetMap first next then
    [s!"Parquet offsets do not cover [{first}, {next}) exactly once"] else []) ++
  (if next ≠ frontier then
    [s!"parquet chain next_offset {next} != register frontier {frontier}"] else []) ++
  (if (orderedDigests parquetMap).length ≠ summary.rowCount then
    ["parquet row_count does not match source_digest length"] else []) ++
  (if summary.bindingEpoch = 0 then ["binding_epoch must be nonzero"] else [])

/-- Verifies producer → Canon → Parquet digest equality over the covered interval. -/
def verifyVerticalEquality [Digests] (producerPayloads canonPayloads : List (Nat × Bytes))
    (summary : ParquetOutputSummary) (frontier : Nat) : VerticalVerifyReport :=
  let first := summary.firstOffset
  let next := summary.nextOffset
  match offsetDigestMap producerPayloads first next with
  | .error note => failReport note
  | .ok producerMap =>
  match offsetDigestMap canonPayloads first next with
  | .error note => failReport note
  | .ok canonMap =>
  match parquetOffsetDigestMap summary first next with
  | .error note => failReport note
  | .ok parquetMap =>
      let notes := verticalNotes producerMap canonMap parquetMap summary frontier
      let equal := notes.isEmpty
      { verdict := if equal then "pass" else "fail"
        producerDigests := orderedDigests producerMap
        canonDigests := orderedDigests canonMap
        parquetDigests := orderedDigests parquetMap
        notes := if equal then
            [s!"producer ≡ Canon ≡ Parquet over covered offsets [{first}, {next})",
              "register/manifest chain covers the covered interval exactly once (no prefix LIST)"]
          else notes }

variable {summary : ParquetOutputSummary}

theorem verticalNotes_eq_nil {producerMap canonMap parquetMap : OrderedMap Nat String}
    {frontier : Nat} :
    verticalNotes producerMap canonMap parquetMap summary frontier = [] ↔
      producerMap = canonMap ∧ canonMap = parquetMap ∧
      coversIntervalExactlyOnce parquetMap summary.firstOffset summary.nextOffset = true ∧
      summary.nextOffset = frontier ∧ parquetMap.entries.length = summary.rowCount ∧
      summary.bindingEpoch ≠ 0 := by
  have quiet : ∀ (wrong : Prop) [Decidable wrong] (note : String),
      (if wrong then [note] else []) = [] ↔ ¬wrong := by
    intro wrong _ note
    split <;> simp_all
  simp only [verticalNotes, List.append_eq_nil_iff, quiet, orderedDigests, List.length_map,
    Bool.not_eq_true', Bool.not_eq_false, ne_eq, not_not]
  constructor
  · intro checks
    exact ⟨checks.1.1.1.1.1.1.1, checks.1.1.1.1.1.1.2, checks.1.1.1.2, checks.1.1.2, checks.1.2,
      checks.2⟩
  · rintro ⟨rfl, rfl, covered, reached, rows, epoch⟩
    exact ⟨⟨⟨⟨⟨⟨⟨rfl, rfl⟩, covered⟩, covered⟩, covered⟩, reached⟩, rows⟩, epoch⟩

/-- The offsets of a map that holds an interval and nothing else. -/
theorem entries_length_of_interval {map : OrderedMap Nat String} {first next : Nat}
    (keys : ∀ offset, (map.find? offset).isSome ↔ first ≤ offset ∧ offset < next) :
    map.entries.length = next - first := by
  have distinct : (map.entries.map Prod.fst).Nodup :=
    List.pairwise_map.mpr (map.sorted.imp fun below => ne_of_lt below)
  have members : ∀ offset,
      offset ∈ map.entries.map Prod.fst ↔ offset ∈ List.range' first (next - first) := by
    intro offset
    rw [List.mem_range'_1]
    have held : offset ∈ map.entries.map Prod.fst ↔ (map.find? offset).isSome := by
      simp only [List.mem_map, Option.isSome_iff_exists, OrderedMap.find?_eq_some, Prod.exists,
        exists_and_right, exists_eq_right]
    rw [held, keys]
    omega
  have permuted := (List.perm_ext_iff_of_nodup distinct List.nodup_range').mpr members
  simpa using permuted.length_eq

/-- A map of offsets of the interval covers it as soon as each of them is there. -/
theorem coversIntervalExactlyOnce_iff {map : OrderedMap Nat String} {first next : Nat}
    (inside : ∀ offset, (map.find? offset).isSome → first ≤ offset ∧ offset < next) :
    coversIntervalExactlyOnce map first next = true ↔
      first ≤ next ∧ ∀ offset, first ≤ offset ∧ offset < next → (map.find? offset).isSome := by
  unfold coversIntervalExactlyOnce
  by_cases backwards : next < first
  · simp [backwards]
  · rw [if_neg backwards]
    constructor
    · intro covered
      split at covered
      · cases covered
      · refine ⟨by omega, fun offset within => ?_⟩
        exact List.all_eq_true.mp covered offset (List.mem_range'_1.mpr (by omega))
    · rintro ⟨-, present⟩
      rw [if_neg (not_not.mpr (entries_length_of_interval fun offset =>
        ⟨inside offset, present offset⟩)), List.all_eq_true]
      intro offset member
      rw [List.mem_range'_1] at member
      exact present offset (by omega)

/-- The three inputs at one offset: each has it once, with the digest of the producer's payload. -/
def AgreesAt [Digests] (producerPayloads canonPayloads : List (Nat × Bytes))
    (summary : ParquetOutputSummary) (offset : Nat) : Prop :=
  ∃ payload held,
    producerPayloads.filter (fun entry => entry.1 = offset) = [(offset, payload)] ∧
    canonPayloads.filter (fun entry => entry.1 = offset) = [(offset, held)] ∧
    payloadDigest held = payloadDigest payload ∧
    summary.sourceOffsetDigests.filter (fun item => item.offset = offset) =
      [⟨offset, payloadDigest payload⟩]

theorem agreesAt_iff [Digests] {producerPayloads canonPayloads : List (Nat × Bytes)}
    {offset : Nat} :
    AgreesAt producerPayloads canonPayloads summary offset ↔
      ∃ digest,
        digestsAt Prod.fst (fun entry => payloadDigest entry.2) producerPayloads offset =
          [digest] ∧
        digestsAt Prod.fst (fun entry => payloadDigest entry.2) canonPayloads offset = [digest] ∧
        digestsAt SourceOffsetDigest.offset SourceOffsetDigest.digest
          summary.sourceOffsetDigests offset = [digest] := by
  -- The only entry a filter leaves has the offset asked for.
  have offsets : ∀ {α : Type} {key : α → Nat} {items : List α} {item : α},
      items.filter (fun item => key item = offset) = [item] → key item = offset := by
    intro α key items item only
    have member : item ∈ items.filter fun item => key item = offset := by simp [only]
    simpa using (List.mem_filter.mp member).2
  constructor
  · rintro ⟨payload, held, producer, canon, same, parquet⟩
    exact ⟨payloadDigest payload, by simp [digestsAt, producer], by simp [digestsAt, canon, same],
      by simp [digestsAt, parquet]⟩
  · rintro ⟨digest, producer, canon, parquet⟩
    obtain ⟨⟨_, payload⟩, sent, rfl⟩ := List.map_eq_singleton_iff.mp producer
    obtain ⟨⟨_, held⟩, kept, same⟩ := List.map_eq_singleton_iff.mp canon
    obtain ⟨⟨_, _⟩, written, rfl⟩ := List.map_eq_singleton_iff.mp parquet
    cases offsets sent
    cases offsets kept
    cases offsets written
    exact ⟨payload, held, sent, kept, same, written⟩

/-- The map built of an input from nothing: what it holds when it is built, and that it is built
when no offset of the interval comes twice. -/
theorem digestMap_empty {α : Type} (offset : α → Nat) (digest : α → String)
    (duplicate : Nat → String) (first next : Nat) (items : List α) :
    (∀ built, digestMap offset digest duplicate first next items .empty = .ok built →
      ∀ wanted, (built.find? wanted).toList =
        if first ≤ wanted ∧ wanted < next then digestsAt offset digest items wanted else []) ∧
    ((∀ wanted, first ≤ wanted ∧ wanted < next →
        (digestsAt offset digest items wanted).length ≤ 1) →
      ∃ built, digestMap offset digest duplicate first next items .empty = .ok built) := by
  have spec := digestMap_spec offset digest duplicate first next items .empty
  constructor
  · intro built result
    rw [result] at spec
    simpa using spec
  · intro once
    cases result : digestMap offset digest duplicate first next items .empty with
    | ok built => exact ⟨built, rfl⟩
    | error note =>
        rw [result] at spec
        obtain ⟨wanted, within, twice⟩ := spec
        have few := once wanted within
        simp only [OrderedMap.find?_empty, Option.toList_none, List.nil_append] at twice
        omega

theorem keys_inside {map : OrderedMap Nat String} {first next : Nat} {digests : Nat → List String}
    (lookups : ∀ wanted, (map.find? wanted).toList =
      if first ≤ wanted ∧ wanted < next then digests wanted else []) (offset : Nat)
    (held : (map.find? offset).isSome) : first ≤ offset ∧ offset < next := by
  by_contra outside
  have nothing := lookups offset
  rw [if_neg outside, Option.toList_eq_nil_iff] at nothing
  rw [nothing] at held
  cases held

/-- Maps built of inputs with the same digests are the same. -/
theorem map_eq_of_lookups {left right : OrderedMap Nat String} {first next : Nat}
    {digests others : Nat → List String}
    (leftAt : ∀ wanted, (left.find? wanted).toList =
      if first ≤ wanted ∧ wanted < next then digests wanted else [])
    (rightAt : ∀ wanted, (right.find? wanted).toList =
      if first ≤ wanted ∧ wanted < next then others wanted else [])
    (same : ∀ wanted, first ≤ wanted ∧ wanted < next → digests wanted = others wanted) :
    left = right := by
  have lookups : ∀ wanted, left.find? wanted = right.find? wanted := by
    intro wanted
    have lists : (left.find? wanted).toList = (right.find? wanted).toList := by
      rw [leftAt, rightAt]
      split
      · exact same wanted ‹_›
      · rfl
    simpa using congrArg List.head? lists
  have entries : left.entries = right.entries :=
    OrderedMap.eq_of_sorted left.sorted right.sorted fun entry => by
      rw [← OrderedMap.find?_eq_some, ← OrderedMap.find?_eq_some, lookups]
  cases left
  cases right
  cases entries
  rfl

/-- The verdict is `pass` when the three maps are built and nothing is found wrong with them. -/
theorem verdict_pass_iff [Digests] {producerPayloads canonPayloads : List (Nat × Bytes)}
    {frontier : Nat} :
    (verifyVerticalEquality producerPayloads canonPayloads summary frontier).verdict = "pass" ↔
      ∃ producerMap canonMap parquetMap,
        offsetDigestMap producerPayloads summary.firstOffset summary.nextOffset =
          .ok producerMap ∧
        offsetDigestMap canonPayloads summary.firstOffset summary.nextOffset = .ok canonMap ∧
        parquetOffsetDigestMap summary summary.firstOffset summary.nextOffset = .ok parquetMap ∧
        verticalNotes producerMap canonMap parquetMap summary frontier = [] := by
  simp only [verifyVerticalEquality]
  cases offsetDigestMap producerPayloads summary.firstOffset summary.nextOffset with
  | error note => simp [failReport]
  | ok producerMap =>
  cases offsetDigestMap canonPayloads summary.firstOffset summary.nextOffset with
  | error note => simp [failReport]
  | ok canonMap =>
  cases parquetOffsetDigestMap summary summary.firstOffset summary.nextOffset with
  | error note => simp [failReport]
  | ok parquetMap =>
      cases verticalNotes producerMap canonMap parquetMap summary frontier with
      | nil => simp
      | cons note notes => simp

/-- The verifier passes exactly the inputs that agree at every offset of the interval, up to the
frontier, with as many rows as offsets and a binding epoch; entries outside the interval do not
change its report. -/
theorem verifyVerticalEquality_pass_iff [Digests]
    (producerPayloads canonPayloads : List (Nat × Bytes)) (summary : ParquetOutputSummary)
    (frontier : Nat) :
    ((verifyVerticalEquality producerPayloads canonPayloads summary frontier).verdict = "pass" ↔
      summary.nextOffset = frontier ∧ summary.firstOffset ≤ summary.nextOffset ∧
      summary.bindingEpoch ≠ 0 ∧
      summary.rowCount = summary.nextOffset - summary.firstOffset ∧
      ∀ offset, summary.firstOffset ≤ offset ∧ offset < summary.nextOffset →
        AgreesAt producerPayloads canonPayloads summary offset) ∧
    verifyVerticalEquality
        (producerPayloads.filter fun entry =>
          summary.firstOffset ≤ entry.1 ∧ entry.1 < summary.nextOffset)
        (canonPayloads.filter fun entry =>
          summary.firstOffset ≤ entry.1 ∧ entry.1 < summary.nextOffset)
        { summary with sourceOffsetDigests := summary.sourceOffsetDigests.filter fun item =>
            summary.firstOffset ≤ item.offset ∧ item.offset < summary.nextOffset }
        frontier =
      verifyVerticalEquality producerPayloads canonPayloads summary frontier := by
  constructor
  · rw [verdict_pass_iff]
    simp only [agreesAt_iff]
    constructor
    · rintro ⟨producerMap, canonMap, parquetMap, producer, canon, parquet, notes⟩
      have producerAt := (digestMap_empty _ _ _ _ _ _).1 _ producer
      have canonAt := (digestMap_empty _ _ _ _ _ _).1 _ canon
      have parquetAt := (digestMap_empty _ _ _ _ _ _).1 _ parquet
      obtain ⟨rfl, rfl, covered, reached, rows, epoch⟩ := verticalNotes_eq_nil.mp notes
      have inside := keys_inside producerAt
      obtain ⟨ordered, present⟩ := (coversIntervalExactlyOnce_iff inside).mp covered
      have length := entries_length_of_interval fun offset => ⟨inside offset, present offset⟩
      refine ⟨reached, ordered, epoch, by omega, fun offset within => ?_⟩
      obtain ⟨digest, found⟩ := Option.isSome_iff_exists.mp (present offset within)
      have first := producerAt offset
      have second := canonAt offset
      have third := parquetAt offset
      rw [found, if_pos within] at first second third
      exact ⟨digest, first.symm, second.symm, third.symm⟩
    · rintro ⟨reached, ordered, epoch, rows, agree⟩
      have once : ∀ {α : Type} {key : α → Nat} {digest : α → String} {items : List α} {offset},
          (∃ only, digestsAt key digest items offset = [only]) →
            (digestsAt key digest items offset).length ≤ 1 := by
        rintro α key digest items offset ⟨only, single⟩
        simp [single]
      obtain ⟨producerMap, producer⟩ := (digestMap_empty _ _ _ _ _ _).2 fun offset within =>
        once ((agree offset within).imp fun _ digests => digests.1)
      obtain ⟨canonMap, canon⟩ := (digestMap_empty _ _ _ _ _ _).2 fun offset within =>
        once ((agree offset within).imp fun _ digests => digests.2.1)
      obtain ⟨parquetMap, parquet⟩ := (digestMap_empty _ _ _ _ _ _).2 fun offset within =>
        once ((agree offset within).imp fun _ digests => digests.2.2)
      have producerAt := (digestMap_empty _ _ _ _ _ _).1 _ producer
      have canonAt := (digestMap_empty _ _ _ _ _ _).1 _ canon
      have parquetAt := (digestMap_empty _ _ _ _ _ _).1 _ parquet
      have sameCanon : producerMap = canonMap := map_eq_of_lookups producerAt canonAt
        fun offset within => by
          obtain ⟨digest, first, second, -⟩ := agree offset within
          rw [first, second]
      have sameParquet : canonMap = parquetMap := map_eq_of_lookups canonAt parquetAt
        fun offset within => by
          obtain ⟨digest, -, second, third⟩ := agree offset within
          rw [second, third]
      have inside := keys_inside parquetAt
      have present : ∀ offset, summary.firstOffset ≤ offset ∧ offset < summary.nextOffset →
          (parquetMap.find? offset).isSome := by
        intro offset within
        obtain ⟨digest, -, -, third⟩ := agree offset within
        have lookup := parquetAt offset
        rw [if_pos within, third, Option.toList_eq_singleton_iff] at lookup
        simp [lookup]
      have length := entries_length_of_interval fun offset => ⟨inside offset, present offset⟩
      refine ⟨producerMap, canonMap, parquetMap, producer, canon, parquet,
        verticalNotes_eq_nil.mpr ⟨sameCanon, sameParquet, ?_, reached, by omega, epoch⟩⟩
      exact (coversIntervalExactlyOnce_iff inside).mpr ⟨ordered, present⟩
  · simp only [verifyVerticalEquality, offsetDigestMap, parquetOffsetDigestMap, digestMap_filter]
    rfl

end Scripture.Workload
