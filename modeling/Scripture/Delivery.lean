import Scripture.Consume
import Scripture.Driver.Lives

set_option autoImplicit false

/- From a producer's receipt to a consumer's lines: what a reader of the log sees of the submissions
that its owners acknowledged. -/
namespace Scripture

open ByteFormat Consume

section Delivery

variable [Digests] {store : BlobStore} {journal : JournalId} {cohort : CohortId} {ceiling : UInt64}
  {log : List Bytes} {view : List Chunk} {stop : Nat} {chain : List Life}

/-- What is stored in a tiled log is among its records, at its offset. -/
theorem Tiled.located (tiled : Tiled journal cohort ceiling store log view stop) {slot : Nat}
    {chunkId : ChunkId} {identity : Identity} {first : RecordOffset} {slice : List Record}
    (stored : Stored store log journal slot chunkId identity first slice) :
    ∃ front back, view.flatMap Chunk.records = front ++ (slice ++ back) ∧
      front.length = first.toNat := by
  obtain ⟨header, frame, ⟨bytes, ⟨payload, sets, logged, resolved, member⟩, decoded⟩, -, -,
    ⟨span, -, -, place, cut⟩, -⟩ := stored
  obtain ⟨chunk, listed, held⟩ := forall₂_mem tiled.holds (List.mem_of_getElem? logged)
  obtain ⟨found, again, made⟩ := held.resolved
  cases resolved.symm.trans again
  cases made with
  | cons sealedAs none =>
      cases none
      rw [List.mem_singleton.mp member] at decoded
      cases sealedAs.decoded.symm.trans decoded
      obtain ⟨before, after, rfl⟩ := List.append_of_mem listed
      obtain ⟨middle, chained, base, -⟩ := adjoining_append.mp tiled.chained
      obtain ⟨-, front, back, split, start⟩ := submissionRecords_eq_some cut
      refine ⟨before.flatMap Chunk.records ++ front, back ++ after.flatMap Chunk.records, ?_, ?_⟩
      · rw [List.flatMap_append, List.flatMap_cons, Chunk.records_sole, split]
        simp only [List.append_assoc]
      · have length := chained.length
        rw [Chunk.base_sole] at base
        rw [List.length_append, start, place]
        omega

/-- A consumer that reads the log from its first entry after any number of lives prints the records
of the chunks in it, each once, under the offsets from zero on. For every receipt that one of the
drivers released, the lines at its offsets are those of the submission that it answers. -/
theorem lives_consumed (lives : Lives journal cohort chain ceiling store log)
    {options : ConsumeOptions} {observations : List (Except String (List Generation))}
    (observes : Observes options log observations) (start : options.start = 0)
    (unlimited : options.untilRecords = none) :
    ∃ view printed summary,
      List.Forall₂ (fun payload chunk => Holds store payload [chunk]) log view ∧
      runConsume store options observations = .ok (printed, summary) ∧
      printed.map Printed.content = offsetted 0 (view.flatMap Chunk.records) ∧
      ∀ life ∈ chain, ∀ ticket receipt, .receipt ticket (.ok receipt) ∈ life.driver.sent →
        ∃ submission slice, life.driver.offered[ticket]? = some submission ∧
          canonicalRecordsDigest slice = canonicalRecordsDigest submission.records ∧
          receipt.nextOffset.toNat = receipt.firstOffset.toNat + slice.length ∧
          ((printed.drop receipt.firstOffset.toNat).take slice.length).map Printed.content =
            offsetted receipt.firstOffset.toNat slice := by
  obtain ⟨⟨view, stop, tiled, -⟩, sound⟩ := lives.kept
  have holds : List.Forall₂ (Holds store) log (view.map fun chunk => [chunk]) :=
    List.forall₂_map_right_iff.mpr tiled.holds
  obtain ⟨summary, ran, -⟩ := runConsume_eq holds options observes
  rw [start, unlimited, List.drop_zero, deliver_none] at ran
  have content : (groups (view.map fun chunk => [chunk])).flatten.map Printed.content =
      offsetted 0 (view.flatMap Chunk.records) := by
    have made : ∀ chunks ∈ view.map (fun chunk => [chunk]), ∀ chunk ∈ chunks,
        ∃ bytes, SealedAs bytes chunk := by
      intro chunks listed
      obtain ⟨payload, -, held⟩ := forall₂_mem holds.flip listed
      exact Holds.made held
    rw [List.map_flatten, groups_content made, ← chained_contents tiled.chained, List.map_map,
      ← List.flatMap_def]
    exact List.flatMap_congr fun chunk _ => List.flatMap_singleton _ _
  refine ⟨view, _, summary, tiled.holds, ran, content, ?_⟩
  intro life member ticket receipt released
  obtain ⟨submission, offered, -, slice, stored, next, digest⟩ :=
    sound life member ticket receipt released
  obtain ⟨front, back, split, length⟩ := tiled.located stored
  refine ⟨submission, slice, offered, digest, next, ?_⟩
  rw [List.map_take, List.map_drop, content, split, offsetted_append,
    offsetted_append, Nat.zero_add,
    List.drop_left' (by rw [offsetted_length, length]),
      List.take_left' (offsetted_length _ _), length]

omit [Digests] in
/-- The lines of the record that the first of two owners acknowledged. -/
theorem lives_consumed_retried : ∃ (_ : Digests) (driver : Driver) (printed : List Printed)
    (summary : ConsumeSummary) (receipt : Receipt) (slice : List Record),
    driver.writer.log.length = 3 ∧ Message.receipt 0 (.ok receipt) ∈ lostLife.sent ∧
    runConsume driver.store sampleOptions [.ok [⟨"loglet", 0, driver.writer.log⟩]] =
      .ok (printed, summary) ∧
    receipt.nextOffset.toNat = receipt.firstOffset.toNat + slice.length ∧
    ((printed.drop receipt.firstOffset.toNat).take slice.length).map Printed.content =
      offsetted receipt.firstOffset.toNat slice := by
  obtain ⟨driver, receipt, three, released, lives⟩ := retried_lives
  obtain ⟨-, printed, summary, -, ran, -, delivered⟩ :=
    @lives_consumed valueDigests _ _ _ _ _ _ lives
    _ _ (sample_observes driver.writer.log) rfl rfl
  obtain ⟨-, slice, -, -, next, lines⟩ :=
    delivered _ List.mem_cons_self 0 receipt released
  exact ⟨valueDigests, driver, printed, summary, receipt, slice, three, released, ran, next,
    lines⟩

end Delivery

end Scripture
