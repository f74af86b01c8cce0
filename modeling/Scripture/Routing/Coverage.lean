import Scripture.Routing.Producer

set_option autoImplicit false

/- Which endpoints a send tries. Its attempts fall into laps: within a lap no endpoint is tried
twice, and a lap ends only when every candidate of that moment has been tried in it. -/
namespace Scripture.Routing

namespace Sending

variable {sending : Sending}

variable {candidate : RankedCandidate}

/-- The candidate that is chosen has not been tried, or all have been and the count begins anew. -/
theorem nextCandidate_eq_some
    (chosen : sending.producer.route.candidates[sending.nextCandidate]? = some candidate) :
    candidate.endpoint ∉ sending.spare ∧ (sending.spare = sending.tried ∨ sending.spare = [] ∧
      ∀ other ∈ sending.producer.route.candidates, other.endpoint ∈ sending.tried) := by
  by_cases all : ∀ other ∈ sending.producer.route.candidates, other.endpoint ∈ sending.tried
  · have empty : sending.spare = [] := if_pos (by simpa using all)
    exact ⟨by simp [empty], .inr ⟨empty, all⟩⟩
  · have kept : sending.spare = sending.tried := if_neg (by simpa using all)
    refine ⟨?_, .inl kept⟩
    push Not at all
    obtain ⟨other, listed, fresh⟩ := all
    unfold nextCandidate at chosen
    cases found : sending.producer.route.candidates.findIdx? fun candidate =>
        candidate.endpoint ∉ sending.spare with
    | none =>
        have none := List.findIdx?_eq_none_iff.mp found other listed
        rw [kept] at none
        simp [fresh] at none
    | some place =>
        rw [found] at chosen
        obtain ⟨inside, holds, -⟩ := List.findIdx?_eq_some_iff_getElem.mp found
        rw [Option.getD_some, List.getElem?_eq_getElem inside, Option.some.injEq] at chosen
        rw [← chosen]
        simpa using holds

theorem choose_tried
    (chosen : sending.producer.route.candidates[sending.nextCandidate]? = some candidate) :
    (sending.choose candidate.endpoint).tried = sending.spare ++ [candidate.endpoint] :=
  if_neg (nextCandidate_eq_some chosen).1

/-- A failure leaves the candidates as they were, or puts the named endpoint before them, or
replaces them by what the source has answered. -/
theorem onFailure_candidates (failure : AttemptFailure)
    (resolved : Except ProducerRoutingError ProducerRoute) :
    let after := (sending.onFailure failure resolved).producer.route
    after = sending.producer.route ∨ resolved = .ok after ∨
      ∃ detail hint, failure = .deposedWriter detail ∧ redirectFromErrLine detail = some hint ∧
        after.endpoints = hint :: sending.producer.route.endpoints := by
  have refreshed (failed : Sending) (same : failed.producer = sending.producer) :
      (failed.refresh resolved).producer.route = sending.producer.route ∨
        resolved = .ok (failed.refresh resolved).producer.route := by
    unfold refresh RoutingProducer.refreshRoute
    cases resolved with
    | ok route => exact .inr rfl
    | error error => exact .inl (congrArg RoutingProducer.route same)
  unfold onFailure
  dsimp only
  split
  · rename_i detail
    split
    · rename_i hint named
      split
      · exact .inr (.inr ⟨detail, hint, rfl, named, rfl⟩)
      · exact (refreshed _ rfl).imp id .inl
    · exact (refreshed _ rfl).imp id .inl
  · exact (refreshed _ rfl).imp id .inl

end Sending

/-- From one attempt up to another each endpoint is tried once, and by then every candidate has
been. -/
def Lap (attempts : List Attempt) (start stop : Nat) : Prop :=
  (((attempts.take stop).drop start).map Attempt.endpoint).Nodup ∧
    ∃ next, attempts[stop]? = some next ∧ ∀ candidate ∈ next.candidates,
      candidate.endpoint ∈ ((attempts.take stop).drop start).map Attempt.endpoint

/-- The attempts so far, and those of the lap that has not ended. -/
inductive Laps : List Attempt → List Attempt → Prop where
  | start : Laps [] []
  | more {attempts lap : List Attempt} (attempt : Attempt) (laps : Laps attempts lap)
      (fresh : attempt.endpoint ∉ lap.map Attempt.endpoint) :
      Laps (attempts ++ [attempt]) (lap ++ [attempt])
  | turn {attempts lap : List Attempt} (attempt : Attempt) (laps : Laps attempts lap)
      (covered : ∀ candidate ∈ attempt.candidates,
        candidate.endpoint ∈ lap.map Attempt.endpoint) :
      Laps (attempts ++ [attempt]) [attempt]

variable {attempts : List Attempt}

theorem Lap.append {start stop : Nat} (lap : Lap attempts start stop) (more : List Attempt) :
    Lap (attempts ++ more) start stop := by
  obtain ⟨distinct, next, found, covered⟩ := lap
  have inside := (List.getElem?_eq_some_iff.mp found).1
  unfold Lap
  rw [List.take_append_of_le_length inside.le, List.getElem?_append_left inside]
  exact ⟨distinct, next, found, covered⟩

/-- An attempt is of a lap that has ended, or of the last. -/
theorem Laps.split {lap : List Attempt} (laps : Laps attempts lap) :
    (lap.map Attempt.endpoint).Nodup ∧ ∃ earlier, attempts = earlier ++ lap ∧
      ∀ index < earlier.length, ∃ start stop, start ≤ index ∧ index < stop ∧
        Lap attempts start stop := by
  induction laps with
  | start => exact ⟨List.nodup_nil, [], rfl, by simp⟩
  | @more attempts lap attempt laps fresh ih =>
      obtain ⟨distinct, earlier, rfl, ended⟩ := ih
      refine ⟨?_, earlier, List.append_assoc _ _ _, ?_⟩
      · rw [List.map_append, List.map_singleton, ← List.concat_eq_append]
        exact distinct.concat fresh
      · intro index inside
        obtain ⟨start, stop, after, before, lap⟩ := ended index inside
        exact ⟨start, stop, after, before, lap.append _⟩
  | @turn attempts lap attempt laps covered ih =>
      obtain ⟨distinct, earlier, rfl, ended⟩ := ih
      refine ⟨List.nodup_singleton _, earlier ++ lap, rfl, ?_⟩
      intro index inside
      by_cases old : index < earlier.length
      · obtain ⟨start, stop, after, before, lap⟩ := ended index old
        exact ⟨start, stop, after, before, lap.append _⟩
      · refine ⟨earlier.length, (earlier ++ lap).length, not_lt.mp old, inside, ?_⟩
        unfold Lap
        rw [List.take_left, List.drop_left, List.getElem?_concat_length]
        exact ⟨distinct, attempt, rfl, covered⟩

theorem endpoint_inj (distinct : (attempts.map Attempt.endpoint).Nodup) {left right : Nat}
    {first second : Attempt} (one : attempts[left]? = some first)
    (two : attempts[right]? = some second) (same : first.endpoint = second.endpoint) :
    left = right := by
  have inside := (List.getElem?_eq_some_iff.mp one).1
  refine (List.getElem?_inj (by simpa using inside) distinct).mp ?_
  rw [List.getElem?_map, List.getElem?_map, one, two, Option.map_some, Option.map_some, same]

/-- Between two attempts at one endpoint a lap has ended. -/
theorem Laps.repeated {lap : List Attempt} (laps : Laps attempts lap) {left right : Nat}
    {first second : Attempt} (order : left < right) (one : attempts[left]? = some first)
    (two : attempts[right]? = some second) (same : first.endpoint = second.endpoint) :
    ∃ start stop, start ≤ left ∧ left < stop ∧ stop ≤ right ∧ Lap attempts start stop := by
  obtain ⟨distinct, earlier, whole, ended⟩ := laps.split
  by_cases old : left < earlier.length
  · obtain ⟨start, stop, after, before, lap⟩ := ended left old
    refine ⟨start, stop, after, before, ?_, lap⟩
    by_contra inside
    have oneIn : ((attempts.take stop).drop start)[left - start]? = some first := by
      rw [List.getElem?_drop, List.getElem?_take, if_pos (by omega), ← one]
      congr 1
      omega
    have twoIn : ((attempts.take stop).drop start)[right - start]? = some second := by
      rw [List.getElem?_drop, List.getElem?_take, if_pos (by omega), ← two]
      congr 1
      omega
    have := endpoint_inj lap.1 oneIn twoIn same
    omega
  · rw [whole, List.getElem?_append_right (by omega)] at one two
    have := endpoint_inj distinct one two same
    omega

/-- The candidates cannot run out: there are some now, and every route the source answers has
some. -/
def Stocked (sending : Sending) (rounds : List Round) : Prop :=
  sending.producer.route.candidates ≠ [] ∧
    ∀ round ∈ rounds, ∀ route, round.resolved = .ok route → route.candidates ≠ []

theorem Stocked.failed {sending : Sending} {round : Round} {rest : List Round}
    (stocked : Stocked sending (round :: rest)) (endpoint : String) (failure : AttemptFailure) :
    Stocked ((sending.choose endpoint).onFailure failure round.resolved) rest := by
  obtain ⟨current, later⟩ := stocked
  refine ⟨?_, fun other member => later other (List.mem_cons_of_mem _ member)⟩
  rcases (sending.choose endpoint).onFailure_candidates failure round.resolved with
    same | replaced | ⟨detail, hint, -, -, headed⟩
  · rw [same]
    exact current
  · exact later round List.mem_cons_self _ replaced
  · intro empty
    rw [ProducerRoute.endpoints, empty] at headed
    cases headed

section

variable (debug : String → String) (recordId : RecordId) (maxAttempts : Nat)

/-- One more attempt goes on with the lap, or begins the next. -/
theorem Laps.attempt {sending : Sending} {candidate : RankedCandidate} {attempts lap : List Attempt}
    (chosen : sending.producer.route.candidates[sending.nextCandidate]? = some candidate)
    (laps : Laps attempts lap) (tried : sending.tried = lap.map Attempt.endpoint)
    (exchange : Exchange) :
    ∃ now, Laps (attempts ++ [⟨sending.producer.route.candidates, candidate.endpoint, exchange⟩])
        now ∧ (sending.choose candidate.endpoint).tried = now.map Attempt.endpoint := by
  rw [Sending.choose_tried chosen]
  obtain ⟨fresh, kept | ⟨empty, all⟩⟩ := Sending.nextCandidate_eq_some chosen
  · rw [kept, tried] at fresh
    exact ⟨_, .more _ laps fresh, by simp [kept, tried]⟩
  · rw [tried] at all
    exact ⟨_, .turn _ laps all, by simp [empty]⟩

end

end Scripture.Routing
