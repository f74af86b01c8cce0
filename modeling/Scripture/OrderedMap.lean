import Mathlib

set_option autoImplicit false

/- Finite maps as lists in key order, each key once: what an iteration over the map yields. -/
structure OrderedMap (κ ν : Type) [LinearOrder κ] where
  entries : List (κ × ν)
  sorted : entries.Pairwise fun left right => left.1 < right.1

namespace OrderedMap

/-- The order of a numbering. It decides equality as the type does. -/
@[reducible] def orderOfRank {α : Type} [DecidableEq α] (rank : α → Nat)
    (injective : Function.Injective rank) : LinearOrder α where
  le left right := rank left ≤ rank right
  le_refl _ := Nat.le_refl _
  le_trans _ _ _ := Nat.le_trans
  le_antisymm _ _ below above := injective (Nat.le_antisymm below above)
  le_total _ _ := Nat.le_total _ _
  toDecidableLE left right := inferInstanceAs (Decidable (rank left ≤ rank right))
  toDecidableEq := inferInstance

variable {κ ν : Type} [LinearOrder κ]

instance [DecidableEq ν] : DecidableEq (OrderedMap κ ν) := fun left right =>
  decidable_of_iff (left.entries = right.entries) (by
    cases left
    cases right
    simp)

def empty : OrderedMap κ ν := ⟨[], List.Pairwise.nil⟩

def insertEntry (key : κ) (value : ν) : List (κ × ν) → List (κ × ν)
  | [] => [(key, value)]
  | (other, held) :: rest =>
      if key < other then (key, value) :: (other, held) :: rest
      else if key = other then (key, value) :: rest
      else (other, held) :: insertEntry key value rest

theorem mem_insertEntry {key : κ} {value : ν} {entries : List (κ × ν)} {entry : κ × ν}
    (member : entry ∈ insertEntry key value entries) :
    entry = (key, value) ∨ entry ∈ entries := by
  induction entries with
  | nil => simpa [insertEntry] using member
  | cons head rest ih =>
      obtain ⟨other, held⟩ := head
      unfold insertEntry at member
      split at member
      · simpa using member
      · split at member
        · rcases List.mem_cons.mp member with same | old
          · exact Or.inl same
          · exact Or.inr (List.mem_cons_of_mem _ old)
        · rcases List.mem_cons.mp member with same | old
          · exact Or.inr (by simp [same])
          · rcases ih old with same | kept
            · exact Or.inl same
            · exact Or.inr (List.mem_cons_of_mem _ kept)

theorem insertEntry_sorted (key : κ) (value : ν) (entries : List (κ × ν))
    (sorted : entries.Pairwise fun left right => left.1 < right.1) :
    (insertEntry key value entries).Pairwise fun left right => left.1 < right.1 := by
  induction entries with
  | nil => simp [insertEntry]
  | cons head rest ih =>
      obtain ⟨other, held⟩ := head
      rw [List.pairwise_cons] at sorted
      unfold insertEntry
      split
      · rename_i below
        refine List.pairwise_cons.mpr ⟨?_, List.pairwise_cons.mpr sorted⟩
        intro entry member
        rcases List.mem_cons.mp member with rfl | old
        · exact below
        · exact lt_trans below (sorted.1 entry old)
      · split
        · rename_i same
          subst same
          exact List.pairwise_cons.mpr sorted
        · rename_i above distinct
          refine List.pairwise_cons.mpr ⟨?_, ih sorted.2⟩
          intro entry member
          rcases mem_insertEntry member with rfl | old
          · exact lt_of_le_of_ne (not_lt.mp above) (Ne.symm distinct)
          · exact sorted.1 entry old

def insert (map : OrderedMap κ ν) (key : κ) (value : ν) : OrderedMap κ ν :=
  ⟨insertEntry key value map.entries, insertEntry_sorted key value map.entries map.sorted⟩

def find? (map : OrderedMap κ ν) (key : κ) : Option ν :=
  (map.entries.find? fun entry => entry.1 = key).map Prod.snd

/-- The entry of the greatest key. -/
def last? (map : OrderedMap κ ν) : Option (κ × ν) := map.entries.getLast?

@[simp] theorem find?_empty (key : κ) : (empty : OrderedMap κ ν).find? key = none := rfl

theorem find?_eq_some {map : OrderedMap κ ν} {key : κ} {value : ν} :
    map.find? key = some value ↔ (key, value) ∈ map.entries := by
  obtain ⟨entries, sorted⟩ := map
  show (entries.find? fun entry => entry.1 = key).map Prod.snd = some value ↔ (key, value) ∈ entries
  induction entries with
  | nil => simp
  | cons head rest ih =>
      obtain ⟨other, held⟩ := head
      rw [List.pairwise_cons] at sorted
      have later := ih sorted.2
      by_cases same : other = key
      · subst same
        have absent : (other, value) ∉ rest := fun member =>
          lt_irrefl other (sorted.1 (other, value) member)
        simp [absent, eq_comm]
      · have distinct : key ≠ other := fun equal => same equal.symm
        simpa [same, distinct] using later

theorem last?_eq_none {map : OrderedMap κ ν} (absent : map.last? = none) (key : κ) :
    map.find? key = none := by
  rw [last?, List.getLast?_eq_none_iff] at absent
  rw [find?, absent]
  rfl

theorem last?_eq_some {map : OrderedMap κ ν} {key : κ} {value : ν}
    (last : map.last? = some (key, value)) :
    map.find? key = some value ∧ ∀ other held, map.find? other = some held → other ≤ key := by
  obtain ⟨earlier, entries⟩ := List.getLast?_eq_some_iff.mp last
  have sorted := map.sorted
  rw [entries, List.pairwise_append] at sorted
  constructor
  · rw [find?_eq_some, entries]
    exact List.mem_append_right _ (List.mem_singleton.mpr rfl)
  · intro other held found
    rw [find?_eq_some, entries] at found
    rcases List.mem_append.mp found with before | same
    · exact le_of_lt (sorted.2.2 (other, held) before (key, value) (List.mem_singleton.mpr rfl))
    · rw [(Prod.mk.inj (List.mem_singleton.mp same)).1]

theorem find?_insert (map : OrderedMap κ ν) (key : κ) (value : ν) (other : κ) :
    (map.insert key value).find? other = if other = key then some value else map.find? other := by
  obtain ⟨entries, sorted⟩ := map
  show ((insertEntry key value entries).find? fun entry => entry.1 = other).map Prod.snd =
    if other = key then some value else (entries.find? fun entry => entry.1 = other).map Prod.snd
  induction entries with
  | nil =>
      by_cases same : other = key
      · simp [insertEntry, same]
      · simp [insertEntry, same, Ne.symm same]
  | cons head rest ih =>
      obtain ⟨first, held⟩ := head
      have later := ih (List.pairwise_cons.mp sorted).2
      unfold insertEntry
      split
      · by_cases same : other = key
        · simp [same]
        · simp [same, Ne.symm same]
      · split
        · rename_i equal
          subst equal
          by_cases same : other = key
          · simp [same]
          · simp [same, Ne.symm same]
        · rename_i distinct
          by_cases same : first = other
          · subst same
            simp [Ne.symm distinct]
          · simpa [same] using later

/-- Lists in key order with the same entries are the same. -/
theorem eq_of_sorted {left right : List (κ × ν)}
    (first : left.Pairwise fun left right => left.1 < right.1)
    (second : right.Pairwise fun left right => left.1 < right.1)
    (members : ∀ entry, entry ∈ left ↔ entry ∈ right) : left = right := by
  have unique : ∀ entries : List (κ × ν),
      (entries.Pairwise fun left right => left.1 < right.1) → entries.Nodup :=
    fun entries sorted => sorted.imp fun below equal => (ne_of_lt below) (congrArg Prod.fst equal)
  have permuted := (List.perm_ext_iff_of_nodup (unique _ first) (unique _ second)).mpr members
  exact permuted.eq_of_pairwise
    (fun _ _ _ _ below above => absurd below (lt_asymm above)) first second

theorem entries_insert_of_above {map : OrderedMap κ ν} {key : κ} (value : ν)
    (above : ∀ entry ∈ map.entries, entry.1 < key) :
    (map.insert key value).entries = map.entries ++ [(key, value)] := by
  obtain ⟨entries, sorted⟩ := map
  show insertEntry key value entries = entries ++ [(key, value)]
  induction entries with
  | nil => rfl
  | cons head rest ih =>
      obtain ⟨other, held⟩ := head
      have greater : other < key := above (other, held) (by simp)
      have remaining := ih (List.pairwise_cons.mp sorted).2
        fun entry member => above entry (List.mem_cons_of_mem _ member)
      simp only [insertEntry, not_lt_of_gt greater, ne_of_gt greater, ↓reduceIte, remaining,
        List.cons_append]

/-- How an insertion changes the number of entries of a kind: the old value under the key leaves and
the new one comes. -/
theorem countP_insert (map : OrderedMap κ ν) (key : κ) (value : ν) (kind : κ × ν → Bool) :
    (map.insert key value).entries.countP kind +
        ((map.find? key).toList.map (Prod.mk key)).countP kind =
      map.entries.countP kind + [(key, value)].countP kind := by
  obtain ⟨entries, sorted⟩ := map
  show (insertEntry key value entries).countP kind +
      (((entries.find? fun entry => entry.1 = key).map Prod.snd).toList.map
        (Prod.mk key)).countP kind = entries.countP kind + [(key, value)].countP kind
  induction entries with
  | nil => simp [insertEntry]
  | cons head rest ih =>
      obtain ⟨other, held⟩ := head
      have later := ih (List.pairwise_cons.mp sorted).2
      unfold insertEntry
      split
      · rename_i below
        have absent : ((other, held) :: rest).find? (fun entry => entry.1 = key) = none := by
          rw [List.find?_eq_none]
          intro entry member same
          have same : entry.1 = key := by simpa using same
          rcases List.mem_cons.mp member with rfl | old
          · exact ne_of_gt below same
          · exact ne_of_gt (lt_trans below ((List.pairwise_cons.mp sorted).1 entry old)) same
        rw [absent]
        simp only [List.countP_cons, Option.map_none, Option.toList_none, List.map_nil,
          List.countP_nil]
        omega
      · split
        · rename_i same
          subst same
          simp only [List.countP_cons, List.find?_cons, decide_true, Option.map_some,
            Option.toList_some, List.map_cons, List.map_nil, List.countP_nil]
          omega
        · rename_i distinct
          have skipped : decide (other = key) = false := decide_eq_false (Ne.symm distinct)
          simp only [List.countP_cons, List.find?_cons, skipped] at later ⊢
          omega

end OrderedMap
