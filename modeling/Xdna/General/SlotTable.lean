import Mathlib.Data.Set.Card
import Mathlib.Logic.Function.Basic

/-!
# Finite maps stored in slots

A table with a fixed number of slots, each free or holding a key and a value, stands
for a finite map as long as no key is stored twice. Taking a free slot for a fresh key,
freeing a slot and changing the value in a slot are insertion, removal and update of the
map, and the map has as many entries as there are slots in use.
-/

namespace SlotTable

variable {ι K V : Type*} {t : ι → Option (K × V)} {i : ι} {k : K} {v : V}

/-- No key is stored twice. -/
def Distinct (t : ι → Option (K × V)) : Prop :=
  ∀ ⦃i j k v w⦄, t i = some (k, v) → t j = some (k, w) → i = j

open Classical in
/-- The map that the table stands for. -/
noncomputable def contents (t : ι → Option (K × V)) (k : K) : Option V :=
  if h : ∃ v i, t i = some (k, v) then some h.choose else none

/-- A key has the value that some slot stores for it. -/
theorem Distinct.contents_eq_some (h : Distinct t) :
    contents t k = some v ↔ ∃ i, t i = some (k, v) := by
  unfold contents
  constructor
  · intro hsome
    split at hsome
    · rename_i hex
      rw [← Option.some.inj hsome]
      exact hex.choose_spec
    · cases hsome
  · rintro ⟨i, hi⟩
    have hex : ∃ v i, t i = some (k, v) := ⟨v, i, hi⟩
    obtain ⟨j, hj⟩ := hex.choose_spec
    rw [dif_pos hex, Option.some.injEq]
    have heq := hj
    rw [← h hi hj, hi] at heq
    exact (Prod.ext_iff.mp (Option.some.inj heq)).2.symm

private theorem contents_eq_none : contents t k = none ↔ ∀ i v, t i ≠ some (k, v) := by
  unfold contents
  constructor
  · intro hnone i v hi
    rw [dif_pos ⟨v, i, hi⟩] at hnone
    cases hnone
  · intro h
    rw [dif_neg]
    rintro ⟨v, i, hi⟩
    exact h i v hi

/-- An empty table has no keys. -/
theorem contents_empty : contents (fun _ : ι => (none : Option (K × V))) = fun _ => none := by
  funext k
  exact contents_eq_none.mpr fun _ _ h => nomatch h

/-- Two maps are equal if they have the same entries. -/
theorem contents_ext (h : Distinct t) {g : K → Option V}
    (heq : ∀ k v, (∃ i, t i = some (k, v)) ↔ g k = some v) : contents t = g := by
  funext k
  apply Option.ext
  intro v
  rw [← heq, ← h.contents_eq_some]

section Update

variable [DecidableEq ι]

/-- The slot that changes, and the others. -/
theorem update_eq_some {x : Option (K × V)} {j : ι} {y : K × V} :
    Function.update t i x j = some y ↔ (j = i ∧ x = some y) ∨ (j ≠ i ∧ t j = some y) := by
  by_cases hj : j = i
  · subst hj
    simp
  · simp [hj]

/-- A key is put into a slot, and is in no other. -/
theorem Distinct.put (h : Distinct t) (hother : ∀ j w, j ≠ i → t j ≠ some (k, w)) :
    Distinct (Function.update t i (some (k, v))) := by
  intro j j' k' w w' hj hj'
  rcases update_eq_some.mp hj with ⟨hi, hx⟩ | ⟨hne, hold⟩ <;>
    rcases update_eq_some.mp hj' with ⟨hi', hx'⟩ | ⟨hne', hold'⟩
  · rw [hi, hi']
  · obtain ⟨rfl, _⟩ := Prod.ext_iff.mp (Option.some.inj hx)
    exact absurd hold' (hother _ _ hne')
  · obtain ⟨rfl, _⟩ := Prod.ext_iff.mp (Option.some.inj hx')
    exact absurd hold (hother _ _ hne)
  · exact h hold hold'

/-- Filling a slot with a key that is in no other slot updates the map at this key. -/
theorem Distinct.contents_put [DecidableEq K] (h : Distinct t)
    (hother : ∀ j w, j ≠ i → t j ≠ some (k, w)) (hslot : ∀ k' w, t i = some (k', w) → k' = k) :
    contents (Function.update t i (some (k, v))) = Function.update (contents t) k (some v) := by
  refine contents_ext (h.put hother) fun k' w => ?_
  simp only [update_eq_some]
  by_cases hk : k' = k
  · subst hk
    rw [Function.update_self]
    constructor
    · rintro ⟨j, ⟨_, hx⟩ | ⟨hne, hj⟩⟩
      · exact congrArg some (Prod.ext_iff.mp (Option.some.inj hx)).2
      · exact absurd hj (hother _ _ hne)
    · intro hw
      exact ⟨i, .inl ⟨rfl, by rw [Option.some.inj hw]⟩⟩
  · rw [Function.update_of_ne hk, h.contents_eq_some]
    constructor
    · rintro ⟨j, ⟨_, hx⟩ | ⟨_, hj⟩⟩
      · exact absurd (Prod.ext_iff.mp (Option.some.inj hx)).1.symm hk
      · exact ⟨j, hj⟩
    · rintro ⟨j, hj⟩
      refine ⟨j, .inr ⟨fun hji => hk (hslot k' w ?_), hj⟩⟩
      rw [← hji, hj]

/-- A slot is freed. -/
theorem Distinct.erase (h : Distinct t) (i : ι) : Distinct (Function.update t i none) := by
  intro j j' k' w w' hj hj'
  rcases update_eq_some.mp hj with ⟨_, hx⟩ | ⟨_, hold⟩
  · cases hx
  rcases update_eq_some.mp hj' with ⟨_, hx⟩ | ⟨_, hold'⟩
  · cases hx
  exact h hold hold'

/-- Clearing a slot takes its key out of the map. -/
theorem Distinct.contents_erase [DecidableEq K] (h : Distinct t) (hi : t i = some (k, v)) :
    contents (Function.update t i none) = Function.update (contents t) k none := by
  refine contents_ext (h.erase i) fun k' w => ?_
  simp only [update_eq_some]
  by_cases hk : k' = k
  · subst hk
    rw [Function.update_self]
    simp only [reduceCtorEq, and_false, false_or, iff_false, not_exists, not_and]
    exact fun j hne hj => hne (h hj hi)
  · rw [Function.update_of_ne hk, h.contents_eq_some]
    constructor
    · rintro ⟨j, ⟨_, hx⟩ | ⟨_, hj⟩⟩
      · cases hx
      · exact ⟨j, hj⟩
    · rintro ⟨j, hj⟩
      refine ⟨j, .inr ⟨fun hji => hk ?_, hj⟩⟩
      rw [hji, hi] at hj
      exact (Prod.ext_iff.mp (Option.some.inj hj)).1.symm

end Update

/-- The number of entries of a map. -/
noncomputable def size (g : K → Option V) : ℕ := {k | (g k).isSome}.ncard

/-- Each slot in use is one entry. -/
theorem Distinct.size_contents (h : Distinct t) :
    size (contents t) = {i | (t i).isSome}.ncard := by
  -- The key of a slot in use is a bijection to the entries.
  symm
  refine Set.ncard_congr (fun i hi => ((t i).get hi).1) ?_ ?_ ?_
  · intro i hi
    have hsome : contents t ((t i).get hi).1 = some ((t i).get hi).2 :=
      h.contents_eq_some.mpr ⟨i, by simp⟩
    simp [hsome]
  · intro i j hi hj hkey
    obtain ⟨⟨k, v⟩, hv⟩ := Option.isSome_iff_exists.mp hi
    obtain ⟨⟨k', v'⟩, hv'⟩ := Option.isSome_iff_exists.mp hj
    simp only [hv, hv', Option.get_some] at hkey
    subst hkey
    exact h hv hv'
  · intro k hk
    obtain ⟨v, hv⟩ := Option.isSome_iff_exists.mp hk
    obtain ⟨i, hi⟩ := h.contents_eq_some.mp hv
    exact ⟨i, by simp [hi], by simp [hi]⟩

end SlotTable
