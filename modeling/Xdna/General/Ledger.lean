import Mathlib.Data.Finset.Basic
import Mathlib.Data.List.Basic

/-!
# Ledgers of resources

A component that acquires and releases resources leaves a log. Replaying it fails at the first
acquisition of something that is held already, and at the first release of something that is
not; a log that can be replayed to the end says what is held.
-/

namespace Ledger

variable {R : Type*} [DecidableEq R] {r : R} {held held' : Finset R} {es : List (R × Bool)}

/-- One entry of a log: the resource, and whether it is acquired. -/
def post (held : Finset R) (e : R × Bool) : Option (Finset R) :=
  if e.2 then if e.1 ∈ held then none else some (insert e.1 held)
  else if e.1 ∈ held then some (held.erase e.1) else none

/-- What is held after a log that starts with `held`. -/
def replay (held : Finset R) (es : List (R × Bool)) : Option (Finset R) := es.foldlM post held

private theorem replay_nil : replay held [] = some held := rfl

private theorem replay_concat (e : R × Bool) :
    replay held (es ++ [e]) = (replay held es).bind (post · e) := by
  rw [replay, List.foldlM_append]
  cases h : es.foldlM post held with
  | none => simp [replay, h]
  | some held' => simp [replay, h]

/-- A resource that was not held may be acquired. -/
theorem replay_acquire (h : replay held es = some held') (hr : r ∉ held') :
    replay held (es ++ [(r, true)]) = some (insert r held') := by
  rw [replay_concat, h, Option.bind_some, post, if_pos rfl, if_neg hr]

/-- A resource that is held may be released. -/
theorem replay_release (h : replay held es = some held') (hr : r ∈ held') :
    replay held (es ++ [(r, false)]) = some (held'.erase r) := by
  rw [replay_concat, h, Option.bind_some, post, if_neg Bool.false_ne_true, if_pos hr]

/-- Whatever is not held in the end has been released as often as it was acquired. -/
theorem count_eq (h : replay ∅ es = some held) (r : R) :
    es.count (r, true) = es.count (r, false) + if r ∈ held then 1 else 0 := by
  induction es using List.reverseRecOn generalizing held with
  | nil =>
    rw [replay_nil, Option.some.injEq] at h
    simp [← h]
  | append_singleton es e ih =>
    obtain ⟨r', acquired⟩ := e
    rw [replay_concat] at h
    obtain ⟨held', hheld, hpost⟩ := Option.bind_eq_some_iff.mp h
    have hbefore := ih hheld
    cases acquired with
    | true =>
      by_cases hr' : r' ∈ held'
      · simp [post, hr'] at hpost
      · have hheld : insert r' held' = held := by simpa [post, hr'] using hpost
        subst hheld
        by_cases hr : r = r'
        · subst hr
          simp only [hr', if_false] at hbefore
          simp [List.count_append, hbefore]
        · simp [List.count_append, hr, Ne.symm hr, hbefore]
    | false =>
      by_cases hr' : r' ∈ held'
      · have hheld : held'.erase r' = held := by simpa [post, hr'] using hpost
        subst hheld
        by_cases hr : r = r'
        · subst hr
          simp only [hr', if_true] at hbefore
          simp [List.count_append, hbefore]
        · simp [List.count_append, hr, Ne.symm hr, hbefore]
      · simp [post, hr'] at hpost

end Ledger
