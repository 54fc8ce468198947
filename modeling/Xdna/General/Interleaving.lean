import Mathlib.Data.List.Basic

/-!
# Interleaved programs on one state

A run mixes the operations of several programs. If the operations of the others do not
change what a program can see, and its own depend on nothing else, then the values it
observes and its view of the final state are those of a run of its own operations alone.
-/

namespace Interleaving

variable {S Op V W : Type*} {step : S → Op → S × Option V} {own : Op → Prop} {view : S → W}

/-- The state after a list of operations. -/
def finalState (step : S → Op → S × Option V) (s : S) (ops : List Op) : S :=
  ops.foldl (fun s op => (step s op).1) s

/-- The values that the operations of one program return, in order. -/
def observed (step : S → Op → S × Option V) (own : Op → Prop) [DecidablePred own] :
    S → List Op → List V
  | _, [] => []
  | s, op :: ops =>
    (if own op then (step s op).2.toList else []) ++ observed step own (step s op).1 ops

/-- The view of a program: others do not touch it, and its own operations see nothing else. -/
structure Isolated (step : S → Op → S × Option V) (own : Op → Prop) (view : S → W) : Prop where
  others : ∀ s op, ¬ own op → view (step s op).1 = view s
  next : ∀ s t op, own op → view s = view t → view (step s op).1 = view (step t op).1
  value : ∀ s t op, own op → view s = view t → (step s op).2 = (step t op).2

variable [DecidablePred own] {s t : S} {ops : List Op}

/-- The view after a run is the view after the operations of its owner alone. -/
theorem Isolated.finalState_filter (h : Isolated step own view) (ops : List Op)
    (hview : view s = view t) :
    view (finalState step s ops) = view (finalState step t (ops.filter (own ·))) := by
  induction ops generalizing s t with
  | nil => exact hview
  | cons op ops ih =>
    by_cases hop : own op
    · rw [List.filter_cons_of_pos (by simpa using hop)]
      exact ih (h.next s t op hop hview)
    · rw [List.filter_cons_of_neg (by simpa using hop)]
      exact ih ((h.others s op hop).trans hview)

/-- What the owner observes in a run is what it observes on its own. -/
theorem Isolated.observed_filter (h : Isolated step own view) (ops : List Op)
    (hview : view s = view t) :
    observed step own s ops = observed step own t (ops.filter (own ·)) := by
  induction ops generalizing s t with
  | nil => rfl
  | cons op ops ih =>
    by_cases hop : own op
    · rw [List.filter_cons_of_pos (by simpa using hop), observed, observed, if_pos hop, if_pos hop,
        h.value s t op hop hview, ih (h.next s t op hop hview)]
    · rw [List.filter_cons_of_neg (by simpa using hop), observed, if_neg hop, List.nil_append]
      exact ih ((h.others s op hop).trans hview)

private theorem observed_append (ops' : List Op) :
    observed step own s (ops ++ ops') =
      observed step own s ops ++ observed step own (finalState step s ops) ops' := by
  induction ops generalizing s with
  | nil => rfl
  | cons op ops ih => rw [List.cons_append, observed, observed, ih, List.append_assoc]; rfl

/-- A run in blocks, each of which keeps an invariant and observes what it should. -/
theorem observed_flatMap {X : Type*} {block : X → List Op} {I : S → Prop} {R : X → List V → Prop}
    (hblock : ∀ s x, I s →
      I (finalState step s (block x)) ∧ R x (observed step own s (block x)))
    {xs : List X} (hI : I s) :
    ∃ vss, observed step own s (xs.flatMap block) = vss.flatten ∧ List.Forall₂ R xs vss := by
  induction xs generalizing s with
  | nil => exact ⟨[], rfl, .nil⟩
  | cons x xs ih =>
    obtain ⟨hnext, hx⟩ := hblock s x hI
    obtain ⟨vss, hobs, hall⟩ := ih hnext
    refine ⟨observed step own s (block x) :: vss, ?_, .cons hx hall⟩
    rw [List.flatMap_cons, observed_append, hobs, List.flatten_cons]

end Interleaving
