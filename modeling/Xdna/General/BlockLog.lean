import Mathlib.Data.List.Induction

/-!
# Logs made of blocks

A log in which a system writes a whole block of events at a time can be read one block after
the other. What is known of a block, and of the log before it, is then known of the place of each
of its events in the whole log.
-/

namespace BlockLog

variable {E A : Type*} {P : List E → List E → Prop} {pre es es' : List E}

/-- An event that is not in the second part of a log lies in the first. -/
theorem eq_append_of_notMem {e : E} {l r before after : List E}
    (heq : before ++ e :: after = l ++ r) (h : e ∉ r) : ∃ mid, l = before ++ e :: mid := by
  rcases List.append_eq_append_iff.mp heq with ⟨mid, rfl, hmid⟩ | ⟨mid, rfl, hmid⟩
  · cases mid with
    | nil =>
      rw [List.nil_append] at hmid
      exact absurd (hmid ▸ List.mem_cons_self) h
    | cons x mid =>
      obtain ⟨rfl, _⟩ := List.cons.inj hmid
      exact ⟨mid, rfl⟩
  · exact absurd (by simp [hmid]) h

/-- Behind the log `pre` the log goes on with blocks, each of which may stand where it stands:
`P l b` says that the block `b` may follow the log `l`. -/
inductive Factors (P : List E → List E → Prop) (pre : List E) : List E → Prop
  | nil : Factors P pre []
  | snoc {es b : List E} (h : Factors P pre es) (hb : P (pre ++ es) b) : Factors P pre (es ++ b)

namespace Factors

/-- One block. -/
theorem single (h : P pre es) : Factors P pre es := by
  have hblock : P (pre ++ []) es := by rwa [List.append_nil]
  exact .snoc .nil hblock

/-- Blocks behind blocks. -/
theorem append (h : Factors P pre es) (h' : Factors P (pre ++ es) es') :
    Factors P pre (es ++ es') := by
  induction h' with
  | nil => rwa [List.append_nil]
  | snoc _ hb ih =>
    rw [← List.append_assoc]
    exact .snoc ih (by rwa [← List.append_assoc])

/-- Events that are blocks of their own. -/
theorem of_forall (h : ∀ l, ∀ e ∈ es, P l [e]) : Factors P pre es := by
  induction es using List.reverseRecOn with
  | nil => exact .nil
  | append_singleton es e ih =>
    exact .snoc (ih fun l e' he' => h l e' (by simp [he'])) (h _ e (by simp))

/-- An event of the log lies in a block, with what has come before it and what comes after. -/
theorem split {e : E} {l r : List E} (h : Factors P pre (l ++ e :: r)) :
    ∃ l' before after r', P (pre ++ l') (before ++ e :: after) ∧ l = l' ++ before ∧
      r = after ++ r' := by
  generalize hlog : l ++ e :: r = log at h
  induction h generalizing l r with
  | nil => simp at hlog
  | @snoc es b _ hb ih =>
    rcases List.append_eq_append_iff.mp hlog with ⟨mid, hes, hmid⟩ | ⟨mid, hl, hb'⟩
    · cases mid with
      | nil =>
        rw [List.append_nil] at hes
        rw [List.nil_append] at hmid
        exact ⟨es, [], r, [], by rwa [List.nil_append, hmid], by rw [hes, List.append_nil],
          (List.append_nil r).symm⟩
      | cons x mid =>
        obtain ⟨rfl, rfl⟩ := List.cons.inj hmid
        obtain ⟨l', before, after, r', hP, hl, hr⟩ := ih hes.symm
        refine ⟨l', before, after, r' ++ b, hP, hl, ?_⟩
        rw [hr]
        exact List.append_assoc ..
    · exact ⟨es, mid, r, [], by rwa [← hb'], hl, (List.append_nil r).symm⟩

/-- Two readings of the log that agree on each block agree on the log. -/
theorem filterMap_eq {f g : E → Option A} (h : Factors P pre es)
    (hfg : ∀ l b, P l b → b.filterMap f = b.filterMap g) : es.filterMap f = es.filterMap g := by
  induction h with
  | nil => rfl
  | snoc _ hb ih => rw [List.filterMap_append, List.filterMap_append, ih, hfg _ _ hb]

end Factors

end BlockLog
