import Mathlib.Data.List.Basic

/-!
# Properties of every state of a run

A run folds a step function over a list of operations. Whether a property holds in
every state of the run can often be decided one step at a time, by a guard on the state
before the step and the operation.
-/

namespace GuardedRun

variable {S Op : Type*} {step : S → Op → S} {P I : S → Prop} {ok : S → Op → Prop}
  {s : S} {ops : List Op}

/-- The property holds in every state of the run, the first and the last included. -/
def Always (step : S → Op → S) (P : S → Prop) : S → List Op → Prop
  | s, [] => P s
  | s, op :: ops => P s ∧ Always step P (step s op) ops

/-- Every operation of the run meets the guard in the state in which it happens. -/
def Guarded (step : S → Op → S) (ok : S → Op → Prop) : S → List Op → Prop
  | _, [] => True
  | s, op :: ops => ok s op ∧ Guarded step ok (step s op) ops

instance decidableGuarded [DecidableRel ok] :
    (s : S) → (ops : List Op) → Decidable (Guarded step ok s ops)
  | _, [] => isTrue trivial
  | s, op :: ops =>
    have := decidableGuarded (step s op) ops
    inferInstanceAs (Decidable (ok s op ∧ Guarded step ok (step s op) ops))

private theorem Always.head (h : Always step P s ops) : P s := by
  cases ops with
  | nil => exact h
  | cons op ops => exact h.1

/-- If a guard decides whether one step keeps the property, and keeps the invariant that the
decision rests on, then it decides whether the property holds throughout a run. -/
theorem always_iff_guarded
    (hstep : ∀ s op, op ∈ ops → I s → P s →
      (P (step s op) ↔ ok s op) ∧ (ok s op → I (step s op)))
    (hI : I s) (hP : P s) : Always step P s ops ↔ Guarded step ok s ops := by
  induction ops generalizing s with
  | nil => simp [Always, Guarded, hP]
  | cons op ops ih =>
    have hop := hstep s op (by simp) hI hP
    have hrest (hok : ok s op) :=
      ih (s := step s op) (fun s' op' hmem => hstep s' op' (by simp [hmem])) (hop.2 hok)
        (hop.1.mpr hok)
    rw [Always, Guarded]
    constructor
    · rintro ⟨_, halways⟩
      have hok := hop.1.mp halways.head
      exact ⟨hok, (hrest hok).mp halways⟩
    · rintro ⟨hok, hguarded⟩
      exact ⟨hP, (hrest hok).mpr hguarded⟩

/-- A guard that follows from another one and an invariant. -/
theorem Guarded.imp {ok' : S → Op → Prop} (h : Guarded step ok s ops)
    (hstep : ∀ s op, I s → ok s op → ok' s op ∧ I (step s op)) (hI : I s) :
    Guarded step ok' s ops := by
  induction ops generalizing s with
  | nil => trivial
  | cons op ops ih =>
    obtain ⟨hok, hnext⟩ := hstep s op hI h.1
    exact ⟨hok, ih h.2 hnext⟩

/-- Two guards that are both met. -/
theorem Guarded.and {ok' : S → Op → Prop} (h : Guarded step ok s ops)
    (h' : Guarded step ok' s ops) : Guarded step (fun s op => ok s op ∧ ok' s op) s ops := by
  induction ops generalizing s with
  | nil => trivial
  | cons op ops ih => exact ⟨⟨h.1, h'.1⟩, ih h.2 h'.2⟩

/-! ## Two runs in step -/

section Outputs

variable {T Op' Out Out' G : Type*} {step' : T → Op' → T} {out : S → Op → Out}
  {out' : T → Op' → Out'} {R : S → T → G → Prop} {next : G → Op' → G} {ok' : G → Op' → Prop}
  {f : Op' → Op} {g : Out' → Out} {t : T} {c : G} {ops' : List Op'}

/-- What a run puts out, one output for each operation. -/
def outputs (step : S → Op → S) (out : S → Op → Out) : S → List Op → List Out
  | _, [] => []
  | s, op :: ops => out s op :: outputs step out (step s op) ops

/-- If every step that meets a guard keeps a relation between two runs and makes their outputs
agree, then the outputs of guarded runs agree. The guard has a state of its own. -/
theorem outputs_eq_of_guarded
    (hstep : ∀ s t c op, op ∈ ops' → R s t c → ok' c op →
      R (step s (f op)) (step' t op) (next c op) ∧ out s (f op) = g (out' t op))
    (hR : R s t c) (hok : Guarded next ok' c ops') :
    outputs step out s (ops'.map f) = (outputs step' out' t ops').map g := by
  induction ops' generalizing s t c with
  | nil => rfl
  | cons op ops ih =>
    obtain ⟨hnext, hout⟩ := hstep s t c op (by simp) hR hok.1
    have hrest := ih (fun s t c op' hop' => hstep s t c op' (by simp [hop'])) hnext hok.2
    simp only [List.map_cons, outputs, hout, hrest]

/-- Conversely, if agreeing outputs imply the guard, then runs with the same outputs are guarded. -/
theorem guarded_of_outputs_eq
    (hstep : ∀ s t c op, op ∈ ops' → R s t c → R (step s (f op)) (step' t op) (next c op) ∧
      (out s (f op) = g (out' t op) → ok' c op))
    (hR : R s t c)
    (heq : outputs step out s (ops'.map f) = (outputs step' out' t ops').map g) :
    Guarded next ok' c ops' := by
  induction ops' generalizing s t c with
  | nil => trivial
  | cons op ops ih =>
    obtain ⟨hnext, hout⟩ := hstep s t c op (by simp) hR
    simp only [List.map_cons, outputs, List.cons.injEq] at heq
    exact ⟨hout heq.1, ih (fun s t c op' hop' => hstep s t c op' (by simp [hop'])) hnext heq.2⟩

end Outputs

end GuardedRun
