import Mathlib.Data.List.Induction
import Mathlib.Logic.Function.Iterate

/-!
# State that a log determines

A system writes a log of events and never takes one back. A part of its state is sourced in
the log if every event says how that part moves. It is then a fold over the whole log, and what
an event has recorded of it is the fold over the events before.
-/

namespace EventSourcing

/-- A part of the state of a system with a log: how an event moves it, and what the event has
recorded of it. -/
structure Source (S E A : Type*) where
  log : S → List E
  part : S → A
  apply : A → E → A
  recorded : E → Option A

variable {S E A : Type*} {src : Source S E A} {s s' s'' : S} {a b : A} {e : E} {es es' : List E}

namespace Source

/-- Every event of a log that begins in `a` has recorded the state it was written in. -/
def Witnessed (src : Source S E A) : A → List E → Prop
  | _, [] => True
  | a, e :: es => (∀ b ∈ src.recorded e, b = a) ∧ src.Witnessed (src.apply a e) es

private theorem Witnessed.append (h : src.Witnessed a es)
    (h' : src.Witnessed (es.foldl src.apply a) es') : src.Witnessed a (es ++ es') := by
  induction es generalizing a with
  | nil => exact h'
  | cons e es ih => exact ⟨h.1, ih h.2 h'⟩

/-- What an event in the middle of the log has recorded. -/
theorem Witnessed.recorded_eq (h : src.Witnessed a (es ++ e :: es')) (hb : b ∈ src.recorded e) :
    b = es.foldl src.apply a := by
  induction es generalizing a with
  | nil => exact h.1 b hb
  | cons e' es ih => exact ih h.2

/-- Events that record nothing and move nothing. -/
def Silent (src : Source S E A) (e : E) : Prop := src.recorded e = none ∧ ∀ a, src.apply a e = a

/-- Silent events leave the part as it is. -/
theorem foldl_silent (h : ∀ e ∈ es, src.Silent e) (a : A) : es.foldl src.apply a = a := by
  induction es with
  | nil => rfl
  | cons e es ih =>
    rw [List.foldl_cons, (h e (by simp)).2 a]
    exact ih fun e' he' => h e' (by simp [he'])

private theorem witnessed_silent (h : ∀ e ∈ es, src.Silent e) (a : A) : src.Witnessed a es := by
  induction es with
  | nil => trivial
  | cons e es ih =>
    have he := h e (by simp)
    refine ⟨fun b hb => by simp [he.1] at hb, ?_⟩
    rw [he.2 a]
    exact ih fun e' he' => h e' (by simp [he'])

/-- Between the two states the log has grown, and the sourced part has moved as the new events
say. -/
def Moves (src : Source S E A) (s s' : S) : Prop :=
  ∃ es, src.log s' = src.log s ++ es ∧ src.part s' = es.foldl src.apply (src.part s) ∧
    src.Witnessed (src.part s) es

namespace Moves

/-- Nothing has moved. -/
theorem refl (s : S) : src.Moves s s := ⟨[], by simp, rfl, trivial⟩

/-- One move after another. -/
theorem trans (h : src.Moves s s') (h' : src.Moves s' s'') : src.Moves s s'' := by
  obtain ⟨es, hlog, hpart, hwit⟩ := h
  obtain ⟨es', hlog', hpart', hwit'⟩ := h'
  refine ⟨es ++ es', by rw [hlog', hlog, List.append_assoc], ?_, hwit.append ?_⟩
  · rw [hpart', hpart, List.foldl_append]
  · rwa [← hpart]

/-- Nothing that is sourced has happened. -/
theorem of_silent (hlog : src.log s' = src.log s ++ es) (hes : ∀ e ∈ es, src.Silent e)
    (hpart : src.part s' = src.part s) : src.Moves s s' :=
  ⟨es, hlog, by rw [hpart, foldl_silent hes], witnessed_silent hes _⟩

/-- Neither the log nor the part has changed. -/
theorem of_eq (hlog : src.log s' = src.log s) (hpart : src.part s' = src.part s) :
    src.Moves s s' :=
  ⟨[], by rw [hlog, List.append_nil], hpart, trivial⟩

/-- One event that counts has been written, among others that do not. -/
theorem of_event (hlog : src.log s' = src.log s ++ (es ++ e :: es'))
    (hes : ∀ e ∈ es, src.Silent e) (hes' : ∀ e ∈ es', src.Silent e)
    (hpart : src.part s' = src.apply (src.part s) e) (hb : ∀ b ∈ src.recorded e, b = src.part s) :
    src.Moves s s' := by
  refine ⟨es ++ e :: es', hlog, ?_, (witnessed_silent hes _).append ?_⟩
  · rw [List.foldl_append, foldl_silent hes, List.foldl_cons, foldl_silent hes', hpart]
  · rw [foldl_silent hes]
    exact ⟨hb, witnessed_silent hes' _⟩

/-- From an empty log on, the whole log determines the sourced part. -/
theorem part_eq (h : src.Moves s s') (hs : src.log s = []) :
    src.part s' = (src.log s').foldl src.apply (src.part s) := by
  obtain ⟨es, hlog, hpart, _⟩ := h
  rw [hpart, hlog, hs, List.nil_append]

/-- What has moved from an empty log on is what the log tells. -/
theorem witnessed (h : src.Moves s s') (hs : src.log s = []) :
    src.Witnessed (src.part s) (src.log s') := by
  obtain ⟨es, hlog, _, hwit⟩ := h
  rwa [hlog, hs, List.nil_append]

end Moves

end Source

/-! ## Registers -/

section LastOf

variable {V : Type*} (value : E → Option V)

/-- The last value that the events give. -/
def lastOf (es : List E) : Option V := (es.filterMap value).getLast?

/-- The last event counts if it has a value. -/
theorem lastOf_append_singleton (es : List E) (e : E) :
    lastOf value (es ++ [e]) = (value e).or (lastOf value es) := by
  unfold lastOf
  rw [List.filterMap_append]
  cases he : value e with
  | none => simp [he]
  | some v => simp [he]

/-- What a register holds into which events write is the last value written. -/
theorem foldl_eq_lastOf {get : A → V} {apply : A → E → A}
    (h : ∀ a e, get (apply a e) = (value e).getD (get a)) (es : List E) (a : A) :
    get (es.foldl apply a) = (lastOf value es).getD (get a) := by
  induction es using List.reverseRecOn with
  | nil => rfl
  | append_singleton es e ih =>
    rw [List.foldl_append, List.foldl_cons, List.foldl_nil, h, ih, lastOf_append_singleton]
    cases value e <;> rfl

end LastOf

/-! ## Counters -/

/-- A counter that the events of one kind move has moved once for each of them. -/
theorem foldl_eq_iterate {V : Type*} (p : E → Bool) (next : V → V) {get : A → V}
    {apply : A → E → A} (h : ∀ a e, get (apply a e) = if p e then next (get a) else get a)
    (es : List E) (a : A) : get (es.foldl apply a) = next^[es.countP p] (get a) := by
  induction es generalizing a with
  | nil => rfl
  | cons e es ih =>
    rw [List.foldl_cons, ih, h, List.countP_cons]
    by_cases he : p e = true
    · rw [if_pos he, if_pos he, Function.iterate_succ_apply]
    · rw [if_neg he, if_neg he, Nat.add_zero]

end EventSourcing
