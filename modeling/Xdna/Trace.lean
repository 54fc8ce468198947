import Xdna.Device.State

/-!
# Growing traces

The device never takes back an event: every operation extends the trace. What an
operation does that is visible outside the state is a property of the events by
which it extends it.
-/

namespace Xdna

variable {P Q : Event → Prop} {m m' m'' : Machine}

/-- The trace of `m'` is that of `m` and further events, each of which has the property. -/
def Machine.Extends (P : Event → Prop) (m m' : Machine) : Prop :=
  ∃ ws, m'.trace = m.trace ++ ws ∧ ∀ e ∈ ws, P e

namespace Machine.Extends

/-- The trace has not changed. -/
theorem of_eq (h : m'.trace = m.trace) : m.Extends P m' :=
  ⟨[], by rw [h, List.append_nil], fun _ he => nomatch he⟩

/-- No event at all. -/
theorem refl (m : Machine) : m.Extends P m := of_eq rfl

/-- More events behind the new ones. -/
theorem trans (h : m.Extends P m') (h' : m'.Extends P m'') : m.Extends P m'' := by
  obtain ⟨ws, htrace, hws⟩ := h
  obtain ⟨ws', htrace', hws'⟩ := h'
  refine ⟨ws ++ ws', by rw [htrace', htrace, List.append_assoc], ?_⟩
  intro e he
  rcases List.mem_append.mp he with he | he
  · exact hws e he
  · exact hws' e he

/-- A weaker property of the new events. -/
theorem mono (h : m.Extends P m') (hPQ : ∀ e, P e → Q e) : m.Extends Q m' := by
  obtain ⟨ws, htrace, hws⟩ := h
  exact ⟨ws, htrace, fun e he => hPQ e (hws e he)⟩

/-- One new event. -/
theorem of_trace_eq {e : Event} (htrace : m'.trace = m.trace ++ [e]) (he : P e) :
    m.Extends P m' :=
  ⟨[e], htrace, fun _ h => List.mem_singleton.mp h ▸ he⟩

/-- Recording an event. -/
theorem emit {e : Event} (he : P e) : m.Extends P (m.emit e) := of_trace_eq rfl he

/-- Changing the state of the device. -/
theorem modify (f : Npu → Npu) : m.Extends P (m.modify f) := of_eq rfl

/-- A property of all events so far survives if the new events have it. -/
theorem forall_trace (h : m.Extends P m') (hm : ∀ e ∈ m.trace, P e) : ∀ e ∈ m'.trace, P e := by
  obtain ⟨ws, htrace, hws⟩ := h
  intro e he
  rw [htrace] at he
  rcases List.mem_append.mp he with he | he
  · exact hm e he
  · exact hws e he

/-- No event is lost. -/
theorem mem_trace (h : m.Extends P m') {e : Event} (he : e ∈ m.trace) : e ∈ m'.trace := by
  obtain ⟨ws, htrace, -⟩ := h
  rw [htrace]
  exact List.mem_append_left ws he

/-- Events that a filter drops do not show in the filtered trace. -/
theorem filterMap_eq {α : Type*} {f : Event → Option α} (h : m.Extends P m')
    (hf : ∀ e, P e → f e = none) : m'.trace.filterMap f = m.trace.filterMap f := by
  obtain ⟨ws, htrace, hws⟩ := h
  have hnil : ws.filterMap f = [] := by
    rw [List.filterMap_eq_nil_iff]
    exact fun e he => hf e (hws e he)
  rw [htrace, List.filterMap_append, hnil, List.append_nil]

end Machine.Extends

/-- A call of the `dma_write` callback. -/
def Event.IsDmaWrite : Event → Prop
  | .dmaWrite .. => True
  | _ => False

/-- A call of the message handler. -/
def Event.isHandle : Event → Bool
  | .handle .. => true
  | _ => false

/-- A reply that was put into its ring. -/
def Event.isReply : Event → Bool
  | .send _ _ _ _ sent => sent
  | _ => false

/-- A call of `raise_irq`. -/
def Event.isInterrupt : Event → Bool
  | .raiseIrq .. => true
  | _ => false

end Xdna
