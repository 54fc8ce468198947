import Xdna.Runs

/-!
# Messages and interrupts within the firmware's lifetime

Consequences of the consistency of the table of contexts and channels for what the
device does: which parts of the SRAM are in use at the same time, and in which states it
calls the message handler and the interrupt callback.
-/

namespace Xdna

namespace Region

/-- The part of the SRAM is in use: always, or while its channel is active. -/
def InUse (npu : Npu) : Region → Prop
  | info => True
  | fwAlive => True
  | x2i c => (npu.chan c).active = true
  | i2x c => (npu.chan c).active = true

/-- First and last offset of a region, as the channel registers give them. -/
def extent (npu : Npu) : Region → ℕ × ℕ
  | info => (sramMgmtInfoOff.toNat, sramMgmtInfoOff.toNat + mgmtInfo.encode.length)
  | fwAlive => (sramFwAliveOff.toNat, sramFwAliveOff.toNat + 4)
  | x2i c => ((npu.chan c).x2iBuf.toNat, (npu.chan c).x2iBuf.toNat + (npu.chan c).x2iSize.toNat)
  | i2x c => ((npu.chan c).i2xBuf.toNat, (npu.chan c).i2xBuf.toNat + (npu.chan c).i2xSize.toNat)

/-- A region in use is where the channel record says. -/
theorem extent_eq {npu : Npu} (h : Consistent npu) {r : Region} (hr : r.InUse npu) :
    r.extent npu = (r.base, r.base + r.len) := by
  cases r with
  | info => rw [extent, mgmtInfo_encode_length]; rfl
  | fwAlive => rfl
  | x2i c => simp only [extent, (h.ring c hr).x2iBuf, (h.ring c hr).x2iSize, base, len]
  | i2x c => simp only [extent, (h.ring c hr).i2xBuf, (h.ring c hr).i2xSize, base, len]

end Region

/-- A handled message or an interrupt finds the firmware alive, and the channel active. -/
def Event.WithinLifetime : Event → Prop
  | .handle c _ _ npu => Consistent npu ∧ npu.fwAlive = true ∧ (npu.chan c).active = true
  | .raiseIrq vector npu =>
    ∃ c : ChanIdx, vector = c.val ∧ Consistent npu ∧ npu.fwAlive = true ∧
      (npu.chan c).active = true
  | _ => True

private theorem SendEvent.withinLifetime {c : ChanIdx} {npu : Npu} {e : Event}
    (h : SendEvent c npu e) (hcons : Consistent npu) : e.WithinLifetime := by
  cases h with
  | write _ _ => trivial
  | irq hactive hchange =>
    have hcons' := hcons.congr hchange.sameShape
    have hactive' := (hchange.sameShape.chan c).active.trans hactive
    exact ⟨c, hcons'.index c, hcons', hcons'.fwAlive_of_active hactive', hactive'⟩

/-- No step handles a message or raises an interrupt outside the firmware's lifetime. -/
theorem Step.withinLifetime {host : Host} {ok : ChanIdx → UInt32 → Prop} {m m' : Machine}
    (h : Step host ok m m') (hcons : Consistent m.npu) : m.Extends Event.WithinLifetime m' := by
  cases h with
  | regs _ htrace => exact htrace.mono fun e he => by cases e <;> trivial
  | sram _ _ _ => exact .modify _
  | guest _ _ => exact .modify _
  | boot => exact .modify _
  | shutdown => exact .modify _
  | wrap _ _ => exact .modify _
  | examine _ _ _ => exact .emit trivial
  | reject _ _ _ => exact .emit trivial
  | take c size hactive _ =>
    have hshape := takeFrame_sameShape m c size
    have hactive' := (hshape.chan c).active.trans hactive
    have hcons' := hcons.congr hshape
    have hreads : m.Extends Event.WithinLifetime
        ((m.emit (.ringRead c (m.npu.chan c).headOff msgHeaderSize.toNat)).emit
          (.ringRead c ((m.npu.chan c).headOff + msgHeaderSize.toNat) size.toNat)) :=
      (Machine.Extends.emit trivial).trans (.emit trivial)
    exact (hreads.trans (.modify (·.consume c size))).trans
      (.emit ⟨hcons', hcons'.fwAlive_of_active hactive', hactive'⟩)
  | message _ _ _ =>
    exact (mertOutcome_trace ..).2.mono fun e he => by cases e <;> trivial
  | send c id opcode payload _ =>
    obtain ⟨m₁, hext, htrace⟩ := mboxSend_trace host m c id opcode payload
    exact (hext.mono fun e he => he.withinLifetime hcons).trans (.of_trace_eq htrace trivial)

/-- The device touches a ring only while its channel is active, on every way from reset. -/
theorem Reachable.withinLifetime {host : Host} {m : Machine} (h : Reachable host m) :
    ∀ e ∈ m.trace, e.WithinLifetime := by
  have h := h.steps.preserves
    (P := fun m => Consistent m.npu ∧ ∀ e ∈ m.trace, e.WithinLifetime)
    (fun m m' hm hstep => ⟨hstep.tableChange.consistent hm.1,
      (hstep.withinLifetime hm.1).forall_trace hm.2⟩)
    ⟨consistent_npuReset, fun _ he => nomatch he⟩
  exact h.2

/-- The device touches a ring only while its channel is active, in every run. -/
theorem guestRun_withinLifetime (host : Host) (ops : List GuestOp) :
    ∀ e ∈ (guestRun host ops).trace, e.WithinLifetime :=
  (Reachable.guestRun host ops).withinLifetime

/-- In every reachable state the tables agree, what is in use of the SRAM is disjoint, and
everything the firmware has done it has done while it was alive, on active channels. -/
theorem guestRun_table (host : Host) (ops : List GuestOp) :
    let npu := (guestRun host ops).npu
    Consistent npu ∧
    (∀ s, (npu.ctx s).valid = true → npu.stats.activeContexts ≠ 0) ∧
    (∀ r r' : Region, r.InUse npu → r'.InUse npu → r ≠ r' →
      (r.extent npu).2 ≤ (r'.extent npu).1 ∨ (r'.extent npu).2 ≤ (r.extent npu).1) ∧
    (∀ r : Region, r.InUse npu → (r.extent npu).2 ≤ barSramSize) ∧
    ∀ e ∈ (guestRun host ops).trace, e.WithinLifetime := by
  have hcons := guestRun_consistent host ops
  refine ⟨hcons, fun s => hcons.activeContexts_ne_zero, fun r r' hr hr' hne => ?_, fun r hr => ?_,
    guestRun_withinLifetime host ops⟩
  · rw [Region.extent_eq hcons hr, Region.extent_eq hcons hr']
    exact Region.disjoint hne
  · rw [Region.extent_eq hcons hr]
    exact r.inSram

end Xdna
