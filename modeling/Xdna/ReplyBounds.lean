import Xdna.Runs

/-!
# Bounds of the reply rings

`xdna_mbox_send` decides from the head, which the driver stores, whether a frame
fits. As long as the driver stores offsets of the ring, every frame and every tombstone lies
inside the ring of the sending channel. The code does not check the stored value, and a
larger one makes the writer run past the end of the ring.
-/

namespace Xdna

open ByteMemory RingLog

/-! ## The invariant of the tail -/

/-- The tail of the `i2x` ring is an offset at which a tombstone fits. -/
structure RoomOk (c : ChanIdx) (ch : Channel) : Prop where
  ring : HasRing c ch
  aligned : ch.i2xTail.toNat % 4 = 0
  room : ch.i2xTail.toNat + 4 ≤ ringSize c

/-- The head is an offset of the ring as well. -/
structure TailOk (c : ChanIdx) (ch : Channel) : Prop extends RoomOk c ch where
  head_le : ch.i2xHead.toNat ≤ ringSize c

/-- The `i2x` rings consist of words and lie in the SRAM. -/
theorem replyRing_bounds (c : ChanIdx) :
    ringSize c % 4 = 0 ∧ 0x1000 ≤ ringSize c ∧ i2xBase c + ringSize c ≤ barSramSize := by
  have hall : ∀ c : ChanIdx,
      ringSize c % 4 = 0 ∧ 0x1000 ≤ ringSize c ∧ i2xBase c + ringSize c ≤ barSramSize := by decide
  exact hall c

/-- A tail at zero is in order. -/
theorem roomOk_of_zero {c : ChanIdx} {ch : Channel} (hring : HasRing c ch)
    (htail : ch.i2xTail = 0) : RoomOk c ch := by
  have := (replyRing_bounds c).2.1
  refine ⟨hring, ?_, ?_⟩
  · rw [htail]
    rfl
  · rw [htail]
    exact Nat.le_trans (by decide) this

/-- Tail and head at zero are in order. -/
theorem tailOk_of_zero {c : ChanIdx} {ch : Channel} (hring : HasRing c ch)
    (htail : ch.i2xTail = 0) (hhead : ch.i2xHead = 0) : TailOk c ch := by
  refine ⟨roomOk_of_zero hring htail, ?_⟩
  rw [hhead]
  exact Nat.zero_le _

/-- The invariant is about the place of the ring and the tail. -/
theorem RoomOk.congr {c : ChanIdx} {ch ch' : Channel} (h : RoomOk c ch) (heq : ch.SameShape ch')
    (htail : ch'.i2xTail = ch.i2xTail) : RoomOk c ch' :=
  ⟨h.ring.congr heq, htail ▸ h.aligned, htail ▸ h.room⟩

/-- The invariant is about the place of the ring, the tail and the head. -/
theorem TailOk.congr {c : ChanIdx} {ch ch' : Channel} (h : TailOk c ch) (heq : ch.SameShape ch')
    (htail : ch'.i2xTail = ch.i2xTail) (hhead : ch'.i2xHead = ch.i2xHead) : TailOk c ch' :=
  ⟨h.toRoomOk.congr heq htail, hhead ▸ h.head_le⟩

/-- No frame goes past the end of the ring while the head is an offset of it. -/
theorem TailOk.not_overruns {c : ChanIdx} {ch : Channel} (h : TailOk c ch) (n : ℕ) :
    ¬ ch.Overruns n :=
  Channel.not_overruns (by rw [h.ring.i2xSize]; exact h.head_le) n

/-- The ring of an active channel is ready for a send. -/
theorem HasRing.replyRing {c : ChanIdx} {ch : Channel} (h : HasRing c ch)
    (hactive : ch.active = true) (hroom : ch.i2xTail.toNat + 4 ≤ ringSize c) :
    ReplyRing ch (i2xBase c) (ringSize c) :=
  ⟨hactive, h.i2xBuf, h.i2xSize, (replyRing_bounds c).2.2, hroom⟩

/-- Reply payloads are short and consist of words. -/
theorem respSizeFor_bounds (opcode : UInt32) :
    (respSizeFor opcode).1 % 4 = 0 ∧ (respSizeFor opcode).1 ≤ 76 := by
  unfold respSizeFor
  split <;> decide

/-- The writes of a send lie in the ring of its channel. -/
def Event.WrittenWithin : Event → Prop
  | .ringWrite c off len => i2xBase c ≤ off ∧ off + len ≤ i2xBase c + ringSize c
  | _ => True

section Send

variable {host : Host} {m : Machine} {c : ChanIdx} {id opcode : UInt32} {payload : List UInt8}

/-- A send that does not overrun the ring keeps to the ring, and leaves the tail in order. -/
theorem RoomOk.send (h : RoomOk c (m.npu.chan c)) (hactive : (m.npu.chan c).active = true)
    (hsize : payload.length = (respSizeFor opcode).1)
    (hover : ¬ (m.npu.chan c).Overruns (16 + payload.length)) :
    RoomOk c ((mboxSend host m c id opcode payload).1.npu.chan c) ∧
      m.Extends Event.WrittenWithin (mboxSend host m c id opcode payload).1 := by
  obtain ⟨hmod, hle⟩ := respSizeFor_bounds opcode
  obtain ⟨hring, hlarge, _⟩ := replyRing_bounds c
  rw [← hsize] at hmod hle
  have hroom := h.room
  have hreply := h.ring.replyRing hactive hroom
  have hlen : 16 + payload.length ≤ ringSize c - 4 := by omega
  have hmark : ∀ e ∈ markEvents m.npu c (i2xBase c) (ringSize c) (16 + payload.length),
      e.WrittenWithin := by
    intro e he
    unfold markEvents at he
    split at he
    · rw [List.mem_singleton.mp he]
      exact ⟨by omega, by omega⟩
    · cases he
  cases hfull : (m.npu.chan c).sendFull (pkgSize payload) with
  | true =>
    rw [mboxSend_full host id opcode hreply hlen hfull]
    refine ⟨h, _, rfl, fun e he => ?_⟩
    rcases List.mem_append.mp he with he | he
    · exact hmark e he
    · rw [List.mem_singleton.mp he]
      trivial
  | false =>
    obtain ⟨halign, hend⟩ := hreply.start_fits hlen hover hring h.aligned hmod hfull
    have htail := hreply.start_add hlen
    rw [mboxSend_sent host id opcode hreply hlen hfull (by omega)]
    refine ⟨?_, _, rfl, fun e he => ?_⟩
    · dsimp only
      rw [countIrq_chan, sentNpu]
      dsimp only
      rw [Function.update_self]
      refine ⟨h.ring.congr (.pointers ..), ?_, ?_⟩ <;>
        dsimp only <;> omega
    · simp only [sentEvents, List.mem_append] at he
      rcases he with ((he | he) | he) | he
      · exact hmark e he
      · unfold copyEvents at he
        rcases List.mem_cons.mp he with rfl | he
        · exact ⟨by omega, by omega⟩
        · split at he
          · cases he
          · rw [List.mem_singleton.mp he]
            exact ⟨by omega, by omega⟩
      · unfold irqEvents at he
        split at he
        · rw [List.mem_singleton.mp he]
          trivial
        · cases he
      · rw [List.mem_singleton.mp he]
        trivial

/-- A send does not touch the head. -/
theorem TailOk.send (h : TailOk c (m.npu.chan c)) (hactive : (m.npu.chan c).active = true)
    (hsize : payload.length = (respSizeFor opcode).1) :
    TailOk c ((mboxSend host m c id opcode payload).1.npu.chan c) := by
  refine ⟨(RoomOk.send h.toRoomOk hactive hsize (h.not_overruns _)).1, ?_⟩
  rw [(mboxSend_change host m c id opcode payload).i2xHead c]
  exact h.head_le

end Send

/-! ## Runs with a reader that keeps to the ring -/

/-- The head of every active channel is an offset of its ring, and so is the tail. -/
abbrev TailsOk : Npu → Prop := OnActive TailOk

/-- The value is an offset of the ring of channel `c`, or its end. -/
def WithinRing (c : ChanIdx) (v : UInt32) : Prop := v.toNat ≤ ringSize c

instance (c : ChanIdx) (v : UInt32) : Decidable (WithinRing c v) :=
  inferInstanceAs (Decidable (_ ≤ _))

private theorem GuestWrite.tailOk {c : ChanIdx} {ch ch' : Channel}
    (hw : GuestWrite (WithinRing c) ch ch') (h : TailOk c ch) : TailOk c ch' := by
  have hring := h.ring.congr hw.sameShape
  cases hw with
  | x2iTail v => exact ⟨⟨hring, h.aligned, h.room⟩, h.head_le⟩
  | i2xHead v hv => exact ⟨⟨hring, h.aligned, h.room⟩, hv⟩
  | intr v => exact ⟨⟨hring, h.aligned, h.room⟩, h.head_le⟩

/-- A send leaves the other channels alone. -/
theorem ReplyChange.chan_of_ne {c c' : ChanIdx} {npu npu' : Npu} (h : ReplyChange c npu npu')
    (hne : c' ≠ c) : npu'.chan c' = npu.chan c' := by
  obtain ⟨_, ⟨_, _, hchan⟩, _⟩ := h
  rw [hchan, Function.update_of_ne hne]

private theorem Step.tailsOk {host : Host} {m m' : Machine} (hstep : Step host WithinRing m m')
    (hcons : Consistent m.npu) (h : TailsOk m.npu) : TailsOk m'.npu := by
  refine hstep.onActive hcons h (tailOk_of_zero mgmtChannel_hasRing rfl rfl)
    (fun s => tailOk_of_zero (createdChannel_hasRing s) rfl rfl) ?_ ?_ ?_ ?_
  · exact fun c ch hch hw => hw.tailOk hch
  · exact fun c hch => hch.congr (.pointers ..) rfl rfl
  · intro c size hch _
    have hshape := (takeFrame_sameShape m c size).chan c
    exact hch.congr hshape (by simp [takeFrame, Npu.consume, Npu.setX2iHead, Npu.setChan])
      (by simp [takeFrame, Npu.consume, Npu.setX2iHead, Npu.setChan])
  · intro c id opcode payload hsize c' hactive hch
    by_cases hc : c' = c
    · subst hc
      exact hch.send hactive hsize
    · rw [(mboxSend_change host m c id opcode payload).chan_of_ne hc]
      exact hch

/-- The tails stay in order on every way from reset. -/
theorem tailsOk_of_steps {host : Host} {m : Machine} (h : Steps host WithinRing initial m) :
    Consistent m.npu ∧ TailsOk m.npu :=
  h.preserves (P := fun m => Consistent m.npu ∧ TailsOk m.npu)
    (fun _ _ hm hstep => ⟨hstep.tableChange.consistent hm.1, hstep.tailsOk hm.1 hm.2⟩)
    ⟨consistent_npuReset, fun c hc => by simp [initial, resetChan] at hc⟩

/-- Tails are in order at the end of every run with a driver that stores offsets of the ring. -/
theorem guestRun_tailsOk (host : Host) (ops : List GuestOp)
    (h : ∀ op ∈ ops, op.HeadsOk WithinRing) : TailsOk (guestRun host ops).npu :=
  (tailsOk_of_steps (guestRun_steps h)).2

end Xdna
