import Xdna.Device.Mailbox
import Xdna.Trace
import Xdna.General.RingLog

/-!
# What sending a reply does

`xdna_mbox_send` touches the SRAM, two registers of the sending channel and the
counters, and nothing else. When the channel's ring lies inside the SRAM and its
tail inside the ring, the 32-bit arithmetic of the source is exact, and the call
either writes one frame at the offset it has chosen or leaves at most a tombstone.
-/

namespace Xdna

open ByteMemory RingLog

/-! ## Frames -/

/-- The length of a header. -/
@[simp] theorem MsgHeader.encode_length (h : MsgHeader) : h.encode.length = 16 := by
  simp [MsgHeader.encode]

/-- A header and the payload behind it, as they lie in a ring. -/
structure Frame where
  hdr : MsgHeader
  payload : List UInt8
  deriving DecidableEq

/-- The frame as it lies in a ring. -/
def Frame.encode (f : Frame) : List UInt8 := f.hdr.encode ++ f.payload

/-- The length of a frame. -/
@[simp] theorem Frame.encode_length (f : Frame) : f.encode.length = 16 + f.payload.length := by
  simp [Frame.encode]

/-- The frame that `xdna_mbox_send` writes. -/
def replyFrame (id opcode : UInt32) (payload : List UInt8) : Frame :=
  ⟨replyHeader id opcode (UInt32.ofNat payload.length), payload⟩

/-! ## What a send leaves alone -/

/-- The state `npu'` differs from `npu` only as a send on channel `c` may change it. -/
structure ReplyChange (c : ChanIdx) (npu npu' : Npu) : Prop where
  rest : npu' = { npu with sram := npu'.sram, chan := npu'.chan, stats := npu'.stats }
  chan : ∃ tail intr, npu'.chan =
    Function.update npu.chan c { npu.chan c with i2xTail := tail, intr := intr }
  count : npu'.stats.activeContexts = npu.stats.activeContexts

/-- Nothing has changed. -/
theorem ReplyChange.refl (c : ChanIdx) (npu : Npu) : ReplyChange c npu npu :=
  ⟨rfl, ⟨(npu.chan c).i2xTail, (npu.chan c).intr, by simp⟩, rfl⟩

private theorem ReplyChange.trans {c : ChanIdx} {npu npu' npu'' : Npu} (h : ReplyChange c npu npu')
    (h' : ReplyChange c npu' npu'') : ReplyChange c npu npu'' := by
  obtain ⟨hrest, ⟨_, _, hchan⟩, hcount⟩ := h
  obtain ⟨hrest', ⟨tail, intr, hchan'⟩, hcount'⟩ := h'
  refine ⟨?_, ⟨tail, intr, ?_⟩, hcount'.trans hcount⟩
  · rw [hrest', hrest]
  · rw [hchan', hchan]
    simp

/-- The heads are the driver's. -/
theorem ReplyChange.i2xHead {c : ChanIdx} {npu npu' : Npu} (h : ReplyChange c npu npu')
    (c' : ChanIdx) : (npu'.chan c').i2xHead = (npu.chan c').i2xHead := by
  obtain ⟨_, ⟨_, _, hchan⟩, _⟩ := h
  rw [hchan]
  by_cases hc : c' = c
  · subst hc
    simp
  · rw [Function.update_of_ne hc]

private theorem replyChange_sramCopy (c : ChanIdx) (npu : Npu) (off : ℕ) (bytes : List UInt8) :
    ReplyChange c npu (npu.sramCopy off bytes) :=
  ⟨rfl, ⟨(npu.chan c).i2xTail, (npu.chan c).intr, by simp [Npu.sramCopy]⟩, rfl⟩

private theorem replyChange_postFrame (c : ChanIdx) (npu : Npu) (start pkgSize : UInt32) :
    ReplyChange c npu (npu.postFrame c start pkgSize) :=
  ⟨rfl, ⟨start + pkgSize, 1, rfl⟩, rfl⟩

private theorem replyChange_ringTombstone (c : ChanIdx) (m : Machine) (off : UInt32) :
    ReplyChange c m.npu (m.ringTombstone c off).npu := by
  unfold Machine.ringTombstone
  split
  · exact .refl c _
  · rename_i hlim
    rw [Machine.emit_npu, Machine.modify_npu, Npu.sramWrite32, if_neg hlim]
    exact replyChange_sramCopy ..

private theorem replyChange_raiseIrq (host : Host) (c : ChanIdx) (m : Machine) :
    ReplyChange c m.npu (m.raiseIrq host c).npu := by
  unfold Machine.raiseIrq
  split
  · exact ⟨rfl, ⟨(m.npu.chan c).i2xTail, (m.npu.chan c).intr, by simp⟩, rfl⟩
  · exact .refl c _

private theorem replyChange_sendMark (c : ChanIdx) (m : Machine) (pkgSize : UInt32) :
    ReplyChange c m.npu (m.sendMark c pkgSize).npu := by
  unfold Machine.sendMark
  dsimp only
  split
  · exact replyChange_ringTombstone ..
  · exact .refl c _

private theorem replyChange_sendCopy (c : ChanIdx) (m : Machine) (off : ℕ) (hdr : MsgHeader)
    (payload : List UInt8) : ReplyChange c m.npu (m.sendCopy c off hdr payload).npu := by
  unfold Machine.sendCopy
  dsimp only
  split
  · exact replyChange_sramCopy ..
  · exact (replyChange_sramCopy ..).trans (replyChange_sramCopy ..)

section Send

variable (host : Host) (m : Machine) (c : ChanIdx) (id opcode : UInt32) (payload : List UInt8)

/-- `pkg_size`. -/
def pkgSize (payload : List UInt8) : UInt32 := msgHeaderSize + UInt32.ofNat payload.length

/-- The machine of a send that is not refused, when it raises the interrupt. -/
def sentMachine : Machine :=
  let ch := m.npu.chan c
  let start := ch.sendStart (pkgSize payload)
  ((m.sendMark c (pkgSize payload)).sendCopy c (ch.i2xBuf.toNat + start.toNat)
    (replyHeader id opcode (UInt32.ofNat payload.length)) payload).modify
      (·.postFrame c start (pkgSize payload))

/-- The ways in which a send can end: refused at once, refused because the ring is full,
or accepted. -/
inductive SendResult (host : Host) (m : Machine) (c : ChanIdx) (id opcode : UInt32)
    (payload : List UInt8) : Machine × Bool → Prop
  | refused (h : (m.npu.chan c).active = false ∨ (m.npu.chan c).usable < pkgSize payload) :
      SendResult host m c id opcode payload (m, false)
  | full (hactive : (m.npu.chan c).active = true)
      (hfits : ¬ (m.npu.chan c).usable < pkgSize payload)
      (hfull : (m.npu.chan c).sendFull (pkgSize payload) = true) :
      SendResult host m c id opcode payload (m.sendMark c (pkgSize payload), false)
  | sent (hactive : (m.npu.chan c).active = true)
      (hfits : ¬ (m.npu.chan c).usable < pkgSize payload)
      (hfull : (m.npu.chan c).sendFull (pkgSize payload) = false) :
      SendResult host m c id opcode payload
        ((sentMachine m c id opcode payload).raiseIrq host c, true)

/-- A send ends in one of the three ways. -/
theorem mboxSendBody_result :
    SendResult host m c id opcode payload (mboxSendBody host m c id opcode payload) := by
  unfold mboxSendBody
  dsimp only
  rw [← pkgSize]
  split
  · exact .refused (.inl (by simp_all))
  · rename_i hactive
    have hactive : (m.npu.chan c).active = true := by simpa using hactive
    split
    · exact .refused (.inr ‹_›)
    · rename_i hfits
      split
      · exact .full hactive hfits ‹_›
      · rename_i hfull
        exact .sent hactive hfits (by simpa using hfull)

/-- An accepted frame changes nothing but what a send may change. -/
theorem replyChange_sentMachine : ReplyChange c m.npu (sentMachine m c id opcode payload).npu :=
  ((replyChange_sendMark ..).trans (replyChange_sendCopy ..)).trans (replyChange_postFrame ..)

/-- A send changes nothing but what `ReplyChange` allows. -/
theorem mboxSend_change : ReplyChange c m.npu (mboxSend host m c id opcode payload).1.npu := by
  have h := mboxSendBody_result host m c id opcode payload
  unfold mboxSend
  rw [Machine.emit_npu]
  generalize mboxSendBody host m c id opcode payload = r at h ⊢
  cases h with
  | refused _ => exact .refl c _
  | full _ _ _ => exact replyChange_sendMark ..
  | sent _ _ _ => exact (replyChange_sentMachine ..).trans (replyChange_raiseIrq ..)

/-- A send calls no `dma_write`. -/
theorem mboxSend_dmaWrites :
    (mboxSend host m c id opcode payload).1.dmaWrites = m.dmaWrites := by
  have hmark (pkg : UInt32) : (m.sendMark c pkg).dmaWrites = m.dmaWrites := by
    unfold Machine.sendMark Machine.ringTombstone
    dsimp only
    split
    · split <;> rfl
    · rfl
  have hcopy (m : Machine) (off : ℕ) (hdr : MsgHeader) :
      (m.sendCopy c off hdr payload).dmaWrites = m.dmaWrites := by
    unfold Machine.sendCopy
    dsimp only
    split <;> rfl
  have hirq (m : Machine) : (m.raiseIrq host c).dmaWrites = m.dmaWrites := by
    unfold Machine.raiseIrq
    split <;> rfl
  have h := mboxSendBody_result host m c id opcode payload
  unfold mboxSend
  rw [Machine.emit_dmaWrites]
  generalize mboxSendBody host m c id opcode payload = r at h ⊢
  cases h with
  | refused _ => rfl
  | full _ _ _ => exact hmark _
  | sent _ _ _ => rw [hirq, sentMachine, Machine.modify_dmaWrites, hcopy, hmark]

/-- A send on an inactive channel does nothing. -/
theorem mboxSend_inactive (h : (m.npu.chan c).active = false) :
    mboxSend host m c id opcode payload = (m.emit (.send c id opcode payload false), false) := by
  simp [mboxSend, mboxSendBody, h]

end Send

/-! ## What a send does outside the state -/

/-- The events of a send on channel `c` in state `npu`, before it returns: writes to the SRAM
and, on an active channel, the interrupt. -/
inductive SendEvent (c : ChanIdx) (npu : Npu) : Event → Prop
  | write (off len : ℕ) : SendEvent c npu (.ringWrite c off len)
  | irq {npu' : Npu} (hactive : (npu.chan c).active = true) (h : ReplyChange c npu npu') :
      SendEvent c npu (.raiseIrq (npu'.chan c).index npu')

private theorem extends_ringTombstone (m : Machine) (c : ChanIdx) (off : UInt32) (npu : Npu) :
    m.Extends (SendEvent c npu) (m.ringTombstone c off) := by
  unfold Machine.ringTombstone
  split
  · exact .refl m
  · exact (Machine.Extends.modify _).trans (.emit (.write _ _))

/-- The write of the tombstone is an event of the send. -/
theorem extends_sendMark (m : Machine) (c : ChanIdx) (pkgSize : UInt32) (npu : Npu) :
    m.Extends (SendEvent c npu) (m.sendMark c pkgSize) := by
  unfold Machine.sendMark
  dsimp only
  split
  · exact extends_ringTombstone ..
  · exact .refl m

/-- The copies of header and payload are events of the send. -/
theorem extends_sendCopy (m : Machine) (c : ChanIdx) (off : ℕ) (hdr : MsgHeader)
    (payload : List UInt8) (npu : Npu) :
    m.Extends (SendEvent c npu) (m.sendCopy c off hdr payload) := by
  have hcopy (m : Machine) (off : ℕ) (bytes : List UInt8) :
      m.Extends (SendEvent c npu) (m.ringCopy c off bytes) :=
    (Machine.Extends.modify _).trans (.emit (.write _ _))
  unfold Machine.sendCopy
  dsimp only
  split
  · exact hcopy ..
  · exact (hcopy ..).trans (hcopy ..)

private theorem extends_raiseIrq {host : Host} {m : Machine} {c : ChanIdx} {npu : Npu}
    (hactive : (npu.chan c).active = true) (h : ReplyChange c npu m.npu) :
    m.Extends (SendEvent c npu) (m.raiseIrq host c) := by
  unfold Machine.raiseIrq
  split
  · exact (Machine.Extends.emit (.irq hactive h)).trans (.modify _)
  · exact .refl m

/-- A send makes no DMA call, and its events end with its return. -/
theorem mboxSend_trace (host : Host) (m : Machine) (c : ChanIdx) (id opcode : UInt32)
    (payload : List UInt8) :
    ∃ m₁ : Machine, m.Extends (SendEvent c m.npu) m₁ ∧
      (mboxSend host m c id opcode payload).1.trace =
        m₁.trace ++ [.send c id opcode payload (mboxSend host m c id opcode payload).2] := by
  have h := mboxSendBody_result host m c id opcode payload
  unfold mboxSend
  generalize mboxSendBody host m c id opcode payload = r at h ⊢
  refine ⟨r.1, ?_, rfl⟩
  cases h with
  | refused _ => exact .refl m
  | full _ _ _ => exact extends_sendMark ..
  | sent hactive _ _ =>
    exact ((extends_sendMark ..).trans ((extends_sendCopy ..).trans (.modify _))).trans
      (extends_raiseIrq hactive (replyChange_sentMachine ..))

/-! ## Sends within the ring -/

/-- A copy that ends inside the SRAM is not cut off. -/
theorem Npu.sramCopy_eq {npu : Npu} {off : ℕ} {bytes : List UInt8}
    (h : off + bytes.length ≤ barSramSize) :
    npu.sramCopy off bytes = { npu with sram := npu.sram.write off bytes } := by
  rw [Npu.sramCopy, List.take_of_length_le (by omega)]

/-- The bytes of a tombstone. -/
def tombstoneBytes : List UInt8 := le32 mboxTombstone

/-- A tombstone is a word. -/
@[simp] theorem tombstoneBytes_length : tombstoneBytes.length = 4 := le32_length _

/-- The `i2x` ring of an active channel is a block of the SRAM, and the tail is an offset at
which a tombstone can be put. The head is the guest's and may be anything. -/
structure ReplyRing (ch : Channel) (base size : ℕ) : Prop where
  active : ch.active = true
  buf : ch.i2xBuf.toNat = base
  size_eq : ch.i2xSize.toNat = size
  inSram : base + size ≤ barSramSize
  tail_le : ch.i2xTail.toNat + 4 ≤ size

/-- A frame of `n` bytes goes past the end of the ring: it does not fit behind the tail, and the
head is so far behind the ring that it neither sends the writer back to the start nor stops it. -/
def Channel.Overruns (ch : Channel) (n : ℕ) : Prop :=
  ch.i2xSize.toNat < ch.i2xHead.toNat ∧ ch.i2xSize.toNat < ch.i2xTail.toNat + n + 4 ∧
    ch.i2xTail.toNat + n < ch.i2xHead.toNat

instance (ch : Channel) (n : ℕ) : Decidable (ch.Overruns n) :=
  inferInstanceAs (Decidable (_ ∧ _ ∧ _))

/-- With the head at an offset of the ring no frame goes past the end. -/
theorem Channel.not_overruns {ch : Channel} (h : ch.i2xHead.toNat ≤ ch.i2xSize.toNat) (n : ℕ) :
    ¬ ch.Overruns n := fun hover => Nat.not_le_of_lt hover.1 h

section Exact

variable {ch : Channel} {base size : ℕ} {payload : List UInt8}

/-- The length of a frame, as long as it is a 32-bit number. -/
theorem pkgSize_toNat (h : 16 + payload.length < 2 ^ 32) :
    (pkgSize payload).toNat = 16 + payload.length := by
  rw [pkgSize, UInt32.toNat_add, UInt32.toNat_ofNat', msgHeaderSize]
  simp only [UInt32.reduceToNat]
  omega

namespace ReplyRing

variable (h : ReplyRing ch base size)

include h

private theorem usable_toNat : ch.usable.toNat = size - 4 := by
  have := h.tail_le
  have := h.size_eq
  rw [Channel.usable, UInt32.toNat_sub_of_le _ _ (by
    rw [UInt32.le_iff_toNat_le]; simp only [UInt32.reduceToNat]; omega)]
  simp only [UInt32.reduceToNat]
  omega

/-- A frame is refused at once exactly when it is longer than the usable part of the ring. -/
theorem usable_lt_iff (hlen : 16 + payload.length < 2 ^ 32) :
    ch.usable < pkgSize payload ↔ size - 4 < 16 + payload.length := by
  rw [UInt32.lt_iff_toNat_lt, h.usable_toNat, pkgSize_toNat hlen]

section Fits

variable (hlen : 16 + payload.length ≤ size - 4)

include hlen

private theorem pkgSize_eq : (pkgSize payload).toNat = 16 + payload.length := by
  have := h.inSram
  rw [pkgSize_toNat (by unfold barSramSize at this; omega)]

private theorem tail_add :
    (ch.i2xTail + pkgSize payload).toNat = ch.i2xTail.toNat + (16 + payload.length) := by
  have := h.inSram
  have := h.tail_le
  rw [UInt32.toNat_add, h.pkgSize_eq hlen]
  unfold barSramSize at *
  omega

private theorem sendWraps_iff :
    ch.sendWraps (pkgSize payload) = true ↔
      Wraps (size - 4) ch.i2xHead.toNat ch.i2xTail.toNat (16 + payload.length) := by
  rw [Channel.sendWraps, Bool.and_eq_true, decide_eq_true_eq, decide_eq_true_eq,
    UInt32.le_iff_toNat_le, UInt32.lt_iff_toNat_lt, h.usable_toNat, h.tail_add hlen, Wraps]

/-- The frame begins at zero if the writer goes back, and at the tail otherwise. -/
theorem sendStart_toNat :
    (ch.sendStart (pkgSize payload)).toNat =
      if Wraps (size - 4) ch.i2xHead.toNat ch.i2xTail.toNat (16 + payload.length) then 0
      else ch.i2xTail.toNat := by
  unfold Channel.sendStart
  by_cases hw : Wraps (size - 4) ch.i2xHead.toNat ch.i2xTail.toNat (16 + payload.length)
  · rw [if_pos ((h.sendWraps_iff hlen).mpr hw), if_pos hw]
    rfl
  · rw [if_neg (fun h' => hw ((h.sendWraps_iff hlen).mp h')), if_neg hw]

private theorem sendStart_le : (ch.sendStart (pkgSize payload)).toNat + 4 ≤ size := by
  have := h.tail_le
  rw [h.sendStart_toNat hlen]
  split <;> omega

/-- The end of the frame does not come around. -/
theorem start_add :
    (ch.sendStart (pkgSize payload) + pkgSize payload).toNat =
      (ch.sendStart (pkgSize payload)).toNat + (16 + payload.length) := by
  have := h.inSram
  have := h.sendStart_le hlen
  rw [UInt32.toNat_add, h.pkgSize_eq hlen]
  unfold barSramSize at *
  omega

/-- The ring is full if the frame would reach the head. -/
theorem sendFull_iff :
    ch.sendFull (pkgSize payload) = true ↔
      (ch.sendStart (pkgSize payload)).toNat < ch.i2xHead.toNat ∧
        ch.i2xHead.toNat ≤ (ch.sendStart (pkgSize payload)).toNat + (16 + payload.length) := by
  rw [Channel.sendFull, Bool.and_eq_true, decide_eq_true_eq, decide_eq_true_eq,
    UInt32.le_iff_toNat_le, UInt32.lt_iff_toNat_lt, h.start_add hlen]

/-- An accepted frame that does not overrun the ring leaves room for a tombstone behind it. This is
where the alignment of the frames is needed. -/
theorem start_fits (hover : ¬ ch.Overruns (16 + payload.length)) (hsize : size % 4 = 0)
    (halign : ch.i2xTail.toNat % 4 = 0) (hmod : payload.length % 4 = 0)
    (hfull : ch.sendFull (pkgSize payload) = false) :
    (ch.sendStart (pkgSize payload)).toNat % 4 = 0 ∧
      (ch.sendStart (pkgSize payload)).toNat + (16 + payload.length) + 4 ≤ size := by
  have hnot := mt (h.sendFull_iff hlen).mpr (by rw [hfull]; simp)
  have hstart := h.sendStart_toNat hlen
  rw [Channel.Overruns, h.size_eq] at hover
  by_cases hw : Wraps (size - 4) ch.i2xHead.toNat ch.i2xTail.toNat (16 + payload.length)
  · rw [if_pos hw] at hstart
    omega
  · rw [if_neg hw] at hstart
    unfold Wraps at hw
    omega

end Fits

end ReplyRing

/-! ### Effects of an accepted and of a refused frame -/

/-- The SRAM after the tombstone. -/
def markedSram (npu : Npu) (c : ChanIdx) (base size n : ℕ) : Memory :=
  if Wraps (size - 4) (npu.chan c).i2xHead.toNat (npu.chan c).i2xTail.toNat n then
    npu.sram.write (base + (npu.chan c).i2xTail.toNat) tombstoneBytes
  else npu.sram

/-- The write of the tombstone, as an event. -/
def markEvents (npu : Npu) (c : ChanIdx) (base size n : ℕ) : List Event :=
  if Wraps (size - 4) (npu.chan c).i2xHead.toNat (npu.chan c).i2xTail.toNat n then
    [.ringWrite c (base + (npu.chan c).i2xTail.toNat) 4]
  else []

/-- The copies of header and payload, as events. -/
def copyEvents (c : ChanIdx) (off : ℕ) (payload : List UInt8) : List Event :=
  .ringWrite c off 16 :: if payload = [] then [] else [.ringWrite c (off + 16) payload.length]

/-- The interrupt, as an event. -/
def irqEvents (host : Host) (c : ChanIdx) (npu : Npu) : List Event :=
  if host.raiseIrq then [.raiseIrq (npu.chan c).index npu] else []

/-- What the tombstone and the interrupt do not touch is written out in full here. -/
theorem sendMark_eq {m : Machine} {c : ChanIdx} (h : ReplyRing (m.npu.chan c) base size)
    (hlen : 16 + payload.length ≤ size - 4) :
    m.sendMark c (pkgSize payload) =
      { m with
        npu := { m.npu with sram := markedSram m.npu c base size (16 + payload.length) }
        trace := m.trace ++ markEvents m.npu c base size (16 + payload.length) } := by
  have hin := h.inSram
  have htail := h.tail_le
  have hoff : ((m.npu.chan c).i2xBuf + (m.npu.chan c).i2xTail).toNat =
      base + (m.npu.chan c).i2xTail.toNat := by
    rw [UInt32.toNat_add, h.buf]
    unfold barSramSize at hin
    omega
  have hlim : ¬ barSramSize <
      ((m.npu.chan c).i2xBuf + (m.npu.chan c).i2xTail + 4).toNat := by
    rw [UInt32.toNat_add, hoff]
    unfold barSramSize at *
    simp only [UInt32.reduceToNat]
    omega
  unfold Machine.sendMark markedSram markEvents
  by_cases hw : Wraps (size - 4) (m.npu.chan c).i2xHead.toNat (m.npu.chan c).i2xTail.toNat
      (16 + payload.length)
  · rw [if_pos ((h.sendWraps_iff hlen).mpr hw), if_pos hw, if_pos hw, Machine.ringTombstone,
      if_neg hlim, hoff]
    simp only [Machine.modify, Npu.sramWrite32, if_neg hlim, hoff]
    rw [Npu.sramCopy_eq (by rw [le32_length]; omega)]
    rfl
  · rw [if_neg (fun h' => hw ((h.sendWraps_iff hlen).mp h')), if_neg hw, if_neg hw, List.append_nil]

private theorem sendCopy_eq {m : Machine} {c : ChanIdx} {off : ℕ} {hdr : MsgHeader}
    (hin : off + (16 + payload.length) ≤ barSramSize) :
    m.sendCopy c off hdr payload =
      { m with
        npu := { m.npu with sram := m.npu.sram.write off (Frame.encode ⟨hdr, payload⟩) }
        trace := m.trace ++ copyEvents c off payload } := by
  have hlt : payload.length < 2 ^ 32 := by
    unfold barSramSize at hin
    omega
  have hzero : UInt32.ofNat payload.length = 0 ↔ payload = [] := by
    rw [← UInt32.toNat_inj, UInt32.toNat_ofNat_of_lt' hlt, ← List.length_eq_zero_iff]
    rfl
  have hsize : msgHeaderSize.toNat = 16 := rfl
  unfold Machine.sendCopy Machine.ringCopy Machine.modify copyEvents
  simp only [hzero, hsize, MsgHeader.encode_length]
  rw [Npu.sramCopy_eq (by rw [MsgHeader.encode_length]; omega)]
  split
  · rename_i hnil
    subst hnil
    simp [Machine.emit, Frame.encode]
  · rw [Npu.sramCopy_eq (by omega)]
    have happ := Memory.write_append m.npu.sram off hdr.encode payload
    rw [MsgHeader.encode_length] at happ
    simp only [Machine.emit, happ, Frame.encode, List.append_assoc, List.cons_append,
      List.nil_append]

section Outcome

variable (host : Host) {m : Machine} {c : ChanIdx} (id opcode : UInt32)

/-- The interrupt does not touch the SRAM. -/
theorem sram_raiseIrq (m : Machine) (c : ChanIdx) :
    (m.raiseIrq host c).npu.sram = m.npu.sram := by
  unfold Machine.raiseIrq
  split <;> rfl

/-- Wherever a send puts its frame, if that is inside the SRAM the frame can be read there. -/
theorem mboxSend_stored (h : (mboxSend host m c id opcode payload).2 = true)
    (hin : (m.npu.chan c).i2xBuf.toNat + ((m.npu.chan c).sendStart (pkgSize payload)).toNat +
      (16 + payload.length) ≤ barSramSize) :
    (mboxSend host m c id opcode payload).1.npu.sram.read
        ((m.npu.chan c).i2xBuf.toNat + ((m.npu.chan c).sendStart (pkgSize payload)).toNat)
        (16 + payload.length) =
      (replyFrame id opcode payload).encode := by
  have hres := mboxSendBody_result host m c id opcode payload
  unfold mboxSend at h ⊢
  generalize mboxSendBody host m c id opcode payload = r at h hres ⊢
  cases hres with
  | refused _ => cases h
  | full _ _ _ => cases h
  | sent _ _ _ =>
    rw [Machine.emit_npu, sram_raiseIrq, sentMachine, Machine.modify_npu, sendCopy_eq hin]
    have hself := Memory.read_write_self (m.sendMark c (pkgSize payload)).npu.sram
      ((m.npu.chan c).i2xBuf.toNat + ((m.npu.chan c).sendStart (pkgSize payload)).toNat)
      (replyFrame id opcode payload).encode
    rwa [Frame.encode_length] at hself

/-- A full ring costs at most a tombstone. -/
theorem mboxSend_full (h : ReplyRing (m.npu.chan c) base size)
    (hlen : 16 + payload.length ≤ size - 4)
    (hfull : (m.npu.chan c).sendFull (pkgSize payload) = true) :
    mboxSend host m c id opcode payload =
      ({ m with
        npu := { m.npu with sram := markedSram m.npu c base size (16 + payload.length) }
        trace := m.trace ++ (markEvents m.npu c base size (16 + payload.length) ++
          [.send c id opcode payload false]) }, false) := by
  have hin := h.inSram
  have hfits : ¬ (m.npu.chan c).usable < pkgSize payload := by
    rw [h.usable_lt_iff (by unfold barSramSize at hin; omega)]
    omega
  have hres := mboxSendBody_result host m c id opcode payload
  unfold mboxSend
  generalize mboxSendBody host m c id opcode payload = r at hres ⊢
  cases hres with
  | refused hno =>
    rcases hno with hno | hno
    · rw [h.active] at hno
      cases hno
    · exact absurd hno hfits
  | full _ _ _ => simp [sendMark_eq h hlen, Machine.emit]
  | sent _ _ hnot =>
    rw [hfull] at hnot
    cases hnot

/-- The device when it raises the interrupt for an accepted frame. -/
def sentNpu (npu : Npu) (c : ChanIdx) (base size : ℕ) (id opcode : UInt32)
    (payload : List UInt8) : Npu :=
  let start := (npu.chan c).sendStart (pkgSize payload)
  { npu with
    sram := (markedSram npu c base size (16 + payload.length)).write (base + start.toNat)
      (replyFrame id opcode payload).encode
    chan := Function.update npu.chan c
      { npu.chan c with i2xTail := start + pkgSize payload, intr := 1 }
    stats := { npu.stats with mboxMsgsOut := npu.stats.mboxMsgsOut + 1 } }

/-- The events of an accepted frame, up to the return of `xdna_mbox_send`. -/
def sentEvents (host : Host) (npu : Npu) (c : ChanIdx) (base size : ℕ) (id opcode : UInt32)
    (payload : List UInt8) : List Event :=
  markEvents npu c base size (16 + payload.length) ++
    copyEvents c (base + ((npu.chan c).sendStart (pkgSize payload)).toNat) payload ++
    irqEvents host c (sentNpu npu c base size id opcode payload) ++
    [.send c id opcode payload true]

/-- The counter of interrupts after an accepted frame. -/
def countIrq (host : Host) (npu : Npu) : Npu :=
  if host.raiseIrq then
    { npu with stats := { npu.stats with irqsRaised := npu.stats.irqsRaised + 1 } }
  else npu

/-- The counter of interrupts is not part of a channel. -/
@[simp] theorem countIrq_chan (npu : Npu) : (countIrq host npu).chan = npu.chan := by
  unfold countIrq
  split <;> rfl

/-- The counter of interrupts is not part of the SRAM. -/
@[simp] theorem countIrq_sram (npu : Npu) : (countIrq host npu).sram = npu.sram := by
  unfold countIrq
  split <;> rfl

/-- An accepted frame is written in one piece, then the tail is published, then the
interrupt is raised. -/
theorem mboxSend_sent (h : ReplyRing (m.npu.chan c) base size)
    (hlen : 16 + payload.length ≤ size - 4)
    (hfull : (m.npu.chan c).sendFull (pkgSize payload) = false)
    (hend : ((m.npu.chan c).sendStart (pkgSize payload)).toNat + (16 + payload.length) ≤ size) :
    mboxSend host m c id opcode payload =
      ({ m with
        npu := countIrq host (sentNpu m.npu c base size id opcode payload)
        trace := m.trace ++ sentEvents host m.npu c base size id opcode payload }, true) := by
  have hin := h.inSram
  have hfits : ¬ (m.npu.chan c).usable < pkgSize payload := by
    rw [h.usable_lt_iff (by unfold barSramSize at hin; omega)]
    omega
  have hres := mboxSendBody_result host m c id opcode payload
  unfold mboxSend
  generalize mboxSendBody host m c id opcode payload = r at hres ⊢
  cases hres with
  | refused hno =>
    rcases hno with hno | hno
    · rw [h.active] at hno
      cases hno
    · exact absurd hno hfits
  | full _ _ hnot =>
    rw [hfull] at hnot
    cases hnot
  | sent _ _ _ =>
    have hnpu : sentMachine m c id opcode payload =
        { m with
          npu := sentNpu m.npu c base size id opcode payload
          trace := m.trace ++ (markEvents m.npu c base size (16 + payload.length) ++
            copyEvents c (base + ((m.npu.chan c).sendStart (pkgSize payload)).toNat)
              payload) } := by
      unfold sentMachine
      simp only [sendMark_eq h hlen, h.buf]
      rw [sendCopy_eq (by omega)]
      simp [Machine.modify, Npu.postFrame, Npu.setChan, sentNpu, replyFrame]
    rw [hnpu]
    unfold Machine.raiseIrq sentEvents irqEvents countIrq
    split <;> simp [Machine.emit, Machine.modify]

end Outcome

end Exact

end Xdna
