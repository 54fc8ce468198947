import Xdna.Driver
import Xdna.Consistency

/-!
# What the driver sees

The driver's accesses are aligned words and blocks of the SRAM, so that each is one
register access or one copy. What a pass of `mbox_recv` finds follows from what the
ring holds.
-/

namespace Xdna

open ByteMemory RingLog

/-! ## Aligned accesses -/

private theorem wordCount_four : wordCount 4 = 1 := rfl

/-- A word read of a register BAR. -/
theorem mmioRead_word (npu : Npu) {bar : Int} (off : UInt32) (hbar : bar ≠ barSram) :
    mmioRead npu bar off 4 = (regRead npu bar off).toUInt64 := by
  have hbuf : mmioReadBuf npu bar off 4 = le32 (regRead npu bar off) := by
    rw [mmioReadBuf, if_neg hbar, wordCount_four]
    simp only [List.range_one, List.flatMap_cons, List.flatMap_nil, List.append_nil, Nat.mul_zero,
      Nat.sub_zero]
    rw [List.take_of_length_le (by simp)]
    simp
  rw [mmioRead, show min 4 8 = 4 from rfl, hbuf, le32, leValue_leBytes_of_lt (UInt32.toNat_lt _)]
  apply UInt64.toNat_inj.mp
  have := (regRead npu bar off).toNat_lt
  simp only [UInt32.toNat_toUInt64, UInt64.toNat_ofNat']
  omega

private theorem rd32_eq (m : Machine) {bar : Int} (off : UInt32) (hbar : bar ≠ barSram) :
    rd32 m bar off = regRead m.npu bar off := by
  rw [rd32, mmioRead_word m.npu off hbar, UInt32.toUInt32_toUInt64]

/-- A read of a mailbox register. -/
theorem rd32_mbox (m : Machine) (off : UInt32) : rd32 m barMbox off = mboxRegRead m.npu off := by
  rw [rd32_eq m off (by decide), regRead, if_neg (by decide), if_pos rfl]

/-- A read of a register of the REG BAR. -/
theorem rd32_reg (m : Machine) (off : UInt32) : rd32 m barReg off = regBarRead m.npu off := by
  rw [rd32_eq m off (by decide), regRead, if_pos rfl]

/-- The low half of a number of 64 bits. -/
theorem take_le64 (v : UInt64) : (le64 v).take 4 = le32 v.toUInt32 := by
  rw [le64, take_leBytes (by omega), le32, UInt64.toNat_toUInt32, ← leBytes_mod 4]
  rfl

/-- An aligned word is written by one register access. -/
theorem writeWords_le32 (off v : UInt32) : writeWords off (le32 v) = [(off, v)] := by
  rw [writeWords, le32_length, wordCount_four]
  simp only [List.range_one, List.map_cons, List.map_nil, Nat.mul_zero, List.drop_zero]
  rw [List.take_of_length_le (by simp), ofNat_leValue_le32]
  simp

/-- A word written to a register BAR, of which the low half counts. -/
theorem mmioWrite_word (host : Host) (m : Machine) {bar : Int} (off : UInt32) (val : UInt64)
    (hbar : bar ≠ barSram) :
    mmioWrite host m bar off val 4 = regWrite host bar m (off, val.toUInt32) := by
  rw [mmioWrite, show min 4 8 = 4 from rfl, take_le64, mmioWriteBuf, if_neg hbar, writeWords_le32,
    List.foldl_cons, List.foldl_nil]

/-- A write to a mailbox register. -/
theorem wr32_mbox (host : Host) (m : Machine) (off v : UInt32) :
    wr32 host m barMbox off v = mboxRegWrite host m off v := by
  rw [wr32, mmioWrite_word host m off _ (by decide), UInt32.toUInt32_toUInt64, regWrite,
    if_neg (by decide), if_pos rfl]

/-- A write to a register of the REG BAR. -/
theorem wr32_reg (host : Host) (m : Machine) (off v : UInt32) :
    wr32 host m barReg off v = regBarWrite host m off v := by
  rw [wr32, mmioWrite_word host m off _ (by decide), UInt32.toUInt32_toUInt64, regWrite,
    if_pos rfl]

/-- A block read inside the SRAM. -/
theorem mmioReadBuf_sram {npu : Npu} {off : UInt32} {len : ℕ}
    (h : off.toNat + len ≤ barSramSize) :
    mmioReadBuf npu barSram off len = npu.sram.read off.toNat len := by
  rw [mmioReadBuf, if_pos rfl, if_neg (by omega)]

/-- A block write inside the SRAM. -/
theorem mmioWriteBuf_sram {host : Host} {m : Machine} {off : UInt32} {bytes : List UInt8}
    (h : off.toNat + bytes.length ≤ barSramSize) :
    mmioWriteBuf host m barSram off bytes =
      { m with npu := { m.npu with sram := m.npu.sram.write off.toNat bytes } } := by
  rw [mmioWriteBuf, if_pos rfl, if_neg (by omega), Machine.modify, Npu.sramCopy_eq h]

/-! ## Channel registers -/

/-- The registers of channel `c` are where the driver is told. -/
theorem chanFromOff_base (c : ChanIdx) :
    chanFromOff (mboxChanBase c.val + mboxX2iHeadOff) = some (c, mboxX2iHeadOff) ∧
    chanFromOff (mboxChanBase c.val + mboxX2iTailOff) = some (c, mboxX2iTailOff) ∧
    chanFromOff (mboxChanBase c.val + mboxI2xHeadOff) = some (c, mboxI2xHeadOff) ∧
    chanFromOff (mboxChanBase c.val + mboxI2xHeadOff + 4) = some (c, mboxIntrOff) ∧
    chanFromOff (mboxChanBase c.val + mboxI2xTailOff) = some (c, mboxI2xTailOff) := by
  have hall : ∀ c : ChanIdx,
      chanFromOff (mboxChanBase c.val + mboxX2iHeadOff) = some (c, mboxX2iHeadOff) ∧
      chanFromOff (mboxChanBase c.val + mboxX2iTailOff) = some (c, mboxX2iTailOff) ∧
      chanFromOff (mboxChanBase c.val + mboxI2xHeadOff) = some (c, mboxI2xHeadOff) ∧
      chanFromOff (mboxChanBase c.val + mboxI2xHeadOff + 4) = some (c, mboxIntrOff) ∧
      chanFromOff (mboxChanBase c.val + mboxI2xTailOff) = some (c, mboxI2xTailOff) := by decide
  exact hall c

/-- The driver publishes a new head of the `i2x` ring. -/
def publishHead (m : Machine) (c : ChanIdx) (v : UInt32) : Machine :=
  m.modify fun npu => npu.setChan c { npu.chan c with i2xHead := v }

/-- The driver acknowledges the interrupt. -/
def ackIntr (m : Machine) (c : ChanIdx) : Machine :=
  m.modify fun npu => npu.setChan c { npu.chan c with intr := 0 }

/-- The driver reads the head of the device. -/
theorem mboxRegRead_x2iHead (npu : Npu) (c : ChanIdx) :
    mboxRegRead npu (mboxChanBase c.val + mboxX2iHeadOff) = (npu.chan c).x2iHead := by
  rw [mboxRegRead, (chanFromOff_base c).1]
  rfl

/-- The driver reads the tail of the device. -/
theorem mboxRegRead_i2xTail (npu : Npu) (c : ChanIdx) :
    mboxRegRead npu (mboxChanBase c.val + mboxI2xTailOff) = (npu.chan c).i2xTail := by
  rw [mboxRegRead, (chanFromOff_base c).2.2.2.2]
  rfl

/-- The driver stores its head. -/
theorem mboxRegWrite_i2xHead (host : Host) (m : Machine) (c : ChanIdx) (v : UInt32) :
    mboxRegWrite host m (mboxChanBase c.val + mboxI2xHeadOff) v = publishHead m c v := by
  rw [mboxRegWrite, (chanFromOff_base c).2.2.1]
  rfl

/-- The driver acknowledges the interrupt. -/
theorem mboxRegWrite_intr (host : Host) (m : Machine) (c : ChanIdx) :
    mboxRegWrite host m (mboxChanBase c.val + mboxI2xHeadOff + 4) 0 = ackIntr m c := by
  rw [mboxRegWrite, (chanFromOff_base c).2.2.2.1]
  rfl

/-! ## Frames in memory -/

/-- A header that lies in memory is read back. -/
theorem MsgHeader.decode_of_read {mem : Memory} {off : ℕ} {h : MsgHeader}
    (hread : mem.read off 16 = h.encode) : MsgHeader.decode mem off = h := by
  have hsplit : mem.read off 16 = mem.read off 4 ++ (mem.read (off + 4) 4 ++
      (mem.read (off + 8) 4 ++ mem.read (off + 12) 4)) := by
    rw [show 16 = 4 + (4 + (4 + 4)) from rfl, Memory.read_add, Memory.read_add, Memory.read_add]
  rw [hsplit, MsgHeader.encode] at hread
  simp only [List.append_assoc] at hread
  obtain ⟨h₁, hread⟩ := List.append_inj hread (by simp)
  obtain ⟨h₂, hread⟩ := List.append_inj hread (by simp)
  obtain ⟨h₃, h₄⟩ := List.append_inj hread (by simp)
  rw [MsgHeader.decode, Memory.word32_of_read h₁, Memory.word32_of_read h₂,
    Memory.word32_of_read h₃, Memory.word32_of_read h₄]

/-- The header gives the length of the payload. -/
def Frame.WellFormed (f : Frame) : Prop := f.hdr.totalSize.toNat = f.payload.length

/-- The parts of a frame that lies in memory. -/
theorem Frame.read_parts {mem : Memory} {off : ℕ} {f : Frame}
    (h : mem.read off f.encode.length = f.encode) :
    mem.read off 4 = le32 f.hdr.totalSize ∧ mem.read off 16 = f.hdr.encode ∧
      mem.read (off + 16) f.payload.length = f.payload := by
  rw [Frame.encode_length, Memory.read_add, Frame.encode] at h
  obtain ⟨hhdr, hpay⟩ := List.append_inj h (by simp)
  refine ⟨?_, hhdr, hpay⟩
  have htake := congrArg (List.take 4) hhdr
  rw [show 16 = 4 + 12 from rfl, Memory.read_add, List.take_left' (by simp),
    MsgHeader.encode] at htake
  rw [htake]
  simp only [List.append_assoc]
  exact List.take_left' (by simp)

/-- A reply is well formed if its length is a 32-bit number. -/
theorem replyFrame_wellFormed (id opcode : UInt32) {payload : List UInt8}
    (h : payload.length < 2 ^ 32) : (replyFrame id opcode payload).WellFormed :=
  UInt32.toNat_ofNat_of_lt' h

/-! ## A pass of `mbox_recv` -/

/-- The replies in the `i2x` ring of channel `c`. -/
abbrev HoldsReplies (npu : Npu) (c : ChanIdx) (fs : List Frame) : Prop :=
  Holds Frame.encode tombstoneBytes (npu.sram.window (i2xBase c)) (ringSize c - 4)
    (npu.chan c).i2xHead.toNat (npu.chan c).i2xTail.toNat fs

/-- The driver of channel `c` knows its ring, and its copy of the head is the published one. -/
structure Drv.InSync (d : Drv) (npu : Npu) (c : ChanIdx) : Prop where
  ring : HasRing c (npu.chan c)
  i2x : d.i2x = (Drv.ofChannel c (npu.chan c)).i2x
  head : d.i2xHead = (npu.chan c).i2xHead

/-- The `i2x` ring of a channel has 4 or 8 KiB and lies in the SRAM. -/
theorem i2xBase_bounds (c : ChanIdx) :
    0x1000 ≤ ringSize c ∧ ringSize c ≤ 0x2000 ∧ i2xBase c + ringSize c ≤ barSramSize := by
  have hall : ∀ c : ChanIdx,
      0x1000 ≤ ringSize c ∧ ringSize c ≤ 0x2000 ∧ i2xBase c + ringSize c ≤ barSramSize := by decide
  exact hall c

/-- The driver finds nothing, a tombstone or the first of the unread replies. -/
theorem recvPass_holds (host : Host) {d : Drv} {m : Machine} {c : ChanIdx} {unread : List Frame}
    (hd : d.InSync m.npu c) (hwf : ∀ f ∈ unread, f.WellFormed)
    (hholds : HoldsReplies m.npu c unread) :
    (unread = [] ∧ (m.npu.chan c).i2xHead = (m.npu.chan c).i2xTail ∧
      recvPass host d m = (d, m, .empty)) ∨
    (0 < (m.npu.chan c).i2xHead.toNat ∧
      recvPass host d m = ({ d with i2xHead := 0 }, publishHead m c 0, .tombstone) ∧
      HoldsReplies (publishHead m c 0).npu c unread) ∨
    (∃ f rest v, unread = f :: rest ∧
      recvPass host d m = ({ d with i2xHead := v }, publishHead m c v, .frame f) ∧
      HoldsReplies (publishHead m c v).npu c rest) := by
  obtain ⟨hlarge, hsmall, hsram⟩ := i2xBase_bounds c
  have hbounds := hholds.bounds
  have hbuf := hd.ring.i2xBuf
  have hsize := hd.ring.i2xSize
  have htail : rd32 m barMbox d.i2x.tailReg = (m.npu.chan c).i2xTail := by
    rw [rd32_mbox, hd.i2x]
    exact mboxRegRead_i2xTail m.npu c
  have hpublish (v : UInt32) : wr32 host m barMbox d.i2x.headReg v = publishHead m c v := by
    rw [wr32_mbox, hd.i2x]
    exact mboxRegWrite_i2xHead host m c v
  have hwrap : (if (m.npu.chan c).i2xHead = d.i2x.rbSize then 0 else (m.npu.chan c).i2xHead) =
      (m.npu.chan c).i2xHead := by
    rw [if_neg]
    intro heq
    rw [heq, hd.i2x] at hbounds
    have : (Drv.ofChannel c (m.npu.chan c)).i2x.rbSize.toNat = ringSize c := hsize
    omega
  have hoff : (d.i2x.rbStart + (m.npu.chan c).i2xHead).toNat =
      i2xBase c + (m.npu.chan c).i2xHead.toNat := by
    rw [hd.i2x, UInt32.toNat_add, show (Drv.ofChannel c (m.npu.chan c)).i2x.rbStart.toNat =
      i2xBase c from hbuf]
    unfold barSramSize at hsram
    omega
  have hpeek : UInt32.ofNat (leValue (mmioReadBuf m.npu barSram
      (d.i2x.rbStart + (m.npu.chan c).i2xHead) 4)) =
      (m.npu.sram.window (i2xBase c)).word32 (m.npu.chan c).i2xHead.toNat := by
    rw [mmioReadBuf_sram (by omega), hoff, Memory.word32, Memory.window_read]
  have hpub (v : UInt32) (fs : List Frame) : HoldsReplies (publishHead m c v).npu c fs ↔
      Holds Frame.encode tombstoneBytes (m.npu.sram.window (i2xBase c)) (ringSize c - 4)
        v.toNat (m.npu.chan c).i2xTail.toNat fs := by
    simp [HoldsReplies, publishHead, Npu.setChan]
  unfold recvPass
  dsimp only
  rw [htail, hd.head, hwrap, hpeek]
  rcases hholds.next (fun f => by simp) with ⟨heq, hnil⟩ | ⟨hlt, hmark, hrest⟩ |
    ⟨f, rest, hcons, hne, hframe, -, hrest⟩
  · have heq := UInt32.toNat_inj.mp heq
    exact .inl ⟨hnil, heq, by rw [if_pos heq]⟩
  · have hne : (m.npu.chan c).i2xHead ≠ (m.npu.chan c).i2xTail := by
      intro heq
      rw [heq] at hlt
      exact absurd hlt (Nat.lt_irrefl _)
    rw [tombstoneBytes_length] at hmark
    rw [if_neg hne, Memory.word32_of_read hmark, if_pos rfl, hpublish, hpub]
    exact .inr (.inl ⟨Nat.zero_lt_of_lt hlt, rfl, hrest⟩)
  · have hne : (m.npu.chan c).i2xHead ≠ (m.npu.chan c).i2xTail := fun h => hne (by rw [h])
    obtain ⟨hword, hhdr, hpay⟩ := Frame.read_parts hframe
    have hlen : f.hdr.totalSize.toNat = f.payload.length := hwf f (by simp [hcons])
    have hend := hrest.bounds.1
    rw [Frame.encode_length] at hend
    have htomb : f.hdr.totalSize ≠ mboxTombstone := by
      intro h
      rw [h, show mboxTombstone.toNat = 0xDEADFACE from rfl] at hlen
      omega
    rw [Memory.window_read] at hhdr hpay
    have hraw : mmioReadBuf m.npu barSram (d.i2x.rbStart + (m.npu.chan c).i2xHead)
        msgHeaderSize.toNat = f.hdr.encode := by
      rw [mmioReadBuf_sram (by rw [hoff, show msgHeaderSize.toNat = 16 from rfl]; omega), hoff]
      exact hhdr
    have hdecode : MsgHeader.decode (Memory.ofBytes f.hdr.encode) 0 = f.hdr := by
      apply MsgHeader.decode_of_read
      have := Memory.read_ofBytes f.hdr.encode
      rwa [MsgHeader.encode_length] at this
    have hoff' : (d.i2x.rbStart + (m.npu.chan c).i2xHead + msgHeaderSize).toNat =
        i2xBase c + ((m.npu.chan c).i2xHead.toNat + 16) := by
      rw [UInt32.toNat_add, hoff, show msgHeaderSize.toNat = 16 from rfl]
      unfold barSramSize at hsram
      omega
    have hpayload : mmioReadBuf m.npu barSram
        (d.i2x.rbStart + (m.npu.chan c).i2xHead + msgHeaderSize) f.hdr.totalSize.toNat =
        f.payload := by
      rw [hlen, mmioReadBuf_sram (by omega), hoff']
      exact hpay
    have hnext : ((m.npu.chan c).i2xHead + (msgHeaderSize + f.hdr.totalSize)).toNat =
        (m.npu.chan c).i2xHead.toNat + f.encode.length := by
      rw [UInt32.toNat_add, UInt32.toNat_add, show msgHeaderSize.toNat = 16 from rfl, hlen,
        Frame.encode_length]
      omega
    refine .inr (.inr ⟨f, rest, (m.npu.chan c).i2xHead + (msgHeaderSize + f.hdr.totalSize), hcons,
      ?_, ?_⟩)
    · rw [if_neg hne, Memory.word32_of_read hword, if_neg htomb, hraw, hdecode, hpayload, hpublish]
    · rw [hpub, hnext]
      exact hrest

end Xdna
