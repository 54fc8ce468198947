import Xdna.CleanBoot
import Xdna.FreshContext
import Xdna.Lifetime

/-!
# What the firmware advertises

The driver learns from the firmware where a channel is: for the management channel from the
info block that the `FW_ALIVE` word points to, for a context from the reply to
`CREATE_CONTEXT`. Both hold device addresses, from which the driver subtracts the base of the
aperture. The description is truthful if the accesses it leads to reach the registers and
the rings of that channel.
-/

namespace Xdna

open ByteMemory

/-- What the driver is told about a channel: device addresses of the four registers and of the two
buffers, the sizes of the buffers, and the interrupt vector. -/
structure ChanInfo where
  x2iHead : UInt32
  x2iTail : UInt32
  x2iBuf : UInt32
  x2iSize : UInt32
  i2xHead : UInt32
  i2xTail : UInt32
  i2xBuf : UInt32
  i2xSize : UInt32
  vector : ℕ
  deriving DecidableEq

namespace ChanInfo

/-- The fields of an `XdnaMgmtMboxInfo` at offset `off`. -/
def ofInfo (mem : Memory) (off : ℕ) : ChanInfo where
  x2iTail := mem.word32 off
  x2iHead := mem.word32 (off + 4)
  x2iBuf := mem.word32 (off + 8)
  x2iSize := mem.word32 (off + 12)
  i2xTail := mem.word32 (off + 16)
  i2xHead := mem.word32 (off + 20)
  i2xBuf := mem.word32 (off + 24)
  i2xSize := mem.word32 (off + 28)
  vector := (mem.word32 (off + 36)).toNat

/-- The info block that the `FW_ALIVE` word points to. -/
def ofAlive (npu : Npu) : ChanInfo :=
  ofInfo npu.sram (npu.sramRead32 sramFwAliveOff - apertureBase1).toNat

/-- `msix_id` and `cq_pair[0]` of the reply to a `CREATE_CONTEXT`. -/
def ofReply (payload : List UInt8) : ChanInfo :=
  let mem := Memory.ofBytes payload
  { vector := (mem.word16 8).toNat
    x2iHead := mem.word32 12
    x2iTail := mem.word32 16
    x2iBuf := mem.word32 20
    x2iSize := mem.word32 24
    i2xHead := mem.word32 28
    i2xTail := mem.word32 32
    i2xBuf := mem.word32 36
    i2xSize := mem.word32 40 }

/-- The description of channel `c` with registers `ch`. -/
def ofChannel (c : ChanIdx) (ch : Channel) : ChanInfo where
  x2iHead := mboxDevAddr (mboxChanBase c.val + mboxX2iHeadOff)
  x2iTail := mboxDevAddr (mboxChanBase c.val + mboxX2iTailOff)
  x2iBuf := sramDevAddr ch.x2iBuf
  x2iSize := ch.x2iSize
  i2xHead := mboxDevAddr (mboxChanBase c.val + mboxI2xHeadOff)
  i2xTail := mboxDevAddr (mboxChanBase c.val + mboxI2xTailOff)
  i2xBuf := sramDevAddr ch.i2xBuf
  i2xSize := ch.i2xSize
  vector := c.val

private theorem ofInfo_congr {mem mem' : Memory} (h : ∀ i < 64, mem i = mem' i) :
    ofInfo mem 0 = ofInfo mem' 0 := by
  simp only [ofInfo, Memory.word32_congr h, Nat.reduceAdd, Nat.reduceLeDiff, Nat.zero_add]

private theorem ofInfo_window (mem : Memory) (off : ℕ) :
    ofInfo mem off = ofInfo (mem.window off) 0 := by
  simp only [ofInfo, Memory.word32, Memory.window_read, Nat.add_zero, Nat.zero_add]

/-- The block that a boot writes. -/
theorem ofInfo_mgmtInfo :
    ofInfo (Memory.ofBytes mgmtInfo.encode) 0 = ofChannel 0 mgmtChannel := by decide +kernel

/-- Status and context id, the first eight bytes of the reply, are no part of the description. -/
theorem ofReply_append {xs xs' : List UInt8} (ys : List UInt8) (h : xs.length = 8)
    (h' : xs'.length = 8) : ofReply (xs ++ ys) = ofReply (xs' ++ ys) := by
  have hread {off len : ℕ} (hoff : 8 ≤ off) :
      (Memory.ofBytes (xs ++ ys)).read off len = (Memory.ofBytes (xs' ++ ys)).read off len := by
    apply Memory.read_congr
    intro a ha _
    rw [Memory.ofBytes, Memory.ofBytes, List.getElem?_append_right (by omega),
      List.getElem?_append_right (by omega), h, h']
  simp only [ofReply, Memory.word16, Memory.word32, hread, Nat.reduceLeDiff, le_refl]

/-- The reply of a creation describes the channel of the slot. -/
theorem ofReply_createReply {npu : Npu} {s : SlotIdx}
    (h : npu.chan (slotChan s) = createdChannel s) :
    ofReply (createReply npu s).encode = ofChannel (slotChan s) (createdChannel s) := by
  have hall : ∀ s : SlotIdx, ofReply (le32 0 ++ le32 0 ++ (le16 (UInt16.ofNat (slotChan s).val) ++
      [1, 0] ++ (createReply { zeroNpu with chan := fun _ => createdChannel s } s).cqPair0.encode ++
      CqPair.zero.encode)) = ofChannel (slotChan s) (createdChannel s) := by decide +kernel
  rw [← hall s, createReply, h]
  simp only [CreateCtxResp.encode, List.append_assoc]
  rw [← List.append_assoc, ← List.append_assoc (le32 0)]
  exact ofReply_append _ (by simp) (by simp)

end ChanInfo

/-! ## What the description leads to -/

/-- The rings of a channel. -/
def Region.ringsOf (c : ChanIdx) : List Region := [.x2i c, .i2x c]

/-- The description is true of channel `c`: each access that a driver derives from it reaches that
channel, and the buffers are its rings, apart from everything else that is in use. -/
structure Describes (host : Host) (info : ChanInfo) (m : Machine) (c : ChanIdx) : Prop where
  active : (m.npu.chan c).active = true
  vector : (m.npu.chan c).index = info.vector
  reads :
    mmioRead m.npu barMbox (info.x2iHead - apertureBase2) 4 = (m.npu.chan c).x2iHead.toUInt64 ∧
    mmioRead m.npu barMbox (info.x2iTail - apertureBase2) 4 = (m.npu.chan c).x2iTail.toUInt64 ∧
    mmioRead m.npu barMbox (info.i2xHead - apertureBase2) 4 = (m.npu.chan c).i2xHead.toUInt64 ∧
    mmioRead m.npu barMbox (info.i2xTail - apertureBase2) 4 = (m.npu.chan c).i2xTail.toUInt64 ∧
    mmioRead m.npu barMbox (info.i2xHead - apertureBase2 + 4) 4 = (m.npu.chan c).intr.toUInt64
  kick : ∀ val, mmioWrite host m barMbox (info.x2iTail - apertureBase2) val 4 =
    mboxProcess host (tailWritten m c val.toUInt32) c.val
  publish : ∀ val, mmioWrite host m barMbox (info.i2xHead - apertureBase2) val 4 =
    publishHead m c val.toUInt32
  intr : ∀ val, mmioWrite host m barMbox (info.i2xHead - apertureBase2 + 4) val 4 =
    m.modify fun npu => npu.setChan c { npu.chan c with intr := val.toUInt32 }
  x2iRing : info.x2iBuf - apertureBase1 = (m.npu.chan c).x2iBuf ∧
    info.x2iSize = (m.npu.chan c).x2iSize
  i2xRing : info.i2xBuf - apertureBase1 = (m.npu.chan c).i2xBuf ∧
    info.i2xSize = (m.npu.chan c).i2xSize
  inSram : ∀ r ∈ Region.ringsOf c, (r.extent m.npu).2 ≤ barSramSize
  apart : ∀ r ∈ Region.ringsOf c, ∀ r' : Region, r'.InUse m.npu → r ≠ r' →
    (r.extent m.npu).2 ≤ (r'.extent m.npu).1 ∨ (r'.extent m.npu).2 ≤ (r.extent m.npu).1

/-- Both rings of the channel are zero. -/
def Zeroed (npu : Npu) (c : ChanIdx) : Prop :=
  ∀ r ∈ Region.ringsOf c, ∀ a, (r.extent npu).1 ≤ a → a < (r.extent npu).2 → npu.sram a = 0

private theorem mboxDevAddr_sub (off : UInt32) : mboxDevAddr off - apertureBase2 = off := by
  rw [mboxDevAddr, UInt32.add_comm, UInt32.add_sub_cancel]

private theorem sramDevAddr_sub (off : UInt32) : sramDevAddr off - apertureBase1 = off := by
  rw [sramDevAddr, UInt32.add_comm, UInt32.add_sub_cancel]

private theorem mmioRead_mbox {npu : Npu} {off : UInt32} {c : ChanIdx} {reg : UInt32}
    (h : chanFromOff off = some (c, reg)) :
    mmioRead npu barMbox off 4 = (if reg = mboxX2iHeadOff then (npu.chan c).x2iHead
      else if reg = mboxX2iTailOff then (npu.chan c).x2iTail
      else if reg = mboxI2xHeadOff then (npu.chan c).i2xHead
      else if reg = mboxIntrOff then (npu.chan c).intr
      else if reg = mboxI2xTailOff then (npu.chan c).i2xTail
      else 0).toUInt64 := by
  rw [mmioRead_word npu off (by decide), regRead, if_neg (by decide), if_pos rfl, mboxRegRead, h]

/-- A word written to the MBOX BAR goes to the register its offset decodes to. -/
theorem mmioWrite_mbox (host : Host) {m : Machine} {off : UInt32} {c : ChanIdx} {reg : UInt32}
    (h : chanFromOff off = some (c, reg)) (val : UInt64) :
    mmioWrite host m barMbox off val 4 =
      if reg = mboxX2iTailOff then
        mboxProcess host (tailWritten m c val.toUInt32)
          ((tailWritten m c val.toUInt32).npu.chan c).index
      else if reg = mboxI2xHeadOff then publishHead m c val.toUInt32
      else if reg = mboxIntrOff then
        m.modify fun npu => npu.setChan c { npu.chan c with intr := val.toUInt32 }
      else m := by
  rw [mmioWrite_word host m off val (by decide), regWrite, if_neg (by decide), if_pos rfl,
    mboxRegWrite, h]
  rfl

/-- As long as a channel is active, its description is true. -/
theorem describes_ofChannel (host : Host) {m : Machine} {c : ChanIdx} (hcons : Consistent m.npu)
    (hactive : (m.npu.chan c).active = true) :
    Describes host (.ofChannel c (m.npu.chan c)) m c := by
  obtain ⟨hx2iHead, hx2iTail, hi2xHead, hintr, hi2xTail⟩ := chanFromOff_base c
  have hinUse : ∀ r ∈ Region.ringsOf c, r.InUse m.npu := by
    intro r hr
    rcases List.mem_pair.mp hr with rfl | rfl <;> exact hactive
  constructor
  case active => exact hactive
  case vector => exact hcons.index c
  case reads =>
    simp only [ChanInfo.ofChannel, mboxDevAddr_sub]
    refine ⟨?_, ?_, ?_, ?_, ?_⟩
    · rw [mmioRead_mbox hx2iHead, if_pos rfl]
    · rw [mmioRead_mbox hx2iTail, if_neg (by decide), if_pos rfl]
    · rw [mmioRead_mbox hi2xHead, if_neg (by decide), if_neg (by decide), if_pos rfl]
    · rw [mmioRead_mbox hi2xTail, if_neg (by decide), if_neg (by decide), if_neg (by decide),
        if_neg (by decide), if_pos rfl]
    · rw [mmioRead_mbox hintr, if_neg (by decide), if_neg (by decide), if_neg (by decide),
        if_pos rfl]
  case kick =>
    intro val
    have hindex : ((tailWritten m c val.toUInt32).npu.chan c).index = c.val := by
      simpa [tailWritten, Npu.setChan] using hcons.index c
    simp only [ChanInfo.ofChannel, mboxDevAddr_sub]
    rw [mmioWrite_mbox host hx2iTail, if_pos rfl, hindex]
  case publish =>
    intro val
    simp only [ChanInfo.ofChannel, mboxDevAddr_sub]
    rw [mmioWrite_mbox host hi2xHead, if_neg (by decide), if_pos rfl]
  case intr =>
    intro val
    simp only [ChanInfo.ofChannel, mboxDevAddr_sub]
    rw [mmioWrite_mbox host hintr, if_neg (by decide), if_neg (by decide), if_pos rfl]
  case x2iRing => exact ⟨sramDevAddr_sub _, rfl⟩
  case i2xRing => exact ⟨sramDevAddr_sub _, rfl⟩
  case inSram =>
    intro r hr
    rw [Region.extent_eq hcons (hinUse r hr)]
    exact r.inSram
  case apart =>
    intro r hr r' hr' hne
    rw [Region.extent_eq hcons (hinUse r hr), Region.extent_eq hcons hr']
    exact Region.disjoint hne

/-- The two rings of a channel are adjacent. -/
theorem zeroed_of_block {npu : Npu} {c : ChanIdx} (hcons : Consistent npu)
    (hactive : (npu.chan c).active = true)
    (h : ∀ a, x2iBase c ≤ a → a < i2xBase c + ringSize c → npu.sram a = 0) : Zeroed npu c := by
  intro r hr a hlo hhi
  have hinUse : r.InUse npu := by
    rcases List.mem_pair.mp hr with rfl | rfl <;> exact hactive
  rw [Region.extent_eq hcons hinUse] at hlo hhi
  have hi2x : i2xBase c = x2iBase c + ringSize c := rfl
  rcases List.mem_pair.mp hr with rfl | rfl
  · simp only [Region.base, Region.len] at hlo hhi
    exact h a hlo (by omega)
  · simp only [Region.base, Region.len] at hlo hhi
    exact h a (by omega) hhi

/-! ## A boot -/

/-- The info block is where the `FW_ALIVE` word says, and describes the management channel. -/
theorem ofAlive_bootSram {npu : Npu} {sram : Memory} (h : npu.sram = bootSram sram) :
    ChanInfo.ofAlive npu = .ofChannel 0 mgmtChannel := by
  have hword : npu.sramRead32 sramFwAliveOff = sramDevAddr sramMgmtInfoOff := by
    rw [Npu.sramRead32, if_neg (by decide), h, bootSram]
    exact Memory.word32_of_read (Memory.read_write_self _ _ _)
  have hblock : npu.sram.read sramMgmtInfoOff.toNat 64 = mgmtInfo.encode := by
    rw [h, bootSram, Memory.read_write_disjoint (.inl (by decide)), ← mgmtInfo_encode_length,
      Memory.read_write_self]
  rw [ChanInfo.ofAlive, hword, sramDevAddr_sub, ChanInfo.ofInfo_window, ← ChanInfo.ofInfo_mgmtInfo]
  apply ChanInfo.ofInfo_congr
  intro i hi
  apply @Memory.eq_of_read_eq _ _ 0 64 i _ (Nat.zero_le i) (by omega)
  rw [Memory.window_read, Nat.add_zero, hblock]
  exact (Memory.read_ofBytes _).symm

private theorem bootSram_rings (sram : Memory) {a : ℕ} (hlo : 0x21000 ≤ a) (hhi : a < 0x23000) :
    bootSram sram a = 0 := by
  have halive : sramFwAliveOff.toNat = 0x3F000 := rfl
  have hinfo : sramMgmtInfoOff.toNat = 0x20000 := rfl
  rw [bootSram, Memory.write_of_outside (.inl (by omega)),
    Memory.write_of_outside (.inr (by rw [mgmtInfo_encode_length]; omega))]
  by_cases hring : a < 0x22000
  · rw [Memory.clear_of_outside (.inl (show a < mgmtChannel.i2xBuf.toNat from hring))]
    exact if_pos ⟨hlo, hring⟩
  · exact if_pos ⟨Nat.le_of_not_lt hring, hhi⟩

/-- After a successful START the info block describes the management channel. -/
theorem start_describes (host : Host) {m : Machine} (hcons : Consistent m.npu)
    (hcmd : m.npu.scratch 2 = pspCmdStart) (hresp : (pspNotify host m).npu.scratch 3 = 0) :
    Describes host (.ofAlive (pspNotify host m).npu) (pspNotify host m) 0 ∧
      Zeroed (pspNotify host m).npu 0 := by
  obtain ⟨hboot, -⟩ := pspNotify_start host hcmd hresp
  have hcons' : Consistent (pspNotify host m).npu :=
    hcons.boot.congr (.of_eq hboot.chan hboot.ctx hboot.fwAlive hboot.activeContexts)
  have hchan : (pspNotify host m).npu.chan 0 = mgmtChannel := by
    rw [hboot.chan, fwBoot_chan, Function.update_self]
  have hsram : (pspNotify host m).npu.sram = bootSram m.npu.sram := by
    rw [hboot.sram, fwBoot_sram]
  have hactive : ((pspNotify host m).npu.chan 0).active = true := by
    rw [hchan]
    rfl
  constructor
  · have h := describes_ofChannel host hcons' hactive
    rw [hchan, ← ofAlive_bootSram hsram] at h
    exact h
  · apply zeroed_of_block hcons' hactive
    intro a hlo hhi
    rw [hsram]
    exact bootSram_rings _ hlo hhi

/-! ## A creation -/

/-- The device just before it sends the reply of a creation in slot `s`. -/
theorem created_describes {m : Machine} {s : SlotIdx} (req : CreateCtxReq)
    (hcons : Consistent m.npu) (halive : m.npu.fwAlive = true)
    (hfree : freeSlot m.npu = some s) :
    let m₁ := m.modify (createContext · s req)
    Consistent m₁.npu ∧ (m₁.npu.chan (slotChan s)).active = true ∧
      ChanInfo.ofReply (createReply m₁.npu s).encode =
        .ofChannel (slotChan s) (m₁.npu.chan (slotChan s)) ∧
      Zeroed m₁.npu (slotChan s) := by
  intro m₁
  have hcons₁ : Consistent m₁.npu := hcons.create req halive hfree
  have hchan : m₁.npu.chan (slotChan s) = createdChannel s := by
    rw [Machine.modify_npu, createContext_chan, Function.update_self]
  have hactive : (m₁.npu.chan (slotChan s)).active = true := by
    rw [hchan]
    rfl
  refine ⟨hcons₁, hactive, ?_, ?_⟩
  · rw [ChanInfo.ofReply_createReply hchan, hchan]
  · apply zeroed_of_block hcons₁ hactive
    intro a hlo hhi
    rw [Machine.modify_npu, createContext_sram]
    rw [← (ctxRbBase_toNat s).1] at hlo
    rw [← (ctxRbBase_toNat s).2] at hhi
    exact if_pos ⟨hlo, hhi⟩

/-- A description stays true when the device sends a reply, on whatever channel. -/
theorem Describes.reply {host : Host} {m m' : Machine} {c c' : ChanIdx} (hcons : Consistent m.npu)
    (hactive : (m.npu.chan c).active = true) (h : ReplyChange c' m.npu m'.npu) :
    Describes host (.ofChannel c (m.npu.chan c)) m' c := by
  have hshape := h.sameShape.chan c
  have hinfo : ChanInfo.ofChannel c (m.npu.chan c) = .ofChannel c (m'.npu.chan c) := by
    rw [ChanInfo.ofChannel, ChanInfo.ofChannel, hshape.x2iBuf, hshape.x2iSize, hshape.i2xBuf,
      hshape.i2xSize]
  rw [hinfo]
  exact describes_ofChannel host (hcons.congr h.sameShape) (hshape.active.trans hactive)

/-- A creation that succeeds activates a channel, which the reply describes before it is sent, when
the rings are zero, and after. -/
theorem create_describes (host : Host) {m : Machine} {c : ChanIdx} {hdr : MsgHeader}
    {payload : Memory} {f : Frame} (hcons : Consistent m.npu) (halive : m.npu.fwAlive = true)
    (hop : hdr.opcode = MsgOpcode.createContext.code)
    (hreply : replies (mertHandle host m c hdr payload).trace = replies m.trace ++ [(c, f)])
    (hstatus : f.status = 0) :
    ∃ c' m₁, (m.npu.chan c').active = false ∧
      (∀ c'', c'' ≠ c' → m₁.npu.chan c'' = m.npu.chan c'') ∧
      mertHandle host m c hdr payload = mertReply host m₁ c hdr f.payload ∧
      Describes host (.ofReply f.payload) m₁ c' ∧ Zeroed m₁.npu c' ∧
      Describes host (.ofReply f.payload) (mertHandle host m c hdr payload) c' := by
  obtain ⟨s, hslot, hlong, hcols, houtcome, rfl⟩ := create_accepted halive hop hreply hstatus
  generalize CreateCtxReq.decode payload = req at *
  obtain ⟨hcons₁, hactive₁, hinfo, hzero⟩ := created_describes req hcons halive hslot
  have hhandle : mertHandle host m c hdr payload =
      mertReply host (m.modify (createContext · s req)) c hdr
        (createReply (createContext m.npu s req) s).encode := by
    rw [mertHandle_eq c hdr _ halive, houtcome, createStep, if_neg hlong, hslot]
    dsimp only
    rw [if_neg hcols, npuOutcome, answerWith]
    rfl
  have hbefore := describes_ofChannel host hcons₁ hactive₁
  have hchange : ReplyChange c (m.modify (createContext · s req)).npu
      (mertHandle host m c hdr payload).npu := by
    rw [hhandle]
    exact mboxSend_change ..
  have hafter := @Describes.reply host _ _ _ _ hcons₁ hactive₁ hchange
  rw [← hinfo] at hbefore hafter
  refine ⟨slotChan s, m.modify (createContext · s req), ?_, ?_, hhandle, hbefore, hzero, hafter⟩
  · rw [hcons.slot]
    exact freeSlot_valid hslot
  · intro c'' hne
    rw [Machine.modify_npu, createContext_chan, Function.update_of_ne hne]

/-- In every reachable state, with any content of the SRAM, a START that succeeds leaves an info
block that describes the management channel, with zero rings. A `CREATE_CONTEXT` that was handled on
the way there and succeeds has activated a channel which its reply describes, before the reply is
sent, when the rings are zero, and after. -/
theorem reachable_describes {host : Host} {m : Machine} (h : Reachable host m) :
    (∀ sram, m.npu.scratch 2 = pspCmdStart →
      (pspNotify host (m.withSram sram)).npu.scratch 3 = 0 →
        Describes host (.ofAlive (pspNotify host (m.withSram sram)).npu)
          (pspNotify host (m.withSram sram)) 0 ∧
        Zeroed (pspNotify host (m.withSram sram)).npu 0) ∧
    ∀ c hdr payload npu, Event.handle c hdr payload npu ∈ m.trace →
      hdr.opcode = MsgOpcode.createContext.code → ∀ stack reads writes tr f,
        let m₀ : Machine := ⟨npu, reads, writes, tr⟩
        let m₂ := mertHandle host m₀ c hdr (payloadBuffer payload stack)
        replies m₂.trace = replies tr ++ [(c, f)] → f.status = 0 →
          ∃ c' m₁, (npu.chan c').active = false ∧
            (∀ c'', c'' ≠ c' → m₁.npu.chan c'' = npu.chan c'') ∧
            m₂ = mertReply host m₁ c hdr f.payload ∧
            Describes host (.ofReply f.payload) m₁ c' ∧ Zeroed m₁.npu c' ∧
            Describes host (.ofReply f.payload) m₂ c' := by
  constructor
  · intro sram hcmd hresp
    have hcons : Consistent (m.withSram sram).npu :=
      h.consistent.congr (.of_eq rfl rfl rfl rfl)
    exact start_describes host hcons hcmd hresp
  · intro c hdr payload npu hmem hop stack reads writes tr f m₀ m₂ hreply hstatus
    obtain ⟨hcons, halive, -⟩ := h.withinLifetime _ hmem
    exact create_describes host (m := m₀) hcons halive hop hreply hstatus

/-- The event is a creation that succeeds. -/
def Event.creates : Event → Bool
  | .handle c hdr payload npu =>
    hdr.opcode == MsgOpcode.createContext.code &&
      match replies (mertHandle .accepting ⟨npu, 0, 0, []⟩ c hdr
        (payloadBuffer payload fun _ => 0)).trace with
      | [(c', f)] => c' == c && f.status == 0
      | _ => false
  | _ => false

/-- A device that has been started and has created a context, and is started again with every byte
of its SRAM set to 7. -/
theorem reachable_describes_restartOps :
    Zeroed (pspNotify .accepting ((guestRun .accepting restartOps).withSram fun _ => 7)).npu 0 ∧
    ∃ c hdr payload npu, Event.handle c hdr payload npu ∈ (guestRun .accepting restartOps).trace ∧
      ∃ (f : Frame) (c' : ChanIdx) (m₁ : Machine), (npu.chan c').active = false ∧
        Describes .accepting (.ofReply f.payload) m₁ c' ∧ Zeroed m₁.npu c' := by
  obtain ⟨hstart, hcreate⟩ := reachable_describes (.guestRun .accepting restartOps)
  refine ⟨(hstart (fun _ => 7) (by decide +kernel) (by decide +kernel)).2, ?_⟩
  have hany : (guestRun .accepting restartOps).trace.any Event.creates = true := by
    decide +kernel
  obtain ⟨e, hmem, he⟩ := List.any_eq_true.mp hany
  cases e with
  | handle c hdr payload npu =>
    simp only [Event.creates, Bool.and_eq_true, beq_iff_eq] at he
    obtain ⟨hop, hreply⟩ := he
    split at hreply
    · rename_i c' f hf
      simp only [Bool.and_eq_true, beq_iff_eq] at hreply
      obtain ⟨rfl, hstatus⟩ := hreply
      obtain ⟨c', m₁, hfree, -, -, hdesc, hzero, -⟩ :=
        hcreate c' hdr payload npu hmem hop (fun _ => 0) 0 0 [] f hf hstatus
      exact ⟨_, hdr, payload, npu, hmem, f, c', m₁, hfree, hdesc, hzero⟩
    · exact absurd hreply (by decide)
  | _ => simp [Event.creates] at he

end Xdna
