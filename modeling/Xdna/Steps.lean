import Xdna.ReplyShape
import Mathlib.Logic.Relation

/-!
# The steps of the device

A guest access may set off a long computation: a block write is many register
writes, a tail write is a kick that consumes many requests. `Step` lists the
elementary actions such a computation is made of, each in the state in which it
happens. An invariant of the device is checked once for each of them. The values
that the guest may store in an `i2x` head register are a parameter, because some
properties of the reply rings hold only for a reader that keeps to the ring.
-/

namespace Xdna

open ByteMemory Relation

/-! ## Changes outside the firmware -/

/-- Between `npu` and `npu'` only registers, clocks and the PSP state may have changed. -/
structure RegChange (npu npu' : Npu) : Prop where
  sram : npu'.sram = npu.sram
  chan : npu'.chan = npu.chan
  ctx : npu'.ctx = npu.ctx
  fwAlive : npu'.fwAlive = npu.fwAlive
  fwSuspended : npu'.fwSuspended = npu.fwSuspended
  mgmtPasid : npu'.mgmtPasid = npu.mgmtPasid
  rtCfg : npu'.rtCfg = npu.rtCfg
  nextCtxId : npu'.nextCtxId = npu.nextCtxId
  colUsed : npu'.colUsed = npu.colUsed
  asyncBufAddr : npu'.asyncBufAddr = npu.asyncBufAddr
  asyncBufSize : npu'.asyncBufSize = npu.asyncBufSize
  asyncRegistered : npu'.asyncRegistered = npu.asyncRegistered
  activeContexts : npu'.stats.activeContexts = npu.stats.activeContexts

/-- Nothing has changed. -/
theorem RegChange.refl (npu : Npu) : RegChange npu npu := by constructor <;> rfl

/-- One change after another. -/
theorem RegChange.trans {npu npu' npu'' : Npu} (h : RegChange npu npu')
    (h' : RegChange npu' npu'') : RegChange npu npu'' :=
  ⟨h'.sram.trans h.sram, h'.chan.trans h.chan, h'.ctx.trans h.ctx, h'.fwAlive.trans h.fwAlive,
    h'.fwSuspended.trans h.fwSuspended, h'.mgmtPasid.trans h.mgmtPasid, h'.rtCfg.trans h.rtCfg,
    h'.nextCtxId.trans h.nextCtxId, h'.colUsed.trans h.colUsed,
    h'.asyncBufAddr.trans h.asyncBufAddr, h'.asyncBufSize.trans h.asyncBufSize,
    h'.asyncRegistered.trans h.asyncRegistered, h'.activeContexts.trans h.activeContexts⟩

/-- A write to a scratch register. -/
theorem regChange_setScratch (npu : Npu) (i : Fin 10) (v : UInt32) :
    RegChange npu (npu.setScratch i v) := by constructor <;> rfl

/-- The answer of the PSP. -/
theorem regChange_pspComplete (npu : Npu) (resp : UInt32) :
    RegChange npu (pspComplete npu resp) := by constructor <;> rfl

/-- A command of the SMU. -/
theorem regChange_smuKick (npu : Npu) : RegChange npu (smuKick npu) := by
  unfold smuKick smuComplete
  dsimp only
  repeat' split
  all_goals constructor <;> rfl

/-- The image read of a PSP command. -/
def Event.IsDmaRead : Event → Prop
  | .dmaRead .. => True
  | _ => False

/-- An event of the PSP. -/
def Event.IsPsp : Event → Prop
  | .dmaRead .. => True
  | .pspDone .. => True
  | _ => False

/-- A guest write to a register of a channel: it never reaches those the device owns. -/
inductive GuestWrite (ok : UInt32 → Prop) (ch : Channel) : Channel → Prop
  | x2iTail (v : UInt32) : GuestWrite ok ch { ch with x2iTail := v }
  | i2xHead (v : UInt32) (hv : ok v) : GuestWrite ok ch { ch with i2xHead := v }
  | intr (v : UInt32) : GuestWrite ok ch { ch with intr := v }

/-! ## Steps -/

/-- The header at the head of the `x2i` ring of channel `c`. -/
def headHeader (npu : Npu) (c : ChanIdx) : MsgHeader :=
  MsgHeader.decode npu.sram (npu.chan c).headOff

/-- The payload of `size` bytes behind it. -/
def headPayload (npu : Npu) (c : ChanIdx) (size : UInt32) : List UInt8 :=
  npu.sram.read ((npu.chan c).headOff + msgHeaderSize.toNat) size.toNat

/-- A frame taken off the `x2i` ring: the copies out of the ring, the advance of the head and
the call of the handler. -/
def takeFrame (m : Machine) (c : ChanIdx) (size : UInt32) : Machine :=
  let off := (m.npu.chan c).headOff
  let m₁ := (m.emit (.ringRead c off msgHeaderSize.toNat)).emit
    (.ringRead c (off + msgHeaderSize.toNat) size.toNat)
  let m₂ := m₁.modify (·.consume c size)
  m₂.emit (.handle c (headHeader m.npu c) (headPayload m.npu c size) m₂.npu)

/-- Taking a frame off the ring reads header and payload, and calls the handler. -/
theorem takeFrame_trace (m : Machine) (c : ChanIdx) (size : UInt32) :
    (takeFrame m c size).trace = m.trace ++ [.ringRead c (m.npu.chan c).headOff 16,
      .ringRead c ((m.npu.chan c).headOff + 16) size.toNat,
      .handle c (headHeader m.npu c) (headPayload m.npu c size) (takeFrame m c size).npu] := by
  simp only [takeFrame, Machine.emit_trace, Machine.modify_trace, List.append_assoc]
  rfl

/-- The elementary actions of the device, with `ok c` the values the guest stores in the
`i2x` head register of channel `c`. -/
inductive Step (host : Host) (ok : ChanIdx → UInt32 → Prop) : Machine → Machine → Prop
  | regs {m m' : Machine} (hnpu : RegChange m.npu m'.npu) (htrace : m.Extends Event.IsPsp m') :
      Step host ok m m'
  | sram (m : Machine) (off : ℕ) (bytes : List UInt8) (h : off + bytes.length ≤ barSramSize) :
      Step host ok m (m.modify (·.sramCopy off bytes))
  | guest (m : Machine) (c : ChanIdx) {ch : Channel} (h : GuestWrite (ok c) (m.npu.chan c) ch) :
      Step host ok m (m.modify (·.setChan c ch))
  | boot (m : Machine) : Step host ok m (m.modify fwBoot)
  | shutdown (m : Machine) : Step host ok m (m.modify fwShutdown)
  | wrap (m : Machine) (c : ChanIdx) (hactive : (m.npu.chan c).active = true) :
      Step host ok m (m.modify (·.setX2iHead c 0))
  | examine (m : Machine) (c : ChanIdx) (hactive : (m.npu.chan c).active = true)
      (hin : ¬ (m.npu.chan c).x2iSize ≤ (m.npu.chan c).x2iHead) :
      Step host ok m (m.emit (.ringRead c (m.npu.chan c).headOff 4))
  | reject (m : Machine) (c : ChanIdx) (hactive : (m.npu.chan c).active = true)
      (hpeek : (m.npu.chan c).peek m.npu = .reject) :
      Step host ok m (m.emit (.reject c m.npu))
  | take (m : Machine) (c : ChanIdx) (size : UInt32) (hactive : (m.npu.chan c).active = true)
      (hpeek : (m.npu.chan c).peek m.npu = .frame size) :
      Step host ok m (takeFrame m c size)
  | message (m : Machine) (hdr : MsgHeader) (payload : Memory)
      (halive : m.npu.fwAlive = true) :
      Step host ok m (mertOutcome host m hdr payload).1
  | send (m : Machine) (c : ChanIdx) (id opcode : UInt32) (payload : List UInt8)
      (hsize : payload.length = (respSizeFor opcode).1) :
      Step host ok m (mboxSend host m c id opcode payload).1

/-- Any number of steps. -/
abbrev Steps (host : Host) (ok : ChanIdx → UInt32 → Prop) : Machine → Machine → Prop :=
  ReflTransGen (Step host ok)

variable {host : Host} {ok : ChanIdx → UInt32 → Prop} {m m' : Machine}

private theorem Steps.regs (hnpu : RegChange m.npu m'.npu) (htrace : m.Extends Event.IsPsp m') :
    Steps host ok m m' :=
  .single (.regs hnpu htrace)

/-- A change of registers is one step. -/
theorem Steps.modify {f : Npu → Npu} (hf : ∀ npu, RegChange npu (f npu)) :
    Steps host ok m (m.modify f) :=
  .regs (hf m.npu) (.modify f)

/-- What every step preserves, every sequence of steps preserves. -/
theorem Steps.preserves {P : Machine → Prop} (h : Steps host ok m m')
    (hstep : ∀ m m', P m → Step host ok m m' → P m') (hm : P m) : P m' := by
  induction h with
  | refl => exact hm
  | tail _ hlast ih => exact hstep _ _ ih hlast

/-! ## Kicks -/

private theorem answerWith_steps (c : ChanIdx) (hdr : MsgHeader) {r : Machine × Option Answer}
    (h : ∀ a, r.2 = some a → Answer.WellShaped hdr.opcode a) :
    Steps host ok r.1 (answerWith host c hdr r) := by
  unfold answerWith
  cases hr : r.2 with
  | none => exact .refl
  | some a => exact .single (.send _ c hdr.id hdr.opcode a.2 (h a hr).1)

/-- `deliver` takes a frame and hands it to the handler. -/
theorem deliver_eq (host : Host) (m : Machine) (c : ChanIdx) (size : UInt32) :
    deliver host m c size = mertHandle host (takeFrame m c size) c (headHeader m.npu c)
      (payloadBuffer (headPayload m.npu c size) (host.stack m.trace.length)) := rfl

private theorem takeFrame_fwAlive (m : Machine) (c : ChanIdx) (size : UInt32) :
    (takeFrame m c size).npu.fwAlive = m.npu.fwAlive := rfl

/-- The payload of the frame comes first in the buffer. -/
theorem payloadBuffer_of_lt {payload : List UInt8} (stack : Memory) {i : ℕ}
    (h : i < payload.length) : payloadBuffer payload stack i = Memory.ofBytes payload i := by
  simp [payloadBuffer, Memory.ofBytes, h]

/-- A pass that finds a frame takes it off the ring, acts on the message and answers it. -/
theorem mboxPass_deliver {c : ChanIdx} {size : UInt32} (halive : m.npu.fwAlive = true)
    (hpeek : (m.npu.chan c).peek m.npu = .frame size) :
    mboxPass host c m = (answerWith host c (headHeader m.npu c)
      (mertOutcome host (takeFrame (m.emit (.ringRead c (m.npu.chan c).headOff 4)) c size)
        (headHeader m.npu c) (payloadBuffer (headPayload m.npu c size)
          (host.stack (m.trace.length + 1)))), true) := by
  unfold mboxPass
  dsimp only
  rw [hpeek]
  generalize hm₁ : m.emit (.ringRead c (m.npu.chan c).headOff 4) = m₁
  have hnpu : m₁.npu = m.npu := by rw [← hm₁]; rfl
  have hlen : m₁.trace.length = m.trace.length + 1 := by
    rw [← hm₁, Machine.emit_trace, List.length_append, List.length_singleton]
  dsimp only
  rw [deliver_eq, mertHandle_eq c _ _ (by rw [takeFrame_fwAlive, hnpu, halive]), hnpu, hlen]

private theorem deliver_steps (c : ChanIdx) (size : UInt32) (hactive : (m.npu.chan c).active = true)
    (halive : m.npu.fwAlive = true) (hpeek : (m.npu.chan c).peek m.npu = .frame size) :
    Steps host ok m (deliver host m c size) := by
  have hlive : (takeFrame m c size).npu.fwAlive = true := halive
  rw [deliver_eq, mertHandle_eq c _ _ hlive]
  exact (ReflTransGen.single (.take m c size hactive hpeek)).trans
    ((ReflTransGen.single (.message _ _ _ hlive)).trans
      (answerWith_steps c _ fun _ ha => mertOutcome_wellShaped ha))

/-- What the parser has found while the head is inside the ring. -/
theorem peek_ringEnd_iff {ch : Channel} (npu : Npu) :
    ch.peek npu = .ringEnd ↔ ch.x2iSize ≤ ch.x2iHead := by
  unfold Channel.peek
  dsimp only
  repeat' split
  all_goals simp_all

/-- A pass of the loop on an active channel of a live firmware. -/
theorem mboxPass_steps (c : ChanIdx) (hactive : (m.npu.chan c).active = true)
    (halive : m.npu.fwAlive = true) : Steps host ok m (mboxPass host c m).1 := by
  unfold mboxPass
  dsimp only
  cases hpeek : (m.npu.chan c).peek m.npu with
  | ringEnd => exact .single (.wrap m c hactive)
  | tombstone =>
    have hin : ¬ (m.npu.chan c).x2iSize ≤ (m.npu.chan c).x2iHead := by
      rw [← peek_ringEnd_iff m.npu, hpeek]
      simp
    exact (ReflTransGen.single (.examine m c hactive hin)).tail (.wrap _ c hactive)
  | reject =>
    have hin : ¬ (m.npu.chan c).x2iSize ≤ (m.npu.chan c).x2iHead := by
      rw [← peek_ringEnd_iff m.npu, hpeek]
      simp
    exact (ReflTransGen.single (.examine m c hactive hin)).tail (.reject _ c hactive hpeek)
  | frame size =>
    have hin : ¬ (m.npu.chan c).x2iSize ≤ (m.npu.chan c).x2iHead := by
      rw [← peek_ringEnd_iff m.npu, hpeek]
      simp
    exact (ReflTransGen.single (.examine m c hactive hin)).trans
      (deliver_steps c size hactive halive hpeek)

/-! ## PSP commands -/

/-- Fetching an image reads host memory and changes no more than registers. -/
theorem pspFetchImage_steps (host : Host) (m : Machine) (paddr : UInt64) (size : UInt32) :
    RegChange m.npu (pspFetchImage host m paddr size).1.npu ∧
    m.Extends Event.IsDmaRead (pspFetchImage host m paddr size).1 := by
  unfold pspFetchImage
  dsimp only
  split
  · exact ⟨.refl _, .refl m⟩
  · split
    · exact ⟨.refl _, .refl m⟩
    · exact ⟨.refl _, .of_trace_eq rfl trivial⟩

private theorem pspCommand_steps (m : Machine) : Steps host ok m (pspCommand host m).1 := by
  obtain ⟨hregs, hreads⟩ := pspFetchImage_steps host m (pspPaddr m.npu)
    (m.npu.scratch 9 &&& pspArg2Mask)
  have hfetch : Steps host ok m (pspFetchImage host m (pspPaddr m.npu)
      (m.npu.scratch 9 &&& pspArg2Mask)).1 := .regs hregs
    (hreads.mono fun e he => by cases e <;> trivial)
  unfold pspCommand
  dsimp only
  split
  · split
    · have hvalidated (m₁ : Machine) : Steps host ok m₁ (m₁.modify fun npu =>
          { npu with
            fwPaddr := pspPaddr m.npu
            fwSize := m.npu.scratch 9 &&& pspArg2Mask
            pspState := .validated }) :=
        .modify fun _ => by constructor <;> rfl
      exact hfetch.trans (hvalidated _)
    · exact hfetch
  · split
    · exact hfetch
    · split
      · split
        · exact .refl
        · -- The state is set to running, and then the firmware boots.
          have hrun : Steps host ok m (m.modify fun npu => { npu with pspState := .running }) :=
            .modify fun _ => by constructor <;> rfl
          have hsteps := hrun.tail (.boot _)
          rwa [Machine.modify_modify] at hsteps
      · split
        · have hcold (m₁ : Machine) :
              Steps host ok m₁ (m₁.modify fun npu => { npu with pspState := .cold }) :=
            .modify fun _ => by constructor <;> rfl
          have hsteps := (ReflTransGen.single (.shutdown m)).trans (hcold (m.modify fwShutdown))
          rwa [Machine.modify_modify] at hsteps
        · exact .refl

/-- A command of the PSP is a sequence of steps. -/
theorem pspKick_steps (m : Machine) : Steps host ok m (pspKick host m) := by
  have hcount : Steps host ok m (m.modify fun npu =>
      { npu with stats := { npu.stats with pspCmds := npu.stats.pspCmds + 1 } }) :=
    .modify fun _ => by constructor <;> rfl
  have hdone (m₁ : Machine) (resp cmd : UInt32) :
      Steps host ok m₁ ((m₁.modify (pspComplete · resp)).emit (.pspDone cmd resp)) :=
    .regs (regChange_pspComplete ..) (.of_trace_eq rfl trivial)
  exact hcount.trans ((pspCommand_steps _).trans (hdone _ _ _))

end Xdna
