import Xdna.Device.Mert

/-!
# Consuming requests

`xdna_mbox_process` and the register writes of the MBOX BAR. The body of its
loop first decides what lies at the head of the `x2i` ring (`Channel.peek`) and
then acts on it, so that what the parser accepts is a function of the channel
registers and the ring bytes alone.
-/

namespace Xdna

open ByteMemory

/-- `MBOX_MAX_MSG_PER_KICK`: the number of passes the guard of the loop allows. -/
def mboxMaxMsgPerKick : ℕ := 256

/-- `sizeof(payload)` in `xdna_mbox_process`. -/
def payloadSize : UInt32 := sramCtxRbSize

/-- What a pass of the loop finds at the head of the ring. -/
inductive Peek where
  | ringEnd
  | tombstone
  | reject
  | frame (size : UInt32)
  deriving DecidableEq

/-- The tests of the loop body, in the order of the source. The sum of header and payload
size may wrap; a size close to `2^32` is then stopped by the bound on the payload. -/
def Channel.peek (ch : Channel) (npu : Npu) : Peek :=
  if ch.x2iSize ≤ ch.x2iHead then .ringEnd
  else
    let peek := npu.sramRead32 (ch.x2iBuf + ch.x2iHead)
    if peek = mboxTombstone then .tombstone
    else if peek = 0 ∨ peek &&& 3 ≠ 0 then .reject
    else if ch.x2iSize - ch.x2iHead < msgHeaderSize + peek then .reject
    else if payloadSize < peek then .reject
    else .frame peek

/-- The offset in SRAM of the head of the `x2i` ring. -/
def Channel.headOff (ch : Channel) : ℕ := ch.x2iBuf.toNat + ch.x2iHead.toNat

/-- The device moves its head in the `x2i` ring. -/
def Npu.setX2iHead (npu : Npu) (c : ChanIdx) (head : UInt32) : Npu :=
  npu.setChan c { npu.chan c with x2iHead := head }

/-- `ch->x2i_head += msg_size` and `mbox_msgs_in++`. -/
def Npu.consume (npu : Npu) (c : ChanIdx) (size : UInt32) : Npu :=
  { npu.setX2iHead c ((npu.chan c).x2iHead + (msgHeaderSize + size)) with
    stats := { npu.stats with mboxMsgsIn := npu.stats.mboxMsgsIn + 1 } }

/-- The payload buffer: the bytes copied from the ring, then what was on the stack. -/
def payloadBuffer (payload : List UInt8) (stack : Memory) : Memory :=
  fun i => (payload[i]?).getD (stack i)

/-- The copies of a frame out of the ring, and the call of `xdna_mert_handle`. -/
def deliver (host : Host) (m : Machine) (c : ChanIdx) (size : UInt32) : Machine :=
  let off := (m.npu.chan c).headOff
  let hdr := MsgHeader.decode m.npu.sram off
  let payload := m.npu.sram.read (off + msgHeaderSize.toNat) size.toNat
  let m₁ := (m.emit (.ringRead c off msgHeaderSize.toNat)).emit
    (.ringRead c (off + msgHeaderSize.toNat) size.toNat)
  let m₂ := m₁.modify (·.consume c size)
  mertHandle host (m₂.emit (.handle c hdr payload m₂.npu)) c hdr
    (payloadBuffer payload (host.stack m.trace.length))

/-- One pass of the loop body; `none` means `return`. -/
def mboxPass (host : Host) (c : ChanIdx) (m : Machine) : Machine × Bool :=
  let ch := m.npu.chan c
  let m₁ := m.emit (.ringRead c ch.headOff 4)
  match ch.peek m.npu with
  | .ringEnd => (m.modify (·.setX2iHead c 0), true)
  | .tombstone => (m₁.modify (·.setX2iHead c 0), true)
  | .reject => (m₁.emit (.reject c m.npu), false)
  | .frame size => (deliver host m₁ c size, true)

/-- The loop with `fuel` passes left before the guard stops it. -/
def mboxLoop (host : Host) (c : ChanIdx) : ℕ → Machine → Machine
  | 0, m => m
  | fuel + 1, m =>
    if (m.npu.chan c).x2iHead = (m.npu.chan c).x2iTail then m
    else
      let r := mboxPass host c m
      if r.2 then mboxLoop host c fuel r.1 else r.1

/-- `xdna_mbox_process`. -/
def mboxProcess (host : Host) (m : Machine) (chanIdx : ℕ) : Machine :=
  if h : chanIdx < maxChannels then
    if (m.npu.chan ⟨chanIdx, h⟩).active then mboxLoop host ⟨chanIdx, h⟩ mboxMaxMsgPerKick m
    else m
  else m

/-- `xdna_mbox_reg_write`. The registers the device owns are not written. -/
def mboxRegWrite (host : Host) (m : Machine) (off val : UInt32) : Machine :=
  match chanFromOff off with
  | none => m
  | some (c, reg) =>
    if reg = mboxX2iTailOff then
      let m₁ := m.modify fun npu => npu.setChan c { npu.chan c with x2iTail := val }
      mboxProcess host m₁ (m₁.npu.chan c).index
    else if reg = mboxI2xHeadOff then
      m.modify fun npu => npu.setChan c { npu.chan c with i2xHead := val }
    else if reg = mboxIntrOff then
      m.modify fun npu => npu.setChan c { npu.chan c with intr := val }
    else m

end Xdna
