import Xdna.Device.State

/-!
# Mailbox channels and the reply side of the rings

The functions of `src/xdna_mailbox.c` except `xdna_mbox_process`, which calls
the message handler and is defined after it. The ring of a channel is a block of
SRAM; head and tail are offsets into it. `xdna_mbox_send` is the writer of the
`i2x` ring and uses all of it but the last word, which is kept for a tombstone.
-/

namespace Xdna

open ByteMemory

/-- `xdna_mbox_channel_reset`. -/
def mboxChannelReset (npu : Npu) (idx : ℕ) : Npu :=
  if h : idx < maxChannels then npu.setChan ⟨idx, h⟩ { index := idx } else npu

/-- `xdna_mbox_reset`. -/
def mboxReset (npu : Npu) : Npu :=
  (List.range maxChannels).foldl mboxChannelReset npu

/-- `chan_from_off`: the channel of an MBOX offset and the register within it. -/
def chanFromOff (off : UInt32) : Option (ChanIdx × UInt32) :=
  if h : (off / mboxChanStride).toNat < maxChannels then
    some (⟨_, h⟩, off % mboxChanStride)
  else none

/-- `xdna_mbox_reg_read`. -/
def mboxRegRead (npu : Npu) (off : UInt32) : UInt32 :=
  match chanFromOff off with
  | none => 0
  | some (c, reg) =>
    if reg = mboxX2iHeadOff then (npu.chan c).x2iHead
    else if reg = mboxX2iTailOff then (npu.chan c).x2iTail
    else if reg = mboxI2xHeadOff then (npu.chan c).i2xHead
    else if reg = mboxIntrOff then (npu.chan c).intr
    else if reg = mboxI2xTailOff then (npu.chan c).i2xTail
    else 0

/-- The `hdr` that `xdna_mbox_send` fills in. -/
def replyHeader (id opcode len : UInt32) : MsgHeader where
  totalSize := len
  szVer := (len &&& msgBodySzMask) ||| (msgProtocolVer <<< msgProtoVerShift)
  id := id
  opcode := opcode

/-- A `memcpy` into the SRAM done by `xdna_mbox_send`. -/
def Machine.ringCopy (m : Machine) (c : ChanIdx) (off : ℕ) (bytes : List UInt8) : Machine :=
  (m.modify (·.sramCopy off bytes)).emit (.ringWrite c off bytes.length)

/-- The tombstone store of `xdna_mbox_send`. -/
def Machine.ringTombstone (m : Machine) (c : ChanIdx) (off : UInt32) : Machine :=
  if barSramSize < (off + 4).toNat then m
  else (m.modify (·.sramWrite32 off mboxTombstone)).emit (.ringWrite c off.toNat 4)

/-- `usable` of `xdna_mbox_send`: the last word of the ring is kept for a tombstone. -/
def Channel.usable (ch : Channel) : UInt32 := ch.i2xSize - 4

/-- The frame does not fit behind the tail, so the writer goes back to offset 0. -/
def Channel.sendWraps (ch : Channel) (pkgSize : UInt32) : Bool :=
  ch.i2xHead ≤ ch.i2xTail && ch.usable < ch.i2xTail + pkgSize

/-- The offset at which the frame is written if it is not refused. -/
def Channel.sendStart (ch : Channel) (pkgSize : UInt32) : UInt32 :=
  if ch.sendWraps pkgSize then 0 else ch.i2xTail

/-- The `i2x` ring is full. -/
def Channel.sendFull (ch : Channel) (pkgSize : UInt32) : Bool :=
  ch.sendStart pkgSize < ch.i2xHead && ch.i2xHead ≤ ch.sendStart pkgSize + pkgSize

/-- The registers and counters after a frame of `pkgSize` bytes was written at `start`. -/
def Npu.postFrame (npu : Npu) (c : ChanIdx) (start pkgSize : UInt32) : Npu :=
  { npu.setChan c { npu.chan c with i2xTail := start + pkgSize, intr := 1 } with
    stats := { npu.stats with mboxMsgsOut := npu.stats.mboxMsgsOut + 1 } }

/-- The interrupt at the end of `xdna_mbox_send`. -/
def Machine.raiseIrq (host : Host) (m : Machine) (c : ChanIdx) : Machine :=
  if host.raiseIrq then
    (m.emit (.raiseIrq (m.npu.chan c).index m.npu)).modify fun npu =>
      { npu with stats := { npu.stats with irqsRaised := npu.stats.irqsRaised + 1 } }
  else m

/-- The tombstone at the tail, if the frame goes to offset 0. -/
def Machine.sendMark (m : Machine) (c : ChanIdx) (pkgSize : UInt32) : Machine :=
  let ch := m.npu.chan c
  if ch.sendWraps pkgSize then m.ringTombstone c (ch.i2xBuf + ch.i2xTail) else m

/-- The copies of header and payload to offset `off` of the SRAM. -/
def Machine.sendCopy (m : Machine) (c : ChanIdx) (off : ℕ) (hdr : MsgHeader)
    (payload : List UInt8) : Machine :=
  let m₁ := m.ringCopy c off hdr.encode
  if UInt32.ofNat payload.length = 0 then m₁
  else m₁.ringCopy c (off + msgHeaderSize.toNat) payload

/-- `xdna_mbox_send` up to its return value; `true` stands for 0 and `false` for -1. -/
def mboxSendBody (host : Host) (m : Machine) (c : ChanIdx) (id opcode : UInt32)
    (payload : List UInt8) : Machine × Bool :=
  let ch := m.npu.chan c
  let len := UInt32.ofNat payload.length
  let pkgSize := msgHeaderSize + len
  if !ch.active then (m, false)
  else if ch.usable < pkgSize then (m, false)
  else
    let m₁ := m.sendMark c pkgSize
    let tail := ch.sendStart pkgSize
    if ch.sendFull pkgSize then (m₁, false)
    else
      let hdr := replyHeader id opcode len
      let m₂ := m₁.sendCopy c (ch.i2xBuf.toNat + tail.toNat) hdr payload
      ((m₂.modify (·.postFrame c tail pkgSize)).raiseIrq host c, true)

/-- `xdna_mbox_send`. -/
def mboxSend (host : Host) (m : Machine) (c : ChanIdx) (id opcode : UInt32)
    (payload : List UInt8) : Machine × Bool :=
  let r := mboxSendBody host m c id opcode payload
  (r.1.emit (.send c id opcode payload r.2), r.2)

end Xdna
