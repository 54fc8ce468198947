import Xdna.Parser
import Xdna.ReplyRing

/-!
# What lies behind a request

The payload buffer of `xdna_mbox_process` is not initialised, and a request fills only the start
of it. Every handler compares the length of the request with the size of its struct before it
reads the struct, so that nothing the device does depends on the rest of the buffer.
-/

namespace Xdna

open ByteMemory

/-- The same host with other bytes on the stack. -/
def Host.withStack (host : Host) (stack : ℕ → Memory) : Host := { host with stack := stack }

variable (host : Host) (stack : ℕ → Memory)

/-! ## One message -/

/-- The handler reads no byte behind the request. -/
theorem mertHandle_congr (m : Machine) (c : ChanIdx) (hdr : MsgHeader) {p p' : Memory}
    (h : ∀ i, i < hdr.totalSize.toNat → i < payloadSize.toNat → p i = p' i) :
    mertHandle host m c hdr p = mertHandle host m c hdr p' := by
  by_cases halive : m.npu.fwAlive = true
  · rw [mertHandle_eq c hdr p halive, mertHandle_eq c hdr p' halive]
    have hsize : 28 ≤ payloadSize.toNat := by decide
    rw [mertOutcome_congr host m hdr (le_refl _) fun i hi => h i (by omega) (by omega)]
  · simp [mertHandle, halive]

private theorem mboxSend_withStack (m : Machine) (c : ChanIdx) (id opcode : UInt32)
    (payload : List UInt8) :
    mboxSend (host.withStack stack) m c id opcode payload =
      mboxSend host m c id opcode payload := by
  unfold mboxSend mboxSendBody Machine.raiseIrq
  rfl

private theorem queryColStatus_withStack (m : Machine) (req : ColumnInfoReq) :
    queryColStatus (host.withStack stack) m req = queryColStatus host m req := by
  unfold queryColStatus
  rfl

private theorem mertHandle_withStack (m : Machine) (c : ChanIdx) (hdr : MsgHeader) (p : Memory) :
    mertHandle (host.withStack stack) m c hdr p = mertHandle host m c hdr p := by
  by_cases halive : m.npu.fwAlive = true
  · rw [mertHandle_eq c hdr p halive, mertHandle_eq c hdr p halive]
    have houtcome : mertOutcome (host.withStack stack) m hdr p = mertOutcome host m hdr p := by
      unfold mertOutcome
      rw [queryColStatus_withStack]
    rw [houtcome]
    unfold answerWith mertReply
    simp only [mboxSend_withStack]
  · simp [mertHandle, halive]

/-! ## Kicks -/

variable {host stack} {m : Machine}

private theorem mboxPass_withStack {c : ChanIdx} (hheads : HeadsOk m.npu)
    (hactive : (m.npu.chan c).active = true) :
    mboxPass (host.withStack stack) c m = mboxPass host c m := by
  unfold mboxPass
  dsimp only
  cases hpeek : (m.npu.chan c).peek m.npu with
  | ringEnd => rfl
  | tombstone => rfl
  | reject => rfl
  | frame size =>
    have hsize : (headHeader m.npu c).totalSize = size :=
      ((hheads c hactive).peek_frame_iff.mp hpeek).2.1.symm
    dsimp only
    rw [deliver_eq, deliver_eq, mertHandle_withStack, mertHandle_congr]
    intro i hi _
    have hlen : (headPayload m.npu c size).length = size.toNat := Memory.read_length ..
    have hin : i < (headPayload m.npu c size).length := by
      rw [hlen, ← hsize]
      exact hi
    have hsame (buf : Memory) :
        payloadBuffer (headPayload m.npu c size) buf i = (headPayload m.npu c size)[i] := by
      simp [payloadBuffer, hin]
    exact (hsame _).trans (hsame _).symm

private theorem mboxLoop_withStack (c : ChanIdx) (fuel : ℕ) (hcons : Consistent m.npu)
    (hheads : HeadsOk m.npu) (hpending : (m.npu.chan c).Pending) :
    mboxLoop (host.withStack stack) c fuel m = mboxLoop host c fuel m := by
  induction fuel generalizing m with
  | zero => rfl
  | succ fuel ih =>
    rw [mboxLoop, mboxLoop]
    split
    · rfl
    · rename_i hne
      have hactive : (m.npu.chan c).active = true := hpending.resolve_right hne
      have hact : Act host (fun _ _ => True) m (mboxPass host c m).1 := .pass m c hactive
      have hsteps := hact.steps hcons
      rw [mboxPass_withStack hheads hactive]
      dsimp only
      rw [ih (hsteps.consistent hcons) (hsteps.headsOk hcons hheads)
        (mboxPass_pending hcons hactive)]

private theorem mboxRegWrite_withStack (hcons : Consistent m.npu) (hheads : HeadsOk m.npu)
    (off val : UInt32) :
    mboxRegWrite (host.withStack stack) m off val = mboxRegWrite host m off val := by
  unfold mboxRegWrite
  cases chanFromOff off with
  | none => rfl
  | some p =>
    obtain ⟨c, reg⟩ := p
    dsimp only
    split
    · have hact : Act host (fun _ _ => True) m (m.modify fun npu =>
          npu.setChan c { npu.chan c with x2iTail := val }) := .guest m c (.x2iTail val)
      have hsteps := hact.steps hcons
      unfold mboxProcess
      split
      · split
        · rw [mboxLoop_withStack _ _ (hsteps.consistent hcons) (hsteps.headsOk hcons hheads)
            (.inl ‹_›)]
        · rfl
      · rfl
    · rfl

/-! ## Runs -/

private theorem pspKick_withStack (m : Machine) :
    pspKick (host.withStack stack) m = pspKick host m := by
  have hfetch (m : Machine) (paddr : UInt64) (size : UInt32) :
      pspFetchImage (host.withStack stack) m paddr size = pspFetchImage host m paddr size := by
    unfold pspFetchImage
    rfl
  have hcommand (m : Machine) : pspCommand (host.withStack stack) m = pspCommand host m := by
    unfold pspCommand
    simp only [hfetch]
  unfold pspKick
  simp only [hcommand]

private theorem regBarWrite_withStack (m : Machine) (off val : UInt32) :
    regBarWrite (host.withStack stack) m off val = regBarWrite host m off val := by
  unfold regBarWrite
  simp only [pspKick_withStack]

private theorem foldl_regWrite_withStack (bar : Int) (ws : List (UInt32 × UInt32))
    (hcons : Consistent m.npu) (hheads : HeadsOk m.npu) :
    ws.foldl (regWrite (host.withStack stack) bar) m = ws.foldl (regWrite host bar) m := by
  induction ws generalizing m with
  | nil => simp only [List.foldl_nil]
  | cons w ws ih =>
    have hacts : Acts host (fun _ _ => True) m (regWrite host bar m w) :=
      regWrite_acts hcons fun _ _ => trivial
    have hw : regWrite (host.withStack stack) bar m w = regWrite host bar m w := by
      unfold regWrite
      rw [regBarWrite_withStack, mboxRegWrite_withStack hcons hheads]
    rw [List.foldl_cons, List.foldl_cons, hw]
    exact ih (hacts.consistent hcons) ((hacts.steps hcons).headsOk hcons hheads)

private theorem guestStep_withStack (op : GuestOp) (hcons : Consistent m.npu)
    (hheads : HeadsOk m.npu) : guestStep (host.withStack stack) m op = guestStep host m op := by
  cases op with
  | read _ _ _ => rfl
  | readBuf _ _ _ => rfl
  | write bar off val len =>
    unfold guestStep mmioWrite mmioWriteBuf
    dsimp only
    rw [foldl_regWrite_withStack _ _ hcons hheads]
  | writeBuf bar off bytes =>
    unfold guestStep mmioWriteBuf
    dsimp only
    rw [foldl_regWrite_withStack _ _ hcons hheads]

/-- The run does not depend on what the stack contains. -/
theorem guestRun_withStack (host : Host) (stack : ℕ → Memory) (ops : List GuestOp) :
    guestRun (host.withStack stack) ops = guestRun host ops := by
  have hfold (ops : List GuestOp) {m : Machine} (hcons : Consistent m.npu)
      (hheads : HeadsOk m.npu) :
      ops.foldl (guestStep (host.withStack stack)) m = ops.foldl (guestStep host) m := by
    induction ops generalizing m with
    | nil => simp only [List.foldl_nil]
    | cons op ops ih =>
      have hacts : Acts host (fun _ _ => True) m (guestStep host m op) :=
        guestStep_acts hcons fun _ _ => trivial
      rw [List.foldl_cons, List.foldl_cons, guestStep_withStack op hcons hheads]
      exact ih (hacts.consistent hcons) ((hacts.steps hcons).headsOk hcons hheads)
  exact hfold ops consistent_npuReset headsOk_npuReset

/-- Only the bytes of the request matter: with payload buffers that agree on them a message has
the same effect, makes the same calls of the host and has the same reply; and no run from reset
depends on what the stack contains. -/
theorem requestBytes_suffice (host : Host) :
    (∀ (m : Machine) (c : ChanIdx) (hdr : MsgHeader) (p p' : Memory),
      (∀ i, i < hdr.totalSize.toNat → i < payloadSize.toNat → p i = p' i) →
        mertHandle host m c hdr p = mertHandle host m c hdr p') ∧
    ∀ (stack : ℕ → Memory) (ops : List GuestOp),
      guestRun (host.withStack stack) ops = guestRun host ops :=
  ⟨fun m c hdr _ _ h => mertHandle_congr host m c hdr h, guestRun_withStack host⟩

/-- A request of four bytes in front of zeros, and in front of other bytes. -/
theorem requestBytes_suffice_getRuntimeConfig :
    mertHandle .accepting booted 0 ⟨4, 0, 1, 0x10B⟩ (payloadBuffer [1, 0, 0, 0] fun _ => 0) =
      mertHandle .accepting booted 0 ⟨4, 0, 1, 0x10B⟩
        (payloadBuffer [1, 0, 0, 0] fun _ => 0xAA) := by
  refine (requestBytes_suffice .accepting).1 booted 0 _ _ _ ?_
  intro i hi _
  have hlt : i < 4 := hi
  have hin : i < [(1 : UInt8), 0, 0, 0].length := hlt
  rw [payloadBuffer, payloadBuffer, List.getElem?_eq_getElem hin, Option.getD_some,
    Option.getD_some]

end Xdna
