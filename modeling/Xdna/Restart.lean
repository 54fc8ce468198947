import Xdna.Reload

/-!
# After a reset

`xdna_npu_reset` leaves nothing of what happened before: any accesses that follow find the device
that they find after the first reset. Only the host remembers, which has answered calls before.
-/

namespace Xdna

open ByteMemory

/-! ## The time before -/

/-- The machine `m`, of which `m₀` is the past. -/
def Machine.after (m m₀ : Machine) : Machine where
  npu := m.npu
  dmaReads := m₀.dmaReads + m.dmaReads
  dmaWrites := m₀.dmaWrites + m.dmaWrites
  trace := m₀.trace ++ m.trace

/-- The host, of which `m₀` has made use already. -/
def Host.after (host : Host) (m₀ : Machine) : Host where
  dmaRead := host.dmaRead.map fun f n => f (m₀.dmaReads + n)
  dmaReadPhys := host.dmaReadPhys.map fun f n => f (m₀.dmaReads + n)
  dmaWrite := host.dmaWrite.map fun f n => f (m₀.dmaWrites + n)
  raiseIrq := host.raiseIrq
  stack n := host.stack (m₀.trace.length + n)

section After

variable (host : Host) (m₀ m : Machine)

/-- The device is the same. -/
@[simp] theorem after_npu : (m.after m₀).npu = m.npu := rfl

private theorem emit_after (e : Event) : (m.emit e).after m₀ = (m.after m₀).emit e := by
  simp [Machine.after, Machine.emit]

private theorem modify_after (f : Npu → Npu) : (m.modify f).after m₀ = (m.after m₀).modify f := rfl

private theorem ite_after (p : Prop) [Decidable p] (m' : Machine) :
    (if p then m else m').after m₀ = if p then m.after m₀ else m'.after m₀ :=
  apply_ite (Machine.after · m₀) p m m'

/-! ## Replies -/

private theorem ringCopy_after (c : ChanIdx) (off : ℕ) (bytes : List UInt8) :
    (m.ringCopy c off bytes).after m₀ = (m.after m₀).ringCopy c off bytes := by
  rw [Machine.ringCopy, Machine.ringCopy, emit_after, modify_after]

private theorem sendMark_after (c : ChanIdx) (pkgSize : UInt32) :
    (m.sendMark c pkgSize).after m₀ = (m.after m₀).sendMark c pkgSize := by
  simp only [Machine.sendMark, Machine.ringTombstone, ite_after, emit_after, modify_after]
  rfl

private theorem sendCopy_after (c : ChanIdx) (off : ℕ) (hdr : MsgHeader) (payload : List UInt8) :
    (m.sendCopy c off hdr payload).after m₀ = (m.after m₀).sendCopy c off hdr payload := by
  simp only [Machine.sendCopy, ite_after, ringCopy_after]

private theorem raiseIrq_after (c : ChanIdx) :
    (m.raiseIrq (host.after m₀) c).after m₀ = (m.after m₀).raiseIrq host c := by
  simp only [Machine.raiseIrq, ite_after, emit_after, modify_after]
  rfl

private theorem mboxSendBody_after (c : ChanIdx) (id opcode : UInt32) (payload : List UInt8) :
    mboxSendBody host (m.after m₀) c id opcode payload =
      ((mboxSendBody (host.after m₀) m c id opcode payload).1.after m₀,
        (mboxSendBody (host.after m₀) m c id opcode payload).2) := by
  simp only [mboxSendBody, after_npu, ← sendMark_after, ← sendCopy_after, ← modify_after,
    ← raiseIrq_after]
  split
  · rfl
  split
  · rfl
  split <;> rfl

private theorem mertReply_after (c : ChanIdx) (hdr : MsgHeader) (payload : List UInt8) :
    (mertReply (host.after m₀) m c hdr payload).after m₀ =
      mertReply host (m.after m₀) c hdr payload := by
  simp only [mertReply, mboxSend, mboxSendBody_after, emit_after]

/-! ## Messages -/

/-- The machine after the write of one chunk. -/
def Machine.wrote (m : Machine) (addr : UInt64) (n : UInt32) (ok : Bool) : Machine :=
  { m.emit (.dmaWrite addr n ok) with dmaWrites := m.dmaWrites + 1 }

private theorem wrote_after (addr : UInt64) (n : UInt32) (ok : Bool) :
    (m.wrote addr n ok).after m₀ = (m.after m₀).wrote addr n ok := by
  have hemit := emit_after m₀ m (.dmaWrite addr n ok)
  rw [Machine.wrote, Machine.wrote, ← hemit]
  rfl

/-- The size of the next chunk. -/
abbrev chunk (size done : UInt32) : UInt32 := if 256 < size - done then 256 else size - done

/-- One round of the loop of the dump. -/
theorem colStatusLoop_chunk (dmaWrite : ℕ → UInt64 → List UInt8 → Bool) (addr : UInt64)
    {size done : UInt32} (h : done < size) :
    colStatusLoop dmaWrite addr size m done =
      let n := chunk size done
      let ok := dmaWrite m.dmaWrites (addr + done.toUInt64) (List.replicate n.toNat 0)
      let m₁ := m.wrote (addr + done.toUInt64) n ok
      if ok then colStatusLoop dmaWrite addr size m₁ (done + n) else (m₁, done, true) := by
  rw [colStatusLoop, dif_pos h]
  rfl

private theorem colStatusLoop_after (dmaWrite : ℕ → UInt64 → List UInt8 → Bool) (addr : UInt64)
    (size : UInt32) (done : UInt32) :
    colStatusLoop dmaWrite addr size (m.after m₀) done =
      ((colStatusLoop (fun n => dmaWrite (m₀.dmaWrites + n)) addr size m done).1.after m₀,
        (colStatusLoop (fun n => dmaWrite (m₀.dmaWrites + n)) addr size m done).2) := by
  induction m, done using
    colStatusLoop.induct (fun n => dmaWrite (m₀.dmaWrites + n)) addr size with
  | case1 m done h n ok m₁ hok ih =>
    have hwrite : dmaWrite (m₀.dmaWrites + m.dmaWrites) (addr + done.toUInt64)
      (List.replicate (chunk size done).toNat 0) = true := hok
    rw [colStatusLoop_chunk _ _ _ h, colStatusLoop_chunk _ _ _ h]
    dsimp only
    rw [← wrote_after, show (m.after m₀).dmaWrites = m₀.dmaWrites + m.dmaWrites from rfl,
      if_pos hwrite, if_pos hwrite, hwrite]
    exact hok ▸ ih
  | case2 m done h n ok hok =>
    have hwrite : ¬ dmaWrite (m₀.dmaWrites + m.dmaWrites) (addr + done.toUInt64)
      (List.replicate (chunk size done).toNat 0) = true := hok
    rw [colStatusLoop_chunk _ _ _ h, colStatusLoop_chunk _ _ _ h]
    dsimp only
    rw [← wrote_after, show (m.after m₀).dmaWrites = m₀.dmaWrites + m.dmaWrites from rfl,
      if_neg hwrite, if_neg hwrite]
  | case3 m done h =>
    rw [colStatusLoop, dif_neg h]
    conv_rhs => rw [colStatusLoop, dif_neg h]

private theorem queryColStatus_after (req : ColumnInfoReq) :
    queryColStatus host (m.after m₀) req =
      ((queryColStatus (host.after m₀) m req).1.after m₀,
        (queryColStatus (host.after m₀) m req).2) := by
  unfold queryColStatus
  split
  · rfl
  · cases hwrite : host.dmaWrite with
    | none => simp [Host.after, hwrite]
    | some dmaWrite =>
      simp only [Host.after, hwrite, Option.map_some, colStatusLoop_after]

private theorem mertOutcome_after (hdr : MsgHeader) (payload : Memory) :
    mertOutcome host (m.after m₀) hdr payload =
      ((mertOutcome (host.after m₀) m hdr payload).1.after m₀,
        (mertOutcome (host.after m₀) m hdr payload).2) := by
  unfold mertOutcome
  split
  · split
    · rfl
    · rw [queryColStatus_after]
  · rfl

private theorem mertHandle_after (c : ChanIdx) (hdr : MsgHeader) (payload : Memory) :
    mertHandle host (m.after m₀) c hdr payload =
      (mertHandle (host.after m₀) m c hdr payload).after m₀ := by
  by_cases halive : m.npu.fwAlive = true
  · rw [mertHandle_eq c hdr payload halive, mertHandle_eq c hdr payload (m := m.after m₀) halive,
      mertOutcome_after]
    unfold answerWith
    dsimp only
    cases (mertOutcome (host.after m₀) m hdr payload).2 with
    | none => rfl
    | some a => exact (mertReply_after ..).symm
  · have hdead : (!m.npu.fwAlive) = true := by simpa using halive
    rw [mertHandle, mertHandle, if_pos hdead, after_npu, if_pos hdead]

private theorem deliver_after (c : ChanIdx) (size : UInt32) :
    deliver host (m.after m₀) c size = (deliver (host.after m₀) m c size).after m₀ := by
  have hstack : host.stack (m.after m₀).trace.length = (host.after m₀).stack m.trace.length :=
    congrArg host.stack List.length_append
  unfold deliver
  dsimp only
  rw [hstack, ← mertHandle_after, emit_after, modify_after, emit_after, emit_after]
  rfl

private theorem mboxPass_after (c : ChanIdx) :
    mboxPass host c (m.after m₀) =
      ((mboxPass (host.after m₀) c m).1.after m₀, (mboxPass (host.after m₀) c m).2) := by
  unfold mboxPass
  dsimp only
  rw [after_npu]
  cases (m.npu.chan c).peek m.npu with
  | ringEnd => rfl
  | tombstone => rw [← emit_after]; rfl
  | reject => rw [← emit_after, ← emit_after]
  | frame size =>
    dsimp only
    rw [← emit_after, deliver_after]

private theorem mboxLoop_after (c : ChanIdx) (fuel : ℕ) :
    mboxLoop host c fuel (m.after m₀) = (mboxLoop (host.after m₀) c fuel m).after m₀ := by
  induction fuel generalizing m with
  | zero => rfl
  | succ fuel ih =>
    rw [mboxLoop, mboxLoop, after_npu, mboxPass_after, ite_after]
    dsimp only
    rw [ih, ite_after]

private theorem mboxProcess_after (chanIdx : ℕ) :
    mboxProcess host (m.after m₀) chanIdx = (mboxProcess (host.after m₀) m chanIdx).after m₀ := by
  unfold mboxProcess
  split
  · rw [after_npu, mboxLoop_after, ite_after]
  · rfl

/-! ## Register accesses -/

private theorem mboxRegWrite_after (off val : UInt32) :
    mboxRegWrite host (m.after m₀) off val = (mboxRegWrite (host.after m₀) m off val).after m₀ := by
  unfold mboxRegWrite
  cases chanFromOff off with
  | none => rfl
  | some p =>
    dsimp only
    rw [← modify_after, ← modify_after, ← modify_after, mboxProcess_after, after_npu]
    simp only [ite_after]

private theorem pspFetchImage_after (paddr : UInt64) (size : UInt32) :
    pspFetchImage host (m.after m₀) paddr size =
      ((pspFetchImage (host.after m₀) m paddr size).1.after m₀,
        (pspFetchImage (host.after m₀) m paddr size).2) := by
  have hread : (if (host.after m₀).dmaReadPhys.isSome then (host.after m₀).dmaReadPhys
      else (host.after m₀).dmaRead) =
      (if host.dmaReadPhys.isSome then host.dmaReadPhys else host.dmaRead).map
        fun f n => f (m₀.dmaReads + n) := by
    cases hphys : host.dmaReadPhys <;> simp [Host.after, hphys]
  unfold pspFetchImage
  dsimp only
  rw [hread]
  split
  · rfl
  · cases (if host.dmaReadPhys.isSome = true then host.dmaReadPhys else host.dmaRead) with
    | none => rfl
    | some read =>
      dsimp only [Option.map_some]
      rw [← emit_after]
      rfl

private theorem pspCommand_after :
    pspCommand host (m.after m₀) =
      ((pspCommand (host.after m₀) m).1.after m₀, (pspCommand (host.after m₀) m).2) := by
  unfold pspCommand
  dsimp only
  rw [after_npu, pspFetchImage_after]
  generalize pspFetchImage (host.after m₀) m (pspPaddr m.npu)
    (m.npu.scratch 9 &&& pspArg2Mask) = r
  by_cases hvalidate : m.npu.scratch 2 = pspCmdValidate
  · rw [if_pos hvalidate, if_pos hvalidate]
    by_cases hread : r.2 = 0
    · rw [if_pos hread, if_pos hread, modify_after]
    · rw [if_neg hread, if_neg hread]
  rw [if_neg hvalidate, if_neg hvalidate]
  by_cases hcert : m.npu.scratch 2 = pspCmdValidateCert
  · rw [if_pos hcert, if_pos hcert]
  rw [if_neg hcert, if_neg hcert]
  by_cases hstart : m.npu.scratch 2 = pspCmdStart
  · rw [if_pos hstart, if_pos hstart]
    by_cases hstate : m.npu.pspState ≠ .validated
    · rw [if_pos hstate, if_pos hstate]
    · rw [if_neg hstate, if_neg hstate, modify_after]
  rw [if_neg hstart, if_neg hstart]
  by_cases hrelease : m.npu.scratch 2 = pspCmdReleaseTmr
  · rw [if_pos hrelease, if_pos hrelease, modify_after]
  · rw [if_neg hrelease, if_neg hrelease]

private theorem pspKick_after :
    pspKick host (m.after m₀) = (pspKick (host.after m₀) m).after m₀ := by
  unfold pspKick
  dsimp only
  rw [← modify_after, pspCommand_after, emit_after, modify_after, after_npu]

private theorem regBarWrite_after (off val : UInt32) :
    regBarWrite host (m.after m₀) off val = (regBarWrite (host.after m₀) m off val).after m₀ := by
  unfold regBarWrite
  dsimp only
  simp only [← modify_after, pspKick_after, ite_after]

private theorem regWrite_after (bar : Int) (w : UInt32 × UInt32) :
    regWrite host bar (m.after m₀) w = (regWrite (host.after m₀) bar m w).after m₀ := by
  rw [regWrite, regWrite, regBarWrite_after, mboxRegWrite_after, ite_after, ite_after]

private theorem mmioWriteBuf_after (bar : Int) (off : UInt32) (bytes : List UInt8) :
    mmioWriteBuf host (m.after m₀) bar off bytes =
      (mmioWriteBuf (host.after m₀) m bar off bytes).after m₀ := by
  have hwords (ws : List (UInt32 × UInt32)) (m : Machine) :
      ws.foldl (regWrite host bar) (m.after m₀) =
        (ws.foldl (regWrite (host.after m₀) bar) m).after m₀ := by
    induction ws generalizing m with
    | nil => rfl
    | cons w ws ih => rw [List.foldl_cons, List.foldl_cons, regWrite_after, ih]
  rw [mmioWriteBuf, mmioWriteBuf, hwords, ← modify_after, ite_after, ite_after]

/-- An access does the same whatever came before. -/
theorem guestStep_after (op : GuestOp) :
    guestStep host (m.after m₀) op = (guestStep (host.after m₀) m op).after m₀ := by
  cases op with
  | read => rfl
  | readBuf => rfl
  | write bar off val len => exact mmioWriteBuf_after ..
  | writeBuf bar off bytes => exact mmioWriteBuf_after ..

end After

/-- A reset is the initial machine with a past. -/
theorem coldReset_eq (m : Machine) : coldReset m = initial.after m := by
  simp [coldReset, initial, Machine.after]

end Xdna
