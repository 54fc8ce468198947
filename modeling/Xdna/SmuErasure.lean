import Xdna.SharedScratch
import Xdna.Restart

/-!
# The SMU can be left out

Clocks and power are the SMU's own affair. If its accesses are taken out of a run, whatever they
are and wherever they stand, every other access reads what it read, and the rest of the device,
what it does and what it asks of the host are the same.
-/

namespace Xdna

open ByteMemory Interleaving

/-! ## The machine without the SMU -/

/-- An event, without what it shows of the SMU. -/
def Event.withoutSmu : Event → Event
  | .raiseIrq vector npu => .raiseIrq vector (Xdna.withoutSmu npu)
  | .reject c npu => .reject c (Xdna.withoutSmu npu)
  | .handle c hdr payload npu => .handle c hdr payload (Xdna.withoutSmu npu)
  | e => e

/-- The states that go with the events are without the SMU as well. -/
def Machine.withoutSmu (m : Machine) : Machine where
  npu := Xdna.withoutSmu m.npu
  dmaReads := m.dmaReads
  dmaWrites := m.dmaWrites
  trace := m.trace.map Event.withoutSmu

/-- The change does not depend on the SMU, and leaves it alone. -/
def IgnoresSmu (f : Npu → Npu) : Prop := ∀ npu, withoutSmu (f npu) = f (withoutSmu npu)

section WithoutSmu

variable (host : Host) (m : Machine)

/-- The device of the machine. -/
@[simp] theorem withoutSmu_npu : m.withoutSmu.npu = withoutSmu m.npu := rfl

/-- The channels are as they were. -/
@[simp] theorem withoutSmu_chan (npu : Npu) : (withoutSmu npu).chan = npu.chan := rfl

private theorem emit_withoutSmu (e : Event) :
    (m.emit e).withoutSmu = m.withoutSmu.emit e.withoutSmu := by
  simp [Machine.withoutSmu, Machine.emit]

private theorem modify_withoutSmu {f : Npu → Npu} (h : IgnoresSmu f) :
    (m.modify f).withoutSmu = m.withoutSmu.modify f := by
  rw [Machine.withoutSmu, Machine.withoutSmu, Machine.modify, Machine.modify, h]

private theorem ite_withoutSmu (p : Prop) [Decidable p] (m' : Machine) :
    (if p then m else m').withoutSmu = if p then m.withoutSmu else m'.withoutSmu :=
  apply_ite Machine.withoutSmu p m m'

/-! ## Replies -/

private theorem ringCopy_withoutSmu (c : ChanIdx) (off : ℕ) (bytes : List UInt8) :
    (m.ringCopy c off bytes).withoutSmu = m.withoutSmu.ringCopy c off bytes := by
  have hcopy : IgnoresSmu (·.sramCopy off bytes) := fun _ => rfl
  rw [Machine.ringCopy, Machine.ringCopy, emit_withoutSmu, modify_withoutSmu m hcopy]
  rfl

private theorem ignoresSmu_sramWrite32 (off v : UInt32) : IgnoresSmu (·.sramWrite32 off v) := by
  intro npu
  dsimp only
  unfold Npu.sramWrite32
  split <;> rfl

private theorem sendMark_withoutSmu (c : ChanIdx) (pkgSize : UInt32) :
    (m.sendMark c pkgSize).withoutSmu = m.withoutSmu.sendMark c pkgSize := by
  unfold Machine.sendMark Machine.ringTombstone
  dsimp only
  rw [ite_withoutSmu, ite_withoutSmu, emit_withoutSmu,
    modify_withoutSmu m (ignoresSmu_sramWrite32 _ mboxTombstone)]
  rfl

private theorem sendCopy_withoutSmu (c : ChanIdx) (off : ℕ) (hdr : MsgHeader)
    (payload : List UInt8) :
    (m.sendCopy c off hdr payload).withoutSmu = m.withoutSmu.sendCopy c off hdr payload := by
  simp only [Machine.sendCopy, ite_withoutSmu, ringCopy_withoutSmu]

private theorem raiseIrq_withoutSmu (c : ChanIdx) :
    (m.raiseIrq host c).withoutSmu = m.withoutSmu.raiseIrq host c := by
  have hcount : IgnoresSmu fun npu =>
      { npu with stats := { npu.stats with irqsRaised := npu.stats.irqsRaised + 1 } } :=
    fun _ => rfl
  unfold Machine.raiseIrq
  rw [ite_withoutSmu, modify_withoutSmu _ hcount, emit_withoutSmu]
  rfl

private theorem mboxSendBody_withoutSmu (c : ChanIdx) (id opcode : UInt32) (payload : List UInt8) :
    mboxSendBody host m.withoutSmu c id opcode payload =
      ((mboxSendBody host m c id opcode payload).1.withoutSmu,
        (mboxSendBody host m c id opcode payload).2) := by
  have hpost (start size : UInt32) : IgnoresSmu (·.postFrame c start size) := fun _ => rfl
  unfold mboxSendBody
  dsimp only
  rw [withoutSmu_npu, withoutSmu_chan, ← sendMark_withoutSmu, ← sendCopy_withoutSmu,
    ← modify_withoutSmu _ (hpost _ _), ← raiseIrq_withoutSmu]
  split
  · rfl
  split
  · rfl
  split <;> rfl

private theorem mboxSend_withoutSmu (c : ChanIdx) (id opcode : UInt32) (payload : List UInt8) :
    mboxSend host m.withoutSmu c id opcode payload =
      ((mboxSend host m c id opcode payload).1.withoutSmu,
        (mboxSend host m c id opcode payload).2) := by
  unfold mboxSend
  dsimp only
  rw [mboxSendBody_withoutSmu, emit_withoutSmu]
  rfl

/-! ## Messages -/

private theorem mboxChannelReset_withoutSmu (npu : Npu) (idx : ℕ) :
    mboxChannelReset (withoutSmu npu) idx = withoutSmu (mboxChannelReset npu idx) := by
  unfold mboxChannelReset
  split <;> rfl

private theorem createContext_withoutSmu (npu : Npu) (s : SlotIdx) (req : CreateCtxReq) :
    createContext (withoutSmu npu) s req = withoutSmu (createContext npu s req) := by
  unfold createContext
  rw [mboxChannelReset_withoutSmu]
  rfl

private theorem destroyContext_withoutSmu (npu : Npu) (s : SlotIdx) :
    destroyContext (withoutSmu npu) s = withoutSmu (destroyContext npu s) := by
  unfold destroyContext
  rw [show (withoutSmu npu).ctx = npu.ctx from rfl, mboxChannelReset_withoutSmu]
  dsimp only
  rw [apply_ite withoutSmu]
  rfl

private theorem mertStep_withoutSmu (npu : Npu) (hdr : MsgHeader) (payload : Memory)
    (op : Option MsgOpcode) :
    mertStep (withoutSmu npu) hdr payload op =
      (withoutSmu (mertStep npu hdr payload op).1, (mertStep npu hdr payload op).2) := by
  have hfree : freeSlot (withoutSmu npu) = freeSlot npu := rfl
  have hfind (id : UInt32) : ctxById (withoutSmu npu) id = ctxById npu id := rfl
  rcases op with _ | op
  · rfl
  cases op with
  | setRuntimeConfig =>
    simp only [mertStep, setRuntimeConfigStep]
    split
    · rfl
    split <;> rfl
  | getRuntimeConfig =>
    simp only [mertStep, getRuntimeConfigStep]
    split <;> rfl
  | assignMgmtPasid =>
    simp only [mertStep, assignPasidStep]
    split <;> rfl
  | createContext =>
    simp only [mertStep, createStep, hfree, createContext_withoutSmu]
    split
    · rfl
    cases freeSlot npu with
    | none => rfl
    | some s =>
      dsimp only
      split <;> rfl
  | destroyContext =>
    simp only [mertStep, destroyStep, hfind, destroyContext_withoutSmu]
    split
    · rfl
    split <;> rfl
  | mapHostBuffer =>
    simp only [mertStep, heapStep, hfind]
    split
    · rfl
    split <;> rfl
  | addHostBuffer =>
    simp only [mertStep, heapStep, hfind]
    split
    · rfl
    split <;> rfl
  | registerAsyncEventMsg =>
    simp only [mertStep, asyncStep]
    split <;> rfl
  | _ => rfl

private theorem colStatusLoop_withoutSmu (dmaWrite : ℕ → UInt64 → List UInt8 → Bool) (addr : UInt64)
    (size : UInt32) (done : UInt32) :
    colStatusLoop dmaWrite addr size m.withoutSmu done =
      ((colStatusLoop dmaWrite addr size m done).1.withoutSmu,
        (colStatusLoop dmaWrite addr size m done).2) := by
  have hwrote (m : Machine) (a : UInt64) (n : UInt32) (ok : Bool) :
      (m.wrote a n ok).withoutSmu = m.withoutSmu.wrote a n ok := by
    have hemit := emit_withoutSmu m (.dmaWrite a n ok)
    rw [Machine.wrote, Machine.wrote, show m.withoutSmu.emit (.dmaWrite a n ok) = _ from hemit.symm]
    rfl
  induction m, done using colStatusLoop.induct dmaWrite addr size with
  | case1 m done h n ok m₁ hok ih =>
    have hwrite : dmaWrite m.dmaWrites (addr + done.toUInt64)
      (List.replicate (chunk size done).toNat 0) = true := hok
    rw [colStatusLoop_chunk _ _ _ h, colStatusLoop_chunk _ _ _ h]
    dsimp only
    rw [← hwrote, show m.withoutSmu.dmaWrites = m.dmaWrites from rfl, if_pos hwrite,
      if_pos hwrite, hwrite]
    exact hok ▸ ih
  | case2 m done h n ok hok =>
    have hwrite : ¬ dmaWrite m.dmaWrites (addr + done.toUInt64)
      (List.replicate (chunk size done).toNat 0) = true := hok
    rw [colStatusLoop_chunk _ _ _ h, colStatusLoop_chunk _ _ _ h]
    dsimp only
    rw [← hwrote, show m.withoutSmu.dmaWrites = m.dmaWrites from rfl, if_neg hwrite,
      if_neg hwrite]
  | case3 m done h =>
    rw [colStatusLoop, dif_neg h]
    conv_rhs => rw [colStatusLoop, dif_neg h]

private theorem queryColStatus_withoutSmu (req : ColumnInfoReq) :
    queryColStatus host m.withoutSmu req =
      ((queryColStatus host m req).1.withoutSmu, (queryColStatus host m req).2) := by
  unfold queryColStatus
  split
  · rfl
  · cases host.dmaWrite with
    | none => rfl
    | some dmaWrite =>
      dsimp only
      rw [colStatusLoop_withoutSmu]

private theorem mertOutcome_withoutSmu (hdr : MsgHeader) (payload : Memory) :
    mertOutcome host m.withoutSmu hdr payload =
      ((mertOutcome host m hdr payload).1.withoutSmu, (mertOutcome host m hdr payload).2) := by
  unfold mertOutcome
  split
  · split
    · rfl
    · rw [queryColStatus_withoutSmu]
  · rw [withoutSmu_npu, mertStep_withoutSmu]
    rfl

private theorem mertHandle_withoutSmu (c : ChanIdx) (hdr : MsgHeader) (payload : Memory) :
    mertHandle host m.withoutSmu c hdr payload = (mertHandle host m c hdr payload).withoutSmu := by
  by_cases halive : m.npu.fwAlive = true
  · rw [mertHandle_eq c hdr payload halive, mertHandle_eq c hdr payload (m := m.withoutSmu) halive,
      mertOutcome_withoutSmu]
    unfold answerWith
    dsimp only
    cases (mertOutcome host m hdr payload).2 with
    | none => rfl
    | some a =>
      dsimp only
      rw [mertReply, mertReply, mboxSend_withoutSmu]
  · have hdead : (!m.npu.fwAlive) = true := by simpa using halive
    have hdead' : (!m.withoutSmu.npu.fwAlive) = true := hdead
    rw [mertHandle, mertHandle, if_pos hdead, if_pos hdead']

/-! ## Kicks -/

private theorem deliver_withoutSmu (c : ChanIdx) (size : UInt32) :
    deliver host m.withoutSmu c size = (deliver host m c size).withoutSmu := by
  have hconsume : IgnoresSmu (·.consume c size) := fun _ => rfl
  have hlen : m.withoutSmu.trace.length = m.trace.length := List.length_map _
  unfold deliver
  dsimp only
  rw [hlen, ← mertHandle_withoutSmu, emit_withoutSmu, modify_withoutSmu _ hconsume,
    emit_withoutSmu, emit_withoutSmu]
  rfl

private theorem mboxPass_withoutSmu (c : ChanIdx) :
    mboxPass host c m.withoutSmu =
      ((mboxPass host c m).1.withoutSmu, (mboxPass host c m).2) := by
  have hpeek : (m.npu.chan c).peek (withoutSmu m.npu) = (m.npu.chan c).peek m.npu := rfl
  have hread : m.withoutSmu.emit (.ringRead c (m.npu.chan c).headOff 4) =
      (m.emit (.ringRead c (m.npu.chan c).headOff 4)).withoutSmu :=
    (emit_withoutSmu m (.ringRead c (m.npu.chan c).headOff 4)).symm
  have hwrap : IgnoresSmu (·.setX2iHead c 0) := fun _ => rfl
  unfold mboxPass
  dsimp only
  rw [withoutSmu_npu, withoutSmu_chan, hpeek, hread]
  cases (m.npu.chan c).peek m.npu with
  | ringEnd => rw [modify_withoutSmu _ hwrap]
  | tombstone =>
    dsimp only
    rw [modify_withoutSmu _ hwrap]
  | reject =>
    dsimp only
    rw [emit_withoutSmu (m.emit (.ringRead c (m.npu.chan c).headOff 4)) (.reject c m.npu)]
    rfl
  | frame size =>
    dsimp only
    rw [deliver_withoutSmu]

private theorem mboxLoop_withoutSmu (c : ChanIdx) (fuel : ℕ) :
    mboxLoop host c fuel m.withoutSmu = (mboxLoop host c fuel m).withoutSmu := by
  induction fuel generalizing m with
  | zero => rfl
  | succ fuel ih =>
    rw [mboxLoop, mboxLoop, mboxPass_withoutSmu, ite_withoutSmu]
    dsimp only
    rw [ih, ite_withoutSmu]
    rfl

private theorem mboxProcess_withoutSmu (chanIdx : ℕ) :
    mboxProcess host m.withoutSmu chanIdx = (mboxProcess host m chanIdx).withoutSmu := by
  unfold mboxProcess
  split
  · rw [mboxLoop_withoutSmu, ite_withoutSmu]
    rfl
  · rfl

private theorem mboxRegWrite_withoutSmu (off val : UInt32) :
    mboxRegWrite host m.withoutSmu off val = (mboxRegWrite host m off val).withoutSmu := by
  unfold mboxRegWrite
  cases chanFromOff off with
  | none => rfl
  | some p =>
    obtain ⟨c, reg⟩ := p
    have hset (f : Channel → Channel) : IgnoresSmu fun npu => npu.setChan c (f (npu.chan c)) :=
      fun _ => rfl
    dsimp only
    rw [ite_withoutSmu, ite_withoutSmu, ite_withoutSmu, ← mboxProcess_withoutSmu]
    rw [modify_withoutSmu _ (hset fun ch => { ch with x2iTail := val }),
      modify_withoutSmu _ (hset fun ch => { ch with i2xHead := val }),
      modify_withoutSmu _ (hset fun ch => { ch with intr := val })]
    rfl

/-! ## PSP commands -/

private theorem pspFetchImage_withoutSmu (paddr : UInt64) (size : UInt32) :
    pspFetchImage host m.withoutSmu paddr size =
      ((pspFetchImage host m paddr size).1.withoutSmu, (pspFetchImage host m paddr size).2) := by
  unfold pspFetchImage
  dsimp only
  split
  · rfl
  · cases (if host.dmaReadPhys.isSome = true then host.dmaReadPhys else host.dmaRead) with
    | none => rfl
    | some read =>
      dsimp only
      refine Prod.ext ?_ rfl
      dsimp only [Machine.withoutSmu, Machine.emit]
      rw [List.map_append]
      rfl

private theorem pspCommand_withoutSmu :
    pspCommand host m.withoutSmu =
      ((pspCommand host m).1.withoutSmu, (pspCommand host m).2) := by
  have hcmd : m.withoutSmu.npu.scratch 2 = m.npu.scratch 2 :=
    withoutSmu_scratch m.npu (by decide)
  have hsize : m.withoutSmu.npu.scratch 9 = m.npu.scratch 9 :=
    withoutSmu_scratch m.npu (by decide)
  have hpaddr : pspPaddr m.withoutSmu.npu = pspPaddr m.npu := pspPaddr_withoutSmu m.npu
  have hstate : m.withoutSmu.npu.pspState = m.npu.pspState := rfl
  have hboot : IgnoresSmu fun npu => fwBoot { npu with pspState := .running } := fun npu =>
    (fwBoot_withoutSmu { npu with pspState := .running }).symm
  have hdown : IgnoresSmu fun npu => { fwShutdown npu with pspState := .cold } := fun npu => by
    dsimp only
    rw [fwShutdown_withoutSmu]
    rfl
  have hvalidated (paddr : UInt64) (size : UInt32) : IgnoresSmu fun npu =>
      { npu with fwPaddr := paddr, fwSize := size, pspState := .validated } := fun _ => rfl
  unfold pspCommand
  dsimp only
  rw [hcmd, hsize, hpaddr, hstate, pspFetchImage_withoutSmu]
  generalize pspFetchImage host m (pspPaddr m.npu) (m.npu.scratch 9 &&& pspArg2Mask) = r
  split
  · split
    · rw [modify_withoutSmu _ (hvalidated _ _)]
    · rfl
  split
  · rfl
  split
  · split
    · rfl
    · rw [modify_withoutSmu _ hboot]
  split
  · rw [modify_withoutSmu _ hdown]
  · rfl

private theorem pspKick_withoutSmu : pspKick host m.withoutSmu = (pspKick host m).withoutSmu := by
  have hcmd : m.withoutSmu.npu.scratch 2 = m.npu.scratch 2 :=
    withoutSmu_scratch m.npu (by decide)
  have hcount : countPsp m.withoutSmu = (countPsp m).withoutSmu := rfl
  have hcomplete (resp : UInt32) : IgnoresSmu (pspComplete · resp) := fun npu => by
    dsimp only
    rw [pspComplete, pspComplete, withoutSmu_setScratch _ _ (by decide),
      withoutSmu_setScratch _ _ (by decide)]
  rw [pspKick_eq, pspKick_eq, hcount, pspCommand_withoutSmu, hcmd, emit_withoutSmu,
    modify_withoutSmu _ (hcomplete _)]
  rfl

/-! ## Register accesses -/

/-- The registers that belong to the SMU. -/
def smuOffs : List UInt32 := [regScratch5, regScratch6, regScratch7, regPubPwrmgmtIr]

private theorem regBarWrite_withoutSmu {off : UInt32} (h : off ∉ smuOffs) (val : UInt32) :
    regBarWrite host m.withoutSmu off val = (regBarWrite host m off val).withoutSmu := by
  have hwait : IgnoresSmu fun npu => { npu with pwaitmode := val } := fun _ => rfl
  have hsec : IgnoresSmu fun npu => { npu with secIntr := val } := fun _ => rfl
  have hscratch {i : Fin 10} (hi : ¬ (i = 5 ∨ i = 6 ∨ i = 7)) :
      IgnoresSmu (·.setScratch i val) := fun npu => withoutSmu_setScratch npu val hi
  have h2 : IgnoresSmu (·.setScratch 2 val) := hscratch (by decide)
  have h3 : IgnoresSmu (·.setScratch 3 val) := hscratch (by decide)
  have h4 : IgnoresSmu (·.setScratch 4 val) := hscratch (by decide)
  have h9 : IgnoresSmu (·.setScratch 9 val) := hscratch (by decide)
  simp only [smuOffs, List.mem_cons, List.not_mem_nil, or_false, not_or] at h
  obtain ⟨h5, h6, h7, hintr⟩ := h
  unfold regBarWrite
  dsimp only
  rw [if_neg h5, if_neg h5, if_neg h6, if_neg h6, if_neg h7, if_neg h7, if_neg hintr, if_neg hintr]
  simp only [ite_withoutSmu, ← pspKick_withoutSmu, modify_withoutSmu m hwait,
    modify_withoutSmu m hsec, modify_withoutSmu m h2, modify_withoutSmu m h3,
    modify_withoutSmu m h4, modify_withoutSmu m h9]

/-- The write is one of the SMU's. -/
def Access.OnSmu : Access → Prop
  | .word bar w => bar = barReg ∧ w.1 ∈ smuOffs
  | .sram .. => False

private theorem accessStep_withoutSmu {a : Access} (h : ¬ a.OnSmu) :
    accessStep host m.withoutSmu a = (accessStep host m a).withoutSmu := by
  cases a with
  | sram off bytes =>
    have hcopy : IgnoresSmu (·.sramCopy off.toNat bytes) := fun _ => rfl
    rw [accessStep, accessStep, mmioWriteBuf, mmioWriteBuf, if_pos rfl, if_pos rfl, ite_withoutSmu,
      modify_withoutSmu m hcopy]
  | word bar w =>
    rw [accessStep, accessStep, regWrite, regWrite]
    by_cases hbar : bar = barReg
    · rw [if_pos hbar, if_pos hbar, regBarWrite_withoutSmu host m fun hoff => h ⟨hbar, hoff⟩]
    · rw [if_neg hbar, if_neg hbar, mboxRegWrite_withoutSmu, ite_withoutSmu]

private theorem exists_smuReg {off : UInt32} (h : off ∈ smuOffs) : ∃ r : SmuReg, off = r.off := by
  simp only [smuOffs, List.mem_cons, List.not_mem_nil, or_false] at h
  rcases h with rfl | rfl | rfl | rfl
  · exact ⟨.cmd, rfl⟩
  · exact ⟨.resp, rfl⟩
  · exact ⟨.arg, rfl⟩
  · exact ⟨.intr, rfl⟩

/-- What the SMU is told changes nothing else. -/
theorem accessStep_onSmu {a : Access} (h : a.OnSmu) :
    (accessStep host m a).withoutSmu = m.withoutSmu := by
  cases a with
  | sram => exact h.elim
  | word bar w =>
    obtain ⟨rfl, hoff⟩ := h
    obtain ⟨r, hr⟩ := exists_smuReg hoff
    have hwrite : accessStep host m (.word barReg w) = smuWrite m w.2 r := by
      rw [accessStep, regWrite, if_pos rfl, hr, ← wr32_reg, wr32_smu]
    have hview := congrArg Machine.npu (pspView_smuWrite m w.2 r)
    have hrest : (smuWrite m w.2 r).dmaReads = m.dmaReads ∧
        (smuWrite m w.2 r).dmaWrites = m.dmaWrites ∧ (smuWrite m w.2 r).trace = m.trace := by
      cases r with
      | cmd => exact ⟨rfl, rfl, rfl⟩
      | resp => exact ⟨rfl, rfl, rfl⟩
      | arg => exact ⟨rfl, rfl, rfl⟩
      | intr =>
        unfold smuWrite
        dsimp only
        split <;> exact ⟨rfl, rfl, rfl⟩
    obtain ⟨hreads, hwrites, htrace⟩ := hrest
    have hnpu : withoutSmu (smuWrite m w.2 r).npu = withoutSmu m.npu := hview
    rw [hwrite, Machine.withoutSmu, Machine.withoutSmu, hnpu, hreads, hwrites, htrace]

private theorem regRead_withoutSmu (npu : Npu) {bar : Int} {off : UInt32}
    (h : ¬ (bar = barReg ∧ off ∈ smuOffs)) :
    regRead (withoutSmu npu) bar off = regRead npu bar off := by
  unfold regRead
  by_cases hbar : bar = barReg
  · have hoff : off ∉ smuOffs := fun hoff => h ⟨hbar, hoff⟩
    simp only [smuOffs, List.mem_cons, List.not_mem_nil, or_false, not_or] at hoff
    obtain ⟨h5, h6, h7, hintr⟩ := hoff
    rw [if_pos hbar, if_pos hbar, regBarRead, regBarRead, if_neg h5, if_neg h5, if_neg h6,
      if_neg h6, if_neg h7, if_neg h7, if_neg hintr, if_neg hintr]
    rfl
  · rw [if_neg hbar, if_neg hbar]
    rfl

end WithoutSmu

/-! ## Runs -/

/-- An access of the guest to one register, or to a block of the SRAM. -/
inductive BusOp where
  | write (a : Access)
  | word (bar : Int) (off : UInt32)
  | block (off : UInt32) (len : ℕ)

/-- An access, and the bytes that it reads. -/
def busStep (host : Host) (m : Machine) : BusOp → Machine × Option (List UInt8)
  | .write a => (accessStep host m a, none)
  | .word bar off => (m, some (le32 (regRead m.npu bar off)))
  | .block off len => (m, some (mmioReadBuf m.npu barSram off len))

/-- The access goes to a register of the SMU. -/
def BusOp.OnSmu : BusOp → Prop
  | .write a => a.OnSmu
  | .word bar off => bar = barReg ∧ off ∈ smuOffs
  | .block .. => False

instance : DecidablePred Access.OnSmu := fun a =>
  match a with
  | .word bar w => inferInstanceAs (Decidable (bar = barReg ∧ w.1 ∈ smuOffs))
  | .sram .. => isFalse id

instance : DecidablePred BusOp.OnSmu := fun op =>
  match op with
  | .write a => inferInstanceAs (Decidable a.OnSmu)
  | .word bar off => inferInstanceAs (Decidable (bar = barReg ∧ off ∈ smuOffs))
  | .block .. => isFalse id

private theorem isolated_withoutSmu (host : Host) :
    Isolated (busStep host) (fun op => ¬ op.OnSmu) Machine.withoutSmu where
  others m op hop := by
    have hop := not_not.mp hop
    cases op with
    | write a => exact accessStep_onSmu host m hop
    | word => rfl
    | block => rfl
  next m m' op hop hview := by
    cases op with
    | write a =>
      rw [busStep, busStep, ← accessStep_withoutSmu host m hop, hview,
        accessStep_withoutSmu host m' hop]
    | word => exact hview
    | block => exact hview
  value m m' op hop hview := by
    have hnpu : withoutSmu m.npu = withoutSmu m'.npu := congrArg Machine.npu hview
    cases op with
    | write => rfl
    | word bar off =>
      rw [busStep, busStep, ← regRead_withoutSmu m.npu hop, hnpu, regRead_withoutSmu m'.npu hop]
    | block off len =>
      have hsram : (withoutSmu m.npu).sram = (withoutSmu m'.npu).sram := by rw [hnpu]
      have hsram : m.npu.sram = m'.npu.sram := hsram
      rw [busStep, busStep, mmioReadBuf, mmioReadBuf, if_pos rfl, if_pos rfl, hsram]

/-- In a run from any state the accesses to the SMU can be left out: the others read the same
values, and they leave the same device behind, with the same trace, but for the SMU. -/
theorem smu_erasable (host : Host) (m : Machine) (ops : List BusOp) :
    observed (busStep host) (fun op => ¬ op.OnSmu) m ops =
        observed (busStep host) (fun op => ¬ op.OnSmu) m (ops.filter (¬ ·.OnSmu)) ∧
      (finalState (busStep host) m ops).withoutSmu =
        (finalState (busStep host) m (ops.filter (¬ ·.OnSmu))).withoutSmu :=
  ⟨(isolated_withoutSmu host).observed_filter ops rfl,
    (isolated_withoutSmu host).finalState_filter ops rfl⟩

end Xdna
