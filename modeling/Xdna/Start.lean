import Xdna.Runs

/-!
# A successful START

The PSP answers START with 0 only after a successful VALIDATE, and then the firmware has
booted. Apart from registers nothing but the effect of `xdna_fw_boot` has happened, to
whatever state the firmware was in before.
-/

namespace Xdna

open ByteMemory

/-- The driver's write that starts a PSP command. -/
def pspNotify (host : Host) (m : Machine) : Machine :=
  regWrite host barReg m (regPubSecIntr, pspNotifyVal)

/-- The notify value starts a command. -/
theorem pspNotify_eq (host : Host) (m : Machine) :
    pspNotify host m =
      pspKick host (m.modify fun npu => { npu with secIntr := pspNotifyVal }) := by
  rw [pspNotify, regWrite, if_pos rfl, regBarWrite, if_neg (by decide), if_pos rfl]
  exact if_pos rfl

/-- In the reachable machine `m` a START command is issued, which is answered with 0. -/
structure Starts (host : Host) (m : Machine) : Prop where
  reachable : Reachable host m
  cmd : m.npu.scratch 2 = pspCmdStart
  resp : (pspNotify host m).npu.scratch 3 = 0

/-- What a command leaves in the scratch registers. -/
theorem pspComplete_scratch (npu : Npu) (resp : UInt32) :
    (pspComplete npu resp).scratch 3 = resp ∧
      (pspComplete npu resp).scratch 2 = pspStatusReady := by
  simp [pspComplete, Npu.setScratch]

/-- What START does. -/
theorem pspCommand_start (host : Host) {m : Machine} (h : m.npu.scratch 2 = pspCmdStart) :
    pspCommand host m =
      if m.npu.pspState ≠ .validated then (m, pspErrorBadState)
      else (m.modify fun npu => fwBoot { npu with pspState := .running }, 0) := by
  unfold pspCommand
  dsimp only
  rw [if_neg (by rw [h]; decide), if_neg (by rw [h]; decide), if_pos h]

/-- What RELEASE_TMR does. -/
theorem pspCommand_release (host : Host) {m : Machine} (h : m.npu.scratch 2 = pspCmdReleaseTmr) :
    pspCommand host m = (m.modify fun npu => { fwShutdown npu with pspState := .cold }, 0) := by
  unfold pspCommand
  dsimp only
  rw [if_neg (by rw [h]; decide), if_neg (by rw [h]; decide), if_neg (by rw [h]; decide), if_pos h]

/-- The counter of PSP commands. -/
def countPsp (m : Machine) : Machine :=
  m.modify fun npu => { npu with stats := { npu.stats with pspCmds := npu.stats.pspCmds + 1 } }

/-- A kick counts the command, carries it out and completes it. -/
theorem pspKick_eq (host : Host) (m : Machine) :
    pspKick host m = ((pspCommand host (countPsp m)).1.modify
      (pspComplete · (pspCommand host (countPsp m)).2)).emit
        (.pspDone (m.npu.scratch 2) (pspCommand host (countPsp m)).2) := rfl

/-- What a START command does, and when it is answered with 0. -/
theorem pspKick_start (host : Host) {m : Machine} (h : m.npu.scratch 2 = pspCmdStart) :
    (m.npu.pspState ≠ .validated ∧ (pspKick host m).npu.scratch 3 = pspErrorBadState) ∨
    (m.npu.pspState = .validated ∧ RegChange (fwBoot m.npu) (pspKick host m).npu ∧
      (pspKick host m).dmaWrites = m.dmaWrites ∧ (pspKick host m).dmaReads = m.dmaReads ∧
      (pspKick host m).trace = m.trace ++ [.pspDone pspCmdStart 0]) := by
  rw [pspKick_eq, pspCommand_start host (m := countPsp m) h, h]
  by_cases hstate : m.npu.pspState = .validated
  · rw [if_neg (fun hne => hne hstate)]
    refine .inr ⟨hstate, ?_, ?_, ?_, ?_⟩
    · refine RegChange.trans ?_ (regChange_pspComplete _ 0)
      rw [countPsp, Machine.modify_npu, Machine.modify_npu, fwBoot_eq, fwBoot_eq]
      constructor <;> rfl
    · simp only [Machine.emit_dmaWrites, Machine.modify_dmaWrites, countPsp]
    · simp only [Machine.emit_dmaReads, Machine.modify_dmaReads, countPsp]
    · simp only [Machine.emit_trace, Machine.modify_trace, countPsp]
  · rw [if_pos (show (countPsp m).npu.pspState ≠ .validated from hstate)]
    exact .inl ⟨hstate, (pspComplete_scratch _ _).1⟩

/-- What a RELEASE_TMR command does. -/
theorem pspKick_release (host : Host) {m : Machine} (h : m.npu.scratch 2 = pspCmdReleaseTmr) :
    RegChange (fwShutdown m.npu) (pspKick host m).npu ∧
      (pspKick host m).npu.pspState = .cold ∧
      (pspKick host m).dmaWrites = m.dmaWrites ∧ (pspKick host m).dmaReads = m.dmaReads ∧
      (pspKick host m).trace = m.trace ++ [.pspDone pspCmdReleaseTmr 0] := by
  rw [pspKick_eq, pspCommand_release host (m := countPsp m) h, h]
  refine ⟨?_, rfl, ?_, ?_, ?_⟩
  · refine RegChange.trans ?_ (regChange_pspComplete _ 0)
    rw [countPsp, Machine.modify_npu, Machine.modify_npu, fwShutdown_eq, fwShutdown_eq]
    constructor <;> rfl
  · simp only [Machine.emit_dmaWrites, Machine.modify_dmaWrites, countPsp]
  · simp only [Machine.emit_dmaReads, Machine.modify_dmaReads, countPsp]
  · simp only [Machine.emit_trace, Machine.modify_trace, countPsp]

/-- After a START that was answered with 0, the firmware has booted. -/
theorem pspNotify_start (host : Host) {m : Machine} (hcmd : m.npu.scratch 2 = pspCmdStart)
    (hresp : (pspNotify host m).npu.scratch 3 = 0) :
    RegChange (fwBoot m.npu) (pspNotify host m).npu ∧
      (pspNotify host m).dmaWrites = m.dmaWrites ∧ (pspNotify host m).dmaReads = m.dmaReads ∧
      (pspNotify host m).trace = m.trace ++ [.pspDone pspCmdStart 0] := by
  rw [pspNotify_eq] at hresp ⊢
  rcases pspKick_start host (m := m.modify fun npu => { npu with secIntr := pspNotifyVal })
      hcmd with ⟨_, hbad⟩ | ⟨_, hboot, hwrites, hreads, htrace⟩
  · rw [hbad] at hresp
    exact absurd hresp (by decide)
  · refine ⟨?_, hwrites, hreads, htrace⟩
    have hsame : RegChange (fwBoot m.npu) (fwBoot { m.npu with secIntr := pspNotifyVal }) := by
      rw [fwBoot_eq, fwBoot_eq]
      constructor <;> rfl
    exact hsame.trans hboot

/-- A START that is answered with 0 boots the firmware and does nothing else. -/
theorem Starts.booted {host : Host} {m : Machine} (h : Starts host m) :
    RegChange (fwBoot m.npu) (pspNotify host m).npu ∧
      (pspNotify host m).dmaWrites = m.dmaWrites ∧ (pspNotify host m).dmaReads = m.dmaReads ∧
      (pspNotify host m).trace = m.trace ++ [.pspDone pspCmdStart 0] :=
  pspNotify_start host h.cmd h.resp

/-- The accesses of a driver up to the START: an image of 256 bytes is validated. -/
def validateOps : List GuestOp :=
  [.write barReg regScratch9 0x100 4, .write barReg regScratch2 1 4,
    .write barReg regPubSecIntr 1 4, .write barReg regScratch2 2 4]

/-- The first START after VALIDATE is answered with 0. -/
theorem starts_validateOps : Starts .accepting (guestRun .accepting validateOps) :=
  ⟨.guestRun _ _, by decide +kernel, by decide +kernel⟩

end Xdna
