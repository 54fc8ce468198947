import Xdna.Reload
import Xdna.SramMemory

/-!
# Starting the hardware

`drv_hw_start` of `tests/test_boot.c` takes the device from any state to a live firmware whose
management channel the driver knows. The calls of the tests may come in any order: between two
of them the driver either has no channel, or the rings of its channel are empty.
-/

namespace Xdna

open ByteMemory RingLog GuardedRun EventSourcing

/-! ## Commands to the SMU -/

/-- The registers that `smu_exec` has written when it kicks the SMU. -/
def smuCommanded (cmd arg : UInt32) (npu : Npu) : Npu :=
  { ((npu.setScratch 6 0).setScratch 7 arg).setScratch 5 cmd with pwrmgmtIntr := 1 }

private theorem smuCommanded_scratch (cmd arg : UInt32) (npu : Npu) :
    (smuCommanded cmd arg npu).scratch 5 = cmd ∧ (smuCommanded cmd arg npu).scratch 7 = arg := by
  simp [smuCommanded, Npu.setScratch]

/-- What `smu_exec` does: the command is answered, and nothing but the SMU changes. -/
structure SmuExecuted (m : Machine) (k : SmuKick) (r : Machine × Option (Bool × UInt32)) :
    Prop where
  answer : r.2 = some (k.accepted, k.out)
  smu : r.1.npu.smu = m.npu.smu.apply k
  rest : pspView r.1 = pspView m

private theorem smuExec_writes (host : Host) (m : Machine) (cmd arg : UInt32) :
    (smuExec host m cmd arg).1 = smuWrite (smuWrite (smuWrite (smuWrite (smuWrite m 0 .resp)
      arg .arg) cmd .cmd) 0 .intr) 1 .intr := by
  simp only [← wr32_smu host]
  unfold smuExec
  dsimp only
  split <;> rfl

/-- `smu_exec` meets its specification. -/
theorem smuExec_executed (host : Host) (m : Machine) (cmd arg : UInt32) :
    SmuExecuted m ⟨cmd, arg⟩ (smuExec host m cmd arg) := by
  have hwrites := smuExec_writes host m cmd arg
  obtain ⟨hcmd, harg⟩ := smuCommanded_scratch cmd arg m.npu
  have hkick := smuKick_eq (smuCommanded cmd arg m.npu) (k := ⟨cmd, arg⟩) hcmd harg
  have hnpu : (smuExec host m cmd arg).1.npu = smuKick (smuCommanded cmd arg m.npu) := by
    rw [hwrites]
    rfl
  have hresp : rd32 (smuExec host m cmd arg).1 barReg regScratch6 =
      if SmuKick.accepted ⟨cmd, arg⟩ then smuResultOk else smuResultFail := by
    rw [rd32_reg, hnpu, hkick]
    exact (smuComplete_scratch ..).1
  have hout : rd32 (smuExec host m cmd arg).1 barReg regScratch7 = SmuKick.out ⟨cmd, arg⟩ := by
    rw [rd32_reg, hnpu, hkick]
    exact (smuComplete_scratch ..).2
  refine ⟨?_, ?_, ?_⟩
  · have hanswer : (smuExec host m cmd arg).2 =
        if rd32 (smuExec host m cmd arg).1 barReg regScratch6 = 0 then none
        else some (decide (rd32 (smuExec host m cmd arg).1 barReg regScratch6 = smuResultOk),
          rd32 (smuExec host m cmd arg).1 barReg regScratch7) := by
      unfold smuExec
      dsimp only
      split <;> rfl
    rw [hanswer, hresp, hout]
    cases SmuKick.accepted ⟨cmd, arg⟩ <;> rfl
  · rw [hnpu, hkick]
    rfl
  · rw [hwrites]
    simp only [pspView_smuWrite]

/-- The commands that switch the power succeed. -/
theorem smuOk_power (host : Host) (m : Machine) {cmd : UInt32}
    (h : SmuKick.accepted ⟨cmd, 0⟩ = true) : smuOk (smuExec host m cmd 0) = true := by
  rw [smuOk, (smuExec_executed host m cmd 0).answer]
  exact h

/-! ## Commands to the PSP -/

/-- The status register says that the PSP takes a command. -/
def PspReady (m : Machine) : Prop := m.npu.scratch 2 &&& pspStatusReady ≠ 0

instance (m : Machine) : Decidable (PspReady m) := inferInstanceAs (Decidable (_ ≠ _))

/-- The state in which the PSP finds a command of `psp_exec`. -/
def pspIssued (m : Machine) (cmd arg0 arg1 arg2 : UInt32) : Machine :=
  countPsp (m.modify (commanded cmd arg0 arg1 arg2))

section Issued

variable (m : Machine) (cmd arg0 arg1 arg2 : UInt32)

/-- The command is in its register. -/
@[simp] theorem pspIssued_cmd : (pspIssued m cmd arg0 arg1 arg2).npu.scratch 2 = cmd :=
  commanded_scratch cmd arg0 arg1 arg2 m.npu

/-- The PSP has not taken the command yet. -/
@[simp] theorem pspIssued_pspState :
    (pspIssued m cmd arg0 arg1 arg2).npu.pspState = m.npu.pspState := rfl

/-- The SRAM is as it was. -/
@[simp] theorem pspIssued_sram : (pspIssued m cmd arg0 arg1 arg2).npu.sram = m.npu.sram := rfl

end Issued

private theorem pspExec_npu (host : Host) (m : Machine) (cmd arg0 arg1 arg2 : UInt32) :
    (pspExec host m cmd arg0 arg1 arg2).npu =
      pspComplete (pspCommand host (pspIssued m cmd arg0 arg1 arg2)).1.npu
        (pspCommand host (pspIssued m cmd arg0 arg1 arg2)).2 := by
  rw [pspExec_eq, pspKick_eq]
  rfl

private theorem pspExec_ready (host : Host) (m : Machine) (cmd arg0 arg1 arg2 : UInt32) :
    PspReady (pspExec host m cmd arg0 arg1 arg2) := by
  rw [PspReady, pspExec_npu, (pspComplete_scratch ..).2]
  decide

/-- The SMU has no part in a command to the PSP. -/
theorem pspExec_smu (host : Host) (m : Machine) (cmd arg0 arg1 arg2 : UInt32) :
    (pspExec host m cmd arg0 arg1 arg2).npu.smu = m.npu.smu := by
  rw [pspExec_npu]
  exact (pspCommand_result host (pspIssued m cmd arg0 arg1 arg2)).smu

/-- `psp_exec` fails without a command when the PSP is not ready, and otherwise if the response
is not 0. -/
theorem pspExecChecked_eq (host : Host) (m : Machine) (cmd arg0 arg1 arg2 : UInt32) :
    pspExecChecked host m cmd arg0 arg1 arg2 =
      if PspReady m then (pspExec host m cmd arg0 arg1 arg2,
        decide ((pspExec host m cmd arg0 arg1 arg2).npu.scratch 3 = 0))
      else (m, false) := by
  have hstatus (m : Machine) : rd32 m barReg regScratch2 = m.npu.scratch 2 := rd32_reg m _
  have hresp (m : Machine) : rd32 m barReg regScratch3 = m.npu.scratch 3 := rd32_reg m _
  have hready := pspExec_ready host m cmd arg0 arg1 arg2
  unfold pspExecChecked
  dsimp only
  rw [hstatus, hstatus, hresp]
  by_cases h : PspReady m
  · rw [if_neg h, if_neg hready, if_pos h]
  · rw [if_pos (not_not.mp h), if_neg h]

/-- What the SMU does not touch is the same after its commands. -/
theorem SmuExecuted.ready {m : Machine} {k : SmuKick} {r : Machine × Option (Bool × UInt32)}
    (h : SmuExecuted m k r) : PspReady r.1 ↔ PspReady m := by
  have hview (m : Machine) : (pspView m).npu.scratch 2 = m.npu.scratch 2 :=
    withoutSmu_scratch m.npu (by decide)
  unfold PspReady
  rw [← hview r.1, h.rest, hview]

/-- A command to the SMU reads nothing of the host. -/
theorem SmuExecuted.dmaReads {m : Machine} {k : SmuKick} {r : Machine × Option (Bool × UInt32)}
    (h : SmuExecuted m k r) : r.1.dmaReads = m.dmaReads := by
  have hview (m : Machine) : (pspView m).dmaReads = m.dmaReads := rfl
  rw [← hview r.1, h.rest, hview]

/-- A command to the SMU changes registers only. -/
theorem SmuExecuted.regs {m : Machine} {k : SmuKick} {r : Machine × Option (Bool × UInt32)}
    (h : SmuExecuted m k r) : RegChange m.npu r.1.npu := by
  have hnpu : withoutSmu r.1.npu = withoutSmu m.npu := congrArg Machine.npu h.rest
  have hfirst : RegChange m.npu (withoutSmu m.npu) := by constructor <;> rfl
  have hlast : RegChange (withoutSmu r.1.npu) r.1.npu := by constructor <;> rfl
  rw [hnpu] at hlast
  exact hfirst.trans hlast

/-! ## The image -/

/-- The firmware image of the tests. -/
def hwImage : Image := ⟨fwImagePaddr.toUInt32, (fwImagePaddr >>> 32).toUInt32, fwImageSize⟩

/-- The host can read the beginning of the image now. -/
def readsHwImage (host : Host) (m : Machine) : Bool :=
  (if host.dmaReadPhys.isSome then host.dmaReadPhys else host.dmaRead).any fun read =>
    read m.dmaReads fwImagePaddr pspPeekBytes

private theorem hwImage_issued (m : Machine) :
    pspPaddr (pspIssued m pspCmdValidate hwImage.lo hwImage.hi hwImage.size).npu = fwImagePaddr ∧
      (pspIssued m pspCmdValidate hwImage.lo hwImage.hi hwImage.size).npu.scratch 9 &&&
        pspArg2Mask = fwImageSize := by
  constructor
  · simp [pspPaddr, pspIssued, countPsp, commanded, Npu.setScratch, Function.update]
    decide
  · simp only [pspIssued, countPsp, Machine.modify_npu, commanded, Npu.setScratch,
      Function.update_self]
    decide

/-- VALIDATE succeeds if and only if the host can read the image. -/
theorem validate_hwImage (host : Host) (m : Machine) :
    (validate host m hwImage).npu.scratch 3 = 0 ↔ readsHwImage host m = true := by
  obtain ⟨hpaddr, hsize⟩ := hwImage_issued m
  have hpeek : (if fwImageSize < pspPeekBytes then fwImageSize else pspPeekBytes) =
      pspPeekBytes := by decide
  rw [validate_resp, (pspCommand_validate host (validate_cmd m hwImage)).1]
  unfold pspIssued at hpaddr hsize
  rw [hpaddr, hsize, pspFetchImage]
  dsimp only
  rw [if_neg (show ¬ fwImageSize = 0 by decide), hpeek, readsHwImage]
  cases (if host.dmaReadPhys.isSome = true then host.dmaReadPhys else host.dmaRead) with
  | none => simp [pspErrorCancel]
  | some read =>
    have hreads : (countPsp (m.modify (commanded pspCmdValidate hwImage.lo hwImage.hi
        hwImage.size))).dmaReads = m.dmaReads := rfl
    dsimp only
    rw [hreads, Option.any_some]
    cases read m.dmaReads fwImagePaddr pspPeekBytes with
    | false => simp [pspErrorCancel]
    | true => simp

/-- A VALIDATE that fails touches nothing but registers. -/
theorem validate_failed {host : Host} {m : Machine} {img : Image}
    (h : (validate host m img).npu.scratch 3 ≠ 0) :
    RegChange m.npu (validate host m img).npu ∧ SamePsp m.npu (validate host m img).npu := by
  have hregs : RegChange m.npu (pspIssued m pspCmdValidate img.lo img.hi img.size).npu := by
    constructor <;> rfl
  have hresult := pspCommand_result host (pspIssued m pspCmdValidate img.lo img.hi img.size)
  rw [validate_resp] at h
  rw [validate, pspExec_npu]
  unfold pspIssued at hresult hregs ⊢
  generalize pspCommand host (countPsp
    (m.modify (commanded pspCmdValidate img.lo img.hi img.size))) = r at h hresult ⊢
  cases hresult with
  | failed _ hnpu _ _ =>
    dsimp only
    rw [hnpu]
    exact ⟨hregs.trans (regChange_pspComplete _ _), by constructor <;> rfl⟩
  | cert | validated | started | released => exact absurd rfl h

/-- What a START after a successful VALIDATE has done. -/
theorem load_booted {host : Host} {m : Machine} {img : Image}
    (h : (validate host m img).npu.scratch 3 = 0) :
    (load host m img).npu.scratch 3 = 0 ∧ (load host m img).npu.pspState = .running ∧
      (load host m img).npu.sram = bootSram m.npu.sram := by
  obtain ⟨hregs, hstate, -⟩ := validate_validated h
  have hvalid :
      ¬ (pspIssued (validate host m img) pspCmdStart 1 0 0).npu.pspState ≠ .validated := by
    rw [pspIssued_pspState, hstate, not_not]
  have hissued : (pspIssued (validate host m img) pspCmdStart 1 0 0).npu.sram = m.npu.sram := by
    rw [pspIssued_sram, hregs.sram]
  rw [load, pspExec_npu, pspCommand_start host (pspIssued_cmd ..), if_neg hvalid]
  generalize pspIssued (validate host m img) pspCmdStart 1 0 0 = m₁ at hissued ⊢
  refine ⟨(pspComplete_scratch ..).1, ?_, ?_⟩
  · rw [Machine.modify_npu, fwBoot_eq]
    rfl
  · rw [Machine.modify_npu, fwBoot_eq, ← hissued]
    rfl

/-! ## The whole start -/

/-- The device and the driver after a `drv_hw_start` that returns 0. -/
structure HwStarted (m : Machine) (d : Drv) (m' : Machine) (d' : Drv) : Prop where
  drv : d' = { Drv.ofChannel 0 mgmtChannel with x2iTail := d.x2iTail, i2xHead := d.i2xHead }
  powerOn : m'.npu.powerOn = true
  running : m'.npu.pspState = .running
  /-- The driver has taken note of the firmware. -/
  noticed : rd32 m' barSram sramFwAliveOff = 0
  /-- The contexts and the configuration of an earlier firmware are still there. -/
  ctx : m'.npu.ctx = m.npu.ctx
  rtCfg : m'.npu.rtCfg = m.npu.rtCfg
  /-- Driver and device agree on the rings if the driver starts with them from zero. -/
  idle : Idle d' m' ↔ d.x2iTail = 0 ∧ d.i2xHead = 0

/-- The device after a `drv_hw_start` that returns -1. -/
structure HwUnstarted (m m' : Machine) : Prop where
  powerOn : m'.npu.powerOn = true
  /-- The state of the PSP, and the image of its last successful VALIDATE. -/
  psp : SamePsp m.npu m'.npu
  regs : RegChange m.npu m'.npu

/-- When `drv_hw_start` returns 0, and what it does then and otherwise. -/
inductive HwStart (host : Host) (m : Machine) (d : Drv) : Machine × Option Drv → Prop
  | started {m' : Machine} {d' : Drv} (hready : PspReady m)
      (hread : readsHwImage host m = true) (h : HwStarted m d m' d') :
      HwStart host m d (m', some d')
  | failed {m' : Machine} (hnot : ¬ (PspReady m ∧ readsHwImage host m = true))
      (h : HwUnstarted m m') : HwStart host m d (m', none)

private theorem Idle.congr {d : Drv} {m m' : Machine} (h : Idle d m)
    (hchan : m'.npu.chan = m.npu.chan)
    (hctx : m'.npu.ctx = m.npu.ctx) (halive : m'.npu.fwAlive = m.npu.fwAlive)
    (hcount : m'.npu.stats.activeContexts = m.npu.stats.activeContexts) : Idle d m' where
  consistent := h.consistent.congr (.of_eq hchan hctx halive hcount)
  alive := halive.trans h.alive
  head := hchan ▸ h.head
  tail := hchan ▸ h.tail
  x2iEmpty := hchan ▸ h.x2iEmpty
  i2xEmpty := hchan ▸ h.i2xEmpty
  x2iRoom := hchan ▸ h.x2iRoom
  drv := hchan ▸ h.drv

/-- A word of the driver in the SRAM. -/
theorem wr32_sram (host : Host) (m : Machine) {off : UInt32} (v : UInt32)
    (h : off.toNat + 4 ≤ barSramSize) :
    wr32 host m barSram off v = m.withSram (m.npu.sram.write off.toNat (le32 v)) := by
  rw [wr32, mmioWrite, show min 4 8 = 4 from rfl, take_le64, UInt32.toUInt32_toUInt64]
  exact mmioWriteBuf_withSram host (by rw [le32_length]; exact h)

/-- The last step of `drv_hw_start`, on a firmware that has been loaded. -/
theorem HwStarted.of_loaded (host : Host) {m : Machine} {img : Image} {d : Drv}
    (hcons : Consistent m.npu) (hread : (validate host m img).npu.scratch 3 = 0)
    (hpower : m.npu.powerOn = true) :
    ∃ m' d', getMgmtChannInfo host d (load host m img) = (m', some d') ∧ HwStarted m d m' d' := by
  have hloaded : Loaded m (load host m img) := load_loaded hcons hread
  obtain ⟨-, hstate, hsram⟩ := load_booted hread
  have hsmu : (load host m img).npu.smu = m.npu.smu :=
    (pspExec_smu host (validate host m img) ..).trans (pspExec_smu host m ..)
  generalize load host m img = m₁ at hloaded hstate hsram hsmu ⊢
  have hinfo : m₁.npu.sram.read Region.info.base 64 = mgmtInfo.encode := by
    rw [hsram]
    exact (Handshake.boot ⟨m.npu.sram, false, 0⟩).info rfl
  have hword : m₁.npu.sram.read Region.fwAlive.base 4 = le32 (sramDevAddr sramMgmtInfoOff) := by
    rw [hsram]
    exact Memory.read_write_self ..
  refine ⟨_, _, getMgmtChannInfo_found host hinfo hword d, ?_⟩
  rw [wr32_sram host m₁ 0 (by decide)]
  refine ⟨rfl, (congrArg Smu.powerOn hsmu).trans hpower, hstate, ?_, hloaded.ctx, hloaded.rtCfg,
    ?_⟩
  · exact rd32_sram _ (by decide) (Memory.read_write_self ..)
  · have hdrv := hloaded.idle.drv
    have htail : (m₁.npu.chan 0).x2iTail = 0 := (congrArg Drv.x2iTail hdrv).symm
    have hhead : (m₁.npu.chan 0).i2xHead = 0 := (congrArg Drv.i2xHead hdrv).symm
    constructor
    · intro h
      exact ⟨(congrArg Drv.x2iTail h.drv).trans htail, (congrArg Drv.i2xHead h.drv).trans hhead⟩
    · rintro ⟨hx2i, hi2x⟩
      have hidle : Idle mgmtDriver (m₁.withSram (m₁.npu.sram.write sramFwAliveOff.toNat
          (le32 0))) := hloaded.idle.congr rfl rfl rfl rfl
      rw [hx2i, hi2x]
      exact Drv.ofInfo_mgmtInfo ▸ hidle

/-- The SMU commands of `drv_hw_start`. -/
def powered (host : Host) (m : Machine) : Machine :=
  (smuExec host (smuExec host m smuPowerOff 0).1 smuPowerOn 0).1

/-- The commands to the SMU leave the power on, and the PSP as it was. -/
theorem powered_spec (host : Host) (m : Machine) :
    (powered host m).npu.powerOn = true ∧ RegChange m.npu (powered host m).npu ∧
      SamePsp m.npu (powered host m).npu ∧
      (PspReady (powered host m) ↔ PspReady m) ∧ (powered host m).dmaReads = m.dmaReads := by
  have hoff := smuExec_executed host m smuPowerOff 0
  have hon := smuExec_executed host (smuExec host m smuPowerOff 0).1 smuPowerOn 0
  rw [powered]
  generalize smuExec host m smuPowerOff 0 = r at hoff hon ⊢
  generalize smuExec host r.1 smuPowerOn 0 = r' at hon ⊢
  have hpower (u : Smu) : (u.apply ⟨smuPowerOn, 0⟩).powerOn = true := rfl
  have hview : SamePsp m.npu (pspView m).npu := by constructor <;> rfl
  have hback : SamePsp (pspView r'.1).npu r'.1.npu := by constructor <;> rfl
  rw [hon.rest, hoff.rest] at hback
  refine ⟨?_, hoff.regs.trans hon.regs, ?_, hon.ready.trans hoff.ready,
    hon.dmaReads.trans hoff.dmaReads⟩
  · exact (congrArg Smu.powerOn hon.smu).trans (hpower _)
  · exact hview.trans hback

/-- After the power cycle VALIDATE succeeds if and only if the host can read the image. -/
theorem validate_powered (host : Host) (m : Machine) :
    (validate host (powered host m) hwImage).npu.scratch 3 = 0 ↔ readsHwImage host m = true := by
  obtain ⟨-, -, -, -, hreads⟩ := powered_spec host m
  have hread : readsHwImage host (powered host m) = readsHwImage host m := by
    rw [readsHwImage, readsHwImage, hreads]
  rw [← hread]
  exact validate_hwImage host (powered host m)

/-- `hw_start` in one piece: it stops at the first step that fails. -/
theorem hwStart_eq (host : Host) (d : Drv) (m : Machine) :
    hwStart host d m =
      if PspReady m then
        if readsHwImage host m = true then
          getMgmtChannInfo host d (load host (powered host m) hwImage)
        else (validate host (powered host m) hwImage, none)
      else (powered host m, none) := by
  obtain ⟨-, -, -, hready, -⟩ := powered_spec host m
  have hvalid := validate_powered host m
  have hbooted := @load_booted host (powered host m) hwImage
  have hready' : PspReady (validate host (powered host m) hwImage) :=
    pspExec_ready host (powered host m) pspCmdValidate hwImage.lo hwImage.hi hwImage.size
  have hvalidated := pspExecChecked_eq host (powered host m) pspCmdValidate
    fwImagePaddr.toUInt32 (fwImagePaddr >>> 32).toUInt32 fwImageSize
  have hstarted : pspExecChecked host (validate host (powered host m) hwImage) pspCmdStart
      pspStartCopyFw 0 0 = (load host (powered host m) hwImage,
        decide ((load host (powered host m) hwImage).npu.scratch 3 = 0)) :=
    (pspExecChecked_eq ..).trans (if_pos hready')
  change _ = if _ then (validate host (powered host m) hwImage,
    decide ((validate host (powered host m) hwImage).npu.scratch 3 = 0)) else _ at hvalidated
  unfold hwStart
  dsimp only
  rw [smuOk_power host m (by decide), smuOk_power host _ (by decide), if_neg (not_not.mpr rfl),
    if_neg (not_not.mpr rfl), ← powered, hvalidated]
  by_cases h : PspReady m
  · rw [if_pos (hready.mpr h), if_pos h]
    dsimp only
    by_cases himage : readsHwImage host m = true
    · have hstart := hvalid.mpr himage
      have hboot : (pspExecChecked host (validate host (powered host m) hwImage) pspCmdStart
          pspStartCopyFw 0 0).2 = true := by
        rw [hstarted, decide_eq_true_eq]
        exact (hbooted hstart).1
      rw [if_neg (by simp [hstart]), if_pos himage, if_neg (not_not.mpr hboot)]
      exact congrArg (getMgmtChannInfo host d) (congrArg Prod.fst hstarted)
    · rw [if_pos (by simp [hvalid, himage]), if_neg himage]
  · rw [if_neg (fun h' => h (hready.mp h')), if_neg h]
    rfl

/-- `hw_start` meets its specification in every consistent state. -/
theorem hwStart_spec (host : Host) {m : Machine} (hcons : Consistent m.npu) (d : Drv) :
    HwStart host m d (hwStart host d m) := by
  obtain ⟨hpower, hregs, hstate, -, -⟩ := powered_spec host m
  have hcons' : Consistent (powered host m).npu :=
    hcons.congr (.of_eq hregs.chan hregs.ctx hregs.fwAlive hregs.activeContexts)
  have hvalid := validate_powered host m
  rw [hwStart_eq]
  by_cases hready : PspReady m
  · rw [if_pos hready]
    by_cases himage : readsHwImage host m = true
    · rw [if_pos himage]
      obtain ⟨m', d', hfound, h⟩ := HwStarted.of_loaded host hcons' (hvalid.mpr himage) hpower
        (d := d)
      rw [hfound]
      exact .started hready himage ⟨h.drv, h.powerOn, h.running, h.noticed,
        h.ctx.trans hregs.ctx, h.rtCfg.trans hregs.rtCfg, h.idle⟩
    · rw [if_neg himage]
      obtain ⟨hkept, hpsp⟩ := validate_failed (fun h => himage (hvalid.mp h))
      have hsmu : (validate host (powered host m) hwImage).npu.smu = (powered host m).npu.smu :=
        pspExec_smu ..
      generalize validate host (powered host m) hwImage = m' at hkept hpsp hsmu ⊢
      exact .failed (fun h => himage h.2) ⟨(congrArg Smu.powerOn hsmu).trans hpower,
        hstate.trans hpsp, hregs.trans hkept⟩
  · rw [if_neg hready]
    exact .failed (fun h => hready h.1) ⟨hpower, hstate, hregs⟩

/-- After any history `drv_hw_start` returns 0 if and only if the PSP is ready and the host can
read the image; then a firmware runs whose channel the driver knows, and otherwise the firmware is
as it was. -/
theorem guestRun_hwStart (host : Host) (ops : List GuestOp) (d : Drv) :
    HwStart host (guestRun host ops) d (hwStart host d (guestRun host ops)) :=
  hwStart_spec host (guestRun_consistent host ops) d

/-! ## Sessions -/

/-- The calls of the tests on one device. -/
inductive DrvCall where
  /-- With a new `Drv`. -/
  | hwStart
  | smu (cmd arg : UInt32)
  | releaseTmr
  | reset
  | sendRecv (q : Request)

/-- The driver, if it has a channel, and the device. -/
abbrev Session := Option Drv × Machine

/-- `Drv drv = { 0 }`. -/
def Drv.new : Drv := ⟨⟨0, 0, 0, 0⟩, ⟨0, 0, 0, 0⟩, 0, 0, 0⟩

/-- What a call does to the session. -/
def Session.call (host : Host) : Session → DrvCall → Session
  | (_, m), .hwStart => ((Xdna.hwStart host .new m).2, (Xdna.hwStart host .new m).1)
  | (d, m), .smu cmd arg => (d, (smuExec host m cmd arg).1)
  | (d, m), .releaseTmr =>
    let r := pspExecChecked host m pspCmdReleaseTmr 0 0 0
    (if r.2 then none else d, r.1)
  | (_, m), .reset => (none, coldReset m)
  | (some d, m), .sendRecv q => (some (transact host (d, m) q).1, (transact host (d, m) q).2)
  | (none, m), .sendRecv _ => (none, m)

/-- What RELEASE_TMR leaves of the firmware. -/
structure TmrReleased (m : Machine) : Prop where
  dead : m.npu.fwAlive = false
  silent : rd32 m barSram sramFwAliveOff = 0
  contexts : ∀ s, (m.npu.ctx s).valid = false

/-- What the driver relies on when it makes a call in the session `s`. -/
def Session.Promise (host : Host) (s : Session) : DrvCall → Prop
  | .hwStart => HwStart host s.2 .new (Xdna.hwStart host .new s.2)
  | .smu cmd arg => SmuExecuted s.2 ⟨cmd, arg⟩ (smuExec host s.2 cmd arg)
  | .releaseTmr => (pspExecChecked host s.2 pspCmdReleaseTmr 0 0 0).2 = decide (PspReady s.2) ∧
      (PspReady s.2 → TmrReleased (s.call host .releaseTmr).2)
  | .reset => PspReady (s.call host .reset).2
  | .sendRecv q => ∀ d, s.1 = some d → q.Synchronous →
      (Pair.post host (d, s.2) q).2.2 = true → RoundTrip host (d, s.2) q

/-- The driver's channel, if it has one, is empty. -/
structure Session.Linked (s : Session) : Prop where
  consistent : Consistent s.2.npu
  idle : ∀ d, s.1 = some d → Idle d s.2

/-- A change of registers keeps the state consistent. -/
theorem RegChange.consistent {npu npu' : Npu} (h : RegChange npu npu') (hcons : Consistent npu) :
    Consistent npu' :=
  hcons.congr (.of_eq h.chan h.ctx h.fwAlive h.activeContexts)

/-- After a reset the PSP takes commands. -/
theorem pspReady_npuReset {m : Machine} : PspReady (coldReset m) := by
  have hscratch : (coldReset m).npu.scratch 2 = pspStatusReady := by
    rw [coldReset, npuReset_eq]
    rfl
  rw [PspReady, hscratch]
  decide

/-- RELEASE_TMR succeeds exactly when the PSP takes commands, and takes the firmware down. -/
theorem releaseTmr_spec (host : Host) (s : Session) : s.Promise host .releaseTmr := by
  have hrelease := pspKick_release host
    (m := s.2.modify (commanded pspCmdReleaseTmr 0 0 0)) (commanded_scratch ..)
  have hctx := (release_released host s.2).ctx
  have hresp : (pspExec host s.2 pspCmdReleaseTmr 0 0 0).npu.scratch 3 = 0 := by
    rw [pspExec_npu, pspCommand_release host (pspIssued_cmd ..)]
    exact (pspComplete_scratch ..).1
  have hregs : RegChange (fwShutdown (commanded pspCmdReleaseTmr 0 0 0 s.2.npu))
      (pspExec host s.2 pspCmdReleaseTmr 0 0 0).npu := by
    rw [pspExec_eq]
    exact hrelease.1
  rw [release] at hctx
  refine ⟨?_, fun hready => ?_⟩
  · rw [pspExecChecked_eq]
    by_cases hready : PspReady s.2
    · rw [if_pos hready, decide_eq_true hready, decide_eq_true hresp]
    · rw [if_neg hready, decide_eq_false hready]
  · rw [Session.call, pspExecChecked_eq, if_pos hready]
    dsimp only
    generalize pspExec host s.2 pspCmdReleaseTmr 0 0 0 = m at hregs hctx ⊢
    refine ⟨by rw [hregs.fwAlive, fwShutdown_fwAlive], ?_, hctx⟩
    refine rd32_sram m (by decide) ?_
    rw [hregs.sram, fwShutdown_eq]
    exact Memory.read_write_self ..

namespace Session.Linked

variable {host : Host} {s : Session}

/-- A start leaves an empty channel, or none. -/
theorem hwStart (h : s.Linked) : (s.call host .hwStart).Linked := by
  have hspec := hwStart_spec host h.consistent .new
  rw [call]
  generalize Xdna.hwStart host .new s.2 = r at hspec ⊢
  cases hspec with
  | started _ _ hstarted =>
    have hidle := hstarted.idle.mpr ⟨rfl, rfl⟩
    exact ⟨hidle.consistent, fun d hd => Option.some.inj hd ▸ hidle⟩
  | failed _ hfailed => exact ⟨hfailed.regs.consistent h.consistent, fun d hd => by cases hd⟩

/-- A command to the SMU keeps the channel. -/
theorem smu (h : s.Linked) (cmd arg : UInt32) : (s.call host (.smu cmd arg)).Linked := by
  obtain ⟨d, m⟩ := s
  have hexec := smuExec_executed host m cmd arg
  rw [call]
  generalize smuExec host m cmd arg = r at hexec ⊢
  have hregs := hexec.regs
  exact ⟨hregs.consistent h.consistent, fun d hd =>
    (h.idle d hd).congr hregs.chan hregs.ctx hregs.fwAlive hregs.activeContexts⟩

/-- RELEASE_TMR takes the channel, or changes nothing. -/
theorem releaseTmr (h : s.Linked) : (s.call host .releaseTmr).Linked := by
  obtain ⟨d, m⟩ := s
  have hcons : Consistent (pspExec host m pspCmdReleaseTmr 0 0 0).npu :=
    pspExec_consistent host h.consistent ..
  have hspec := (releaseTmr_spec host (d, m)).1
  rw [call]
  dsimp only at hspec ⊢
  rw [hspec, pspExecChecked_eq]
  by_cases hready : PspReady m
  · rw [if_pos hready, if_pos (decide_eq_true hready)]
    exact ⟨hcons, fun d' hd => by cases hd⟩
  · rw [if_neg hready, if_neg (by rw [decide_eq_false hready]; decide)]
    exact h

/-- A reset takes the channel. -/
theorem reset : (s.call host .reset).Linked := ⟨consistent_npuReset, fun d hd => by cases hd⟩

private theorem sendRecv (h : s.Linked) {q : Request} (hq : Sendable q.payload) :
    (s.call host (.sendRecv q)).Linked := by
  obtain ⟨d, m⟩ := s
  cases d with
  | none => exact h
  | some d =>
    have hidle := (@Idle.sendRecv host (d, m) _ (h.idle d rfl) hq).2
    rw [call]
    generalize transact host (d, m) q = st at hidle ⊢
    exact ⟨hidle.consistent, fun d' hd => Option.some.inj hd ▸ hidle⟩

end Session.Linked

end Xdna
