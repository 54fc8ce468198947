import Xdna.DriverSemantics
import Xdna.PspHistory
import Xdna.General.Interleaving

/-!
# PSP and SMU on one scratch block

The registers of the two command protocols lie in one block, in which command and status,
and argument and result, share a word. Each protocol is a program of single 4-byte
accesses. Neither sees the other, so that every interleaving gives each of them what it gets
alone.
-/

namespace Xdna

open Interleaving

/-! ## The two sides -/

/-- The registers of the PSP protocol, under the names it has for them. -/
inductive PspReg where
  | cmd | arg0 | arg1 | arg2 | intr | pwaitmode
  deriving DecidableEq

/-- Where the register is in the REG BAR. -/
def PspReg.off : PspReg → UInt32
  | cmd => regScratch2
  | arg0 => regScratch3
  | arg1 => regScratch4
  | arg2 => regScratch9
  | intr => regPubSecIntr
  | pwaitmode => regPwaitmode

/-- The registers of the SMU protocol. -/
inductive SmuReg where
  | cmd | resp | arg | intr
  deriving DecidableEq

/-- Where the register is in the REG BAR. -/
def SmuReg.off : SmuReg → UInt32
  | cmd => regScratch5
  | resp => regScratch6
  | arg => regScratch7
  | intr => regPubPwrmgmtIr

/-- One 4-byte access to a register. -/
inductive RegAccess (R : Type) where
  | read (r : R)
  | write (r : R) (v : UInt32)
  deriving DecidableEq

/-- An access of one of the two sides. -/
abbrev SideAccess := RegAccess PspReg ⊕ RegAccess SmuReg

/-- A read of a register, or a write of `v` to it. -/
def regStep (host : Host) (off : UInt32) (v : Option UInt32) (m : Machine) :
    Machine × Option UInt32 :=
  match v with
  | none => (m, some (rd32 m barReg off))
  | some v => (wr32 host m barReg off v, none)

/-- An access, and the value that it reads. -/
def sideStep (host : Host) (m : Machine) : SideAccess → Machine × Option UInt32
  | .inl (.read r) => regStep host r.off none m
  | .inl (.write r v) => regStep host r.off (some v) m
  | .inr (.read r) => regStep host r.off none m
  | .inr (.write r v) => regStep host r.off (some v) m

/-- The access belongs to the PSP. -/
abbrev OfPsp (a : SideAccess) : Prop := a.isLeft = true

/-- The access belongs to the SMU. -/
abbrev OfSmu (a : SideAccess) : Prop := a.isRight = true

/-! ## What each side sees -/

/-- The state of the SMU and its registers. -/
structure SmuView where
  cmd : UInt32
  resp : UInt32
  arg : UInt32
  intr : UInt32
  powerOn : Bool
  npuclk : UInt32
  hclk : UInt32
  dpmLevel : UInt32
  smuCmds : UInt64
  deriving DecidableEq

/-- The fields of the SMU. -/
def smuView (m : Machine) : SmuView where
  cmd := m.npu.scratch 5
  resp := m.npu.scratch 6
  arg := m.npu.scratch 7
  intr := m.npu.pwrmgmtIntr
  powerOn := m.npu.powerOn
  npuclk := m.npu.npuclk
  hclk := m.npu.hclk
  dpmLevel := m.npu.dpmLevel
  smuCmds := m.npu.stats.smuCmds

/-- The device without what belongs to the SMU. -/
def withoutSmu (npu : Npu) : Npu :=
  { npu with
    scratch := fun i => if i = 5 ∨ i = 6 ∨ i = 7 then 0 else npu.scratch i
    pwrmgmtIntr := 0
    powerOn := false
    npuclk := 0
    hclk := 0
    dpmLevel := 0
    stats := { npu.stats with smuCmds := 0 } }

/-- The PSP sees the whole machine, its host calls and its trace, but for the SMU. -/
def pspView (m : Machine) : Machine := m.modify withoutSmu

/-- The other scratch registers stay. -/
theorem withoutSmu_scratch (npu : Npu) {i : Fin 10} (h : ¬ (i = 5 ∨ i = 6 ∨ i = 7)) :
    (withoutSmu npu).scratch i = npu.scratch i := if_neg h

/-- A write to one of the other scratch registers stays. -/
theorem withoutSmu_setScratch (npu : Npu) {i : Fin 10} (v : UInt32)
    (h : ¬ (i = 5 ∨ i = 6 ∨ i = 7)) :
    withoutSmu (npu.setScratch i v) = (withoutSmu npu).setScratch i v := by
  have hscratch :
      (fun j => if j = 5 ∨ j = 6 ∨ j = 7 then 0 else Function.update npu.scratch i v j) =
      Function.update (fun j => if j = 5 ∨ j = 6 ∨ j = 7 then 0 else npu.scratch j) i v := by
    funext j
    by_cases hj : j = i
    · subst hj
      rw [if_neg h, Function.update_self, Function.update_self]
    · rw [Function.update_of_ne hj, Function.update_of_ne hj]
  rw [withoutSmu, withoutSmu, Npu.setScratch, Npu.setScratch]
  dsimp only
  rw [hscratch]

/-- A write to a scratch register of the SMU does not show. -/
theorem withoutSmu_setScratch_smu (npu : Npu) {i : Fin 10} (v : UInt32)
    (h : i = 5 ∨ i = 6 ∨ i = 7) : withoutSmu (npu.setScratch i v) = withoutSmu npu := by
  have hscratch :
      (fun j => if j = 5 ∨ j = 6 ∨ j = 7 then 0 else Function.update npu.scratch i v j) =
      fun j => if j = 5 ∨ j = 6 ∨ j = 7 then 0 else npu.scratch j := by
    funext j
    by_cases hj : j = 5 ∨ j = 6 ∨ j = 7
    · rw [if_pos hj, if_pos hj]
    · rw [if_neg hj, if_neg hj, Function.update_of_ne (fun heq : j = i => hj (by rwa [heq]))]
  rw [withoutSmu, withoutSmu, Npu.setScratch]
  dsimp only
  rw [hscratch]

/-! ## Single writes -/

/-- A write of the PSP side, register by register. -/
def pspWrite (host : Host) (m : Machine) (v : UInt32) : PspReg → Machine
  | .cmd => m.modify (·.setScratch 2 v)
  | .arg0 => m.modify (·.setScratch 3 v)
  | .arg1 => m.modify (·.setScratch 4 v)
  | .arg2 => m.modify (·.setScratch 9 v)
  | .intr =>
    let m₁ := m.modify fun npu => { npu with secIntr := v }
    if v = pspNotifyVal then pspKick host m₁ else m₁
  | .pwaitmode => m.modify fun npu => { npu with pwaitmode := v }

private theorem wr32_psp (host : Host) (m : Machine) (r : PspReg) (v : UInt32) :
    wr32 host m barReg r.off v = pspWrite host m v r := by
  rw [wr32_reg]
  cases r <;> rfl

/-- A write of the SMU side, register by register. -/
def smuWrite (m : Machine) (v : UInt32) : SmuReg → Machine
  | .cmd => m.modify (·.setScratch 5 v)
  | .resp => m.modify (·.setScratch 6 v)
  | .arg => m.modify (·.setScratch 7 v)
  | .intr =>
    let m₁ := m.modify fun npu => { npu with pwrmgmtIntr := v }
    if v = 1 then m₁.modify smuKick else m₁

/-- A write of the driver to a register of the SMU. -/
theorem wr32_smu (host : Host) (m : Machine) (r : SmuReg) (v : UInt32) :
    wr32 host m barReg r.off v = smuWrite m v r := by
  rw [wr32_reg]
  cases r <;> rfl

/-! ## The PSP does not see the SMU -/

/-- The address of the image is in registers of the PSP. -/
theorem pspPaddr_withoutSmu (npu : Npu) : pspPaddr (withoutSmu npu) = pspPaddr npu := rfl

/-- A boot does not look at the SMU. -/
theorem fwBoot_withoutSmu (npu : Npu) : fwBoot (withoutSmu npu) = withoutSmu (fwBoot npu) := by
  rw [fwBoot_eq, fwBoot_eq]
  rfl

/-- A shutdown does not look at the SMU. -/
theorem fwShutdown_withoutSmu (npu : Npu) :
    fwShutdown (withoutSmu npu) = withoutSmu (fwShutdown npu) := by
  rw [fwShutdown_eq, fwShutdown_eq]
  rfl

private theorem pspFetchImage_pspView (host : Host) (m : Machine) (paddr : UInt64) (size : UInt32) :
    pspFetchImage host (pspView m) paddr size =
      (pspView (pspFetchImage host m paddr size).1, (pspFetchImage host m paddr size).2) := by
  unfold pspFetchImage
  dsimp only
  split
  · rfl
  · split <;> rfl

private theorem pspCommand_pspView (host : Host) (m : Machine) :
    pspCommand host (pspView m) = (pspView (pspCommand host m).1, (pspCommand host m).2) := by
  have hcmd : (pspView m).npu.scratch 2 = m.npu.scratch 2 :=
    withoutSmu_scratch m.npu (by decide)
  have hsize : (pspView m).npu.scratch 9 = m.npu.scratch 9 :=
    withoutSmu_scratch m.npu (by decide)
  have hpaddr : pspPaddr (pspView m).npu = pspPaddr m.npu := pspPaddr_withoutSmu m.npu
  have hstate : (pspView m).npu.pspState = m.npu.pspState := rfl
  unfold pspCommand
  dsimp only
  rw [hcmd, hsize, hpaddr, hstate, pspFetchImage_pspView]
  generalize pspFetchImage host m (pspPaddr m.npu) (m.npu.scratch 9 &&& pspArg2Mask) = r
  split
  · split <;> rfl
  split
  · rfl
  split
  · split
    · rfl
    · have hboot := fwBoot_withoutSmu { m.npu with pspState := .running }
      refine Prod.ext ?_ rfl
      dsimp only [Machine.modify, pspView]
      rw [← hboot]
      rfl
  split
  · refine Prod.ext ?_ rfl
    have hdown := fwShutdown_withoutSmu m.npu
    dsimp only [Machine.modify, pspView]
    rw [hdown]
    rfl
  · rfl

private theorem pspKick_pspView (host : Host) (m : Machine) :
    pspKick host (pspView m) = pspView (pspKick host m) := by
  have hcount : countPsp (pspView m) = pspView (countPsp m) := rfl
  have hcmd : (pspView m).npu.scratch 2 = m.npu.scratch 2 :=
    withoutSmu_scratch m.npu (by decide)
  have hcomplete (npu : Npu) (resp : UInt32) :
      pspComplete (withoutSmu npu) resp = withoutSmu (pspComplete npu resp) := by
    rw [pspComplete, pspComplete, withoutSmu_setScratch _ _ (by decide),
      withoutSmu_setScratch _ _ (by decide)]
  rw [pspKick_eq, pspKick_eq, hcount, pspCommand_pspView, hcmd]
  generalize pspCommand host (countPsp m) = r
  dsimp only [pspView, Machine.modify, Machine.emit]
  rw [hcomplete]

private theorem pspWrite_pspView (host : Host) (m : Machine) (v : UInt32) (r : PspReg) :
    pspWrite host (pspView m) v r = pspView (pspWrite host m v r) := by
  have hscratch {i : Fin 10} (h : ¬ (i = 5 ∨ i = 6 ∨ i = 7)) :
      (pspView m).modify (·.setScratch i v) = pspView (m.modify (·.setScratch i v)) := by
    dsimp only [pspView, Machine.modify]
    rw [withoutSmu_setScratch _ _ h]
  cases r with
  | cmd => exact hscratch (by decide)
  | arg0 => exact hscratch (by decide)
  | arg1 => exact hscratch (by decide)
  | arg2 => exact hscratch (by decide)
  | pwaitmode => rfl
  | intr =>
    unfold pspWrite
    dsimp only
    split
    · exact pspKick_pspView host (m.modify fun npu => { npu with secIntr := v })
    · rfl

private theorem rd32_pspView (m : Machine) (r : PspReg) :
    rd32 (pspView m) barReg r.off = rd32 m barReg r.off := by
  rw [rd32_reg, rd32_reg]
  cases r <;> rfl

private theorem smuKick_withoutSmu (npu : Npu) : withoutSmu (smuKick npu) = withoutSmu npu := by
  have hcomplete (npu : Npu) (resp out : UInt32) :
      withoutSmu (smuComplete npu resp out) = withoutSmu npu := by
    rw [smuComplete, withoutSmu_setScratch_smu _ _ (by decide),
      withoutSmu_setScratch_smu _ _ (by decide)]
  unfold smuKick
  dsimp only
  repeat' split
  all_goals
    rw [hcomplete]
    rfl

/-- A write to a register of the SMU does not show to the PSP. -/
theorem pspView_smuWrite (m : Machine) (v : UInt32) (r : SmuReg) :
    pspView (smuWrite m v r) = pspView m := by
  have hscratch {i : Fin 10} (h : i = 5 ∨ i = 6 ∨ i = 7) :
      pspView (m.modify (·.setScratch i v)) = pspView m := by
    dsimp only [pspView, Machine.modify]
    rw [withoutSmu_setScratch_smu _ _ h]
  cases r with
  | cmd => exact hscratch (by decide)
  | resp => exact hscratch (by decide)
  | arg => exact hscratch (by decide)
  | intr =>
    unfold smuWrite
    dsimp only
    split
    · dsimp only [pspView, Machine.modify]
      rw [smuKick_withoutSmu]
      rfl
    · rfl

/-! ## The SMU does not see the PSP -/

private theorem smuView_pspKick (host : Host) (m : Machine) :
    smuView (pspKick host m) = smuView m := by
  have hresult := pspCommand_result host (countPsp m)
  have hcomplete (npu : Npu) (resp : UInt32) (r w : ℕ) (tr : List Event) :
      smuView ⟨pspComplete npu resp, r, w, tr⟩ = smuView ⟨npu, r, w, tr⟩ := rfl
  have hkick : smuView (pspKick host m) = smuView (pspCommand host (countPsp m)).1 := by
    rw [pspKick_eq]
    exact hcomplete ..
  rw [hkick]
  generalize pspCommand host (countPsp m) = r at hresult
  cases hresult with
  | failed _ hnpu _ _ => rw [smuView, hnpu]; rfl
  | cert _ hnpu => rw [smuView, hnpu]; rfl
  | validated _ hnpu => rw [smuView, hnpu]; rfl
  | started _ _ hnpu => rw [smuView, hnpu, fwBoot_eq]; rfl
  | released _ hnpu => rw [smuView, hnpu, fwShutdown_eq]; rfl

private theorem smuView_pspWrite (host : Host) (m : Machine) (v : UInt32) (r : PspReg) :
    smuView (pspWrite host m v r) = smuView m := by
  cases r with
  | cmd => rfl
  | arg0 => rfl
  | arg1 => rfl
  | arg2 => rfl
  | pwaitmode => rfl
  | intr =>
    unfold pspWrite
    dsimp only
    split
    · rw [smuView_pspKick]
      rfl
    · rfl

/-- `xdna_smu_kick` on the view of the SMU. -/
def SmuView.kick (w : SmuView) : SmuView :=
  let w := { w with smuCmds := w.smuCmds + 1 }
  if w.cmd = smuPowerOn then { w with powerOn := true, resp := smuResultOk, arg := 0 }
  else if w.cmd = smuPowerOff then { w with powerOn := false, resp := smuResultOk, arg := 0 }
  else if w.cmd = smuSetMpnpuclkFreq then { w with npuclk := w.arg, resp := smuResultOk }
  else if w.cmd = smuSetHclkFreq then { w with hclk := w.arg, resp := smuResultOk }
  else if w.cmd = smuSetSoftDpmlevel ∨ w.cmd = smuSetHardDpmlevel then
    if maxDpmLevel < w.arg then { w with resp := smuResultFail, arg := 0 }
    else { w with dpmLevel := w.arg, resp := smuResultOk }
  else { w with resp := smuResultFail, arg := 0 }

private theorem smuView_smuKick (m : Machine) : smuView (m.modify smuKick) = (smuView m).kick := by
  dsimp only [smuView, Machine.modify, SmuView.kick, smuKick]
  repeat' split
  all_goals rfl

/-- What a read of the register returns. -/
def SmuView.read (w : SmuView) : SmuReg → UInt32
  | .cmd => w.cmd
  | .resp => w.resp
  | .arg => w.arg
  | .intr => w.intr

/-- What a write to the register does. -/
def SmuView.write (w : SmuView) (v : UInt32) : SmuReg → SmuView
  | .cmd => { w with cmd := v }
  | .resp => { w with resp := v }
  | .arg => { w with arg := v }
  | .intr => if v = 1 then { w with intr := v }.kick else { w with intr := v }

private theorem smuView_smuWrite (m : Machine) (v : UInt32) (r : SmuReg) :
    smuView (smuWrite m v r) = (smuView m).write v r := by
  cases r with
  | cmd => rfl
  | resp => rfl
  | arg => rfl
  | intr =>
    unfold smuWrite SmuView.write
    dsimp only
    split
    · exact smuView_smuKick (m.modify fun npu => { npu with pwrmgmtIntr := v })
    · rfl

private theorem rd32_smu (m : Machine) (r : SmuReg) : rd32 m barReg r.off = (smuView m).read r := by
  rw [rd32_reg]
  cases r <;> rfl

/-! ## Both on one device -/

private theorem isolated_psp (host : Host) : Isolated (sideStep host) OfPsp pspView where
  others m a ha := by
    rcases a with a | a
    · exact absurd rfl ha
    cases a with
    | read => rfl
    | write r v =>
      rw [sideStep, regStep, wr32_smu]
      exact pspView_smuWrite m v r
  next m m' a ha hview := by
    rcases a with a | a
    · cases a with
      | read => exact hview
      | write r v =>
        rw [sideStep, sideStep, regStep, regStep, wr32_psp, wr32_psp]
        dsimp only
        rw [← pspWrite_pspView, hview, pspWrite_pspView]
    · cases ha
  value m m' a ha hview := by
    rcases a with a | a
    · cases a with
      | read r =>
        rw [sideStep, sideStep, regStep, regStep]
        dsimp only
        rw [← rd32_pspView, hview, rd32_pspView]
      | write => rfl
    · cases ha

private theorem isolated_smu (host : Host) : Isolated (sideStep host) OfSmu smuView where
  others m a ha := by
    rcases a with a | a
    · cases a with
      | read => rfl
      | write r v =>
        rw [sideStep, regStep, wr32_psp]
        exact smuView_pspWrite host m v r
    · exact absurd rfl ha
  next m m' a ha hview := by
    rcases a with a | a
    · cases ha
    cases a with
    | read => exact hview
    | write r v =>
      rw [sideStep, sideStep, regStep, regStep, wr32_smu, wr32_smu]
      dsimp only
      rw [smuView_smuWrite, smuView_smuWrite, hview]
  value m m' a ha hview := by
    rcases a with a | a
    · cases ha
    cases a with
    | read r =>
      rw [sideStep, sideStep, regStep, regStep]
      dsimp only
      rw [rd32_smu, rd32_smu, hview]
    | write => rfl

/-! ## Exchanges of the driver -/

/-- The arguments of `psp_exec`. -/
structure PspCall where
  cmd : UInt32
  arg0 : UInt32
  arg1 : UInt32
  arg2 : UInt32

/-- The accesses of `psp_exec`. -/
def PspCall.accesses (p : PspCall) : List SideAccess :=
  [.inl (.read .cmd), .inl (.write .cmd p.cmd), .inl (.write .arg0 p.arg0),
    .inl (.write .arg1 p.arg1),
    .inl (.write .arg2 ((p.arg2 ||| (p.cmd <<< pspArg2CmdShift)) &&& pspArg2Mask)),
    .inl (.write .intr 0), .inl (.write .intr pspNotifyVal), .inl (.read .cmd), .inl (.read .arg0)]

/-- The arguments of `smu_exec`, and whether the caller wants the output word. -/
structure SmuCall where
  cmd : UInt32
  arg : UInt32
  out : Bool

/-- The accesses of `smu_exec`. -/
def SmuCall.accesses (s : SmuCall) : List SideAccess :=
  [.inr (.write .resp 0), .inr (.write .arg s.arg), .inr (.write .cmd s.cmd),
    .inr (.write .intr 0), .inr (.write .intr 1), .inr (.read .resp)] ++
    if s.out then [.inr (.read .arg)] else []

/-- The test that `psp_exec` makes before and after its kick. -/
abbrev Ready (status : UInt32) : Prop := status &&& pspStatusReady ≠ 0

/-- What `psp_exec` reads if it goes through. -/
def PspCall.Seen (_ : PspCall) (vs : List UInt32) : Prop :=
  ∃ before after resp, vs = [before, after, resp] ∧ Ready before ∧ Ready after

/-- What `smu_exec` reads if it goes through. -/
def SmuCall.Seen (s : SmuCall) (vs : List UInt32) : Prop :=
  ∃ resp out, vs = resp :: (if s.out then [out] else []) ∧ resp ≠ 0

private theorem PspCall.exchange (host : Host) (m : Machine) (p : PspCall)
    (h : Ready (m.npu.scratch 2)) :
    Ready ((finalState (sideStep host) m p.accesses).npu.scratch 2) ∧
      p.Seen (observed (sideStep host) OfPsp m p.accesses) := by
  have hstatus (m : Machine) : rd32 m barReg PspReg.cmd.off = m.npu.scratch 2 := by
    rw [rd32_reg]
    rfl
  have hkick (m : Machine) :
      (sideStep host m (.inl (.write .intr pspNotifyVal))).1.npu.scratch 2 = pspStatusReady := by
    rw [sideStep, regStep, wr32_psp, pspWrite, if_pos rfl, pspKick_eq, Machine.emit_npu,
      Machine.modify_npu, (pspComplete_scratch ..).2]
  refine ⟨?_, _, _, _, rfl, ?_, ?_⟩
  · change Ready ((sideStep host _ (.inl (.write .intr pspNotifyVal))).1.npu.scratch 2)
    rw [hkick]
    decide
  · rw [hstatus]
    exact h
  · rw [hstatus, hkick]
    decide

private theorem SmuView.kick_resp (w : SmuView) : w.kick.resp ≠ 0 := by
  have hok : smuResultOk ≠ 0 := by decide
  have hfail : smuResultFail ≠ 0 := by decide
  unfold SmuView.kick
  dsimp only
  repeat' split
  all_goals first | exact hok | exact hfail

/-- A complete exchange with the SMU, seen from the driver. -/
theorem SmuCall.exchange (host : Host) (m : Machine) (s : SmuCall) :
    s.Seen (observed (sideStep host) OfSmu m s.accesses) := by
  have hkick (m : Machine) :
      rd32 (sideStep host m (.inr (.write .intr 1))).1 barReg SmuReg.resp.off ≠ 0 := by
    rw [sideStep, regStep, rd32_smu, wr32_smu, smuView_smuWrite, SmuView.read, SmuView.write,
      if_pos rfl]
    exact SmuView.kick_resp _
  obtain ⟨cmd, arg, out⟩ := s
  cases out with
  | true => exact ⟨_, _, rfl, hkick _⟩
  | false => exact ⟨_, 0, rfl, hkick _⟩

/-- Two sequences of accesses, in whatever order they come: each side reads what it reads
alone, and leaves behind what it leaves alone. If they are sequences of complete exchanges of
the driver, and the PSP is ready at the start, all of them go through. -/
theorem sides_independent (host : Host) (m : Machine) (as : List SideAccess) :
    observed (sideStep host) OfPsp m as = observed (sideStep host) OfPsp m (as.filter (OfPsp ·)) ∧
    observed (sideStep host) OfSmu m as = observed (sideStep host) OfSmu m (as.filter (OfSmu ·)) ∧
    pspView (finalState (sideStep host) m as) =
      pspView (finalState (sideStep host) m (as.filter (OfPsp ·))) ∧
    smuView (finalState (sideStep host) m as) =
      smuView (finalState (sideStep host) m (as.filter (OfSmu ·))) ∧
    (Ready (m.npu.scratch 2) → ∀ (ps : List PspCall) (ss : List SmuCall),
      as.filter (OfPsp ·) = ps.flatMap PspCall.accesses →
      as.filter (OfSmu ·) = ss.flatMap SmuCall.accesses →
      (∃ vss, observed (sideStep host) OfPsp m as = vss.flatten ∧
        List.Forall₂ PspCall.Seen ps vss) ∧
      ∃ vss, observed (sideStep host) OfSmu m as = vss.flatten ∧
        List.Forall₂ SmuCall.Seen ss vss) := by
  have hpsp := (isolated_psp host).observed_filter as (rfl : pspView m = pspView m)
  have hsmu := (isolated_smu host).observed_filter as (rfl : smuView m = smuView m)
  refine ⟨hpsp, hsmu, (isolated_psp host).finalState_filter as rfl,
    (isolated_smu host).finalState_filter as rfl, ?_⟩
  intro hready ps ss hps hss
  rw [hpsp, hsmu, hps, hss]
  constructor
  · exact observed_flatMap (I := fun m : Machine => Ready (m.npu.scratch 2))
      (fun m p h => p.exchange host m h) hready
  · exact observed_flatMap (I := fun _ => True) (fun m s _ => ⟨trivial, s.exchange host m⟩) trivial

/-- An image is validated. -/
def validateCall : PspCall := ⟨pspCmdValidate, 0, 0, 0x100⟩

/-- The power is switched on, and the output word is read. -/
def powerOnCall : SmuCall := ⟨smuPowerOn, 0, true⟩

/-- Both exchanges at once, access by access in turn. -/
def alternating : List SideAccess :=
  (List.zipWith (fun a b => [a, b]) validateCall.accesses powerOnCall.accesses).flatten ++
    validateCall.accesses.drop 7

/-- A validation and a power-on whose accesses alternate. -/
theorem sides_independent_alternating :
    (∃ vss, observed (sideStep .accepting) OfPsp initial alternating = vss.flatten ∧
        List.Forall₂ PspCall.Seen [validateCall] vss) ∧
      ∃ vss, observed (sideStep .accepting) OfSmu initial alternating = vss.flatten ∧
        List.Forall₂ SmuCall.Seen [powerOnCall] vss :=
  (sides_independent .accepting initial alternating).2.2.2.2 (by decide +kernel)
    [validateCall] [powerOnCall] rfl rfl

end Xdna
