import Xdna.Books
import Xdna.SharedScratch

/-!
# The SMU over whole runs

Like those of the PSP, the kicks of the SMU leave a history. Power, clocks and DPM level are what
the last accepted command of each kind has set, whatever else the guest does, and every command
is answered.
-/

namespace Xdna

open ByteMemory EventSourcing

/-! ## Kicks -/

/-- One kick of the SMU: the command and its argument. -/
structure SmuKick where
  cmd : UInt32
  arg : UInt32
  deriving DecidableEq

namespace SmuKick

/-- A command that switches the power. -/
def power? (k : SmuKick) : Option Bool :=
  if k.cmd = smuPowerOn then some true else if k.cmd = smuPowerOff then some false else none

/-- A command that sets the NPU clock. -/
def npuclk? (k : SmuKick) : Option UInt32 :=
  if k.cmd = smuSetMpnpuclkFreq then some k.arg else none

/-- A command that sets the H clock. -/
def hclk? (k : SmuKick) : Option UInt32 := if k.cmd = smuSetHclkFreq then some k.arg else none

/-- A command that sets a DPM level that exists. -/
def dpmLevel? (k : SmuKick) : Option UInt32 :=
  if (k.cmd = smuSetSoftDpmlevel ∨ k.cmd = smuSetHardDpmlevel) ∧ ¬ maxDpmLevel < k.arg then
    some k.arg
  else none

/-- The command changes something. -/
def accepted (k : SmuKick) : Bool :=
  k.power?.isSome || k.npuclk?.isSome || k.hclk?.isSome || k.dpmLevel?.isSome

/-- What the command leaves in the OUT register. -/
def out (k : SmuKick) : UInt32 :=
  if k.accepted && k.power?.isNone then k.arg else 0

end SmuKick

/-- The write that makes the SMU execute a command. -/
def smuKickAccess : Access := .word barReg (regPubPwrmgmtIr, 1)

/-- The record of a kick in the state `m`. -/
def smuKickOf (m : Machine) : SmuKick := ⟨m.npu.scratch 5, m.npu.scratch 7⟩

/-- The kicks of the SMU among the accesses that follow on the state `m`. -/
def smuKicksFrom (host : Host) : Machine → List Access → List SmuKick
  | _, [] => []
  | m, a :: as =>
    (if a = smuKickAccess then [smuKickOf m] else []) ++ smuKicksFrom host (accessStep host m a) as

/-- The kicks of a run from reset, the oldest first. -/
def smuKicks (host : Host) (as : List Access) : List SmuKick := smuKicksFrom host initial as

/-- One access more. -/
theorem smuKicks_append (host : Host) (as : List Access) (a : Access) :
    smuKicks host (as ++ [a]) =
      smuKicks host as ++ if a = smuKickAccess then [smuKickOf (accessRun host as)] else [] := by
  unfold smuKicks accessRun
  generalize initial = m
  induction as generalizing m with
  | nil => simp [smuKicksFrom]
  | cons b as ih => rw [List.cons_append, smuKicksFrom, smuKicksFrom, ih, List.append_assoc,
      List.foldl_cons]

/-! ## What a kick does -/

/-- What the SMU remembers. -/
structure Smu where
  powerOn : Bool
  npuclk : UInt32
  hclk : UInt32
  dpmLevel : UInt32
  smuCmds : UInt64

/-- The state of the SMU. -/
def Npu.smu (npu : Npu) : Smu :=
  ⟨npu.powerOn, npu.npuclk, npu.hclk, npu.dpmLevel, npu.stats.smuCmds⟩

/-- What a kick does to what the SMU remembers. -/
def Smu.apply (u : Smu) (k : SmuKick) : Smu where
  powerOn := k.power?.getD u.powerOn
  npuclk := k.npuclk?.getD u.npuclk
  hclk := k.hclk?.getD u.hclk
  dpmLevel := k.dpmLevel?.getD u.dpmLevel
  smuCmds := u.smuCmds + 1

/-- The device with the SMU in the state `u`. -/
def Npu.withSmu (npu : Npu) (u : Smu) : Npu :=
  { npu with
    powerOn := u.powerOn
    npuclk := u.npuclk
    hclk := u.hclk
    dpmLevel := u.dpmLevel
    stats := { npu.stats with smuCmds := u.smuCmds } }

/-- A kick applies its command to the state of the SMU and answers it. -/
theorem smuKick_eq (npu : Npu) {k : SmuKick} (hcmd : npu.scratch 5 = k.cmd)
    (harg : npu.scratch 7 = k.arg) :
    smuKick npu = smuComplete (npu.withSmu (npu.smu.apply k))
      (if k.accepted then smuResultOk else smuResultFail) k.out := by
  obtain ⟨cmd, arg⟩ := k
  dsimp only at hcmd harg
  unfold smuKick
  dsimp only
  rw [hcmd, harg]
  by_cases hon : cmd = smuPowerOn
  · subst hon
    rfl
  rw [if_neg hon]
  by_cases hoff : cmd = smuPowerOff
  · subst hoff
    rfl
  rw [if_neg hoff]
  by_cases hnpu : cmd = smuSetMpnpuclkFreq
  · subst hnpu
    rfl
  rw [if_neg hnpu]
  by_cases hh : cmd = smuSetHclkFreq
  · subst hh
    rfl
  rw [if_neg hh]
  simp only [Smu.apply, SmuKick.accepted, SmuKick.out, SmuKick.power?, SmuKick.npuclk?,
    SmuKick.hclk?, SmuKick.dpmLevel?, if_neg hon, if_neg hoff, if_neg hnpu, if_neg hh]
  by_cases hdpm : cmd = smuSetSoftDpmlevel ∨ cmd = smuSetHardDpmlevel
  · by_cases hlevel : maxDpmLevel < arg
    · simp [hdpm, hlevel, Npu.smu, Npu.withSmu]
    · simp [hdpm, hlevel, Npu.smu, Npu.withSmu]
  · simp [hdpm, Npu.smu, Npu.withSmu]

/-- What the guest finds after a kick. -/
structure SmuAnswer (npu : Npu) (k : SmuKick) (npu' : Npu) : Prop where
  smu : npu'.smu = npu.smu.apply k
  resp : npu'.scratch 6 = if k.accepted then smuResultOk else smuResultFail
  out : npu'.scratch 7 = k.out
  /-- A kick touches nothing but the SMU. -/
  rest : withoutSmu npu' = withoutSmu npu

/-- Response and result are in their registers. -/
theorem smuComplete_scratch (npu : Npu) (resp out : UInt32) :
    (smuComplete npu resp out).scratch 6 = resp ∧ (smuComplete npu resp out).scratch 7 = out := by
  simp [smuComplete, Npu.setScratch, Function.update]

private theorem withoutSmu_smuComplete (npu : Npu) (resp out : UInt32) :
    withoutSmu (smuComplete npu resp out) = withoutSmu npu := by
  rw [smuComplete, withoutSmu_setScratch_smu _ _ (by decide),
    withoutSmu_setScratch_smu _ _ (by decide)]

private theorem smuKick_answer (host : Host) (m : Machine) :
    SmuAnswer m.npu (smuKickOf m) (accessStep host m smuKickAccess).npu := by
  have hstep : accessStep host m smuKickAccess =
      (m.modify fun npu => { npu with pwrmgmtIntr := 1 }).modify smuKick := by
    rw [smuKickAccess, accessStep, regWrite, if_pos rfl, regBarWrite, if_neg (by decide),
      if_neg (by decide), if_pos rfl]
    rfl
  have hkick := smuKick_eq { m.npu with pwrmgmtIntr := 1 } (k := smuKickOf m) rfl rfl
  rw [hstep, Machine.modify_npu, Machine.modify_npu, hkick]
  exact ⟨rfl, (smuComplete_scratch ..).1, (smuComplete_scratch ..).2, withoutSmu_smuComplete ..⟩

/-! ## Everything else leaves the SMU alone -/

/-- A message does not touch the SMU. -/
theorem MsgEffect.smu {npu npu' : Npu} {hdr : MsgHeader} {payload : Memory}
    (h : MsgEffect npu hdr payload npu') : npu'.smu = npu.smu := by
  cases h with
  | create s =>
    rw [createContext_eq]
    rfl
  | destroy s =>
    rw [destroyContext_eq]
    unfold Stats.dropContext
    split <;> rfl
  | _ => rfl

/-- A command of the PSP does not touch the SMU. -/
theorem PspResult.smu {m : Machine} {r : Machine × UInt32} (h : PspResult m r) :
    r.1.npu.smu = m.npu.smu := by
  cases h with
  | failed _ hnpu _ _ => exact congrArg Npu.smu hnpu
  | cert _ hnpu => exact congrArg Npu.smu hnpu
  | validated _ hnpu =>
    dsimp only
    rw [hnpu]
    rfl
  | started _ _ hnpu =>
    dsimp only
    rw [hnpu, fwBoot_eq]
    rfl
  | released _ hnpu =>
    dsimp only
    rw [hnpu, fwShutdown_eq]
    rfl

private theorem answerWith_smu (host : Host) (c : ChanIdx) (hdr : MsgHeader)
    (r : Machine × Option Answer) : (answerWith host c hdr r).npu.smu = r.1.npu.smu := by
  have hrest : (answerWith host c hdr r).npu.smu =
      { r.1.npu.smu with smuCmds := (answerWith host c hdr r).npu.stats.smuCmds } := by
    rw [(answerWith_change host c hdr r).rest]
    rfl
  have hcount : (answerWith host c hdr r).npu.stats.smuCmds = r.1.npu.stats.smuCmds := by
    rcases answerWith_stats host c hdr r with h | h <;> rw [h]
    unfold Stats.sentBy
    split <;> rfl
  rw [hrest, hcount]
  rfl

/-- The mailbox has nothing to do with the SMU. -/
theorem smu_keptByMbox (host : Host) (ok : ChanIdx → UInt32 → Prop) :
    KeptByMbox host ok fun m m' => m'.npu.smu = m.npu.smu where
  refl _ := rfl
  trans h h' := h'.trans h
  guest _ := rfl
  pass {m c} hm hactive := by
    have hform := mboxPass_form host hm.consistent hm.headsOk hactive
    generalize (mboxPass host c m).1 = m' at hform ⊢
    cases hform with
    | search _ hnpu _ =>
      rcases hnpu with hnpu | hnpu <;> rw [hnpu]
      rfl
    | message size _ =>
      rw [answerWith_smu]
      exact (mertOutcome_effect host (takenFrame m c size) _ _).smu

private theorem accessStep_smu (host : Host) {m : Machine} (hm : Visited host (fun _ _ => True) m)
    {a : Access} (ha : a ≠ smuKickAccess) : (accessStep host m a).npu.smu = m.npu.smu := by
  cases a with
  | sram off bytes =>
    rw [accessStep, mmioWriteBuf, if_pos rfl]
    split <;> rfl
  | word bar w =>
    obtain ⟨off, val⟩ := w
    rw [accessStep, regWrite]
    split
    · rename_i hbar
      have hkind := regBarWrite_kind host m off val
      generalize regBarWrite host m off val = m' at hkind ⊢
      cases hkind with
      | psp =>
        rw [pspKick_eq]
        exact (pspCommand_result host (countPsp (m.modify _))).smu
      | smu => exact absurd (by rw [smuKickAccess, hbar]) ha
      | plain _ _ hf => cases hf <;> rfl
    · split
      · exact (smu_keptByMbox host _).mboxRegWrite hm fun _ _ _ => trivial
      · rfl

/-! ## The history determines the state -/

/-- What the SMU remembers is what the kicks so far make of its reset state. -/
theorem accessRun_smu (host : Host) (as : List Access) :
    (accessRun host as).npu.smu = (smuKicks host as).foldl Smu.apply npuReset.smu := by
  induction as using List.reverseRecOn with
  | nil => rfl
  | append_singleton as a ih =>
    rw [accessRun_append, smuKicks_append, List.foldl_append]
    by_cases ha : a = smuKickAccess
    · rw [if_pos ha, ha, List.foldl_cons, List.foldl_nil, ← ih]
      exact (smuKick_answer host _).smu
    · rw [if_neg ha, List.foldl_nil, ← ih]
      exact accessStep_smu host (accessRun_visited_true host as) ha

/-- What the SMU has done and will do after the accesses `as`. -/
structure SmuLaw (host : Host) (as : List Access) : Prop where
  powerOn : (accessRun host as).npu.powerOn =
    (lastOf SmuKick.power? (smuKicks host as)).getD false
  npuclk : (accessRun host as).npu.npuclk = (lastOf SmuKick.npuclk? (smuKicks host as)).getD 0
  hclk : (accessRun host as).npu.hclk = (lastOf SmuKick.hclk? (smuKicks host as)).getD 0
  dpmLevel : (accessRun host as).npu.dpmLevel =
    (lastOf SmuKick.dpmLevel? (smuKicks host as)).getD 0
  dpmLevel_le : (accessRun host as).npu.dpmLevel ≤ maxDpmLevel
  smuCmds : (accessRun host as).npu.stats.smuCmds = UInt64.ofNat (smuKicks host as).length
  /-- A kick now is answered, and does what its command and argument say. -/
  answer : SmuAnswer (accessRun host as).npu (smuKickOf (accessRun host as))
    (accessRun host (as ++ [smuKickAccess])).npu

private theorem lastOf_dpmLevel_le (ks : List SmuKick) :
    (lastOf SmuKick.dpmLevel? ks).getD 0 ≤ maxDpmLevel := by
  cases hlast : lastOf SmuKick.dpmLevel? ks with
  | none => decide
  | some level =>
    obtain ⟨k, _, hk⟩ := List.mem_filterMap.mp (List.mem_of_getLast? hlast)
    unfold SmuKick.dpmLevel? at hk
    split at hk
    · rename_i h
      rw [← Option.some.inj hk]
      exact UInt32.not_lt.mp h.2
    · exact absurd hk (by simp)

private theorem foldl_smuCmds (ks : List SmuKick) (u : Smu) :
    (ks.foldl Smu.apply u).smuCmds = u.smuCmds + UInt64.ofNat ks.length := by
  induction ks generalizing u with
  | nil => simp
  | cons k ks ih =>
    rw [List.foldl_cons, ih, List.length_cons, UInt64.ofNat_add, Smu.apply]
    simp only [UInt64.ofNat_one, UInt64.add_assoc, UInt64.add_comm 1]

/-- The law of the SMU, over single accesses. -/
theorem accessRun_smuLaw (host : Host) (as : List Access) : SmuLaw host as := by
  have hsmu := accessRun_smu host as
  have hdpm : (accessRun host as).npu.dpmLevel =
      (lastOf SmuKick.dpmLevel? (smuKicks host as)).getD 0 :=
    (congrArg Smu.dpmLevel hsmu).trans (foldl_eq_lastOf SmuKick.dpmLevel? (fun _ _ => rfl) _ _)
  refine ⟨?_, ?_, ?_, hdpm, ?_, ?_, ?_⟩
  · exact (congrArg Smu.powerOn hsmu).trans (foldl_eq_lastOf SmuKick.power? (fun _ _ => rfl) _ _)
  · exact (congrArg Smu.npuclk hsmu).trans (foldl_eq_lastOf SmuKick.npuclk? (fun _ _ => rfl) _ _)
  · exact (congrArg Smu.hclk hsmu).trans (foldl_eq_lastOf SmuKick.hclk? (fun _ _ => rfl) _ _)
  · rw [hdpm]
    exact lastOf_dpmLevel_le _
  · exact (congrArg Smu.smuCmds hsmu).trans ((foldl_smuCmds _ _).trans (UInt64.zero_add _))
  · rw [accessRun_append]
    exact smuKick_answer host _

/-- Whatever the guest does, the SMU is at each point of the run in the state that the last
commands of each kind have left, and answers the next one. -/
theorem guestRun_smuLaw (host : Host) (ops : List GuestOp) :
    guestRun host ops = accessRun host (ops.flatMap GuestOp.accesses) ∧
      ∀ n, SmuLaw host ((ops.flatMap GuestOp.accesses).take n) :=
  ⟨guestRun_accesses host ops, fun _ => accessRun_smuLaw host _⟩

end Xdna
