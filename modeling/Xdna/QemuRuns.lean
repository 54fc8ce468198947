import Xdna.Lifetime
import Xdna.Qemu

/-!
# Runs of the QEMU device

Whatever QEMU does to the device in the order it promises, the shell holds exactly the resources
of a realized device, the emulator behind the BARs is one that has seen the accesses since the
last reset and nothing else, and every interrupt that the emulator raises reaches the guest.
-/

namespace Xdna

open GuardedRun Ledger EventSourcing XdnaNpuState

variable {mem : QemuMemory} {s : XdnaNpuState}

/-! ## Resources -/

/-- What the log says is held. -/
def Holds (s : XdnaNpuState) (held : Finset Resource) : Prop := replay ∅ s.log = some held

private theorem Holds.acquire {held : Finset Resource} (h : Holds s held) {r : Resource}
    (hr : r ∉ held) : Holds (s.acquire r) (insert r held) := replay_acquire h hr

private theorem Holds.release {held : Finset Resource} (h : Holds s held) {r : Resource}
    (hr : r ∈ held) : Holds (s.release r) (held.erase r) := replay_release h hr

/-- The blocks of an emulator. -/
def emulatorBlocks (npu sram : ℕ) : Finset Resource := {.block sram, .block npu}

/-- What a device holds whose emulator lies at `emu`. -/
def holdings : Option (ℕ × ℕ) → Finset Resource
  | none => ∅
  | some (npu, sram) => insert .msix (emulatorBlocks npu sram)

private theorem msix_notMem (npu sram : ℕ) : .msix ∉ emulatorBlocks npu sram := by
  simp [emulatorBlocks]

private theorem Holds.freed {npu sram : ℕ} (h : Holds s (emulatorBlocks npu sram))
    (hne : npu ≠ sram) (hemu : s.emu = some (npu, sram)) : Holds (npuFree s) ∅ := by
  have hsram := h.release (r := .block sram) (by simp [emulatorBlocks])
  have hnpu := hsram.release (r := .block npu) (by simp [emulatorBlocks, hne])
  rw [show ((emulatorBlocks npu sram).erase (.block sram)).erase (.block npu) = ∅ by
    ext r
    simp only [emulatorBlocks, Finset.mem_erase, Finset.mem_insert, Finset.mem_singleton,
      Finset.notMem_empty, iff_false]
    tauto] at hnpu
  rw [npuFree, hemu]
  exact hnpu

private theorem npuFree_eq (s : XdnaNpuState) :
    npuFree s = { s with emu := none, log := (npuFree s).log } := by
  obtain ⟨emu, _, _, _, _, _, _, _⟩ := s
  cases emu <;> rfl

/-- The device is realized or holds nothing. -/
structure Owned (s : XdnaNpuState) : Prop where
  emu : s.emu.isSome = s.realized
  msix : s.msixInitialized = s.realized
  holds : Holds s (holdings s.emu)
  distinct : ∀ npu sram, s.emu = some (npu, sram) → npu ≠ sram

namespace Owned

private theorem unrealized (hrealized : s.realized = false) (hemu : s.emu = none)
    (hmsix : s.msixInitialized = false) (h : Holds s ∅) : Owned s := by
  refine ⟨by rw [hemu, hrealized]; rfl, hmsix.trans hrealized.symm, hemu ▸ h, ?_⟩
  intro npu sram hsome
  rw [hemu] at hsome
  cases hsome

private theorem empty (h : Owned s) (hrealized : s.realized = false) :
    s.emu = none ∧ s.msixInitialized = false ∧ Holds s ∅ := by
  have hemu : s.emu = none := by simpa [hrealized] using h.emu
  have hholds := h.holds
  rw [hemu] at hholds
  exact ⟨hemu, h.msix.trans hrealized, hholds⟩

/-- The two blocks of a new emulator. -/
theorem calloc_holds (h : Holds s ∅) :
    Holds s.calloc.calloc (emulatorBlocks s.blocks (s.blocks + 1)) := by
  have hfirst : Holds s.calloc (insert (.block s.blocks) ∅) := h.acquire (Finset.notMem_empty _)
  exact hfirst.acquire (r := .block (s.blocks + 1)) (by simp)

private theorem realize (h : Owned s) (hnot : s.realized = false) (env : RealizeEnv) :
    Owned (realize env s) := by
  obtain ⟨hemu, hmsix, hholds⟩ := h.empty hnot
  have hfirst : Holds s.calloc (insert (.block s.blocks) ∅) :=
    hholds.acquire (Finset.notMem_empty _)
  have hblocks := calloc_holds hholds
  have htables := hblocks.acquire (msix_notMem _ _)
  have huninit := htables.release (Finset.mem_insert_self _ _)
  rw [Finset.erase_insert (msix_notMem _ _)] at huninit
  have hne : s.blocks ≠ s.blocks + 1 := by omega
  unfold Xdna.realize npuNew
  dsimp only
  by_cases hnpu : env.callocNpu = true
  · by_cases hsram : env.callocSram = true
    · rw [if_neg (not_not.mpr hnpu), if_neg (not_not.mpr hsram), if_neg (by simp)]
      by_cases hinit : env.msixInit = true
      · rw [if_neg (not_not.mpr hinit)]
        by_cases hcap : env.endpointCapInit = true
        · rw [if_neg (not_not.mpr hcap)]
          refine ⟨rfl, rfl, htables, ?_⟩
          intro npu sram hsome
          cases hsome
          exact hne
        · rw [if_pos hcap]
          refine unrealized hnot ?_ rfl (Holds.freed ?_ hne rfl)
          · rfl
          · exact huninit
      · rw [if_pos hinit]
        by_cases hpresent : env.msixPresent = true
        · rw [if_pos hpresent]
          refine unrealized hnot ?_ hmsix (Holds.freed ?_ hne rfl)
          · rfl
          · exact huninit
        · rw [if_neg hpresent]
          refine unrealized hnot ?_ hmsix (Holds.freed ?_ hne rfl)
          · rfl
          · exact hblocks
    · rw [if_neg (not_not.mpr hnpu), if_pos hsram, if_pos (by rfl)]
      have hreleased := hfirst.release (Finset.mem_insert_self _ _)
      rw [Finset.erase_insert (Finset.notMem_empty _)] at hreleased
      exact unrealized hnot rfl hmsix hreleased
  · rw [if_pos hnpu, if_pos (by rfl)]
    exact unrealized hnot rfl hmsix hholds

private theorem exit (h : Owned s) (hrealized : s.realized = true) : Owned (Xdna.exit s) := by
  obtain ⟨⟨npu, sram⟩, hemu⟩ := Option.isSome_iff_exists.mp (h.emu.trans hrealized)
  have hholds := h.holds
  rw [hemu, holdings] at hholds
  have huninit := hholds.release (Finset.mem_insert_self _ _)
  rw [Finset.erase_insert (msix_notMem _ _)] at huninit
  have hfreed : Holds (Xdna.exit s) ∅ := by
    unfold Xdna.exit
    rw [if_pos (h.msix.trans hrealized)]
    exact Holds.freed (s := ({ msixUninit s with msixInitialized := false }).pciSetIrq false)
      huninit (h.distinct npu sram hemu) hemu
  refine unrealized rfl ?_ ?_ hfreed
  · unfold Xdna.exit
    dsimp only
    rw [npuFree_eq]
  · unfold Xdna.exit
    dsimp only
    rw [npuFree_eq, if_pos (h.msix.trans hrealized)]
    rfl

private theorem resetHold (h : Owned s) : Owned (Xdna.resetHold s) := by
  unfold Xdna.resetHold
  dsimp only
  split <;> split <;> exact ⟨h.emu, h.msix, h.holds, h.distinct⟩

end Owned

/-! ## Interrupts -/

/-- How the guest gets an interrupt. -/
def irqCall (msixEnabled : Bool) (vector : ℕ) : IrqCall :=
  if msixEnabled then .msixNotify vector else .pciSetIrq true

/-- No vector of the emulator is out of the range of the MSI-X table. -/
theorem foldl_hostRaiseIrq {vs : List ℕ} (h : ∀ v ∈ vs, v < msixVectors) :
    vs.foldl hostRaiseIrq s =
      { s with irqCalls := s.irqCalls ++ vs.map (irqCall s.msixEnabled) } := by
  induction vs generalizing s with
  | nil => simp
  | cons v vs ih =>
    have hfirst : hostRaiseIrq s v =
        { s with irqCalls := s.irqCalls ++ [irqCall s.msixEnabled v] } := by
      have hv := h v (by simp)
      rw [hostRaiseIrq, if_neg (by omega), irqCall]
      split <;> rfl
    rw [List.foldl_cons, hfirst, ih fun v' hv' => h v' (by simp [hv'])]
    simp

private theorem raisedVectors_lt (host : Host) (m₀ : Machine) (acc : List GuestOp) (m : Machine) :
    ∀ v ∈ raisedVectors (m.after m₀) ((guestRun host acc).after m₀), v < msixVectors := by
  intro v hv
  obtain ⟨e, he, hvector⟩ := List.mem_filterMap.mp hv
  have hmem : e ∈ (guestRun host acc).trace := by
    have hdrop : ((guestRun host acc).after m₀).trace.drop (m.after m₀).trace.length =
        (guestRun host acc).trace.drop m.trace.length := by
      simp [Machine.after, List.drop_append]
    rw [hdrop] at he
    exact List.mem_of_mem_drop he
  have hlife := guestRun_withinLifetime host acc e hmem
  cases e with
  | raiseIrq vector npu =>
    obtain ⟨c, hc, -⟩ := hlife
    have hlt := c.isLt
    have heq : vector = v := Option.some.inj hvector
    unfold maxChannels at hlt
    unfold msixVectors
    omega
  | _ => cases hvector

/-! ## Runs -/

/-- The accesses that the emulator has seen since the last reset. -/
def accessesSince (acc : List GuestOp) : QemuOp → List GuestOp
  | .realize _ | .exit | .reset => []
  | .msixEnable _ => acc
  | .read bar addr size => acc ++ [.read bar.index addr.toUInt32 size]
  | .write bar addr val size => acc ++ [.write bar.index addr.toUInt32 val size]

/-- The emulator of a realized device is one that has seen the accesses `acc` after its reset. -/
structure Faithful (mem : QemuMemory) (acc : List GuestOp) (s : XdnaNpuState) : Prop where
  owned : Owned s
  core : s.realized = true →
    ∃ m₀, s.core = (guestRun ((xdnaHostOps mem).after m₀) acc).after m₀
  low : s.realized = false → s.lastLevel = false

/-- What the guest notices of an operation, apart from what it reads. -/
def Delivers (mem : QemuMemory) (s : XdnaNpuState) (op : QemuOp) : Prop :=
  (qemuStep mem s op).irqCalls = s.irqCalls ++ match op with
    | .exit | .reset => [.pciSetIrq false]
    | .write .. => (raisedVectors s.core (qemuStep mem s op).core).map (irqCall s.msixEnabled)
    | .realize _ | .msixEnable _ | .read .. => []

/-- An exit lowers the line. -/
theorem exit_irqCalls (mem : QemuMemory) (s : XdnaNpuState) :
    (qemuStep mem s .exit).irqCalls = s.irqCalls ++ [.pciSetIrq false] := by
  rw [qemuStep, Xdna.exit]
  dsimp only
  rw [npuFree_eq]
  split <;> rfl

/-- A reset lowers the line. -/
theorem reset_irqCalls (mem : QemuMemory) (s : XdnaNpuState) :
    (qemuStep mem s .reset).irqCalls = s.irqCalls ++ [.pciSetIrq false] := by
  rw [qemuStep, resetHold]
  split <;> split <;> rfl

/-- No realize raises an interrupt. -/
theorem realize_irqCalls (env : RealizeEnv) (s : XdnaNpuState) :
    (realize env s).irqCalls = s.irqCalls := by
  have hfree (s' : XdnaNpuState) : (npuFree s').irqCalls = s'.irqCalls := by rw [npuFree_eq]
  unfold realize npuNew
  dsimp only
  split
  · rw [if_pos (by rfl)]
  split
  · rw [if_pos (by rfl)]
    rfl
  rw [if_neg (by simp)]
  split
  · rw [hfree]
    split <;> rfl
  split
  · rw [hfree]
    rfl
  · rfl

/-- A realize that succeeds starts with a new emulator. -/
theorem realize_core (env : RealizeEnv) (hnot : s.realized = false) :
    (realize env s).realized = true → (realize env s).core = coldReset s.core := by
  have hdead (s' : XdnaNpuState) (h : s'.realized = false) :
      (npuFree s').realized = true → (npuFree s').core = coldReset s.core := by
    rw [npuFree_eq]
    intro htrue
    exact absurd htrue (by simp [h])
  unfold realize npuNew
  dsimp only
  split
  · rw [if_pos (by rfl)]
    exact fun h => absurd h (by simp [hnot])
  split
  · rw [if_pos (by rfl)]
    refine fun h => absurd h ?_
    simp [calloc, XdnaNpuState.acquire, XdnaNpuState.release, hnot]
  rw [if_neg (by simp)]
  split
  · split
    · exact hdead _ hnot
    · exact hdead _ hnot
  split
  · exact hdead _ hnot
  · exact fun _ => rfl

namespace Faithful

variable {acc : List GuestOp}

private theorem reset_core (m : Machine) :
    ∃ m₀, coldReset m = (guestRun ((xdnaHostOps mem).after m₀) []).after m₀ :=
  ⟨m, coldReset_eq m⟩

private theorem write (h : Faithful mem acc s) (hrealized : s.realized = true) (bar : Bar)
    (addr val : UInt64) (size : ℕ) :
    Delivers mem s (.write bar addr val size) ∧
      Faithful mem (accessesSince acc (.write bar addr val size))
        (qemuStep mem s (.write bar addr val size)) := by
  obtain ⟨m₀, hcore⟩ := h.core hrealized
  have hnext : mmioWrite (xdnaHostOps mem) s.core bar.index addr.toUInt32 val size =
      (guestRun ((xdnaHostOps mem).after m₀)
        (acc ++ [.write bar.index addr.toUInt32 val size])).after m₀ := by
    rw [guestRun_snoc, hcore]
    exact guestStep_after (xdnaHostOps mem) m₀ _ (.write bar.index addr.toUInt32 val size)
  have hvectors : ∀ v ∈ raisedVectors s.core
      (mmioWrite (xdnaHostOps mem) s.core bar.index addr.toUInt32 val size), v < msixVectors := by
    rw [hnext, hcore]
    exact raisedVectors_lt _ m₀ _ _
  have hstep : qemuStep mem s (.write bar addr val size) =
      { s with
        core := mmioWrite (xdnaHostOps mem) s.core bar.index addr.toUInt32 val size
        irqCalls := s.irqCalls ++ (raisedVectors s.core (mmioWrite (xdnaHostOps mem) s.core
          bar.index addr.toUInt32 val size)).map (irqCall s.msixEnabled) } := by
    rw [qemuStep, barWrite]
    exact foldl_hostRaiseIrq hvectors
  rw [Delivers, hstep]
  refine ⟨rfl, ⟨h.owned.emu, h.owned.msix, h.owned.holds, h.owned.distinct⟩,
    fun _ => ⟨m₀, hnext⟩, fun hdead => ?_⟩
  rw [hrealized] at hdead
  cases hdead

private theorem realize (h : Faithful mem acc s) (hnot : s.realized = false) (env : RealizeEnv) :
    Delivers mem s (.realize env) ∧ Faithful mem [] (Xdna.realize env s) := by
  have hcore := realize_core env hnot
  have hcalls := realize_irqCalls env s
  refine ⟨by rw [Delivers, qemuStep, hcalls]; simp, h.owned.realize hnot env, fun hr => ?_,
    fun _ => ?_⟩
  · rw [hcore hr]
    exact reset_core s.core
  · rw [lastLevel, hcalls]
    exact h.low hnot

private theorem exit_delivers (mem : QemuMemory) (s : XdnaNpuState) : Delivers mem s .exit :=
  exit_irqCalls mem s

private theorem reset_delivers (mem : QemuMemory) (s : XdnaNpuState) : Delivers mem s .reset :=
  reset_irqCalls mem s

/-- A reset and an exit leave the line low. -/
theorem low_of_delivers {s' : XdnaNpuState} (h : s'.irqCalls = s.irqCalls ++ [.pciSetIrq false]) :
    s'.lastLevel = false := by
  rw [lastLevel, h, lastOf_append_singleton]
  rfl

private theorem exit (h : Faithful mem acc s) (hrealized : s.realized = true) :
    Faithful mem [] (Xdna.exit s) := by
  refine ⟨h.owned.exit hrealized, fun hr => ?_, fun _ => low_of_delivers (exit_delivers mem s)⟩
  rw [Xdna.exit] at hr
  cases hr

private theorem reset (h : Faithful mem acc s) : Faithful mem [] (resetHold s) := by
  refine ⟨h.owned.resetHold, fun hr => ?_, fun _ => low_of_delivers (reset_delivers mem s)⟩
  have hrealized : s.realized = true := by
    rw [resetHold] at hr
    split at hr <;> split at hr <;> exact hr
  have hcore : (resetHold s).core = coldReset s.core := by
    unfold resetHold
    rw [if_pos (h.owned.emu.trans hrealized)]
    split <;> rfl
  rw [hcore]
  exact reset_core s.core

/-- One operation. -/
theorem step (h : Faithful mem acc s) {op : QemuOp} (hlegal : op.Legal s) :
    Delivers mem s op ∧ Faithful mem (accessesSince acc op) (qemuStep mem s op) := by
  cases op with
  | realize env => exact h.realize hlegal env
  | exit => exact ⟨exit_delivers mem s, h.exit hlegal⟩
  | reset => exact ⟨reset_delivers mem s, h.reset⟩
  | msixEnable on =>
    exact ⟨(List.append_nil _).symm, ⟨h.owned.emu, h.owned.msix, h.owned.holds, h.owned.distinct⟩,
      h.core, h.low⟩
  | read bar addr size =>
    refine ⟨(List.append_nil _).symm, h.owned, fun hr => ?_, h.low⟩
    obtain ⟨m₀, hcore⟩ := h.core hr
    refine ⟨m₀, ?_⟩
    rw [accessesSince, guestRun_snoc]
    exact hcore
  | write bar addr val size => exact h.write hlegal bar addr val size

/-- A legal run. -/
theorem run (h : Faithful mem acc s) {ops : List QemuOp}
    (hlegal : Guarded (qemuStep mem) (fun s op => op.Legal s) s ops) :
    Faithful mem (ops.foldl accessesSince acc) (ops.foldl (qemuStep mem) s) := by
  induction ops generalizing s acc with
  | nil => exact h
  | cons op ops ih => exact ih (h.step hlegal.1).2 hlegal.2

end Faithful

private theorem faithful_init : Faithful mem [] {} :=
  ⟨.unrealized rfl rfl rfl rfl, fun hr => (by cases hr), fun _ => rfl⟩

/-- A realize that fails in `msix_init`, one that succeeds, a boot, a request for the protocol
version, and the acknowledgement of its interrupt. -/
def lifeOps : List QemuOp :=
  [.realize ⟨true, true, false, true, true⟩, .realize ⟨true, true, true, false, true⟩,
    .write .reg regScratch9.toUInt64 0x100 4, .write .reg regScratch2.toUInt64 1 4,
    .write .reg regPubSecIntr.toUInt64 1 4, .write .reg regScratch2.toUInt64 2 4,
    .write .reg regPubSecIntr.toUInt64 1 4, .write .sram 0x21000 0x0001000400000004 8,
    .write .sram 0x21008 0x0000030100000001 8, .write .sram 0x21010 0 4,
    .write .mbox mboxX2iTailOff.toUInt64 20 4]

/-- The guest acknowledges the interrupt. -/
def ackOps : List QemuOp := [.write .mbox mboxIntrOff.toUInt64 0 4]

private theorem legal_lifeOps :
    Guarded (qemuStep .accepting) (fun s op => op.Legal s) {} (lifeOps ++ ackOps) := by
  decide +kernel

/-- The resources of the device are in order. -/
structure Accounted (s : XdnaNpuState) : Prop where
  /-- Nothing is acquired twice or released without being held; what is held in the end are the
  emulator, its SRAM and the MSI-X tables of a realized device. -/
  ledger : replay ∅ s.log = some (holdings s.emu)
  emu : s.emu.isSome = s.realized
  msix : s.msixInitialized = s.realized
  /-- Nothing is left over when the device is not realized. -/
  released : s.realized = false → ∀ r, s.log.count (r, true) = s.log.count (r, false)

/-- Whatever fails during the realizes of a run, the device never uses or releases what it does
not hold, and leaks nothing. -/
theorem qemuRun_accounted (mem : QemuMemory) {ops : List QemuOp}
    (h : Guarded (qemuStep mem) (fun s op => op.Legal s) {} ops) :
    Accounted (qemuRun mem ops) := by
  have howned := (faithful_init.run h).owned
  refine ⟨howned.holds, howned.emu, howned.msix, fun hdead r => ?_⟩
  have hcount := count_eq (howned.empty hdead).2.2 r
  rw [if_neg (Finset.notMem_empty r), Nat.add_zero] at hcount
  exact hcount

/-- The resources after a realize that fails and one that succeeds. -/
theorem qemuRun_accounted_lifeOps : Accounted (qemuRun .accepting (lifeOps ++ ackOps)) :=
  qemuRun_accounted .accepting legal_lifeOps

/-- The emulator behind the BARs is the machine `m`, of which `m₀` is the past. -/
structure Refines (s : XdnaNpuState) (m₀ m : Machine) : Prop where
  core : s.core = m.after m₀
  reads : ∀ bar addr size,
    barRead s bar addr size = mmioRead m.npu bar.index addr.toUInt32 size

/-- The emulator behind the BARs of a realized device is one that has just been reset and has
seen the accesses since; the guest reads what it would read from that one. -/
theorem qemuRun_refines (mem : QemuMemory) {ops : List QemuOp}
    (h : Guarded (qemuStep mem) (fun s op => op.Legal s) {} ops)
    (hrealized : (qemuRun mem ops).realized = true) :
    ∃ m₀, Refines (qemuRun mem ops) m₀
      (guestRun ((xdnaHostOps mem).after m₀) (ops.foldl accessesSince [])) := by
  obtain ⟨m₀, hcore⟩ := (faithful_init.run h).core hrealized
  refine ⟨m₀, hcore, fun bar addr size => ?_⟩
  rw [barRead, qemuRun, hcore, after_npu]

/-- The emulator behind the BARs after the second of them. -/
theorem qemuRun_refines_lifeOps :
    ∃ m₀, Refines (qemuRun .accepting (lifeOps ++ ackOps)) m₀
      (guestRun ((xdnaHostOps .accepting).after m₀)
        ((lifeOps ++ ackOps).foldl accessesSince [])) :=
  qemuRun_refines .accepting legal_lifeOps (by decide +kernel)

/-- Every interrupt of the emulator becomes one call of QEMU's functions, in order: a message of
its vector when MSI-X is on, and the INTx line otherwise. While the device is not realized, the
shell has asked for a low line last. -/
theorem qemuRun_delivers (mem : QemuMemory) {ops : List QemuOp}
    (h : Guarded (qemuStep mem) (fun s op => op.Legal s) {} ops) :
    Guarded (qemuStep mem) (Delivers mem) {} ops ∧
      ((qemuRun mem ops).realized = false → (qemuRun mem ops).lastLevel = false) := by
  refine ⟨h.imp (I := fun s => ∃ acc, Faithful mem acc s) ?_ ⟨[], faithful_init⟩,
    (faithful_init.run h).low⟩
  rintro s op ⟨acc, hs⟩ hlegal
  obtain ⟨hdelivers, hnext⟩ := hs.step hlegal
  exact ⟨hdelivers, _, hnext⟩

/-- The interrupt of the reply, and none before. -/
theorem qemuRun_delivers_lifeOps :
    Guarded (qemuStep .accepting) (Delivers .accepting) {} (lifeOps ++ ackOps) ∧
      ((qemuRun .accepting (lifeOps ++ ackOps)).realized = false →
        (qemuRun .accepting (lifeOps ++ ackOps)).lastLevel = false) :=
  qemuRun_delivers .accepting legal_lifeOps

/-! ## The INTx line -/

/-- The operations in which the shell lowers the INTx line. -/
def QemuOp.lowers : QemuOp → Bool
  | .exit | .reset => true
  | .realize _ | .msixEnable _ | .read .. | .write .. => false

/-- The shell has made further calls, none of which lowers the line. -/
def NotLowered (s s' : XdnaNpuState) : Prop :=
  ∃ calls, s'.irqCalls = s.irqCalls ++ calls ∧ .pciSetIrq false ∉ calls

namespace NotLowered

variable {s s' s'' : XdnaNpuState}

/-- No call at all. -/
theorem of_eq (h : s'.irqCalls = s.irqCalls) : NotLowered s s' :=
  ⟨[], by rw [h, List.append_nil], List.not_mem_nil⟩

/-- One run of calls after another. -/
theorem trans (h : NotLowered s s') (h' : NotLowered s' s'') : NotLowered s s'' := by
  obtain ⟨calls, hcalls, hnot⟩ := h
  obtain ⟨calls', hcalls', hnot'⟩ := h'
  refine ⟨calls ++ calls', by rw [hcalls', hcalls, List.append_assoc], fun hmem => ?_⟩
  exact (List.mem_append.mp hmem).elim hnot hnot'

/-- An interrupt lowers nothing. -/
theorem hostRaiseIrq (s : XdnaNpuState) (vector : ℕ) :
    NotLowered s (Xdna.hostRaiseIrq s vector) := by
  unfold Xdna.hostRaiseIrq
  split
  · exact .of_eq rfl
  split
  · exact ⟨_, rfl, by simp⟩
  · exact ⟨_, rfl, by simp⟩

/-- Nor do several. -/
theorem foldl_hostRaiseIrq (vs : List ℕ) (s : XdnaNpuState) :
    NotLowered s (vs.foldl Xdna.hostRaiseIrq s) := by
  induction vs generalizing s with
  | nil => exact .of_eq rfl
  | cons v vs ih => exact (hostRaiseIrq s v).trans (ih _)

/-- The line has been lowered as often as before. -/
theorem count (h : NotLowered s s') :
    s'.irqCalls.count (.pciSetIrq false) = s.irqCalls.count (.pciSetIrq false) := by
  obtain ⟨calls, hcalls, hnot⟩ := h
  rw [hcalls, List.count_append, List.count_eq_zero.mpr hnot, Nat.add_zero]

/-- A level that was high stays high. -/
theorem high (h : NotLowered s s') (hhigh : s.lastLevel = true) : s'.lastLevel = true := by
  obtain ⟨calls, hcalls, hnot⟩ := h
  rw [lastLevel, hcalls, lastOf, List.filterMap_append, List.getLast?_append]
  cases hlast : (calls.filterMap IrqCall.level?).getLast? with
  | none => exact hhigh
  | some level =>
    obtain ⟨call, hmem, hlevel⟩ := List.mem_filterMap.mp (List.mem_of_getLast? hlast)
    cases call with
    | msixNotify => cases hlevel
    | pciSetIrq level' =>
      cases hlevel
      cases level with
      | false => exact absurd hmem hnot
      | true => rfl

end NotLowered

/-- Only a reset and an exit lower the line. -/
theorem qemuStep_notLowered (mem : QemuMemory) (s : XdnaNpuState) {op : QemuOp}
    (hop : op.lowers = false) : NotLowered s (qemuStep mem s op) := by
  cases op with
  | realize env => exact .of_eq (realize_irqCalls env s)
  | exit | reset => cases hop
  | msixEnable on => exact .of_eq rfl
  | read bar addr size => exact .of_eq rfl
  | write bar addr val size => exact .foldl_hostRaiseIrq ..

/-- One operation lowers the line once or not at all. -/
theorem qemuStep_count (mem : QemuMemory) (s : XdnaNpuState) (op : QemuOp) :
    (qemuStep mem s op).irqCalls.count (.pciSetIrq false) =
      s.irqCalls.count (.pciSetIrq false) + if op.lowers then 1 else 0 := by
  cases hop : op.lowers with
  | false => exact (qemuStep_notLowered mem s hop).count
  | true =>
    have hcalls : (qemuStep mem s op).irqCalls = s.irqCalls ++ [.pciSetIrq false] := by
      cases op with
      | exit => exact exit_irqCalls mem s
      | reset => exact reset_irqCalls mem s
      | realize | msixEnable | read | write => cases hop
    rw [hcalls, List.count_append]
    rfl

/-- In every run the shell lowers the INTx line once in each reset and each exit, and at no other
time: nothing that the guest writes, an acknowledgement of the interrupt included, makes it lower
the line. So a level that it has asked to be high stays so up to the next of them. -/
theorem qemuRun_lowers (mem : QemuMemory) (ops : List QemuOp) :
    (qemuRun mem ops).irqCalls.count (.pciSetIrq false) = ops.countP QemuOp.lowers ∧
      ∀ more : List QemuOp, (∀ op ∈ more, op.lowers = false) →
        (qemuRun mem ops).lastLevel = true → (qemuRun mem (ops ++ more)).lastLevel = true := by
  constructor
  · induction ops using List.reverseRecOn with
    | nil => rfl
    | append_singleton ops op ih =>
      rw [qemuRun, List.foldl_append, List.foldl_cons, List.foldl_nil, qemuStep_count, ← qemuRun,
        ih, List.countP_append, List.countP_singleton]
  · intro more hmore hhigh
    rw [qemuRun, List.foldl_append, ← qemuRun]
    generalize qemuRun mem ops = s at hhigh ⊢
    induction more generalizing s with
    | nil => exact hhigh
    | cons op more ih =>
      obtain ⟨hop, hmore⟩ := List.forall_mem_cons.mp hmore
      exact ih hmore _ ((qemuStep_notLowered mem s hop).high hhigh)

/-- The acknowledgement of a mailbox interrupt leaves the line as it was. -/
theorem qemuRun_lowers_ackOps : (qemuRun .accepting (lifeOps ++ ackOps)).lastLevel = true :=
  (qemuRun_lowers .accepting lifeOps).2 ackOps (by decide) (by decide +kernel)

end Xdna
