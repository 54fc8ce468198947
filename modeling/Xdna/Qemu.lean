import Xdna.General.EventSourcing
import Xdna.General.Ledger
import Xdna.Restart

/-!
# The QEMU device

`qemu/hw/misc/xdna_npu.c`, which puts the emulator behind QEMU's interfaces. What the functions
of QEMU and the allocator return is given by the environment; what they do to the device is kept
as far as the shell relies on it: who holds the memory blocks and the MSI-X tables, and whether
MSI-X is enabled. Of the interrupts there is which of QEMU's functions the shell calls.
-/

namespace Xdna

/-- `XDNA_MSIX_VECTORS`. -/
def msixVectors : ℕ := 8

/-- What the shell acquires and has to release: the blocks it gets from `calloc`, numbered in
their order, and the MSI-X tables of the device. -/
inductive Resource where
  | block (n : ℕ)
  | msix
  deriving DecidableEq

/-- A call of QEMU's interrupt functions. -/
inductive IrqCall where
  | msixNotify (vector : ℕ)
  | pciSetIrq (level : Bool)
  deriving DecidableEq

/-- The level to which the call takes the interrupt pin, if it touches it. -/
def IrqCall.level? : IrqCall → Option Bool
  | .msixNotify _ => none
  | .pciSetIrq level => some level

/-- `XdnaNpuState`, with what QEMU keeps for the device. -/
structure XdnaNpuState where
  /-- `emu`: the blocks of the emulator and of its SRAM. -/
  emu : Option (ℕ × ℕ) := none
  /-- The emulator at `emu`, and all that happened in it and in its predecessors. -/
  core : Machine := initial
  msixInitialized : Bool := false
  msixEnabled : Bool := false
  realized : Bool := false
  blocks : ℕ := 0
  log : List (Resource × Bool) := []
  irqCalls : List IrqCall := []

namespace XdnaNpuState

/-- The shell takes a resource. -/
def acquire (s : XdnaNpuState) (r : Resource) : XdnaNpuState :=
  { s with log := s.log ++ [(r, true)] }

/-- The shell gives a resource back. -/
def release (s : XdnaNpuState) (r : Resource) : XdnaNpuState :=
  { s with log := s.log ++ [(r, false)] }

/-- A `calloc` that succeeds. -/
def calloc (s : XdnaNpuState) : XdnaNpuState :=
  { s.acquire (.block s.blocks) with blocks := s.blocks + 1 }

/-- `pci_set_irq`. -/
def pciSetIrq (s : XdnaNpuState) (level : Bool) : XdnaNpuState :=
  { s with irqCalls := s.irqCalls ++ [.pciSetIrq level] }

/-- The level of the INTx line that the shell has asked for last. What QEMU does to the line on its
own, as when MSI-X is switched on, is not in it. -/
def lastLevel (s : XdnaNpuState) : Bool :=
  (EventSourcing.lastOf IrqCall.level? s.irqCalls).getD false

end XdnaNpuState

open XdnaNpuState

/-! ## Host operations -/

/-- Whether QEMU's accesses to guest memory succeed, and what lies on the stack. -/
structure QemuMemory where
  pciDmaRead : ℕ → UInt64 → UInt32 → Bool
  dmaMemoryRead : ℕ → UInt64 → UInt32 → Bool
  pciDmaWrite : ℕ → UInt64 → List UInt8 → Bool
  stack : ℕ → ByteMemory.Memory

/-- Every access succeeds. -/
def QemuMemory.accepting : QemuMemory where
  pciDmaRead _ _ _ := true
  dmaMemoryRead _ _ _ := true
  pciDmaWrite _ _ _ := true
  stack _ _ := 0

/-- `xdna_host_ops`, without the log. -/
def xdnaHostOps (mem : QemuMemory) : Host where
  dmaRead := some mem.pciDmaRead
  dmaReadPhys := some mem.dmaMemoryRead
  dmaWrite := some mem.pciDmaWrite
  raiseIrq := true
  stack := mem.stack

/-- `xdna_host_raise_irq`. -/
def hostRaiseIrq (s : XdnaNpuState) (vector : ℕ) : XdnaNpuState :=
  if msixVectors ≤ vector then s
  else if s.msixEnabled then { s with irqCalls := s.irqCalls ++ [.msixNotify vector] }
  else s.pciSetIrq true

/-! ## MMIO -/

/-- The BARs of `bar_ctx`. -/
inductive Bar where
  | reg
  | sram
  | mbox

/-- The BAR's number. -/
def Bar.index : Bar → Int
  | reg => barReg
  | sram => barSram
  | mbox => barMbox

/-- `xdna_bar_read`. -/
def barRead (s : XdnaNpuState) (bar : Bar) (addr : UInt64) (size : ℕ) : UInt64 :=
  mmioRead s.core.npu bar.index addr.toUInt32 size

/-- The vectors of the interrupts that the emulator raises on the way from `m` to `m'`. -/
def raisedVectors (m m' : Machine) : List ℕ :=
  (m'.trace.drop m.trace.length).filterMap fun e => match e with
    | .raiseIrq vector _ => some vector
    | _ => none

/-- `xdna_bar_write`, with the interrupts that it raises. -/
def barWrite (mem : QemuMemory) (s : XdnaNpuState) (bar : Bar) (addr val : UInt64) (size : ℕ) :
    XdnaNpuState :=
  let m := mmioWrite (xdnaHostOps mem) s.core bar.index addr.toUInt32 val size
  (raisedVectors s.core m).foldl hostRaiseIrq { s with core := m }

/-! ## Life of the device -/

/-- What the allocator and QEMU answer to a realize. -/
structure RealizeEnv where
  callocNpu : Bool
  callocSram : Bool
  msixInit : Bool
  /-- After `msix_init` has failed, the capability is there all the same. -/
  msixPresent : Bool
  endpointCapInit : Bool

/-- `s->emu = xdna_npu_new(...)`. -/
def npuNew (env : RealizeEnv) (s : XdnaNpuState) : XdnaNpuState :=
  if ¬ env.callocNpu then { s with emu := none }
  else
    let s₁ := s.calloc
    if ¬ env.callocSram then { s₁.release (.block s.blocks) with emu := none }
    else { s₁.calloc with emu := some (s.blocks, s₁.blocks), core := coldReset s₁.core }

/-- `xdna_npu_free(s->emu); s->emu = NULL;`. -/
def npuFree (s : XdnaNpuState) : XdnaNpuState :=
  match s.emu with
  | none => s
  | some (npu, sram) => { (s.release (.block sram)).release (.block npu) with emu := none }

/-- `msix_uninit`. -/
def msixUninit (s : XdnaNpuState) : XdnaNpuState := s.release .msix

/-- `xdna_npu_realize`. -/
def realize (env : RealizeEnv) (s : XdnaNpuState) : XdnaNpuState :=
  let s₁ := npuNew env s
  if s₁.emu.isNone then s₁
  else if ¬ env.msixInit then
    npuFree (if env.msixPresent then msixUninit (s₁.acquire .msix) else s₁)
  else
    let s₂ := { s₁.acquire .msix with msixInitialized := true, msixEnabled := false }
    if ¬ env.endpointCapInit then npuFree { msixUninit s₂ with msixInitialized := false }
    else { s₂ with realized := true }

/-- `xdna_npu_exit`. -/
def exit (s : XdnaNpuState) : XdnaNpuState :=
  let s₁ := if s.msixInitialized then { msixUninit s with msixInitialized := false } else s
  { npuFree (s₁.pciSetIrq false) with realized := false }

/-- `xdna_npu_reset_hold`; `msix_reset` switches MSI-X off. -/
def resetHold (s : XdnaNpuState) : XdnaNpuState :=
  let s₁ := if s.emu.isSome then { s with core := coldReset s.core } else s
  let s₂ := if s.msixInitialized then { s₁ with msixEnabled := false } else s₁
  s₂.pciSetIrq false

/-! ## Runs -/

/-- What QEMU does to the device. -/
inductive QemuOp where
  | realize (env : RealizeEnv)
  | exit
  | reset
  /-- The guest switches MSI-X on or off. The shell is not called. -/
  | msixEnable (on : Bool)
  | read (bar : Bar) (addr : UInt64) (size : ℕ)
  | write (bar : Bar) (addr val : UInt64) (size : ℕ)

/-- What QEMU makes of an operation. -/
def qemuStep (mem : QemuMemory) (s : XdnaNpuState) : QemuOp → XdnaNpuState
  | .realize env => realize env s
  | .exit => exit s
  | .reset => resetHold s
  | .msixEnable on => { s with msixEnabled := on }
  | .read .. => s
  | .write bar addr val size => barWrite mem s bar addr val size

/-- QEMU realizes a device that is not, and reaches or takes down one that is. A reset can come
at any time. -/
def QemuOp.Legal (s : XdnaNpuState) : QemuOp → Prop
  | .realize _ => s.realized = false
  | .exit | .msixEnable _ | .read .. | .write .. => s.realized = true
  | .reset => True

instance (s : XdnaNpuState) : (op : QemuOp) → Decidable (op.Legal s)
  | .realize _ => inferInstanceAs (Decidable (_ = _))
  | .exit | .msixEnable _ | .read .. | .write .. => inferInstanceAs (Decidable (_ = _))
  | .reset => isTrue trivial

/-- What QEMU makes of operations, from a new object on. -/
def qemuRun (mem : QemuMemory) (ops : List QemuOp) : XdnaNpuState :=
  ops.foldl (qemuStep mem) {}

end Xdna
