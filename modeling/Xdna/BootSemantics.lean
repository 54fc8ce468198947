import Xdna.Device.Mmio
import Xdna.SendSemantics

/-!
# What boot, shutdown and reset do

The three functions that set up or tear down channels, as equations on the whole
device state. Boot touches the management channel only; shutdown and reset put
every channel back to its initial record.
-/

namespace Xdna

open ByteMemory

/-- The channels after `xdna_mbox_reset`. -/
def resetChan (c : ChanIdx) : Channel := { index := c.val }

private theorem mboxChannelReset_eq (npu : Npu) (c : ChanIdx) :
    mboxChannelReset npu c.val = npu.setChan c (resetChan c) := by
  rw [mboxChannelReset, dif_pos c.isLt]
  rfl

/-- Resetting the first `n` channels one after the other. -/
theorem foldl_mboxChannelReset (npu : Npu) {n : ℕ} (hn : n ≤ maxChannels) :
    (List.range n).foldl mboxChannelReset npu =
      { npu with chan := fun c => if c.val < n then resetChan c else npu.chan c } := by
  induction n with
  | zero => simp
  | succ n ih =>
    rw [List.range_succ, List.foldl_append, ih (by omega), List.foldl_cons, List.foldl_nil,
      mboxChannelReset, dif_pos (by omega), Npu.setChan]
    congr 1
    funext c
    by_cases hc : c = ⟨n, by omega⟩
    · subst hc
      simp [resetChan]
    · have hne : c.val ≠ n := fun h => hc (Fin.ext h)
      rw [Function.update_of_ne hc]
      dsimp only
      by_cases hlt : c.val < n
      · rw [if_pos hlt, if_pos (by omega)]
      · rw [if_neg hlt, if_neg (by omega)]

private theorem mboxReset_eq (npu : Npu) : mboxReset npu = { npu with chan := resetChan } := by
  rw [mboxReset, foldl_mboxChannelReset npu le_rfl]
  congr 1
  funext c
  rw [if_pos c.isLt]

/-- A word that lies in the SRAM is stored. -/
theorem Npu.sramWrite32_eq {npu : Npu} {off v : UInt32} (h : off.toNat + 4 ≤ barSramSize) :
    npu.sramWrite32 off v = { npu with sram := npu.sram.write off.toNat (le32 v) } := by
  have hlim : ¬ barSramSize < (off + 4).toNat := by
    rw [UInt32.toNat_add]
    unfold barSramSize at *
    simp only [UInt32.reduceToNat]
    omega
  rw [Npu.sramWrite32, if_neg hlim, Npu.sramCopy_eq (by rw [le32_length]; exact h)]

/-- The SRAM after a boot: both rings cleared, the info block and the liveness word written. -/
def bootSram (sram : Memory) : Memory :=
  ((((sram.clear mgmtChannel.x2iBuf.toNat mgmtChannel.x2iSize.toNat).clear
    mgmtChannel.i2xBuf.toNat mgmtChannel.i2xSize.toNat).write
      sramMgmtInfoOff.toNat mgmtInfo.encode).write
        sramFwAliveOff.toNat (le32 (sramDevAddr sramMgmtInfoOff)))

/-- The info block has 64 bytes. -/
@[simp] theorem mgmtInfo_encode_length : mgmtInfo.encode.length = 64 := by
  simp [MgmtMboxInfo.encode]

/-- A boot, field by field. -/
theorem fwBoot_eq (npu : Npu) :
    fwBoot npu = { npu with
      chan := Function.update npu.chan 0 mgmtChannel
      sram := bootSram npu.sram
      fwAlive := true
      fwSuspended := false
      pwaitmode := npu.pwaitmode ||| 1 } := by
  unfold fwBoot
  dsimp only
  rw [Npu.sramWrite32_eq (by decide), Npu.sramCopy_eq (by rw [mgmtInfo_encode_length]; decide),
    show (0 : ℕ) = (0 : ChanIdx).val from rfl, mboxChannelReset_eq]
  simp only [Npu.setChan, Npu.sramClear, Function.update_idem]
  rfl

/-- A shutdown, field by field. -/
theorem fwShutdown_eq (npu : Npu) :
    fwShutdown npu = { npu with
      chan := resetChan
      ctx := fun s => { npu.ctx s with valid := false }
      colUsed := 0
      stats := { npu.stats with activeContexts := 0 }
      asyncRegistered := false
      sram := npu.sram.write sramFwAliveOff.toNat (le32 0)
      fwAlive := false
      pwaitmode := npu.pwaitmode &&& ~~~1 } := by
  unfold fwShutdown
  dsimp only
  rw [mboxReset_eq, Npu.sramWrite32_eq (by decide)]

/-- A reset, field by field. -/
theorem npuReset_eq :
    npuReset = { zeroNpu with
      chan := resetChan
      nextCtxId := 1
      scratch := Function.update zeroNpu.scratch 2 pspStatusReady } := by
  rw [npuReset, mboxReset_eq]
  rfl

section Fields

variable (npu : Npu)

/-- A boot sets up the management channel and no other. -/
@[simp] theorem fwBoot_chan : (fwBoot npu).chan = Function.update npu.chan 0 mgmtChannel := by
  rw [fwBoot_eq]

/-- A boot keeps the contexts. -/
@[simp] theorem fwBoot_ctx : (fwBoot npu).ctx = npu.ctx := by rw [fwBoot_eq]

/-- What a boot writes to the SRAM. -/
@[simp] theorem fwBoot_sram : (fwBoot npu).sram = bootSram npu.sram := by rw [fwBoot_eq]

/-- The firmware is alive after a boot. -/
@[simp] theorem fwBoot_fwAlive : (fwBoot npu).fwAlive = true := by rw [fwBoot_eq]

/-- A boot counts nothing. -/
@[simp] theorem fwBoot_stats : (fwBoot npu).stats = npu.stats := by rw [fwBoot_eq]

/-- A boot keeps the counter of ids. -/
@[simp] theorem fwBoot_nextCtxId : (fwBoot npu).nextCtxId = npu.nextCtxId := by rw [fwBoot_eq]

/-- A boot keeps the registration of the event buffer. -/
@[simp] theorem fwBoot_asyncRegistered : (fwBoot npu).asyncRegistered = npu.asyncRegistered := by
  rw [fwBoot_eq]

/-- A boot keeps the runtime configuration. -/
@[simp] theorem fwBoot_rtCfg : (fwBoot npu).rtCfg = npu.rtCfg := by rw [fwBoot_eq]

/-- A shutdown takes all channels down. -/
@[simp] theorem fwShutdown_chan : (fwShutdown npu).chan = resetChan := by rw [fwShutdown_eq]

/-- A shutdown invalidates all contexts. -/
@[simp] theorem fwShutdown_ctx :
    (fwShutdown npu).ctx = fun s => { npu.ctx s with valid := false } := by rw [fwShutdown_eq]

/-- The firmware is dead after a shutdown. -/
@[simp] theorem fwShutdown_fwAlive : (fwShutdown npu).fwAlive = false := by rw [fwShutdown_eq]

/-- A shutdown sets the number of contexts back. -/
@[simp] theorem fwShutdown_stats :
    (fwShutdown npu).stats = { npu.stats with activeContexts := 0 } := by rw [fwShutdown_eq]

/-- A shutdown keeps the counter of ids. -/
@[simp] theorem fwShutdown_nextCtxId : (fwShutdown npu).nextCtxId = npu.nextCtxId := by
  rw [fwShutdown_eq]

/-- A shutdown keeps the runtime configuration. -/
@[simp] theorem fwShutdown_rtCfg : (fwShutdown npu).rtCfg = npu.rtCfg := by rw [fwShutdown_eq]

/-- A reset takes all channels down. -/
@[simp] theorem npuReset_chan : npuReset.chan = resetChan := by rw [npuReset_eq]

/-- A reset clears the contexts. -/
@[simp] theorem npuReset_ctx : npuReset.ctx = fun _ => {} := by rw [npuReset_eq]; rfl

/-- The firmware is dead after a reset. -/
@[simp] theorem npuReset_fwAlive : npuReset.fwAlive = false := by rw [npuReset_eq]; rfl

/-- A reset clears the counters. -/
@[simp] theorem npuReset_stats : npuReset.stats = {} := by rw [npuReset_eq]; rfl

end Fields

/-! ## Creation and destruction of a context -/

/-- A creation, field by field. -/
theorem createContext_eq (npu : Npu) (s : SlotIdx) (req : CreateCtxReq) :
    createContext npu s req = { npu with
      chan := Function.update npu.chan (slotChan s) (createdChannel s)
      sram := npu.sram.clear (ctxRbBase s).toNat sramCtxRbStride.toNat
      ctx := Function.update npu.ctx s (createdContext npu s req)
      nextCtxId := npu.nextCtxId + 1
      stats := { npu.stats with activeContexts := npu.stats.activeContexts + 1 } } := by
  unfold createContext
  dsimp only
  rw [mboxChannelReset_eq]
  simp only [Npu.setChan, Npu.sramClear, Npu.setCtx, Function.update_idem]

/-- Only the channels of the state depend on which channel is reset. -/
theorem mboxChannelReset_rest (npu : Npu) (idx : ℕ) :
    mboxChannelReset npu idx = { npu with chan := (mboxChannelReset npu idx).chan } := by
  unfold mboxChannelReset
  split <;> rfl

/-- The guarded decrement of the context counter. -/
def Stats.dropContext (st : Stats) : Stats :=
  if st.activeContexts = 0 then st else { st with activeContexts := st.activeContexts - 1 }

/-- The end of a context, field by field. -/
theorem destroyContext_eq (npu : Npu) (s : SlotIdx) :
    destroyContext npu s = { npu with
      chan := (mboxChannelReset npu (npu.ctx s).chan).chan
      ctx := Function.update npu.ctx s { npu.ctx s with valid := false }
      stats := npu.stats.dropContext } := by
  unfold destroyContext
  rw [mboxChannelReset_rest npu (npu.ctx s).chan]
  dsimp only [Npu.setCtx, Stats.dropContext]
  split <;> rfl

section Fields

variable (npu : Npu) (s : SlotIdx) (req : CreateCtxReq)

/-- A creation sets up the channel of the slot. -/
@[simp] theorem createContext_chan :
    (createContext npu s req).chan = Function.update npu.chan (slotChan s) (createdChannel s) := by
  rw [createContext_eq]

/-- A creation fills the slot. -/
@[simp] theorem createContext_ctx :
    (createContext npu s req).ctx = Function.update npu.ctx s (createdContext npu s req) := by
  rw [createContext_eq]

/-- A creation clears the two rings of the slot. -/
@[simp] theorem createContext_sram : (createContext npu s req).sram =
    npu.sram.clear (ctxRbBase s).toNat sramCtxRbStride.toNat := by rw [createContext_eq]

/-- A creation leaves the firmware alive. -/
@[simp] theorem createContext_fwAlive : (createContext npu s req).fwAlive = npu.fwAlive := by
  rw [createContext_eq]

/-- A creation takes the next id. -/
@[simp] theorem createContext_nextCtxId :
    (createContext npu s req).nextCtxId = npu.nextCtxId + 1 := by rw [createContext_eq]

/-- A creation is counted. -/
@[simp] theorem createContext_activeContexts :
    (createContext npu s req).stats.activeContexts = npu.stats.activeContexts + 1 := by
  rw [createContext_eq]

/-- A creation keeps the runtime configuration. -/
@[simp] theorem createContext_rtCfg : (createContext npu s req).rtCfg = npu.rtCfg := by
  rw [createContext_eq]

/-- The slot becomes free, and its record stays. -/
@[simp] theorem destroyContext_ctx : (destroyContext npu s).ctx =
    Function.update npu.ctx s { npu.ctx s with valid := false } := by rw [destroyContext_eq]

/-- The end of a context leaves the SRAM as it is. -/
@[simp] theorem destroyContext_sram : (destroyContext npu s).sram = npu.sram := by
  rw [destroyContext_eq]

/-- The end of a context leaves the firmware alive. -/
@[simp] theorem destroyContext_fwAlive : (destroyContext npu s).fwAlive = npu.fwAlive := by
  rw [destroyContext_eq]

/-- The end of a context gives no id back. -/
@[simp] theorem destroyContext_nextCtxId : (destroyContext npu s).nextCtxId = npu.nextCtxId := by
  rw [destroyContext_eq]

/-- The end of a context keeps the runtime configuration. -/
@[simp] theorem destroyContext_rtCfg : (destroyContext npu s).rtCfg = npu.rtCfg := by
  rw [destroyContext_eq]

/-- The end of a context is counted. -/
theorem destroyContext_activeContexts (h : npu.stats.activeContexts ≠ 0) :
    (destroyContext npu s).stats.activeContexts = npu.stats.activeContexts - 1 := by
  rw [destroyContext_eq, Stats.dropContext, if_neg h]

/-- The channel that is reset is the one recorded in the context. -/
theorem destroyContext_chan {s : SlotIdx} (hchan : (npu.ctx s).chan = (slotChan s).val) :
    (destroyContext npu s).chan =
      Function.update npu.chan (slotChan s) (resetChan (slotChan s)) := by
  rw [destroyContext_eq, hchan, mboxChannelReset_eq, Npu.setChan]

end Fields

end Xdna
