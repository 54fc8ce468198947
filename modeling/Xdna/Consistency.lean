import Xdna.BootSemantics
import Xdna.Steps
import Mathlib.Data.Fintype.Basic
import Mathlib.Data.Finset.Card
import Mathlib.Data.Fintype.Card

/-!
# Consistency of firmware, contexts and channels

A channel is active exactly as long as the firmware, or the context it belongs to,
is alive, and each channel has a fixed place for its two rings. Only four steps change this
table: boot, shutdown, and the creation and destruction of a context. All others keep
its shape. Because the parser runs on active channels only, no message is ever handled
while the firmware is down.
-/

namespace Xdna

open ByteMemory Relation

/-! ## Places of the rings -/

/-- The offset in SRAM of the `x2i` ring of a channel. -/
def x2iBase (c : ChanIdx) : ℕ := if c = 0 then 0x21000 else 0x24000 + (c.val - 1) * 0x4000

/-- The size of either ring of a channel. -/
def ringSize (c : ChanIdx) : ℕ := if c = 0 then 0x1000 else 0x2000

/-- The `i2x` ring lies behind the `x2i` ring. -/
def i2xBase (c : ChanIdx) : ℕ := x2iBase c + ringSize c

/-- The registers of a channel describe the rings that belong to it. -/
structure HasRing (c : ChanIdx) (ch : Channel) : Prop where
  x2iBuf : ch.x2iBuf.toNat = x2iBase c
  x2iSize : ch.x2iSize.toNat = ringSize c
  i2xBuf : ch.i2xBuf.toNat = i2xBase c
  i2xSize : ch.i2xSize.toNat = ringSize c

/-- A boot puts the management channel into its place. -/
theorem mgmtChannel_hasRing : HasRing 0 mgmtChannel := ⟨rfl, rfl, rfl, rfl⟩

/-- A creation puts the channel of the slot into its place. -/
theorem createdChannel_hasRing (s : SlotIdx) : HasRing (slotChan s) (createdChannel s) := by
  have hall : ∀ s : SlotIdx, (createdChannel s).x2iBuf.toNat = x2iBase (slotChan s) ∧
      (createdChannel s).x2iSize.toNat = ringSize (slotChan s) ∧
      (createdChannel s).i2xBuf.toNat = i2xBase (slotChan s) ∧
      (createdChannel s).i2xSize.toNat = ringSize (slotChan s) := by decide
  obtain ⟨h₁, h₂, h₃, h₄⟩ := hall s
  exact ⟨h₁, h₂, h₃, h₄⟩

/-- A creation clears both rings of its slot. -/
theorem ctxRbBase_toNat (s : SlotIdx) : (ctxRbBase s).toNat = x2iBase (slotChan s) ∧
    (ctxRbBase s).toNat + sramCtxRbStride.toNat = i2xBase (slotChan s) + ringSize (slotChan s) := by
  have hall : ∀ s : SlotIdx, (ctxRbBase s).toNat = x2iBase (slotChan s) ∧
      (ctxRbBase s).toNat + sramCtxRbStride.toNat =
        i2xBase (slotChan s) + ringSize (slotChan s) := by decide
  exact hall s

/-- The parts of the SRAM that firmware and driver share. -/
inductive Region where
  | info
  | fwAlive
  | x2i (c : ChanIdx)
  | i2x (c : ChanIdx)
  deriving DecidableEq

namespace Region

/-- Where the region begins. -/
def base : Region → ℕ
  | info => 0x20000
  | fwAlive => 0x3F000
  | x2i c => x2iBase c
  | i2x c => i2xBase c

/-- How many bytes the region has. -/
def len : Region → ℕ
  | info => 64
  | fwAlive => 4
  | x2i c => ringSize c
  | i2x c => ringSize c

/-- No two regions overlap. -/
theorem disjoint {r r' : Region} (h : r ≠ r') :
    r.base + r.len ≤ r'.base ∨ r'.base + r'.len ≤ r.base := by
  have hrings : ∀ c c' : ChanIdx,
      (c ≠ c' → x2iBase c + 2 * ringSize c ≤ x2iBase c' ∨
        x2iBase c' + 2 * ringSize c' ≤ x2iBase c) ∧
      0x20040 ≤ x2iBase c ∧ x2iBase c + 2 * ringSize c ≤ 0x3F000 := by decide
  cases r <;> cases r' <;> simp only [base, len, i2xBase, ne_eq, reduceCtorEq, not_true_eq_false,
    x2i.injEq, i2x.injEq] at h ⊢
  case info.fwAlive | fwAlive.info => omega
  case info.x2i c | info.i2x c | fwAlive.x2i c | fwAlive.i2x c | x2i.info c | x2i.fwAlive c |
      i2x.info c | i2x.fwAlive c =>
    have := hrings c c
    omega
  all_goals
    rename_i c c'
    have hpair := hrings c c'
    by_cases hc : c = c'
    · subst hc
      first | omega | exact absurd rfl h
    · have := hpair.1 hc
      omega

/-- Every region lies in the SRAM. -/
theorem inSram (r : Region) : r.base + r.len ≤ barSramSize := by
  have hrings : ∀ c : ChanIdx, i2xBase c + ringSize c ≤ barSramSize ∧ 0 < ringSize c := by decide
  cases r with
  | info => decide
  | fwAlive => decide
  | x2i c =>
    have := hrings c
    simp only [base, len, i2xBase] at *
    omega
  | i2x c => exact (hrings c).1

end Region

/-! ## The invariant -/

/-- The slots that hold a context. -/
def validSlots (npu : Npu) : Finset SlotIdx := Finset.univ.filter fun s => (npu.ctx s).valid = true

/-- The slots that hold a context. -/
theorem mem_validSlots {npu : Npu} {s : SlotIdx} :
    s ∈ validSlots npu ↔ (npu.ctx s).valid = true := by
  simp [validSlots]

/-- The tables of contexts and channels agree with each other, with the state of the firmware and
with the number of contexts. -/
structure Consistent (npu : Npu) : Prop where
  index : ∀ c, (npu.chan c).index = c.val
  mgmt : (npu.chan 0).active = npu.fwAlive
  slot : ∀ s, (npu.chan (slotChan s)).active = (npu.ctx s).valid
  ctxChan : ∀ s, (npu.ctx s).valid = true → (npu.ctx s).chan = (slotChan s).val
  alive : ∀ s, (npu.ctx s).valid = true → npu.fwAlive = true
  count : npu.stats.activeContexts.toNat = (validSlots npu).card
  ring : ∀ c, (npu.chan c).active = true → HasRing c (npu.chan c)

/-- Every channel is the management channel or the channel of a slot. -/
theorem chan_cases (c : ChanIdx) : c = 0 ∨ ∃ s, c = slotChan s := by
  cases c using Fin.cases with
  | zero => exact .inl rfl
  | succ s => exact .inr ⟨s, rfl⟩

/-- No context has the management channel. -/
theorem slotChan_ne_zero (s : SlotIdx) : slotChan s ≠ 0 := Fin.succ_ne_zero s

private theorem slotChan_injective : Function.Injective slotChan := Fin.succ_injective _

/-- A channel is active only while the firmware is alive. -/
theorem Consistent.fwAlive_of_active {npu : Npu} (h : Consistent npu) {c : ChanIdx}
    (hactive : (npu.chan c).active = true) : npu.fwAlive = true := by
  rcases chan_cases c with rfl | ⟨s, rfl⟩
  · rw [← h.mgmt, hactive]
  · exact h.alive s (by rw [← h.slot, hactive])

/-! ## Steps that keep the shape -/

/-- The two channel records differ at most in head, tail and interrupt registers. -/
structure Channel.SameShape (ch ch' : Channel) : Prop where
  active : ch'.active = ch.active
  index : ch'.index = ch.index
  x2iBuf : ch'.x2iBuf = ch.x2iBuf
  x2iSize : ch'.x2iSize = ch.x2iSize
  i2xBuf : ch'.i2xBuf = ch.i2xBuf
  i2xSize : ch'.i2xSize = ch.i2xSize

/-- Pointers and interrupt register do not belong to the shape. -/
theorem Channel.SameShape.pointers (ch : Channel) (x2iHead x2iTail i2xHead i2xTail intr : UInt32) :
    ch.SameShape { ch with
      x2iHead := x2iHead
      x2iTail := x2iTail
      i2xHead := i2xHead
      i2xTail := i2xTail
      intr := intr } :=
  ⟨rfl, rfl, rfl, rfl, rfl, rfl⟩

/-- A channel record has its own shape. -/
theorem Channel.SameShape.refl (ch : Channel) : ch.SameShape ch := .pointers ..

/-- The place of a channel is part of its shape. -/
theorem HasRing.congr {c : ChanIdx} {ch ch' : Channel} (h : HasRing c ch)
    (heq : ch.SameShape ch') : HasRing c ch' :=
  ⟨heq.x2iBuf ▸ h.x2iBuf, heq.x2iSize ▸ h.x2iSize, heq.i2xBuf ▸ h.i2xBuf, heq.i2xSize ▸ h.i2xSize⟩

/-- The two states agree in all that `Consistent` speaks of. -/
structure SameShape (npu npu' : Npu) : Prop where
  chan : ∀ c, (npu.chan c).SameShape (npu'.chan c)
  valid : ∀ s, (npu'.ctx s).valid = (npu.ctx s).valid
  ctxChan : ∀ s, (npu'.ctx s).chan = (npu.ctx s).chan
  fwAlive : npu'.fwAlive = npu.fwAlive
  activeContexts : npu'.stats.activeContexts = npu.stats.activeContexts

/-- Nothing of the tables has changed. -/
theorem SameShape.of_eq {npu npu' : Npu} (hchan : npu'.chan = npu.chan) (hctx : npu'.ctx = npu.ctx)
    (halive : npu'.fwAlive = npu.fwAlive)
    (hcount : npu'.stats.activeContexts = npu.stats.activeContexts) : SameShape npu npu' where
  chan c := by rw [hchan]; exact .refl _
  valid s := by rw [hctx]
  ctxChan s := by rw [hctx]
  fwAlive := halive
  activeContexts := hcount

/-- A channel record is replaced by one of the same shape. -/
theorem SameShape.of_update {npu npu' : Npu} {c : ChanIdx} {ch : Channel}
    (hchan : npu'.chan = Function.update npu.chan c ch) (hch : (npu.chan c).SameShape ch)
    (hctx : npu'.ctx = npu.ctx) (halive : npu'.fwAlive = npu.fwAlive)
    (hcount : npu'.stats.activeContexts = npu.stats.activeContexts) : SameShape npu npu' where
  chan c' := by
    rw [hchan]
    by_cases hc : c' = c
    · subst hc
      simpa using hch
    · rw [Function.update_of_ne hc]
      exact .refl _
  valid s := by rw [hctx]
  ctxChan s := by rw [hctx]
  fwAlive := halive
  activeContexts := hcount

/-- Pointers and interrupt registers do not matter. -/
theorem Consistent.congr {npu npu' : Npu} (h : Consistent npu) (heq : SameShape npu npu') :
    Consistent npu' where
  index c := by rw [(heq.chan c).index, h.index]
  mgmt := by rw [(heq.chan 0).active, h.mgmt, heq.fwAlive]
  slot s := by rw [(heq.chan _).active, h.slot, heq.valid]
  ctxChan s hs := by rw [heq.ctxChan, h.ctxChan s (heq.valid s ▸ hs)]
  alive s hs := by rw [heq.fwAlive, h.alive s (heq.valid s ▸ hs)]
  count := by
    have hvalid : validSlots npu' = validSlots npu := by
      ext s
      rw [mem_validSlots, mem_validSlots, heq.valid]
    rw [heq.activeContexts, h.count, hvalid]
  ring c hc := (h.ring c ((heq.chan c).active ▸ hc)).congr (heq.chan c)

/-- A send moves a tail and sets an interrupt register. -/
theorem ReplyChange.sameShape {c : ChanIdx} {npu npu' : Npu} (h : ReplyChange c npu npu') :
    SameShape npu npu' := by
  obtain ⟨hrest, ⟨_, _, hchan⟩, hcount⟩ := h
  exact .of_update hchan (.pointers ..) (by rw [hrest]) (by rw [hrest]) hcount

/-- The guest writes pointers and interrupt registers only. -/
theorem GuestWrite.sameShape {ok : UInt32 → Prop} {ch ch' : Channel} (h : GuestWrite ok ch ch') :
    ch.SameShape ch' := by
  cases h <;> exact .pointers ..

private theorem mapHeap_sameShape (npu : Npu) (s : SlotIdx) (req : MapHostBufferReq) :
    SameShape npu (mapHeap npu s req) where
  chan _ := .refl _
  valid s' := by
    by_cases hs : s' = s
    · subst hs
      simp [mapHeap, Npu.setCtx]
    · simp [mapHeap, Npu.setCtx, hs]
  ctxChan s' := by
    by_cases hs : s' = s
    · subst hs
      simp [mapHeap, Npu.setCtx]
    · simp [mapHeap, Npu.setCtx, hs]
  fwAlive := rfl
  activeContexts := rfl

/-- Taking a frame off the ring moves a head. -/
theorem takeFrame_sameShape (m : Machine) (c : ChanIdx) (size : UInt32) :
    SameShape m.npu (takeFrame m c size).npu :=
  .of_update rfl (.pointers ..) rfl rfl rfl

/-- The changes of the table of contexts and channels. -/
inductive TableChange (npu : Npu) : Npu → Prop
  | same {npu' : Npu} (h : SameShape npu npu') : TableChange npu npu'
  | boot : TableChange npu (fwBoot npu)
  | shutdown : TableChange npu (fwShutdown npu)
  | create (s : SlotIdx) (req : CreateCtxReq) (halive : npu.fwAlive = true)
      (hfree : freeSlot npu = some s) : TableChange npu (createContext npu s req)
  | destroy (s : SlotIdx) (id : UInt32) (hid : ctxById npu id = some s) :
      TableChange npu (destroyContext npu s)

/-- What a message does to the tables. -/
theorem MsgEffect.tableChange {npu npu' : Npu} {hdr : MsgHeader} {payload : Memory}
    (h : MsgEffect npu hdr payload npu') (halive : npu.fwAlive = true) : TableChange npu npu' := by
  cases h with
  | none => exact .same (.of_eq rfl rfl rfl rfl)
  | runtimeConfig _ _ => exact .same (.of_eq rfl rfl rfl rfl)
  | pasid _ => exact .same (.of_eq rfl rfl rfl rfl)
  | suspend _ => exact .same (.of_eq rfl rfl rfl rfl)
  | async _ _ => exact .same (.of_eq rfl rfl rfl rfl)
  | create s _ _ hfree _ => exact .create s _ halive hfree
  | destroy s _ _ hid => exact .destroy s _ hid
  | heap s _ _ _ => exact .same (mapHeap_sameShape ..)

/-- What a step can do to the table. -/
theorem Step.tableChange {host : Host} {ok : ChanIdx → UInt32 → Prop} {m m' : Machine}
    (h : Step host ok m m') : TableChange m.npu m'.npu := by
  cases h with
  | regs hnpu _ => exact .same (.of_eq hnpu.chan hnpu.ctx hnpu.fwAlive hnpu.activeContexts)
  | sram _ _ _ => exact .same (.of_eq rfl rfl rfl rfl)
  | guest _ h => exact .same (.of_update rfl h.sameShape rfl rfl rfl)
  | boot => exact .boot
  | shutdown => exact .shutdown
  | wrap _ _ => exact .same (.of_update rfl (.pointers ..) rfl rfl rfl)
  | examine _ _ _ => exact .same (.of_eq rfl rfl rfl rfl)
  | reject _ _ _ => exact .same (.of_eq rfl rfl rfl rfl)
  | take _ _ _ _ => exact .same (takeFrame_sameShape ..)
  | message _ _ halive => exact (mertOutcome_effect ..).tableChange halive
  | send _ _ _ _ _ => exact .same (mboxSend_change ..).sameShape

/-! ## Creation and destruction -/

/-- A free slot holds no context. -/
theorem freeSlot_valid {npu : Npu} {s : SlotIdx} (h : freeSlot npu = some s) :
    (npu.ctx s).valid = false := by
  simpa [freeSlot] using List.find?_some h

/-- A lookup finds a context with the id. -/
theorem ctxById_valid {npu : Npu} {id : UInt32} {s : SlotIdx} (h : ctxById npu id = some s) :
    (npu.ctx s).valid = true ∧ (npu.ctx s).id = id := by
  simpa [ctxById] using List.find?_some h

private theorem update_slot_active {npu : Npu} {s s' : SlotIdx} {ch : Channel} {ctx : Context}
    (h : ch.active = ctx.valid) (hslot : (npu.chan (slotChan s')).active = (npu.ctx s').valid) :
    (Function.update npu.chan (slotChan s) ch (slotChan s')).active =
      (Function.update npu.ctx s ctx s').valid := by
  by_cases hs : s' = s
  · subst hs
    simpa using h
  · rw [Function.update_of_ne (fun h => hs (slotChan_injective h)), Function.update_of_ne hs, hslot]

private theorem update_chan_index {npu : Npu} {c : ChanIdx} {ch : Channel} (h : ch.index = c.val)
    (hindex : ∀ c, (npu.chan c).index = c.val) (c' : ChanIdx) :
    (Function.update npu.chan c ch c').index = c'.val := by
  by_cases hc : c' = c
  · subst hc
    simpa using h
  · rw [Function.update_of_ne hc, hindex]

/-- A boot keeps the tables consistent, also while contexts of an earlier firmware are left. -/
theorem Consistent.boot {npu : Npu} (h : Consistent npu) : Consistent (fwBoot npu) where
  index := by
    rw [fwBoot_chan]
    exact update_chan_index rfl h.index
  mgmt := by simp [mgmtChannel]
  slot s := by
    rw [fwBoot_chan, fwBoot_ctx, Function.update_of_ne (slotChan_ne_zero s), h.slot]
  ctxChan := by
    rw [fwBoot_ctx]
    exact h.ctxChan
  alive _ _ := fwBoot_fwAlive npu
  count := by
    rw [fwBoot_stats, h.count, validSlots, validSlots, fwBoot_ctx]
  ring c hc := by
    rw [fwBoot_chan] at hc ⊢
    by_cases h0 : c = 0
    · subst h0
      simpa using mgmtChannel_hasRing
    · rw [Function.update_of_ne h0] at hc ⊢
      exact h.ring c hc

/-- The state with no context and no active channel. -/
theorem consistent_of_down {npu : Npu} (hchan : npu.chan = resetChan)
    (hvalid : ∀ s, (npu.ctx s).valid = false) (halive : npu.fwAlive = false)
    (hcount : npu.stats.activeContexts = 0) : Consistent npu where
  index c := by rw [hchan, resetChan]
  mgmt := by rw [hchan, halive, resetChan]
  slot s := by rw [hchan, hvalid, resetChan]
  ctxChan s hs := by simp [hvalid s] at hs
  alive s hs := by simp [hvalid s] at hs
  count := by simp [hcount, validSlots, hvalid]
  ring c hc := by simp [hchan, resetChan] at hc

private theorem Consistent.shutdown (npu : Npu) : Consistent (fwShutdown npu) :=
  consistent_of_down (fwShutdown_chan npu) (by simp) (fwShutdown_fwAlive npu) (by simp)

/-- The tables are consistent after a reset. -/
theorem consistent_npuReset : Consistent npuReset :=
  consistent_of_down npuReset_chan (by simp) npuReset_fwAlive (by simp)

/-- One slot is filled or freed. -/
theorem validSlots_update {npu npu' : Npu} {s : SlotIdx} {ctx : Context}
    (h : npu'.ctx = Function.update npu.ctx s ctx) :
    validSlots npu' = if ctx.valid = true then insert s (validSlots npu)
      else (validSlots npu).erase s := by
  ext s'
  rw [mem_validSlots, h]
  by_cases hs : s' = s
  · subst hs
    split <;> simp_all
  · split <;> simp [hs, mem_validSlots]

/-- A creation in a free slot keeps the tables consistent. -/
theorem Consistent.create {npu : Npu} (h : Consistent npu) {s : SlotIdx} (req : CreateCtxReq)
    (halive : npu.fwAlive = true) (hfree : freeSlot npu = some s) :
    Consistent (createContext npu s req) where
  index := by
    rw [createContext_chan]
    exact update_chan_index rfl h.index
  mgmt := by
    rw [createContext_chan, createContext_fwAlive,
      Function.update_of_ne (slotChan_ne_zero s).symm, h.mgmt]
  slot s' := by
    rw [createContext_chan, createContext_ctx]
    exact update_slot_active rfl (h.slot s')
  ctxChan s' hs' := by
    rw [createContext_ctx] at hs' ⊢
    by_cases hs : s' = s
    · subst hs
      simp [createdContext]
    · rw [Function.update_of_ne hs] at hs' ⊢
      exact h.ctxChan s' hs'
  alive _ _ := by rw [createContext_fwAlive, halive]
  count := by
    have hnot : s ∉ validSlots npu := by simp [mem_validSlots, freeSlot_valid hfree]
    have hcard : (validSlots npu).card ≤ 6 := card_finset_fin_le _
    rw [validSlots_update (createContext_ctx npu s req), if_pos (by rfl),
      Finset.card_insert_of_notMem hnot, createContext_activeContexts, UInt32.toNat_add, h.count]
    simp only [UInt32.reduceToNat]
    omega
  ring c hc := by
    rw [createContext_chan] at hc ⊢
    by_cases hcs : c = slotChan s
    · subst hcs
      simpa using createdChannel_hasRing s
    · rw [Function.update_of_ne hcs] at hc ⊢
      exact h.ring c hc

/-- The counter is never zero while a context is valid, so its decrement does not saturate. -/
theorem Consistent.activeContexts_ne_zero {npu : Npu} (h : Consistent npu) {s : SlotIdx}
    (hs : (npu.ctx s).valid = true) : npu.stats.activeContexts ≠ 0 := by
  intro hzero
  have hcount := h.count
  rw [hzero] at hcount
  have hempty : validSlots npu = ∅ := Finset.card_eq_zero.mp hcount.symm
  exact absurd (mem_validSlots.mpr hs) (by simp [hempty])

/-- The end of a context keeps the tables consistent. -/
theorem Consistent.destroy {npu : Npu} (h : Consistent npu) {s : SlotIdx}
    (hvalid : (npu.ctx s).valid = true) : Consistent (destroyContext npu s) where
  index := by
    rw [destroyContext_chan npu (h.ctxChan s hvalid)]
    exact update_chan_index rfl h.index
  mgmt := by
    rw [destroyContext_chan npu (h.ctxChan s hvalid), destroyContext_fwAlive,
      Function.update_of_ne (slotChan_ne_zero s).symm, h.mgmt]
  slot s' := by
    rw [destroyContext_chan npu (h.ctxChan s hvalid), destroyContext_ctx]
    exact update_slot_active rfl (h.slot s')
  ctxChan s' hs' := by
    rw [destroyContext_ctx] at hs' ⊢
    by_cases hs : s' = s
    · subst hs
      simp at hs'
    · rw [Function.update_of_ne hs] at hs' ⊢
      exact h.ctxChan s' hs'
  alive _ _ := by rw [destroyContext_fwAlive, h.alive s hvalid]
  count := by
    have hne := h.activeContexts_ne_zero hvalid
    have hpos : 1 ≤ npu.stats.activeContexts.toNat :=
      Nat.pos_of_ne_zero fun hz => hne (UInt32.toNat_inj.mp hz)
    rw [validSlots_update (destroyContext_ctx npu s), if_neg (by simp),
      Finset.card_erase_of_mem (mem_validSlots.mpr hvalid), ← h.count,
      destroyContext_activeContexts npu s hne,
      UInt32.toNat_sub_of_le _ 1 (UInt32.le_iff_toNat_le.mpr hpos)]
    rfl
  ring c hc := by
    rw [destroyContext_chan npu (h.ctxChan s hvalid)] at hc ⊢
    by_cases hcs : c = slotChan s
    · subst hcs
      simp [resetChan] at hc
    · rw [Function.update_of_ne hcs] at hc ⊢
      exact h.ring c hc

/-- Every change of the tables keeps them consistent. -/
theorem TableChange.consistent {npu npu' : Npu} (hchange : TableChange npu npu')
    (h : Consistent npu) : Consistent npu' := by
  cases hchange with
  | same heq => exact h.congr heq
  | boot => exact h.boot
  | shutdown => exact .shutdown npu
  | create s req halive hfree => exact h.create req halive hfree
  | destroy s id hid => exact h.destroy (ctxById_valid hid).1

/-- The tables are consistent at every point of every run. -/
theorem Steps.consistent {host : Host} {ok : ChanIdx → UInt32 → Prop} {m m' : Machine}
    (hsteps : Steps host ok m m') (h : Consistent m.npu) : Consistent m'.npu :=
  hsteps.preserves (P := fun m => Consistent m.npu)
    (fun _ _ hm hstep => hstep.tableChange.consistent hm) h

/-! ## Properties of active channels -/

/-- What a message can do to a channel, whatever its state. -/
theorem MsgEffect.chan_cases {npu npu' : Npu} {hdr : MsgHeader} {payload : Memory}
    (h : MsgEffect npu hdr payload npu') (hcons : Consistent npu) (c : ChanIdx) :
    npu'.chan c = npu.chan c ∨ npu'.chan c = resetChan c ∨
      ∃ s, c = slotChan s ∧ npu'.chan c = createdChannel s := by
  cases h with
  | none => exact .inl rfl
  | runtimeConfig _ _ => exact .inl rfl
  | pasid _ => exact .inl rfl
  | suspend _ => exact .inl rfl
  | async _ _ => exact .inl rfl
  | create s _ _ _ _ =>
    rw [createContext_chan]
    by_cases hc : c = slotChan s
    · subst hc
      exact .inr (.inr ⟨s, rfl, Function.update_self ..⟩)
    · exact .inl (Function.update_of_ne hc ..)
  | destroy s _ _ hid =>
    rw [destroyContext_chan npu (hcons.ctxChan s (ctxById_valid hid).1)]
    by_cases hc : c = slotChan s
    · subst hc
      exact .inr (.inl (Function.update_self ..))
    · exact .inl (Function.update_of_ne hc ..)
  | heap _ _ _ _ => exact .inl rfl

/-- A property of channel records, for all active channels. -/
def OnActive (Q : ChanIdx → Channel → Prop) (npu : Npu) : Prop :=
  ∀ c, (npu.chan c).active = true → Q c (npu.chan c)

/-- Channels that have not changed keep the property. -/
theorem OnActive.congr {Q : ChanIdx → Channel → Prop} {npu npu' : Npu} (h : OnActive Q npu)
    (heq : ∀ c, (npu'.chan c).active = true → npu'.chan c = npu.chan c ∨ Q c (npu'.chan c)) :
    OnActive Q npu' := by
  intro c hc
  rcases heq c hc with hsame | hQ
  · rw [hsame] at hc ⊢
    exact h c hc
  · exact hQ

/-- Only one channel record changes. -/
theorem OnActive.update {Q : ChanIdx → Channel → Prop} {npu npu' : Npu} {c : ChanIdx} {ch : Channel}
    (h : OnActive Q npu) (hchan : npu'.chan = Function.update npu.chan c ch)
    (hch : ch.active = true → Q c ch) : OnActive Q npu' := by
  refine h.congr fun c' hc' => ?_
  rw [hchan] at hc' ⊢
  by_cases hc : c' = c
  · subst hc
    rw [Function.update_self] at hc' ⊢
    exact .inr (hch hc')
  · rw [Function.update_of_ne hc]
    exact .inl rfl

/-- A property of active channels is kept by every step if it holds of newly set up channels
and is kept by the four steps that move pointers. -/
theorem Step.onActive {Q : ChanIdx → Channel → Prop} {host : Host}
    {ok : ChanIdx → UInt32 → Prop} {m m' : Machine} (hstep : Step host ok m m')
    (hcons : Consistent m.npu) (h : OnActive Q m.npu) (hboot : Q 0 mgmtChannel)
    (hcreate : ∀ s, Q (slotChan s) (createdChannel s))
    (hguest : ∀ c ch, Q c (m.npu.chan c) → GuestWrite (ok c) (m.npu.chan c) ch → Q c ch)
    (hwrap : ∀ c, Q c (m.npu.chan c) → Q c { m.npu.chan c with x2iHead := 0 })
    (htake : ∀ c size, Q c (m.npu.chan c) → (m.npu.chan c).peek m.npu = .frame size →
      Q c ((takeFrame m c size).npu.chan c))
    (hsend : ∀ c id opcode payload, payload.length = (respSizeFor opcode).1 →
      ∀ c', (m.npu.chan c').active = true → Q c' (m.npu.chan c') →
        Q c' ((mboxSend host m c id opcode payload).1.npu.chan c')) :
    OnActive Q m'.npu := by
  cases hstep with
  | regs hnpu _ => exact h.congr fun c _ => .inl (congrFun hnpu.chan c)
  | sram _ _ _ => exact h
  | guest c hw =>
    refine h.update rfl fun hactive => hguest c _ (h c ?_) hw
    rw [← hw.sameShape.active, hactive]
  | boot => exact h.update (fwBoot_chan _) fun _ => hboot
  | shutdown => exact h.congr fun c hc => by simp [resetChan] at hc
  | wrap c hactive => exact h.update rfl fun _ => hwrap c (h c hactive)
  | examine _ _ _ => exact h
  | reject _ _ _ => exact h
  | take c size hactive hpeek =>
    refine h.congr fun c' _ => ?_
    by_cases hc : c' = c
    · subst hc
      exact .inr (htake c' size (h c' hactive) hpeek)
    · exact .inl (Function.update_of_ne hc ..)
  | message hdr payload _ =>
    refine h.congr fun c hc => ?_
    rcases (mertOutcome_effect host m hdr payload).chan_cases hcons c with heq | heq | ⟨s, rfl, heq⟩
    · exact .inl heq
    · rw [heq] at hc
      cases hc
    · rw [heq]
      exact .inr (hcreate s)
  | send c id opcode payload hsize =>
    intro c' hc'
    rw [((mboxSend_change host m c id opcode payload).sameShape.chan c').active] at hc'
    exact hsend c id opcode payload hsize c' hc' (h c' hc')

end Xdna
