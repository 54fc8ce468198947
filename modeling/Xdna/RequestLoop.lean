import Xdna.Rejection
import Xdna.Management

/-!
# The requests of a kick

Which requests a kick takes does not depend on its replies: a reply goes to the other ring, and
of the registers it changes only `i2x_tail` and `intr`, which the parser does not read. So
the passes of the loop can be followed on the device as it was before the kick, without
writing any reply. `requestLoop` does this, and the loop of the source keeps in step with it.
-/

namespace Xdna

open ByteMemory

/-! ## The tail of the reply ring -/

/-- The tail after a reply of `n` bytes, which may have been refused. -/
def Channel.sendTail (ch : Channel) (n : UInt32) : UInt32 :=
  if ch.active = false ∨ ch.usable < n ∨ ch.sendFull n = true then ch.i2xTail
  else ch.sendStart n + n

/-- A tombstone is not part of a channel. -/
theorem sendMark_chan (m : Machine) (c : ChanIdx) (n : UInt32) :
    (m.sendMark c n).npu.chan = m.npu.chan := by
  unfold Machine.sendMark Machine.ringTombstone Npu.sramWrite32
  dsimp only
  repeat' split
  all_goals rfl

private theorem raiseIrq_chan (host : Host) (m : Machine) (c : ChanIdx) :
    (m.raiseIrq host c).npu.chan = m.npu.chan := by
  unfold Machine.raiseIrq
  split <;> rfl

private theorem mboxSend_tail (host : Host) (m : Machine) (c : ChanIdx) (id opcode : UInt32)
    (payload : List UInt8) :
    ((mboxSend host m c id opcode payload).1.npu.chan c).i2xTail =
      (m.npu.chan c).sendTail (pkgSize payload) := by
  have h := mboxSendBody_result host m c id opcode payload
  unfold mboxSend Channel.sendTail
  rw [Machine.emit_npu]
  generalize mboxSendBody host m c id opcode payload = r at h ⊢
  cases h with
  | refused h => rw [if_pos (by tauto)]
  | full hactive hfits hfull =>
    rw [if_pos (.inr (.inr hfull)), sendMark_chan]
  | sent hactive hfits hfull =>
    rw [if_neg (by simp [hactive, hfits, hfull]), raiseIrq_chan, sentMachine]
    simp [Npu.postFrame, Npu.setChan]

/-- A reply moves the tail at most to the end of the frame behind the old tail. -/
theorem Channel.sendTail_le {ch : Channel} {n : UInt32}
    (h : ch.i2xTail.toNat + n.toNat < 2 ^ 32) :
    (ch.sendTail n).toNat ≤ ch.i2xTail.toNat + n.toNat := by
  unfold Channel.sendTail Channel.sendStart
  split
  · omega
  · split
    · rw [UInt32.zero_add]
      omega
    · rw [UInt32.toNat_add, Nat.mod_eq_of_lt h]

/-- The size of the reply to an opcode, header included. -/
def replySize (opcode : UInt32) : UInt32 :=
  msgHeaderSize + UInt32.ofNat (respSizeFor opcode).1

private theorem replySize_toNat (opcode : UInt32) :
    (replySize opcode).toNat = 16 + (respSizeFor opcode).1 := by
  have := respSizeFor_le opcode
  rw [replySize, UInt32.toNat_add, UInt32.toNat_ofNat', show msgHeaderSize.toNat = 16 from rfl]
  omega

/-- The tail after the reply to a message. -/
def Channel.replyTail (ch : Channel) (hdr : MsgHeader) : UInt32 :=
  if hdr.AnsweredLater then ch.i2xTail else ch.sendTail (replySize hdr.opcode)

/-! ## Following the passes -/

/-- The message at the head of the ring: the frame is consumed, the handler changes the tables, and
the reply moves the tail of the other ring. -/
def Npu.takeMessage (npu : Npu) (c : ChanIdx) (size : UInt32) : Npu :=
  let hdr := headHeader npu c
  let npu₁ := (mertStep (npu.consume c size) hdr (Memory.ofBytes (headPayload npu c size))
    (MsgOpcode.ofCode? hdr.opcode)).1
  npu₁.setChan c { npu₁.chan c with i2xTail := (npu₁.chan c).replyTail hdr }

/-- A pass of the loop: the frame it takes, with its offset in the ring, and the device after it.
Without a frame the pass goes back to offset 0; `none` means that the loop is over. -/
def Npu.requestPass (npu : Npu) (c : ChanIdx) : Option (Option (ℕ × Frame) × Npu) :=
  if (npu.chan c).x2iHead = (npu.chan c).x2iTail then none
  else match (npu.chan c).peek npu with
  | .ringEnd => some (none, npu.setX2iHead c 0)
  | .tombstone => some (none, npu.setX2iHead c 0)
  | .reject => none
  | .frame size =>
    some (some ((npu.chan c).x2iHead.toNat, ⟨headHeader npu c, headPayload npu c size⟩),
      npu.takeMessage c size)

/-- What a pass does, when there is one. -/
theorem requestPass_cases {npu npu' : Npu} {c : ChanIdx} {x : Option (ℕ × Frame)}
    (h : npu.requestPass c = some (x, npu')) :
    (npu.chan c).x2iHead ≠ (npu.chan c).x2iTail ∧
    ((((npu.chan c).peek npu = .ringEnd ∨ (npu.chan c).peek npu = .tombstone) ∧ x = none ∧
        npu' = npu.setX2iHead c 0) ∨
      ∃ size, (npu.chan c).peek npu = .frame size ∧ npu' = npu.takeMessage c size ∧
        x = some ((npu.chan c).x2iHead.toNat, ⟨headHeader npu c, headPayload npu c size⟩)) := by
  unfold Npu.requestPass at h
  by_cases heq : (npu.chan c).x2iHead = (npu.chan c).x2iTail
  · rw [if_pos heq] at h
    cases h
  · rw [if_neg heq] at h
    refine ⟨heq, ?_⟩
    cases hpeek : (npu.chan c).peek npu with
    | ringEnd =>
      rw [hpeek] at h
      cases h
      exact .inl ⟨.inl rfl, rfl, rfl⟩
    | tombstone =>
      rw [hpeek] at h
      cases h
      exact .inl ⟨.inr rfl, rfl, rfl⟩
    | reject => rw [hpeek] at h; cases h
    | frame size =>
      rw [hpeek] at h
      cases h
      exact .inr ⟨size, rfl, rfl, rfl⟩

/-- At most `fuel` passes: what they find, and the device after them. -/
def requestLoop (c : ChanIdx) : ℕ → Npu → List (Option (ℕ × Frame)) × Npu
  | 0, npu => ([], npu)
  | fuel + 1, npu =>
    match npu.requestPass c with
    | none => ([], npu)
    | some (x, npu') => (x :: (requestLoop c fuel npu').1, (requestLoop c fuel npu').2)

section Loop

variable {c : ChanIdx} {npu npu' : Npu} {x : Option (ℕ × Frame)} (fuel : ℕ)

/-- The loop ends where no pass is made. -/
theorem requestLoop_none (h : npu.requestPass c = none) :
    requestLoop c (fuel + 1) npu = ([], npu) := by
  rw [requestLoop, h]

/-- The loop goes on behind a pass. -/
theorem requestLoop_some (h : npu.requestPass c = some (x, npu')) :
    requestLoop c (fuel + 1) npu =
      (x :: (requestLoop c fuel npu').1, (requestLoop c fuel npu').2) := by
  rw [requestLoop, h]

/-- The loop is over when the head has reached the tail. -/
theorem requestLoop_of_eq (h : (npu.chan c).x2iHead = (npu.chan c).x2iTail) :
    requestLoop c fuel npu = ([], npu) := by
  cases fuel with
  | zero => rfl
  | succ fuel =>
    apply requestLoop_none
    rw [Npu.requestPass, if_pos h]

end Loop

/-- The second device is the first after some replies on channel `c`, up to the contents of the
ring they went to. -/
structure Answered (c : ChanIdx) (npu npu' : Npu) : Prop where
  rest : npu' = { npu with sram := npu'.sram, chan := npu'.chan, stats := npu'.stats }
  chan : ∃ intr, npu'.chan = Function.update npu.chan c { npu.chan c with intr := intr }
  count : npu'.stats.activeContexts = npu.stats.activeContexts
  sram : ∀ a < i2xBase c, npu'.sram a = npu.sram a

/-- Nothing has been answered. -/
theorem Answered.refl (c : ChanIdx) (npu : Npu) : Answered c npu npu :=
  ⟨rfl, ⟨(npu.chan c).intr, (Function.update_eq_self c npu.chan).symm⟩, rfl, fun _ _ => rfl⟩

section Step

variable {c : ChanIdx} {npu npu' : Npu} (h : Answered c npu npu')

include h

/-- The two devices agree on the registers of the channel other than `intr`. -/
theorem Answered.registers : ∃ intr, npu'.chan c = { npu.chan c with intr := intr } := by
  obtain ⟨intr, hchan⟩ := h.chan
  exact ⟨intr, by rw [hchan, Function.update_self]⟩

/-- A change of one channel is made in both. -/
theorem Answered.update_chan (c' : ChanIdx) (ch : Channel) :
    ∃ intr, Function.update npu'.chan c' ch =
      Function.update (Function.update npu.chan c' ch) c
        { Function.update npu.chan c' ch c with intr := intr } := by
  obtain ⟨intr, hchan⟩ := h.chan
  by_cases heq : c' = c
  · subst heq
    refine ⟨ch.intr, ?_⟩
    rw [hchan, Function.update_idem, Function.update_self, Function.update_idem]
  · refine ⟨intr, ?_⟩
    rw [hchan, Function.update_comm heq, Function.update_of_ne (Ne.symm heq)]

/-- A channel is set to the same value in both. -/
theorem Answered.setChan (c' : ChanIdx) (ch : Channel) :
    Answered c (npu.setChan c' ch) (npu'.setChan c' ch) where
  rest := by
    rw [h.rest]
    rfl
  chan := h.update_chan c' ch
  count := h.count
  sram := h.sram

/-- Replies do not show in the search for a free slot. -/
theorem Answered.freeSlot : Xdna.freeSlot npu' = Xdna.freeSlot npu := by
  rw [h.rest]
  rfl

/-- Replies do not show in a lookup. -/
theorem Answered.ctxById (id : UInt32) : Xdna.ctxById npu' id = Xdna.ctxById npu id := by
  rw [h.rest]
  rfl

/-- Replies do not show in a creation. -/
theorem Answered.createContext (s : SlotIdx) (req : CreateCtxReq) :
    Answered c (Xdna.createContext npu s req) (Xdna.createContext npu' s req) where
  rest := by
    rw [createContext_eq, createContext_eq, h.rest]
    rfl
  chan := by
    rw [createContext_chan, createContext_chan]
    exact h.update_chan _ _
  count := by rw [createContext_activeContexts, createContext_activeContexts, h.count]
  sram := by
    intro a ha
    rw [createContext_sram, createContext_sram, Memory.clear, Memory.clear, h.sram a ha]

private theorem Answered.mboxChannelReset (idx : ℕ) :
    Answered c (Xdna.mboxChannelReset npu idx) (Xdna.mboxChannelReset npu' idx) := by
  unfold Xdna.mboxChannelReset
  split
  · exact h.setChan _ _
  · exact h

private theorem Answered.destroyContext (s : SlotIdx) :
    Answered c (Xdna.destroyContext npu s) (Xdna.destroyContext npu' s) := by
  have hctx : npu'.ctx = npu.ctx := by rw [h.rest]
  have hreset := h.mboxChannelReset (npu.ctx s).chan
  constructor
  case rest => rw [destroyContext_eq, destroyContext_eq, h.rest]
  case chan =>
    rw [destroyContext_eq, destroyContext_eq, hctx]
    exact hreset.chan
  case count =>
    rw [destroyContext_eq, destroyContext_eq]
    unfold Stats.dropContext
    dsimp only
    rw [h.count]
    split
    · exact h.count
    · rfl
  case sram =>
    intro a ha
    rw [destroyContext_sram, destroyContext_sram, h.sram a ha]

/-- Replies do not show in a host buffer. -/
theorem Answered.mapHeap (s : SlotIdx) (req : MapHostBufferReq) :
    Answered c (Xdna.mapHeap npu s req) (Xdna.mapHeap npu' s req) where
  rest := by
    rw [h.rest]
    rfl
  chan := h.chan
  count := h.count
  sram := h.sram

/-- A change of other fields is made in both. -/
theorem Answered.setFields {f : Npu → Npu} (hf : ∀ npu sram chan stats,
      f { npu with sram := sram, chan := chan, stats := stats } =
        { f npu with sram := sram, chan := chan, stats := stats }) :
    Answered c (f npu) (f npu') := by
  have hsame (npu : Npu) : (f npu).sram = npu.sram ∧ (f npu).chan = npu.chan ∧
      (f npu).stats = npu.stats := by
    have hnpu : f npu = { f npu with sram := npu.sram, chan := npu.chan, stats := npu.stats } :=
      hf npu npu.sram npu.chan npu.stats
    rw [hnpu]
    exact ⟨rfl, rfl, rfl⟩
  obtain ⟨hsram, hchan, hstats⟩ := hsame npu
  obtain ⟨hsram', hchan', hstats'⟩ := hsame npu'
  constructor
  · rw [hsram', hchan', hstats', ← hf, ← h.rest]
  · rw [hchan, hchan']
    exact h.chan
  · rw [hstats, hstats']
    exact h.count
  · rw [hsram, hsram']
    exact h.sram

/-- A message has the same effect on both. -/
theorem Answered.mertStep (hdr : MsgHeader) (payload : Memory) (op : Option MsgOpcode) :
    Answered c (Xdna.mertStep npu hdr payload op).1 (Xdna.mertStep npu' hdr payload op).1 := by
  cases op with
  | none => exact h
  | some o =>
    cases o <;> simp only [Xdna.mertStep]
    case setRuntimeConfig =>
      unfold setRuntimeConfigStep
      split_ifs
      · exact h
      · rw [show npu'.rtCfg = npu.rtCfg by rw [h.rest]]
        exact h.setFields (f := fun npu => { npu with rtCfg := _ }) fun _ _ _ _ => rfl
      · exact h
    case getRuntimeConfig =>
      unfold getRuntimeConfigStep
      split_ifs <;> exact h
    case assignMgmtPasid =>
      unfold assignPasidStep
      split_ifs
      · exact h
      · exact h.setFields (f := fun npu => { npu with mgmtPasid := _ }) fun _ _ _ _ => rfl
    case suspend | resume =>
      exact h.setFields (f := fun npu => { npu with fwSuspended := _ }) fun _ _ _ _ => rfl
    case createContext =>
      unfold createStep
      rw [h.freeSlot]
      cases Xdna.freeSlot npu with
      | none => split_ifs <;> exact h
      | some s =>
        dsimp only
        split_ifs
        · exact h
        · exact h
        · exact h.createContext s _
    case destroyContext =>
      unfold destroyStep
      rw [h.ctxById]
      split_ifs
      · exact h
      · cases Xdna.ctxById npu (DestroyCtxReq.decode payload).contextId with
        | none => exact h
        | some s => exact h.destroyContext s
    case mapHostBuffer =>
      unfold heapStep
      rw [h.ctxById]
      split_ifs
      · exact h
      · cases Xdna.ctxById npu (MapHostBufferReq.decode payload).contextId with
        | none => exact h
        | some s => exact h.mapHeap s _
    case addHostBuffer =>
      unfold heapStep
      rw [h.ctxById]
      split_ifs
      · exact h
      · cases Xdna.ctxById npu (MapHostBufferReq.decode payload).contextId with
        | none => exact h
        | some s => exact h.mapHeap s _
    case registerAsyncEventMsg =>
      unfold asyncStep
      split_ifs
      · exact h
      · exact h.setFields (f := fun npu => { npu with
          asyncBufAddr := _, asyncBufSize := _, asyncRegistered := true }) fun _ _ _ _ => rfl
    all_goals exact h

/-- The head moves in both. -/
theorem Answered.setX2iHead (head : UInt32) :
    Answered c (npu.setX2iHead c head) (npu'.setX2iHead c head) := by
  obtain ⟨intr, hchan⟩ := h.chan
  constructor
  case rest =>
    rw [h.rest]
    rfl
  case chan =>
    refine ⟨intr, ?_⟩
    simp only [Npu.setX2iHead, Npu.setChan, hchan, Function.update_idem, Function.update_self]
  case count => exact h.count
  case sram => exact h.sram

private theorem Answered.consume (size : UInt32) :
    Answered c (npu.consume c size) (npu'.consume c size) := by
  obtain ⟨intr, hch⟩ := h.registers
  have hhead := h.setX2iHead ((npu.chan c).x2iHead + (msgHeaderSize + size))
  have heq : (npu'.chan c).x2iHead = (npu.chan c).x2iHead := by rw [hch]
  constructor
  case rest =>
    rw [Npu.consume, Npu.consume, heq, hhead.rest]
  case chan =>
    rw [Npu.consume, Npu.consume, heq]
    exact hhead.chan
  case count => exact h.count
  case sram => exact h.sram

/-! ### The parser -/

private theorem Answered.sramRead32 {off : UInt32} (hoff : off.toNat + 4 ≤ i2xBase c) :
    npu'.sramRead32 off = npu.sramRead32 off := by
  rw [Npu.sramRead32, Npu.sramRead32, Memory.word32_congr h.sram hoff]

variable (hhead : HeadOk c (npu.chan c))

include hhead

/-- The parser finds the same. -/
theorem Answered.peek : (npu'.chan c).peek npu' = (npu.chan c).peek npu := by
  obtain ⟨intr, hch⟩ := h.registers
  obtain ⟨hmod, hle, _⟩ := ringSize_bounds c
  unfold Channel.peek
  rw [hch]
  dsimp only
  by_cases hend : (npu.chan c).x2iSize ≤ (npu.chan c).x2iHead
  · rw [if_pos hend, if_pos hend]
  · have hlt := hend
    rw [UInt32.le_iff_toNat_le, hhead.ring.x2iSize] at hlt
    have halign := hhead.aligned
    rw [if_neg hend, if_neg hend, h.sramRead32]
    rw [UInt32.toNat_add, hhead.ring.x2iBuf]
    have hbase : i2xBase c = x2iBase c + ringSize c := rfl
    have hsram := (i2xBase_bounds c).2.2
    unfold barSramSize at hsram
    omega

/-- It also reads the same header and payload. -/
theorem Answered.head {size : UInt32} (hpeek : (npu.chan c).peek npu = .frame size) :
    headHeader npu' c = headHeader npu c ∧ headPayload npu' c size = headPayload npu c size := by
  obtain ⟨intr, hch⟩ := h.registers
  obtain ⟨hlt, hword, _, _, _, hend⟩ := hhead.peek_frame_iff.mp hpeek
  rw [← hword, hhead.ring.x2iSize] at hend
  have hbase : i2xBase c = x2iBase c + ringSize c := rfl
  have hoff : (npu.chan c).headOff + (16 + size.toNat) ≤ i2xBase c := by
    rw [Channel.headOff, hhead.ring.x2iBuf]
    omega
  have hoff' : (npu'.chan c).headOff = (npu.chan c).headOff := by
    rw [hch, Channel.headOff, Channel.headOff]
  constructor
  · rw [headHeader, headHeader, hoff', MsgHeader.decode, MsgHeader.decode,
      Memory.word32_congr h.sram (by omega), Memory.word32_congr h.sram (by omega),
      Memory.word32_congr h.sram (by omega), Memory.word32_congr h.sram (by omega)]
  · rw [headPayload, headPayload, hoff']
    apply Memory.read_congr
    intro a _ ha
    rw [show msgHeaderSize.toNat = 16 from rfl] at ha
    exact h.sram a (by omega)

end Step

/-! ## A message and its reply -/

private theorem mertOutcome_npu (host : Host) (m : Machine) (hdr : MsgHeader) (payload : Memory) :
    (mertOutcome host m hdr payload).1.npu =
      (mertStep m.npu hdr payload (MsgOpcode.ofCode? hdr.opcode)).1 := by
  unfold mertOutcome
  by_cases hop : MsgOpcode.ofCode? hdr.opcode = some .queryColStatus
  · have hstep : (mertStep m.npu hdr payload (some .queryColStatus)).1 = m.npu := rfl
    rw [if_pos hop, hop, hstep]
    split
    · rfl
    · have hframe := queryColStatus_frame host m (ColumnInfoReq.decode payload)
      generalize queryColStatus host m (ColumnInfoReq.decode payload) = r at hframe ⊢
      exact hframe.1
  · rw [if_neg hop]
    rfl

/-- The message is a `DESTROY_CONTEXT` that finds slot `s`. -/
structure Destroys (npu : Npu) (hdr : MsgHeader) (payload : Memory) (s : SlotIdx) : Prop where
  opcode : hdr.opcode = MsgOpcode.destroyContext.code
  complete : ¬ hdr.totalSize < DestroyCtxReq.size
  found : ctxById npu (DestroyCtxReq.decode payload).contextId = some s

/-- The slot of an active channel is taken. -/
theorem Consistent.ne_freeSlot {npu : Npu} {c : ChanIdx} {s : SlotIdx} (h : Consistent npu)
    (hactive : (npu.chan c).active = true) (hfree : freeSlot npu = some s) : c ≠ slotChan s := by
  intro heq
  have hvalid := freeSlot_valid hfree
  rw [← h.slot, ← heq, hactive] at hvalid
  cases hvalid

/-- The channel of a message is left alone, unless the message destroys it. -/
theorem MsgEffect.own_chan {npu npu' : Npu} {hdr : MsgHeader} {payload : Memory} {c : ChanIdx}
    (h : MsgEffect npu hdr payload npu') (hcons : Consistent npu)
    (hactive : (npu.chan c).active = true) :
    npu'.chan c = npu.chan c ∨
      ∃ s, c = slotChan s ∧ Destroys npu hdr payload s ∧ npu'.chan c = resetChan c := by
  cases h with
  | none => exact .inl rfl
  | runtimeConfig _ _ => exact .inl rfl
  | pasid _ => exact .inl rfl
  | suspend _ => exact .inl rfl
  | async _ _ => exact .inl rfl
  | create s _ _ hfree _ =>
    rw [createContext_chan]
    exact .inl (Function.update_of_ne (hcons.ne_freeSlot hactive hfree) ..)
  | destroy s hop hlen hid =>
    rw [destroyContext_chan npu (hcons.ctxChan s (ctxById_valid hid).1)]
    by_cases hc : c = slotChan s
    · subst hc
      exact .inr ⟨s, rfl, ⟨hop, hlen, hid⟩, Function.update_self ..⟩
    · exact .inl (Function.update_of_ne hc ..)
  | heap _ _ _ _ => exact .inl rfl

/-- A message leaves the rings of its channel alone. -/
theorem MsgEffect.ring_sram {npu npu' : Npu} {hdr : MsgHeader} {payload : Memory} {c : ChanIdx}
    (h : MsgEffect npu hdr payload npu') (hcons : Consistent npu)
    (hactive : (npu.chan c).active = true) {a : ℕ} (hlo : x2iBase c ≤ a)
    (hhi : a < i2xBase c + ringSize c) : npu'.sram a = npu.sram a := by
  cases h with
  | create s _ _ hfree _ =>
    have hne := hcons.ne_freeSlot hactive hfree
    rw [createContext_sram]
    apply Memory.clear_of_outside
    have hi2x : ∀ c : ChanIdx, i2xBase c = x2iBase c + ringSize c := fun _ => rfl
    have h₁ := @Region.disjoint (.x2i c) (.x2i (slotChan s)) (by simpa using hne)
    have h₂ := @Region.disjoint (.x2i c) (.i2x (slotChan s)) (by simp)
    have h₃ := @Region.disjoint (.i2x c) (.x2i (slotChan s)) (by simp)
    have h₄ := @Region.disjoint (.i2x c) (.i2x (slotChan s)) (by simpa using hne)
    simp only [Region.base, Region.len] at h₁ h₂ h₃ h₄
    rw [(ctxRbBase_toNat s).2, (ctxRbBase_toNat s).1]
    have := hi2x c
    have := hi2x (slotChan s)
    omega
  | destroy s _ _ _ => rw [destroyContext_sram]
  | _ => rfl

/-- A send leaves the memory in front of the reply ring alone, as long as the tail is so small that
the address of the tombstone does not wrap around. -/
theorem mboxSend_sram_below (host : Host) {m : Machine} {c : ChanIdx} (id opcode : UInt32)
    (payload : List UInt8) {a : ℕ}
    (hroom : (m.npu.chan c).i2xBuf.toNat + (m.npu.chan c).i2xTail.toNat < 2 ^ 32)
    (ha : a < (m.npu.chan c).i2xBuf.toNat) :
    (mboxSend host m c id opcode payload).1.npu.sram a = m.npu.sram a := by
  apply OutsideReply.send
  constructor
  · exact .inl (by omega)
  · intro _
    rw [UInt32.toNat_add, Nat.mod_eq_of_lt hroom]
    exact .inl (by omega)

/-- The reply to a message moves the tail as `replyTail` says. -/
theorem Answered.answerWith {host : Host} {c : ChanIdx} {npu : Npu} {hdr : MsgHeader}
    {r : Machine × Option Answer} (h : Answered c npu r.1.npu)
    (hnone : r.2 = none ↔ hdr.AnsweredLater)
    (hshape : ∀ a, r.2 = some a → Answer.WellShaped hdr.opcode a)
    (hroom : (r.1.npu.chan c).active = true → (r.1.npu.chan c).i2xBuf.toNat = i2xBase c ∧
      (r.1.npu.chan c).i2xBuf.toNat + (r.1.npu.chan c).i2xTail.toNat < 2 ^ 32) :
    Answered c (npu.setChan c { npu.chan c with i2xTail := (npu.chan c).replyTail hdr })
      (answerWith host c hdr r).npu := by
  obtain ⟨m, answer⟩ := r
  dsimp only at *
  unfold Xdna.answerWith
  cases answer with
  | none =>
    rw [Channel.replyTail, if_pos (hnone.mp rfl)]
    have hsame : npu.setChan c { npu.chan c with i2xTail := (npu.chan c).i2xTail } = npu := by
      rw [Npu.setChan]
      exact congrArg (fun chan => ({ npu with chan := chan } : Npu))
        (Function.update_eq_self c npu.chan)
    rw [hsame]
    exact h
  | some a =>
    have hlater : ¬ hdr.AnsweredLater := fun hlater => Option.some_ne_none a (hnone.mpr hlater)
    have hlen := (hshape a rfl).1
    have hchange := mboxSend_change host m c hdr.id hdr.opcode a.2
    have htail := mboxSend_tail host m c hdr.id hdr.opcode a.2
    obtain ⟨intr, hch⟩ := h.registers
    obtain ⟨_, hchan⟩ := h.chan
    obtain ⟨tail, intr', hchan'⟩ := hchange.chan
    have hsram : ∀ a' < i2xBase c, (mboxSend host m c hdr.id hdr.opcode a.2).1.npu.sram a' =
        m.npu.sram a' := by
      intro a' ha'
      cases hactive : (m.npu.chan c).active with
      | false => rw [mboxSend_inactive _ _ _ _ _ _ hactive, Machine.emit_npu]
      | true =>
        obtain ⟨hbuf, hroom⟩ := hroom hactive
        exact mboxSend_sram_below host _ _ _ hroom (by omega)
    dsimp only [mertReply]
    generalize (mboxSend host m c hdr.id hdr.opcode a.2).1.npu = npu' at *
    rw [Channel.replyTail, if_neg hlater]
    constructor
    case rest =>
      rw [hchange.rest, h.rest]
      rfl
    case chan =>
      refine ⟨intr', ?_⟩
      have htail' : tail = (npu.chan c).sendTail (replySize hdr.opcode) := by
        rw [hchan', Function.update_self, hch, pkgSize, hlen] at htail
        exact htail
      rw [hchan', hchan, Function.update_idem, Function.update_self, htail']
      simp only [Npu.setChan, Function.update_idem, Function.update_self]
    case count => rw [hchange.count, h.count]; rfl
    case sram =>
      intro a' ha'
      rw [hsram a' ha', h.sram a' ha']
      rfl

/-! ## In step with the loop -/

/-- The channel and the frame of a call of the message handler, with the offset of the frame in the
ring: the head has already moved past the frame. -/
def Event.taken? : Event → Option (ChanIdx × ℕ × Frame)
  | .handle c hdr payload npu =>
    some (c, (npu.chan c).x2iHead.toNat - (16 + payload.length), ⟨hdr, payload⟩)
  | _ => none

/-- The frames that were handed to the message handler. -/
def taken (tr : List Event) : List (ChanIdx × ℕ × Frame) := tr.filterMap Event.taken?

private theorem taken_answerWith (host : Host) (c : ChanIdx) (hdr : MsgHeader)
    (r : Machine × Option Answer) :
    taken (Xdna.answerWith host c hdr r).trace = taken r.1.trace := by
  unfold Xdna.answerWith
  cases r.2 with
  | none => rfl
  | some a =>
    obtain ⟨m₁, hext, htrace⟩ := mboxSend_trace host r.1 c hdr.id hdr.opcode a.2
    have hm₁ : taken m₁.trace = taken r.1.trace := by
      apply hext.filterMap_eq
      intro e he
      cases he <;> rfl
    dsimp only [mertReply]
    rw [htrace, taken, List.filterMap_append, ← taken, hm₁]
    exact List.append_nil _

private theorem taken_mertOutcome (host : Host) (m : Machine) (hdr : MsgHeader) (payload : Memory) :
    taken (mertOutcome host m hdr payload).1.trace = taken m.trace := by
  apply (mertOutcome_trace host m hdr payload).2.filterMap_eq
  intro e he
  cases e <;> first | rfl | exact he.elim

private theorem Channel.replyTail_le {ch : Channel} (hdr : MsgHeader)
    (h : ch.i2xTail.toNat + 144 < 2 ^ 32) :
    (ch.replyTail hdr).toNat ≤ ch.i2xTail.toNat + 144 := by
  have hsize := replySize_toNat hdr.opcode
  have := respSizeFor_le hdr.opcode
  unfold Channel.replyTail
  split
  · omega
  · have := @Channel.sendTail_le ch (replySize hdr.opcode) (by omega)
    omega

/-- Replies do not show in the head. -/
theorem Answered.headOk {c : ChanIdx} {npu npu' : Npu} (h : Answered c npu npu')
    (hhead : HeadOk c (npu'.chan c)) : HeadOk c (npu.chan c) := by
  obtain ⟨intr, hch⟩ := h.registers
  rw [hch] at hhead
  exact ⟨⟨hhead.ring.x2iBuf, hhead.ring.x2iSize, hhead.ring.i2xBuf, hhead.ring.i2xSize⟩,
    hhead.aligned, hhead.le⟩

private theorem Answered.back_consistent {c : ChanIdx} {npu npu' : Npu} (h : Answered c npu npu')
    (hcons : Consistent npu') : Consistent npu := by
  obtain ⟨intr, hchan⟩ := h.chan
  have hctx : npu'.ctx = npu.ctx := by rw [h.rest]
  refine hcons.congr ⟨fun c' => ?_, fun s => by rw [hctx], fun s => by rw [hctx], ?_, h.count.symm⟩
  · rw [hchan]
    by_cases hc : c' = c
    · subst hc
      rw [Function.update_self]
      exact .pointers ..
    · rw [Function.update_of_ne hc]
      exact .refl _
  · rw [h.rest]

/-- The machine `m` in the loop of channel `c`, with `fuel` passes left, and the device `npu` on
which its requests are followed. The replies of the remaining passes do not bring the tail to
where the address of a tombstone wraps around. -/
structure Follows (c : ChanIdx) (fuel : ℕ) (npu : Npu) (m : Machine) : Prop where
  answered : Answered c npu m.npu
  consistent : Consistent m.npu
  heads : HeadsOk m.npu
  pending : (m.npu.chan c).Pending
  room : (m.npu.chan c).i2xBuf.toNat + (m.npu.chan c).i2xTail.toNat + 144 * fuel < 2 ^ 32

/-- The record that was stored. -/
theorem Npu.setChan_self (npu : Npu) (c : ChanIdx) (ch : Channel) :
    (npu.setChan c ch).chan c = ch := Function.update_self ..

/-- The channel with its new head. -/
theorem Npu.setX2iHead_self (npu : Npu) (c : ChanIdx) (head : UInt32) :
    (npu.setX2iHead c head).chan c = { npu.chan c with x2iHead := head } :=
  Function.update_self ..

/-- The channel with the frame taken off. -/
theorem Npu.consume_self (npu : Npu) (c : ChanIdx) (size : UInt32) :
    (npu.consume c size).chan c =
      { npu.chan c with x2iHead := (npu.chan c).x2iHead + (msgHeaderSize + size) } :=
  Function.update_self ..

section Follows

variable {host : Host} {c : ChanIdx} {fuel : ℕ} {npu : Npu} {m : Machine}

/-- What is left of the loop when it stops. -/
theorem Follows.weaken {fuel' : ℕ} (h : Follows c fuel npu m) (hle : fuel' ≤ fuel) :
    Follows c fuel' npu m := by
  have := h.room
  exact ⟨h.answered, h.consistent, h.heads, h.pending, by omega⟩

/-- Both loops have the same pointers. -/
theorem Follows.pointers (h : Follows c fuel npu m) :
    (m.npu.chan c).x2iHead = (npu.chan c).x2iHead ∧
      (m.npu.chan c).x2iTail = (npu.chan c).x2iTail := by
  obtain ⟨intr, hch⟩ := h.answered.registers
  rw [hch]
  exact ⟨rfl, rfl⟩

/-- In front of the tail the channel of the device is active. -/
theorem Follows.active (h : Follows c fuel npu m)
    (hne : (npu.chan c).x2iHead ≠ (npu.chan c).x2iTail) : (m.npu.chan c).active = true := by
  obtain ⟨hhead, htail⟩ := h.pointers
  apply h.pending.resolve_right
  rw [hhead, htail]
  exact hne

/-- In front of the tail the state of the loop without replies is in order. -/
theorem Follows.live (h : Follows c fuel npu m)
    (hne : (npu.chan c).x2iHead ≠ (npu.chan c).x2iTail) :
    Consistent npu ∧ (npu.chan c).active = true ∧ HeadOk c (npu.chan c) := by
  have hactive := h.active hne
  refine ⟨h.answered.back_consistent h.consistent, ?_, h.answered.headOk (h.heads c hactive)⟩
  obtain ⟨intr, hch⟩ := h.answered.registers
  rw [hch] at hactive
  exact hactive

/-- A pass that goes back to offset 0. -/
theorem Follows.wrap (h : Follows c (fuel + 1) npu m)
    (hne : (npu.chan c).x2iHead ≠ (npu.chan c).x2iTail)
    (hpeek : (npu.chan c).peek npu = .ringEnd ∨ (npu.chan c).peek npu = .tombstone) :
    (mboxPass host c m).2 = true ∧ Follows c fuel (npu.setX2iHead c 0) (mboxPass host c m).1 ∧
      taken (mboxPass host c m).1.trace = taken m.trace := by
  have hactive := h.active hne
  have hsteps : Steps host (fun _ _ => True) m (mboxPass host c m).1 :=
    mboxPass_steps c hactive (h.consistent.fwAlive_of_active hactive)
  have hcons := hsteps.consistent h.consistent
  have hheads := hsteps.headsOk h.consistent h.heads
  have hpending : ((mboxPass host c m).1.npu.chan c).Pending :=
    mboxPass_pending h.consistent hactive
  have hpass : (mboxPass host c m).2 = true ∧
      (mboxPass host c m).1.npu = m.npu.setX2iHead c 0 ∧
      taken (mboxPass host c m).1.trace = taken m.trace := by
    rw [← h.answered.peek (h.answered.headOk (h.heads c hactive))] at hpeek
    rcases hpeek with hpeek | hpeek
    · rw [mboxPass, hpeek]
      exact ⟨rfl, rfl, rfl⟩
    · rw [mboxPass, hpeek]
      refine ⟨rfl, rfl, ?_⟩
      rw [Machine.modify_trace, Machine.emit_trace, taken, List.filterMap_append]
      exact List.append_nil _
  obtain ⟨hgo, hnpu, htaken⟩ := hpass
  have hroom := h.room
  refine ⟨hgo, ⟨?_, hcons, hheads, hpending, ?_⟩, htaken⟩
  · rw [hnpu]
    exact h.answered.setX2iHead 0
  · rw [hnpu, Npu.setX2iHead_self]
    dsimp only
    omega

/-- The handling of a message, on a channel that was active before it. -/
theorem Follows.message {hdr : MsgHeader} {payload : List UInt8} (stack : Memory)
    (answered : Answered c npu m.npu) (hcons : Consistent m.npu)
    (hactive : (m.npu.chan c).active = true)
    (hroom : (m.npu.chan c).i2xBuf.toNat + (m.npu.chan c).i2xTail.toNat + 144 * (fuel + 1) < 2 ^ 32)
    (hlen : hdr.totalSize.toNat = payload.length) :
    let npu₁ := (mertStep npu hdr (Memory.ofBytes payload) (MsgOpcode.ofCode? hdr.opcode)).1
    let m' := answerWith host c hdr (mertOutcome host m hdr (payloadBuffer payload stack))
    Answered c (npu₁.setChan c { npu₁.chan c with i2xTail := (npu₁.chan c).replyTail hdr }) m'.npu ∧
      (m'.npu.chan c).i2xBuf.toNat + (m'.npu.chan c).i2xTail.toNat + 144 * fuel < 2 ^ 32 := by
  intro npu₁ m'
  have hpayload : mertOutcome host m hdr (payloadBuffer payload stack) =
      mertOutcome host m hdr (Memory.ofBytes payload) :=
    mertOutcome_congr host m hdr (by omega) fun i hi => payloadBuffer_of_lt stack hi
  have hstep : Answered c npu₁ (mertOutcome host m hdr (Memory.ofBytes payload)).1.npu := by
    rw [mertOutcome_npu]
    exact answered.mertStep ..
  have hown := (mertOutcome_effect host m hdr (Memory.ofBytes payload)).own_chan hcons hactive
  have hnone := mertOutcome_eq_none host m hdr (Memory.ofBytes payload)
  have hshape (a : Answer) (ha : (mertOutcome host m hdr (Memory.ofBytes payload)).2 = some a) :=
    mertOutcome_wellShaped ha
  have hring := hcons.ring c hactive
  have hm' : m' = answerWith host c hdr (mertOutcome host m hdr (Memory.ofBytes payload)) := by
    rw [← hpayload]
  rw [hm']
  generalize mertOutcome host m hdr (Memory.ofBytes payload) = r at *
  -- The message has left the channel alone, or has reset it.
  have hbefore : (r.1.npu.chan c).i2xBuf.toNat + (r.1.npu.chan c).i2xTail.toNat +
      144 * (fuel + 1) < 2 ^ 32 := by
    rcases hown with heq | ⟨_, _, _, heq⟩
    · rw [heq]
      exact hroom
    · rw [heq]
      simp only [resetChan, UInt32.toNat_zero]
      omega
  have hafter : Answered c (npu₁.setChan c { npu₁.chan c with
      i2xTail := (npu₁.chan c).replyTail hdr }) (answerWith host c hdr r).npu := by
    apply hstep.answerWith hnone hshape
    intro hactive'
    rcases hown with heq | ⟨_, _, _, heq⟩
    · rw [heq]
      exact ⟨hring.i2xBuf, by omega⟩
    · rw [heq] at hactive'
      cases hactive'
  refine ⟨hafter, ?_⟩
  obtain ⟨_, hch⟩ := hafter.registers
  obtain ⟨_, hch₁⟩ := hstep.registers
  rw [hch, Npu.setChan_self]
  rw [hch₁] at hbefore
  dsimp only at hbefore ⊢
  have := @Channel.replyTail_le (npu₁.chan c) hdr (by omega)
  omega

/-- A pass that takes a frame. -/
theorem Follows.frame {size : UInt32} (h : Follows c (fuel + 1) npu m)
    (hne : (npu.chan c).x2iHead ≠ (npu.chan c).x2iTail)
    (hpeek : (npu.chan c).peek npu = .frame size) :
    (mboxPass host c m).2 = true ∧ Follows c fuel (npu.takeMessage c size) (mboxPass host c m).1 ∧
      taken (mboxPass host c m).1.trace = taken m.trace ++
        [(c, (npu.chan c).x2iHead.toNat, ⟨headHeader npu c, headPayload npu c size⟩)] := by
  have hactive := h.active hne
  have halive := h.consistent.fwAlive_of_active hactive
  have hsteps : Steps host (fun _ _ => True) m (mboxPass host c m).1 :=
    mboxPass_steps c hactive halive
  have hcons := hsteps.consistent h.consistent
  have hheads := hsteps.headsOk h.consistent h.heads
  have hpending : ((mboxPass host c m).1.npu.chan c).Pending :=
    mboxPass_pending h.consistent hactive
  have hhead := h.answered.headOk (h.heads c hactive)
  obtain ⟨hhdr, hpay⟩ := h.answered.head hhead hpeek
  have hpeek' := hpeek
  rw [← h.answered.peek hhead] at hpeek'
  rw [mboxPass_deliver halive hpeek', hhdr, hpay] at hcons hheads hpending ⊢
  have htake : (takeFrame (m.emit (.ringRead c (m.npu.chan c).headOff 4)) c size).npu =
      m.npu.consume c size := rfl
  have hshape := takeFrame_sameShape (m.emit (.ringRead c (m.npu.chan c).headOff 4)) c size
  have htrace := takeFrame_trace (m.emit (.ringRead c (m.npu.chan c).headOff 4)) c size
  obtain ⟨hmoved, -⟩ := @HeadOk.take (m.emit (.ringRead c (m.npu.chan c).headOff 4)) c size
    (h.heads c hactive) hpeek'
  have hlen := hhead.totalSize hpeek
  have hlen' : (headPayload npu c size).length = size.toNat := Memory.read_length ..
  rw [Machine.emit_npu, hhdr, hpay, Machine.emit_trace] at htrace
  rw [Machine.emit_npu, h.pointers.1] at hmoved
  rw [Machine.emit_npu] at hshape
  generalize takeFrame (m.emit (.ringRead c (m.npu.chan c).headOff 4)) c size = m₁ at *
  have hroom : (m₁.npu.chan c).i2xBuf.toNat + (m₁.npu.chan c).i2xTail.toNat +
      144 * (fuel + 1) < 2 ^ 32 := by
    rw [htake, Npu.consume_self]
    exact h.room
  have hanswered : Answered c (npu.consume c size) m₁.npu := by
    rw [htake]
    exact h.answered.consume size
  obtain ⟨hafter, hroom'⟩ := @Follows.message host c fuel _ m₁ _ _ (host.stack (m.trace.length + 1))
    hanswered (h.consistent.congr hshape) ((hshape.chan c).active.trans hactive) hroom hlen
  refine ⟨rfl, ⟨hafter, hcons, hheads, hpending, hroom'⟩, ?_⟩
  rw [taken_answerWith, taken_mertOutcome, htrace, taken, List.filterMap_append,
    List.filterMap_append, ← taken]
  simp [List.filterMap_cons, Event.taken?, hmoved, hlen']

/-- When the passes are over, so is the loop. -/
theorem Follows.stop (h : Follows c (fuel + 1) npu m) (hpass : npu.requestPass c = none) :
    (mboxLoop host c (fuel + 1) m).npu = m.npu ∧ Follows c 0 npu (mboxLoop host c (fuel + 1) m) ∧
      taken (mboxLoop host c (fuel + 1) m).trace = taken m.trace := by
  obtain ⟨hhead, htail⟩ := h.pointers
  unfold Npu.requestPass at hpass
  rw [mboxLoop]
  by_cases heq : (npu.chan c).x2iHead = (npu.chan c).x2iTail
  · rw [if_pos (by rw [hhead, htail, heq])]
    exact ⟨rfl, h.weaken (Nat.zero_le _), rfl⟩
  · rw [if_neg heq] at hpass
    rw [if_neg (by rw [hhead, htail]; exact heq)]
    cases hpeek : (npu.chan c).peek npu with
    | ringEnd => rw [hpeek] at hpass; cases hpass
    | tombstone => rw [hpeek] at hpass; cases hpass
    | frame size => rw [hpeek] at hpass; cases hpass
    | reject =>
      have hactive := h.active heq
      rw [← h.answered.peek (h.answered.headOk (h.heads c hactive))] at hpeek
      rw [mboxPass_reject hpeek]
      dsimp only
      rw [if_neg (by decide)]
      refine ⟨rfl, ⟨h.answered, h.consistent, h.heads, h.pending, ?_⟩, ?_⟩
      · have := h.room
        dsimp only
        omega
      · simp [taken, List.filterMap_append, List.filterMap_cons, Event.taken?]

/-- A pass of the loop and a pass on the device it is followed on. -/
theorem Follows.pass {x : Option (ℕ × Frame)} {npu' : Npu} (h : Follows c (fuel + 1) npu m)
    (hpass : npu.requestPass c = some (x, npu')) :
    (m.npu.chan c).x2iHead ≠ (m.npu.chan c).x2iTail ∧ (mboxPass host c m).2 = true ∧
      Follows c fuel npu' (mboxPass host c m).1 ∧
      taken (mboxPass host c m).1.trace = taken m.trace ++ x.toList.map (c, ·) := by
  obtain ⟨hhead, htail⟩ := h.pointers
  obtain ⟨hne, ⟨hpeek, rfl, rfl⟩ | ⟨size, hpeek, rfl, rfl⟩⟩ := requestPass_cases hpass
  · obtain ⟨hgo, hfollows, htaken⟩ := h.wrap hne hpeek
    rw [hhead, htail]
    exact ⟨hne, hgo, hfollows, htaken.trans (List.append_nil _).symm⟩
  · rw [hhead, htail]
    exact ⟨hne, h.frame hne hpeek⟩

/-- The loop of the source takes the frames of `requestLoop`, and leaves the device as it does. -/
theorem Follows.loop (h : Follows c fuel npu m) :
    Follows c 0 (requestLoop c fuel npu).2 (mboxLoop host c fuel m) ∧
      taken (mboxLoop host c fuel m).trace =
        taken m.trace ++ ((requestLoop c fuel npu).1.filterMap id).map (c, ·) := by
  induction fuel generalizing npu m with
  | zero => exact ⟨h, (List.append_nil _).symm⟩
  | succ fuel ih =>
    rw [requestLoop]
    cases hpass : npu.requestPass c with
    | none =>
      obtain ⟨-, hstop, htaken⟩ := h.stop hpass
      exact ⟨hstop, htaken.trans (List.append_nil _).symm⟩
    | some r =>
      obtain ⟨x, npu'⟩ := r
      obtain ⟨hne, hgo, hfollows, htaken⟩ := @Follows.pass host _ _ _ _ _ _ h hpass
      rw [mboxLoop, if_neg hne]
      dsimp only
      rw [if_pos hgo]
      obtain ⟨hrest, htaken'⟩ := ih hfollows
      refine ⟨hrest, ?_⟩
      rw [htaken', htaken, List.append_assoc]
      cases x <;> rfl

end Follows

/-! ## The device that is followed -/

/-- Following a message on its channel: the head moves past the frame, the reply moves the tail of
the other ring, and nothing else that the parser reads changes; or the message destroys the channel,
and the loop is at its end. -/
theorem takeMessage_cases {npu : Npu} {c : ChanIdx} {size : UInt32} (hcons : Consistent npu)
    (hactive : (npu.chan c).active = true) (hhead : HeadOk c (npu.chan c))
    (hpeek : (npu.chan c).peek npu = .frame size) :
    ((npu.takeMessage c size).chan c = { npu.chan c with
        x2iHead := (npu.chan c).x2iHead + (msgHeaderSize + size)
        i2xTail := (npu.chan c).replyTail (headHeader npu c) } ∧
      ((npu.takeMessage c size).chan c).x2iHead.toNat =
        (npu.chan c).x2iHead.toNat + (16 + size.toNat) ∧
      ∀ a, x2iBase c ≤ a → a < i2xBase c + ringSize c →
        (npu.takeMessage c size).sram a = npu.sram a) ∨
    ((∃ s, c = slotChan s ∧ Destroys (npu.consume c size) (headHeader npu c)
        (Memory.ofBytes (headPayload npu c size)) s) ∧
      ((npu.takeMessage c size).chan c).x2iHead = ((npu.takeMessage c size).chan c).x2iTail ∧
      ((npu.takeMessage c size).chan c).active = false) := by
  obtain ⟨hmoved, -⟩ := @HeadOk.take ⟨npu, 0, 0, []⟩ c size hhead hpeek
  have hshape := takeFrame_sameShape ⟨npu, 0, 0, []⟩ c size
  have htake : (takeFrame ⟨npu, 0, 0, []⟩ c size).npu = npu.consume c size := rfl
  rw [htake] at hmoved hshape
  have hactive' := (hshape.chan c).active.trans hactive
  have heffect := mertStep_effect (npu.consume c size) (headHeader npu c)
    (Memory.ofBytes (headPayload npu c size))
  have hown := heffect.own_chan (hcons.congr hshape) hactive'
  have hsram (a : ℕ) := @MsgEffect.ring_sram _ _ _ _ c heffect (hcons.congr hshape) hactive' a
  unfold Npu.takeMessage
  dsimp only
  generalize (mertStep (npu.consume c size) (headHeader npu c)
    (Memory.ofBytes (headPayload npu c size)) (MsgOpcode.ofCode? (headHeader npu c).opcode)).1 =
      npu₁ at *
  rw [Npu.setChan_self]
  rcases hown with heq | ⟨s, hs, hdestroys, heq⟩
  · rw [heq]
    refine .inl ⟨?_, hmoved, ?_⟩
    · rw [Npu.consume_self]
      rfl
    · intro a hlo hhi
      exact hsram a hlo hhi
  · rw [heq]
    exact .inr ⟨⟨s, hs, hdestroys⟩, rfl, rfl⟩

/-- The tables stay in order. -/
theorem takeMessage_consistent {npu : Npu} {c : ChanIdx} (size : UInt32) (hcons : Consistent npu)
    (hactive : (npu.chan c).active = true) : Consistent (npu.takeMessage c size) := by
  have hshape := takeFrame_sameShape ⟨npu, 0, 0, []⟩ c size
  have htake : (takeFrame ⟨npu, 0, 0, []⟩ c size).npu = npu.consume c size := rfl
  rw [htake] at hshape
  have halive : (npu.consume c size).fwAlive = true := hcons.fwAlive_of_active hactive
  have hcons₁ := ((mertStep_effect (npu.consume c size) (headHeader npu c)
    (Memory.ofBytes (headPayload npu c size))).tableChange halive).consistent (hcons.congr hshape)
  unfold Npu.takeMessage
  dsimp only
  generalize (mertStep (npu.consume c size) (headHeader npu c)
    (Memory.ofBytes (headPayload npu c size)) (MsgOpcode.ofCode? (headHeader npu c).opcode)).1 =
      npu₁ at *
  exact hcons₁.congr (.of_update rfl (.pointers ..) rfl rfl rfl)

/-! ## A kick -/

/-- The guest writes `v` to the `X2I_TAIL` register of channel `c`. -/
def kickChan (host : Host) (m : Machine) (c : ChanIdx) (v : UInt32) : Machine :=
  regWrite host barMbox m (mboxChanBase c.val + mboxX2iTailOff, v)

/-- A kick of an active channel is the loop behind the write of the tail. -/
theorem kickChan_eq (host : Host) {m : Machine} {c : ChanIdx} (v : UInt32)
    (hcons : Consistent m.npu) (hactive : (m.npu.chan c).active = true) :
    kickChan host m c v = mboxLoop host c mboxMaxMsgPerKick (tailWritten m c v) := by
  rw [kickChan, regWrite, if_neg (by decide), if_pos rfl]
  exact mboxRegWrite_tail (chanFromOff_base c).2.1 hcons hactive

/-- A kick starts in step with itself, if no reply has ended behind the SRAM so far. -/
theorem Follows.kick {m : Machine} {c : ChanIdx} (v : UInt32) (hcons : Consistent m.npu)
    (hheads : HeadsOk m.npu) (hactive : (m.npu.chan c).active = true)
    (hroom : (m.npu.chan c).i2xBuf.toNat + (m.npu.chan c).i2xTail.toNat ≤ barSramSize) :
    Follows c mboxMaxMsgPerKick (tailWritten m c v).npu (tailWritten m c v) := by
  have hchan : (tailWritten m c v).npu.chan c = { m.npu.chan c with x2iTail := v } :=
    Npu.setChan_self ..
  have hsteps : Steps .accepting (fun _ _ => True) m (tailWritten m c v) :=
    .single (.guest m c (.x2iTail v))
  refine ⟨.refl c _, hsteps.consistent hcons, hsteps.headsOk hcons hheads, .inl ?_, ?_⟩
  · rw [hchan]
    exact hactive
  · rw [hchan]
    have : mboxMaxMsgPerKick = 256 := rfl
    unfold barSramSize at hroom
    dsimp only
    omega

end Xdna
