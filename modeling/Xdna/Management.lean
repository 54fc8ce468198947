import Xdna.DriverSemantics
import Xdna.Parser

/-!
# Requests on the management channel

The management channel belongs to the firmware, not to a context: no message touches its
registers or its rings. A kick that finds one request in the ring hands exactly this
request to the handler, whether or not there is a tombstone in front of it.
-/

namespace Xdna

open ByteMemory RingLog

/-! ## What messages leave alone -/

/-- The first offset behind the management rings. -/
def mgmtEnd : ℕ := 0x24000

/-- A message changes neither the management channel nor its rings. -/
theorem MsgEffect.mgmt {npu npu' : Npu} {hdr : MsgHeader} {payload : Memory}
    (h : MsgEffect npu hdr payload npu') (hcons : Consistent npu) :
    npu'.chan 0 = npu.chan 0 ∧ npu'.fwAlive = npu.fwAlive ∧
      ∀ a < mgmtEnd, npu'.sram a = npu.sram a := by
  cases h with
  | none => exact ⟨rfl, rfl, fun _ _ => rfl⟩
  | runtimeConfig _ _ => exact ⟨rfl, rfl, fun _ _ => rfl⟩
  | pasid _ => exact ⟨rfl, rfl, fun _ _ => rfl⟩
  | suspend _ => exact ⟨rfl, rfl, fun _ _ => rfl⟩
  | async _ _ => exact ⟨rfl, rfl, fun _ _ => rfl⟩
  | create s _ _ _ _ =>
    refine ⟨?_, createContext_fwAlive .., fun a ha => ?_⟩
    · rw [createContext_chan, Function.update_of_ne (slotChan_ne_zero s).symm]
    · have hbase : ∀ s : SlotIdx, mgmtEnd ≤ (ctxRbBase s).toNat := by decide
      have := hbase s
      rw [createContext_sram, Memory.clear_of_outside (by omega)]
  | destroy s _ _ hid =>
    refine ⟨?_, destroyContext_fwAlive .., fun a _ => by rw [destroyContext_sram]⟩
    rw [destroyContext_chan npu (hcons.ctxChan s (ctxById_valid hid).1),
      Function.update_of_ne (slotChan_ne_zero s).symm]
  | heap _ _ _ _ => exact ⟨rfl, rfl, fun _ _ => rfl⟩

/-- The firmware-held state on which the answers to messages depend. -/
structure SameFw (npu npu' : Npu) : Prop where
  fwAlive : npu'.fwAlive = npu.fwAlive
  fwSuspended : npu'.fwSuspended = npu.fwSuspended
  mgmtPasid : npu'.mgmtPasid = npu.mgmtPasid
  rtCfg : npu'.rtCfg = npu.rtCfg
  ctx : npu'.ctx = npu.ctx
  nextCtxId : npu'.nextCtxId = npu.nextCtxId
  asyncRegistered : npu'.asyncRegistered = npu.asyncRegistered

/-- One change after another. -/
theorem SameFw.trans {npu npu' npu'' : Npu} (h : SameFw npu npu') (h' : SameFw npu' npu'') :
    SameFw npu npu'' :=
  ⟨h'.fwAlive.trans h.fwAlive, h'.fwSuspended.trans h.fwSuspended, h'.mgmtPasid.trans h.mgmtPasid,
    h'.rtCfg.trans h.rtCfg, h'.ctx.trans h.ctx, h'.nextCtxId.trans h.nextCtxId,
    h'.asyncRegistered.trans h.asyncRegistered⟩

/-- A send leaves the firmware alone. -/
theorem ReplyChange.sameFw {c : ChanIdx} {npu npu' : Npu} (h : ReplyChange c npu npu') :
    SameFw npu npu' := by
  have hrest := h.rest
  exact ⟨by rw [hrest], by rw [hrest], by rw [hrest], by rw [hrest], by rw [hrest], by rw [hrest],
    by rw [hrest]⟩

/-! ## Requests in the ring -/

/-- The requests in the `x2i` ring of channel `c`. -/
abbrev HoldsRequests (npu : Npu) (c : ChanIdx) (fs : List Frame) : Prop :=
  Holds Frame.encode tombstoneBytes (npu.sram.window (x2iBase c)) (ringSize c - 4)
    (npu.chan c).x2iHead.toNat (npu.chan c).x2iTail.toNat fs

/-- A frame that the parser delivers: the payload consists of words, and is not empty. -/
structure Frame.IsRequest (f : Frame) : Prop where
  wellFormed : f.WellFormed
  words : f.payload.length % 4 = 0
  nonempty : f.payload ≠ []

private theorem Frame.IsRequest.pos {f : Frame} (h : f.IsRequest) : 0 < f.payload.length :=
  List.length_pos_of_ne_nil h.nonempty

section Peek

variable {npu : Npu} {c : ChanIdx} {fs : List Frame}

/-- The word at the head, as the parser and as the abstract ring see it. -/
theorem HeadOk.sizeWord_eq (h : HeadOk c (npu.chan c)) :
    sizeWord npu c =
      (npu.sram.window (x2iBase c)).word32 (npu.chan c).x2iHead.toNat := by
  rw [sizeWord, Channel.headOff, h.ring.x2iBuf, Memory.word32, Memory.word32, Memory.window_read]

/-- The parser finds what the ring holds: the tombstone or the first request. -/
theorem HeadOk.peek_holds (h : HeadOk c (npu.chan c)) (hreq : HoldsRequests npu c fs)
    (hfs : ∀ f ∈ fs, f.IsRequest) :
    ((npu.chan c).x2iHead = (npu.chan c).x2iTail ∧ fs = []) ∨
    ((npu.chan c).x2iTail.toNat < (npu.chan c).x2iHead.toNat ∧
      (npu.chan c).x2iHead ≠ (npu.chan c).x2iTail ∧ (npu.chan c).peek npu = .tombstone ∧
      Holds Frame.encode tombstoneBytes (npu.sram.window (x2iBase c)) (ringSize c - 4) 0
        (npu.chan c).x2iTail.toNat fs) ∨
    (∃ f rest, fs = f :: rest ∧ (npu.chan c).x2iHead ≠ (npu.chan c).x2iTail ∧
      (npu.chan c).peek npu = .frame f.hdr.totalSize ∧ headHeader npu c = f.hdr ∧
      headPayload npu c f.hdr.totalSize = f.payload ∧
      ((npu.chan c).x2iTail.toNat < (npu.chan c).x2iHead.toNat + (16 + f.payload.length) ↔
        (npu.chan c).x2iTail.toNat < (npu.chan c).x2iHead.toNat) ∧
      Holds Frame.encode tombstoneBytes (npu.sram.window (x2iBase c)) (ringSize c - 4)
        ((npu.chan c).x2iHead.toNat + (16 + f.payload.length)) (npu.chan c).x2iTail.toNat
        rest) := by
  obtain ⟨hlarge, hsmall, _⟩ := i2xBase_bounds c
  have hhead := hreq.bounds.1
  have hoff : (npu.chan c).headOff = x2iBase c + (npu.chan c).x2iHead.toNat := by
    rw [Channel.headOff, h.ring.x2iBuf]
  rcases hreq.next (fun f => by simp) with ⟨heq, hnil⟩ | ⟨hlt, hmark, hrest⟩ |
    ⟨f, rest, hcons, hne, hframe, hlap, hrest⟩
  · exact .inl ⟨UInt32.toNat_inj.mp heq, hnil⟩
  · rw [tombstoneBytes_length] at hmark
    refine .inr (.inl ⟨hlt, fun heq => absurd hlt (by rw [heq]; exact Nat.lt_irrefl _),
      h.peek_tombstone_iff.mpr ⟨by omega, ?_⟩, hrest⟩)
    rw [h.sizeWord_eq, Memory.word32_of_read hmark]
  · have hf := hfs f (by simp [hcons])
    obtain ⟨hword, hhdr, hpay⟩ := Frame.read_parts hframe
    have hlen : f.hdr.totalSize.toNat = f.payload.length := hf.wellFormed
    have hpos := hf.pos
    have hend := hrest.bounds.1
    rw [Frame.encode_length] at hend hlap hrest
    rw [Memory.window_read] at hhdr hpay
    have hsize : sizeWord npu c = f.hdr.totalSize := by
      rw [h.sizeWord_eq, Memory.word32_of_read hword]
    refine .inr (.inr ⟨f, rest, hcons, fun heq => hne (by rw [heq]),
      h.peek_frame_iff.mpr ⟨by omega, hsize.symm, ?_⟩, ?_, ?_, hlap, hrest⟩)
    · unfold Deliverable
      rw [hsize, h.ring.x2iSize, hlen]
      refine ⟨?_, hf.words, ?_, by omega⟩
      · intro hzero
        rw [hzero] at hlen
        simp at hlen
        omega
      · intro htomb
        rw [htomb, show mboxTombstone.toNat = 0xDEADFACE from rfl] at hlen
        omega
    · rw [headHeader, hoff]
      exact MsgHeader.decode_of_read hhdr
    · rw [headPayload, hoff, hlen, Nat.add_assoc]
      exact hpay

end Peek

/-! ## The kick of one request -/

/-- The machine `m'` in which the handler is called with `hdr` and `payload`, after a kick of
channel `c` that was in `m` before it read the ring: only the head has moved. -/
structure Taken (c : ChanIdx) (m : Machine) (hdr : MsgHeader) (payload : List UInt8)
    (m' : Machine) : Prop where
  fw : SameFw m.npu m'.npu
  consistent : Consistent m'.npu
  chan : m'.npu.chan c = { m.npu.chan c with x2iHead := (m'.npu.chan c).x2iHead }
  sram : m'.npu.sram = m.npu.sram
  dmaWrites : m'.dmaWrites = m.dmaWrites
  trace : ∃ ws, m'.trace = m.trace ++ ws ++ [.handle c hdr payload m'.npu] ∧
    ∀ e ∈ ws, ∃ off len, e = Event.ringRead c off len

variable (host : Host) {m : Machine} {f : Frame}

/-- A pass that finds a frame hands it to the handler. -/
theorem mboxPass_taken {c : ChanIdx} {size : UInt32} (hcons : Consistent m.npu)
    (halive : m.npu.fwAlive = true) (hpeek : (m.npu.chan c).peek m.npu = .frame size) :
    ∃ m' stack, Taken c m (headHeader m.npu c) (headPayload m.npu c size) m' ∧
      (m'.npu.chan c).x2iHead = (m.npu.chan c).x2iHead + (msgHeaderSize + size) ∧
      mboxPass host c m = (answerWith host c (headHeader m.npu c)
        (mertOutcome host m' (headHeader m.npu c)
          (payloadBuffer (headPayload m.npu c size) stack)), true) := by
  generalize hm₁ : m.emit (.ringRead c (m.npu.chan c).headOff 4) = m₁
  have hnpu : m₁.npu = m.npu := by rw [← hm₁]; rfl
  have htrace : m₁.trace = m.trace ++ [.ringRead c (m.npu.chan c).headOff 4] := by rw [← hm₁]; rfl
  have hdma : m₁.dmaWrites = m.dmaWrites := by rw [← hm₁]; rfl
  refine ⟨takeFrame m₁ c size, host.stack (m.trace.length + 1), ?_, ?_, ?_⟩
  · have hcons' := hcons
    rw [← hnpu] at hcons'
    refine ⟨?_, hcons'.congr (takeFrame_sameShape ..), ?_, ?_, ?_, ?_⟩
    · exact ⟨by rw [← hnpu]; rfl, by rw [← hnpu]; rfl, by rw [← hnpu]; rfl, by rw [← hnpu]; rfl,
        by rw [← hnpu]; rfl, by rw [← hnpu]; rfl, by rw [← hnpu]; rfl⟩
    · simp [takeFrame, Npu.consume, Npu.setX2iHead, Npu.setChan, hnpu]
    · rw [← hnpu]
      rfl
    · rw [← hdma]
      rfl
    · refine ⟨[.ringRead c (m.npu.chan c).headOff 4, .ringRead c (m.npu.chan c).headOff 16,
        .ringRead c ((m.npu.chan c).headOff + 16) size.toNat], ?_, ?_⟩
      · rw [takeFrame_trace, htrace, hnpu]
        simp
      · intro e he
        simp only [List.mem_cons, List.not_mem_nil, or_false] at he
        rcases he with rfl | rfl | rfl <;> exact ⟨_, _, rfl⟩
  · simp [takeFrame, Npu.consume, Npu.setX2iHead, Npu.setChan, hnpu]
  · rw [mboxPass_deliver halive hpeek, hm₁]

/-- The event of a pass that looks for a frame and finds none. -/
def Event.IsSearch : Event → Prop
  | .ringRead .. | .reject .. => True
  | _ => False

/-- What a pass leaves: it has found no frame, or it has answered one message. -/
inductive Passed (host : Host) (c : ChanIdx) (m m' : Machine) : Prop
  | idle (h : m.Extends Event.IsSearch m') (hfw : SameFw m.npu m'.npu)
  | handled {hdr : MsgHeader} {req : List UInt8} (m₁ : Machine) (stack : Memory)
      (h : Taken c m hdr req m₁) (hlen : hdr.totalSize.toNat = req.length)
      (hm' : m' = answerWith host c hdr (mertOutcome host m₁ hdr (payloadBuffer req stack)))

/-- A pass is idle or handles one message. -/
theorem mboxPass_passed {c : ChanIdx} (hcons : Consistent m.npu) (hheads : HeadsOk m.npu)
    (hactive : (m.npu.chan c).active = true) : Passed host c m (mboxPass host c m).1 := by
  have hsame : SameFw m.npu (m.npu.setX2iHead c 0) := ⟨rfl, rfl, rfl, rfl, rfl, rfl, rfl⟩
  cases hpeek : (m.npu.chan c).peek m.npu with
  | ringEnd =>
    unfold mboxPass
    dsimp only
    rw [hpeek]
    exact .idle (.modify _) hsame
  | tombstone =>
    rw [mboxPass_tombstone hpeek]
    exact .idle ((Machine.Extends.emit trivial).trans (.modify _)) hsame
  | reject =>
    rw [mboxPass_reject hpeek]
    refine .idle ⟨_, rfl, ?_⟩ ⟨rfl, rfl, rfl, rfl, rfl, rfl, rfl⟩
    intro e he
    rcases List.mem_cons.mp he with rfl | he
    · trivial
    · rw [List.mem_singleton.mp he]
      trivial
  | frame size =>
    obtain ⟨m₁, stack, htaken, _, hpass⟩ :=
      mboxPass_taken host hcons (hcons.fwAlive_of_active hactive) hpeek
    rw [hpass]
    exact .handled m₁ stack htaken ((hheads c hactive).totalSize hpeek) rfl

/-- The answer to a message does not move the pointers of the `x2i` ring. -/
theorem answerWith_x2i (hcons : Consistent m.npu) (hdr : MsgHeader) (payload : Memory) :
    ((answerWith host 0 hdr (mertOutcome host m hdr payload)).npu.chan 0).x2iHead =
        (m.npu.chan 0).x2iHead ∧
      ((answerWith host 0 hdr (mertOutcome host m hdr payload)).npu.chan 0).x2iTail =
        (m.npu.chan 0).x2iTail := by
  obtain ⟨_, hhead, htail⟩ :=
    (answerWith_change host 0 hdr (mertOutcome host m hdr payload)).x2i 0
  have hmgmt := ((mertOutcome_effect host m hdr payload).mgmt hcons).1
  exact ⟨by rw [hhead, hmgmt], by rw [htail, hmgmt]⟩

/-- What the pass over a tombstone, or over the end of the ring, leaves. -/
theorem Taken.wrapped {m₁ m' : Machine} {hdr : MsgHeader} {payload : List UInt8}
    (ws : List Event) (hnpu : m₁.npu = m.npu.setX2iHead 0 0) (hdma : m₁.dmaWrites = m.dmaWrites)
    (htrace : m₁.trace = m.trace ++ ws) (hws : ∀ e ∈ ws, ∃ off len, e = Event.ringRead 0 off len)
    (h : Taken 0 m₁ hdr payload m') : Taken 0 m hdr payload m' := by
  have hfw : SameFw m.npu m₁.npu := by rw [hnpu]; exact ⟨rfl, rfl, rfl, rfl, rfl, rfl, rfl⟩
  refine ⟨hfw.trans h.fw, h.consistent, ?_, ?_, ?_, ?_⟩
  · rw [h.chan, hnpu]
    simp [Npu.setX2iHead, Npu.setChan]
  · rw [h.sram, hnpu]
    rfl
  · rw [h.dmaWrites, hdma]
  · obtain ⟨ws', hws', hall⟩ := h.trace
    refine ⟨ws ++ ws', by rw [hws', htrace, List.append_assoc m.trace], fun e he => ?_⟩
    rcases List.mem_append.mp he with he | he
    · exact hws e he
    · exact hall e he

/-- The passes that take the only request of the ring, with the tombstone in front of it if
there is one; the head has caught up with the tail. -/
theorem mboxLoop_request (fuel : ℕ) (hcons : Consistent m.npu) (halive : m.npu.fwAlive = true)
    (hhead : HeadOk 0 (m.npu.chan 0)) (hf : f.IsRequest) (hpos : 0 < (m.npu.chan 0).x2iTail.toNat)
    (hreq : HoldsRequests m.npu 0 [f]) :
    ∃ m' stack, Taken 0 m f.hdr f.payload m' ∧
      (m'.npu.chan 0).x2iHead = (m.npu.chan 0).x2iTail ∧
      mboxLoop host 0 (fuel + 3) m =
        answerWith host 0 f.hdr (mertOutcome host m' f.hdr (payloadBuffer f.payload stack)) := by
  have hfs : ∀ g ∈ [f], g.IsRequest := fun g hg => List.mem_singleton.mp hg ▸ hf
  -- One pass over a request that is the last one, and the end of the loop.
  have hlast (fuel : ℕ) {m : Machine} (hcons : Consistent m.npu) (halive : m.npu.fwAlive = true)
      (hhead : HeadOk 0 (m.npu.chan 0)) (hpos : 0 < (m.npu.chan 0).x2iTail.toNat)
      (hne : (m.npu.chan 0).x2iHead ≠ (m.npu.chan 0).x2iTail)
      (hpeek : (m.npu.chan 0).peek m.npu = .frame f.hdr.totalSize)
      (hhdr : headHeader m.npu 0 = f.hdr)
      (hpay : headPayload m.npu 0 f.hdr.totalSize = f.payload)
      (hrest : Holds Frame.encode tombstoneBytes (m.npu.sram.window (x2iBase 0)) (ringSize 0 - 4)
        ((m.npu.chan 0).x2iHead.toNat + (16 + f.payload.length)) (m.npu.chan 0).x2iTail.toNat []) :
      ∃ m' stack, Taken 0 m f.hdr f.payload m' ∧
        (m'.npu.chan 0).x2iHead = (m.npu.chan 0).x2iTail ∧
        mboxLoop host 0 (fuel + 2) m =
          answerWith host 0 f.hdr (mertOutcome host m' f.hdr (payloadBuffer f.payload stack)) := by
    obtain ⟨m', stack, htaken, hmoved, hpass⟩ := mboxPass_taken host hcons halive hpeek
    rw [hhdr, hpay] at htaken hpass
    have hcaught : (m'.npu.chan 0).x2iHead = (m.npu.chan 0).x2iTail := by
      have hend := hrest.eq_of_nil hpos
      have htail := (m.npu.chan 0).x2iTail.toNat_lt
      rw [← UInt32.toNat_inj, hmoved, UInt32.toNat_add, UInt32.toNat_add, hf.wellFormed,
        show msgHeaderSize.toNat = 16 from rfl]
      omega
    obtain ⟨hx2iHead, hx2iTail⟩ := answerWith_x2i host htaken.consistent f.hdr
      (payloadBuffer f.payload stack)
    refine ⟨m', stack, htaken, hcaught, ?_⟩
    rw [mboxLoop, if_neg hne, hpass]
    dsimp only
    rw [if_pos rfl, mboxLoop, if_pos]
    rw [hx2iHead, hx2iTail, hcaught, htaken.chan]
  rcases hhead.peek_holds hreq hfs with ⟨_, hnil⟩ | ⟨_, hne, hpeek, hrest⟩ |
    ⟨g, rest, hcons', hne, hpeek, hhdr, hpay, -, hrest⟩
  · cases hnil
  · -- A tombstone: the request is at the start of the ring.
    generalize hm₁ : (m.emit (.ringRead 0 (m.npu.chan 0).headOff 4)).modify
      (·.setX2iHead 0 0) = m₁
    have hnpu : m₁.npu = m.npu.setX2iHead 0 0 := by rw [← hm₁]; rfl
    have hchan : m₁.npu.chan 0 = { m.npu.chan 0 with x2iHead := 0 } := by
      rw [hnpu]
      simp [Npu.setX2iHead, Npu.setChan]
    have hcons₁ : Consistent m₁.npu := by
      rw [hnpu]
      exact hcons.congr (.of_update rfl (.pointers ..) rfl rfl rfl)
    have hhead₁ : HeadOk 0 (m₁.npu.chan 0) := by
      rw [hchan]
      exact headOk_of_zero (hhead.ring.congr (.pointers ..)) rfl
    have hpos₁ : 0 < (m₁.npu.chan 0).x2iTail.toNat := by rw [hchan]; exact hpos
    have hreq₁ : HoldsRequests m₁.npu 0 [f] := by
      unfold HoldsRequests
      rw [hchan, hnpu]
      exact hrest
    rcases hhead₁.peek_holds hreq₁ hfs with ⟨_, hnil⟩ | ⟨hpos', _⟩ |
      ⟨g, rest, hcons', hne₁, hpeek₁, hhdr, hpay, -, hrest₁⟩
    · cases hnil
    · rw [hchan] at hpos'
      exact absurd hpos' (Nat.not_lt_zero _)
    · obtain ⟨rfl, rfl⟩ := List.cons.inj hcons'
      obtain ⟨m', stack, htaken, hcaught, hloop⟩ := hlast fuel hcons₁
        (by rw [hnpu]; exact halive) hhead₁ hpos₁ hne₁ hpeek₁ hhdr hpay hrest₁
      refine ⟨m', stack, htaken.wrapped [.ringRead 0 (m.npu.chan 0).headOff 4] hnpu
        (by rw [← hm₁]; rfl) (by rw [← hm₁]; rfl) (fun e he => ⟨_, _, List.mem_singleton.mp he⟩),
        by rw [hcaught, hchan], ?_⟩
      rw [mboxLoop, if_neg hne, mboxPass_tombstone hpeek]
      dsimp only
      rw [if_pos rfl, hm₁, hloop]
  · obtain ⟨rfl, rfl⟩ := List.cons.inj hcons'
    exact hlast (fuel + 1) hcons halive hhead hpos hne hpeek hhdr hpay hrest

end Xdna
