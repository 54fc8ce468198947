import Xdna.Published
import Xdna.ReplyBounds

/-!
# A batch of requests

A driver may publish many requests with one write of the tail. The loop takes them in order;
its guard counts passes, and the pass over a tombstone is one of them. So a batch is drained
exactly when its requests, and the tombstone if there is one, are not more than the guard
allows.
-/

namespace Xdna

open ByteMemory RingLog

/-! ## One pass -/

/-- The requests `fs` are in the ring of the active channel `c`. -/
structure Batch (c : ChanIdx) (npu : Npu) (fs : List Frame) : Prop where
  consistent : Consistent npu
  active : (npu.chan c).active = true
  head : HeadOk c (npu.chan c)
  holds : HoldsRequests npu c fs
  requests : ∀ f ∈ fs, f.IsRequest

/-- The passes that a batch takes: one for each request, and one for the tombstone. -/
def batchPasses (c : ChanIdx) (npu : Npu) (fs : List Frame) : ℕ :=
  fs.length + marks (npu.chan c).x2iHead.toNat (npu.chan c).x2iTail.toNat

section Batch

variable {c : ChanIdx} {npu : Npu} {f : Frame} {fs : List Frame}

/-- The head is at the tail when no pass is left to make. -/
theorem Batch.eq_iff (h : Batch c npu fs) :
    (npu.chan c).x2iHead = (npu.chan c).x2iTail ↔ batchPasses c npu fs = 0 := by
  rw [← UInt32.toNat_inj]
  exact h.holds.eq_iff fun f => by simp

/-- The pass over the tombstone. -/
theorem Batch.wrap (h : Batch c npu fs)
    (hlt : (npu.chan c).x2iTail.toNat < (npu.chan c).x2iHead.toNat)
    (hrest : Holds Frame.encode tombstoneBytes (npu.sram.window (x2iBase c)) (ringSize c - 4) 0
      (npu.chan c).x2iTail.toNat fs) :
    Batch c (npu.setX2iHead c 0) fs ∧
      batchPasses c (npu.setX2iHead c 0) fs + 1 = batchPasses c npu fs := by
  have hchan : (npu.setX2iHead c 0).chan c = { npu.chan c with x2iHead := 0 } :=
    Npu.setX2iHead_self ..
  constructor
  · constructor
    case consistent =>
      exact h.consistent.congr (.of_update rfl (.pointers ..) rfl rfl rfl)
    case active =>
      rw [hchan]
      exact h.active
    case head =>
      rw [hchan]
      exact headOk_of_zero (h.head.ring.congr (.pointers ..)) rfl
    case holds =>
      unfold HoldsRequests
      rw [hchan]
      exact hrest
    case requests => exact h.requests
  · unfold batchPasses marks
    rw [hchan, if_pos hlt]
    rfl

/-- The pass over a request that leaves the channel alive. -/
theorem Batch.take {npu' : Npu} {tail : UInt32} (h : Batch c npu (f :: fs))
    (hcons : Consistent npu')
    (hchan : npu'.chan c = { npu.chan c with
      x2iHead := (npu.chan c).x2iHead + (msgHeaderSize + f.hdr.totalSize), i2xTail := tail })
    (hmoved : (npu'.chan c).x2iHead.toNat = (npu.chan c).x2iHead.toNat + (16 + f.payload.length))
    (hsram : ∀ a, x2iBase c ≤ a → a < i2xBase c + ringSize c → npu'.sram a = npu.sram a)
    (hlap : (npu.chan c).x2iTail.toNat < (npu.chan c).x2iHead.toNat + (16 + f.payload.length) ↔
      (npu.chan c).x2iTail.toNat < (npu.chan c).x2iHead.toNat)
    (hrest : Holds Frame.encode tombstoneBytes (npu.sram.window (x2iBase c)) (ringSize c - 4)
      ((npu.chan c).x2iHead.toNat + (16 + f.payload.length)) (npu.chan c).x2iTail.toNat fs) :
    Batch c npu' fs ∧ batchPasses c npu' fs + 1 = batchPasses c npu (f :: fs) := by
  have htail : (npu'.chan c).x2iTail = (npu.chan c).x2iTail := by rw [hchan]
  have hwords := (h.requests f (List.mem_cons_self ..)).words
  have halign := h.head.aligned
  have hend := hrest.bounds.1
  constructor
  · constructor
    case consistent => exact hcons
    case active =>
      rw [hchan]
      exact h.active
    case head =>
      refine ⟨?_, ?_, ?_⟩
      · rw [hchan]
        exact h.head.ring.congr (.pointers ..)
      · rw [hmoved]
        omega
      · rw [hmoved]
        omega
    case holds =>
      unfold HoldsRequests
      rw [hmoved, htail]
      apply Holds.congr hrest
      intro i hi
      have hbase : i2xBase c = x2iBase c + ringSize c := rfl
      have hsize := (i2xBase_bounds c).1
      rw [tombstoneBytes_length] at hi
      exact (hsram _ (Nat.le_add_right _ _) (by omega)).symm
    case requests => exact fun g hg => h.requests g (List.mem_cons_of_mem f hg)
  · unfold batchPasses marks
    rw [hmoved, htail, List.length_cons]
    simp only [hlap]
    omega

/-- What a pass over a batch does: it goes back over the tombstone, or takes the first request. The
others are in the ring then, unless the first one has destroyed the channel. -/
theorem Batch.pass (h : Batch c npu fs) (hne : (npu.chan c).x2iHead ≠ (npu.chan c).x2iTail) :
    (npu.requestPass c = some (none, npu.setX2iHead c 0) ∧ Batch c (npu.setX2iHead c 0) fs ∧
      batchPasses c (npu.setX2iHead c 0) fs + 1 = batchPasses c npu fs) ∨
    ∃ f rest, fs = f :: rest ∧ npu.requestPass c =
        some (some ((npu.chan c).x2iHead.toNat, f), npu.takeMessage c f.hdr.totalSize) ∧
      headHeader npu c = f.hdr ∧ headPayload npu c f.hdr.totalSize = f.payload ∧
      ((Batch c (npu.takeMessage c f.hdr.totalSize) rest ∧
          (npu.takeMessage c f.hdr.totalSize).chan c = { npu.chan c with
            x2iHead := (npu.chan c).x2iHead + (msgHeaderSize + f.hdr.totalSize)
            i2xTail := (npu.chan c).replyTail f.hdr } ∧
          batchPasses c (npu.takeMessage c f.hdr.totalSize) rest + 1 = batchPasses c npu fs) ∨
        ((∃ s, c = slotChan s ∧ Destroys (npu.consume c f.hdr.totalSize) f.hdr
            (Memory.ofBytes f.payload) s) ∧
          ((npu.takeMessage c f.hdr.totalSize).chan c).x2iHead =
            ((npu.takeMessage c f.hdr.totalSize).chan c).x2iTail ∧
          ((npu.takeMessage c f.hdr.totalSize).chan c).active = false)) := by
  rcases h.head.peek_holds h.holds h.requests with ⟨heq, _⟩ | ⟨hlt, _, hpeek, hrest⟩ |
    ⟨f, rest, rfl, _, hpeek, hhdr, hpay, hlap, hrest⟩
  · exact absurd heq hne
  · refine .inl ⟨?_, h.wrap hlt hrest⟩
    rw [Npu.requestPass, if_neg hne, hpeek]
  · refine .inr ⟨f, rest, rfl, ?_, hhdr, hpay, ?_⟩
    · rw [Npu.requestPass, if_neg hne, hpeek]
      dsimp only
      rw [hhdr, hpay]
    · have hcons' := takeMessage_consistent f.hdr.totalSize h.consistent h.active
      rcases takeMessage_cases h.consistent h.active h.head hpeek with
        ⟨hchan, hmoved, hsram⟩ | hdead
      · rw [(h.requests f (List.mem_cons_self ..)).wellFormed] at hmoved
        obtain ⟨hbatch, hcount⟩ := h.take hcons' hchan hmoved hsram hlap hrest
        rw [hhdr] at hchan
        exact .inl ⟨hbatch, hchan, hcount⟩
      · rw [hhdr, hpay] at hdead
        exact .inr hdead

end Batch

/-! ## The whole loop -/

section Loop

variable {c : ChanIdx} {npu : Npu} {fs : List Frame}

/-- The loop over a batch that does not destroy its channel: with passes enough it takes all
requests in order, and without it does not get to the tail. -/
theorem Batch.loop (h : Batch c npu fs) (fuel : ℕ)
    (hactive : ((requestLoop c fuel npu).2.chan c).active = true) :
    (batchPasses c npu fs ≤ fuel →
      ((requestLoop c fuel npu).1.filterMap id).map Prod.snd = fs ∧
        ((requestLoop c fuel npu).2.chan c).x2iHead = (npu.chan c).x2iTail) ∧
    (fuel < batchPasses c npu fs →
      ((requestLoop c fuel npu).2.chan c).x2iHead ≠ (npu.chan c).x2iTail) ∧
    ((requestLoop c fuel npu).2.chan c).x2iTail = (npu.chan c).x2iTail := by
  induction fuel generalizing npu fs with
  | zero =>
    refine ⟨fun hle => ?_, fun hlt heq => ?_, rfl⟩
    · have hzero : batchPasses c npu fs = 0 := Nat.le_zero.mp hle
      have hnil : fs.length = 0 := (Nat.add_eq_zero_iff.mp hzero).1
      exact ⟨(List.length_eq_zero_iff.mp hnil).symm, h.eq_iff.mpr hzero⟩
    · rw [h.eq_iff.mp heq] at hlt
      exact Nat.lt_irrefl _ hlt
  | succ fuel ih =>
    by_cases heq : (npu.chan c).x2iHead = (npu.chan c).x2iTail
    · have hzero := h.eq_iff.mp heq
      have hnil : fs.length = 0 := (Nat.add_eq_zero_iff.mp hzero).1
      rw [requestLoop_of_eq _ heq]
      refine ⟨fun _ => ⟨(List.length_eq_zero_iff.mp hnil).symm, heq⟩, fun hlt => ?_, rfl⟩
      rw [hzero] at hlt
      exact absurd hlt (Nat.not_lt_zero _)
    · rcases h.pass heq with ⟨hpass, hbatch, hcount⟩ |
        ⟨f, rest, rfl, hpass, -, -, ⟨hbatch, hchan, hcount⟩ | ⟨-, hend, hdead⟩⟩
      · rw [requestLoop_some fuel hpass] at hactive ⊢
        obtain ⟨hall, hsome, htail⟩ := ih hbatch hactive
        rw [Npu.setX2iHead_self] at hall hsome htail
        dsimp only at hall hsome htail
        exact ⟨fun hle => hall (by omega), fun hlt => hsome (by omega), htail⟩
      · rw [requestLoop_some fuel hpass] at hactive ⊢
        obtain ⟨hall, hsome, htail⟩ := ih hbatch hactive
        rw [hchan] at hall hsome htail
        dsimp only at hall hsome htail
        refine ⟨fun hle => ?_, fun hlt => hsome (by omega), htail⟩
        obtain ⟨hframes, hhead⟩ := hall (by omega)
        exact ⟨congrArg (f :: ·) hframes, hhead⟩
      · rw [requestLoop_some fuel hpass, requestLoop_of_eq fuel hend] at hactive
        dsimp only at hactive
        rw [hdead] at hactive
        cases hactive

/-- The frame is no `DESTROY_CONTEXT` of the context whose channel is `c`. -/
def Frame.Spares (npu : Npu) (c : ChanIdx) (f : Frame) : Prop :=
  ∀ s, c = slotChan s → f.hdr.opcode = MsgOpcode.destroyContext.code →
    (DestroyCtxReq.decode (Memory.ofBytes f.payload)).contextId ≠ (npu.ctx s).id

/-- The context of an active channel keeps its id, unless the message destroys it. -/
theorem MsgEffect.own_id {npu npu' : Npu} {hdr : MsgHeader} {payload : Memory} {s : SlotIdx}
    (h : MsgEffect npu hdr payload npu') (hcons : Consistent npu)
    (hactive : (npu.chan (slotChan s)).active = true) :
    (npu'.ctx s).id = (npu.ctx s).id ∨ Destroys npu hdr payload s := by
  cases h with
  | none => exact .inl rfl
  | runtimeConfig _ _ => exact .inl rfl
  | pasid _ => exact .inl rfl
  | suspend _ => exact .inl rfl
  | async _ _ => exact .inl rfl
  | create s' _ _ hfree _ =>
    have hne : s ≠ s' := fun heq => hcons.ne_freeSlot hactive hfree (by rw [heq])
    rw [createContext_ctx, Function.update_of_ne hne]
    exact .inl rfl
  | destroy s' hop hlen hid =>
    by_cases hs : s = s'
    · subst hs
      exact .inr ⟨hop, hlen, hid⟩
    · rw [destroyContext_ctx, Function.update_of_ne hs]
      exact .inl rfl
  | heap s' _ _ _ =>
    left
    unfold mapHeap Npu.setCtx
    dsimp only
    by_cases hs : s = s'
    · subst hs
      rw [Function.update_self]
    · rw [Function.update_of_ne hs]

/-- A message that spares the channel leaves the id of its context alone. -/
theorem takeMessage_own_id {size : UInt32} {s : SlotIdx} (hcons : Consistent npu)
    (hactive : (npu.chan (slotChan s)).active = true)
    (hkeep : ¬ Destroys (npu.consume (slotChan s) size) (headHeader npu (slotChan s))
      (Memory.ofBytes (headPayload npu (slotChan s) size)) s) :
    ((npu.takeMessage (slotChan s) size).ctx s).id = (npu.ctx s).id := by
  have heffect := mertStep_effect (npu.consume (slotChan s) size) (headHeader npu (slotChan s))
    (Memory.ofBytes (headPayload npu (slotChan s) size))
  have hshape := takeFrame_sameShape ⟨npu, 0, 0, []⟩ (slotChan s) size
  have hactive' : ((npu.consume (slotChan s) size).chan (slotChan s)).active = true := by
    rw [Npu.consume_self]
    exact hactive
  unfold Npu.takeMessage
  dsimp only
  exact (heffect.own_id (hcons.congr hshape) hactive').resolve_right hkeep

/-- A batch whose requests spare the channel leaves it active. -/
theorem Batch.keeps (h : Batch c npu fs) (hspares : ∀ f ∈ fs, f.Spares npu c) (fuel : ℕ) :
    ((requestLoop c fuel npu).2.chan c).active = true := by
  induction fuel generalizing npu fs with
  | zero => exact h.active
  | succ fuel ih =>
    by_cases heq : (npu.chan c).x2iHead = (npu.chan c).x2iTail
    · rw [requestLoop_of_eq _ heq]
      exact h.active
    · rcases h.pass heq with ⟨hpass, hbatch, -⟩ | ⟨f, rest, rfl, hpass, hhdr, hpay, hafter⟩
      · rw [requestLoop_some fuel hpass]
        exact ih hbatch hspares
      · have hkeep : ∀ s, c = slotChan s → ¬ Destroys (npu.consume c f.hdr.totalSize) f.hdr
            (Memory.ofBytes f.payload) s := by
          intro s hs hdestroys
          exact hspares f (List.mem_cons_self ..) s hs hdestroys.opcode
            (ctxById_valid hdestroys.found).2.symm
        rcases hafter with ⟨hbatch, -, -⟩ | ⟨⟨s, hs, hdestroys⟩, -⟩
        · rw [requestLoop_some fuel hpass]
          apply ih hbatch
          intro g hg s hs hop
          subst hs
          rw [takeMessage_own_id h.consistent h.active (by rw [hhdr, hpay]; exact hkeep s rfl)]
          exact hspares g (List.mem_cons_of_mem f hg) s rfl hop
        · exact absurd hdestroys (hkeep s hs)

end Loop

/-! ## A kick -/

/-- The frames that the kick of channel `c` hands to the message handler, with their channels. -/
def kickFrames (host : Host) (m : Machine) (c : ChanIdx) (v : UInt32) : List (ChanIdx × Frame) :=
  ((taken (kickChan host m c v).trace).drop (taken m.trace).length).map fun x => (x.1, x.2.2)

section Kick

variable (host : Host) {c : ChanIdx} {v : UInt32}

/-- What a kick hands over, and where it leaves the pointers of the ring. -/
theorem kick_requestLoop {m : Machine} (hcons : Consistent m.npu) (hheads : HeadsOk m.npu)
    (hactive : (m.npu.chan c).active = true)
    (hroom : (m.npu.chan c).i2xBuf.toNat + (m.npu.chan c).i2xTail.toNat ≤ barSramSize) :
    let r := requestLoop c mboxMaxMsgPerKick (tailWritten m c v).npu
    kickFrames host m c v = ((r.1.filterMap id).map Prod.snd).map (c, ·) ∧
      ∃ intr, (kickChan host m c v).npu.chan c = { r.2.chan c with intr := intr } := by
  intro r
  obtain ⟨hend, htaken⟩ : _ ∧ taken (mboxLoop host c mboxMaxMsgPerKick _).trace = _ :=
    (Follows.kick v hcons hheads hactive hroom).loop
  rw [← kickChan_eq host v hcons hactive] at hend htaken
  refine ⟨?_, hend.answered.registers⟩
  rw [kickFrames, htaken, show (tailWritten m c v).trace = m.trace from rfl, List.drop_left,
    List.map_map, List.map_map]
  rfl

/-- With a driver that stores offsets of the ring, the replies end inside the SRAM. -/
theorem TailOk.le_barSramSize {ch : Channel} (h : TailOk c ch) :
    ch.i2xBuf.toNat + ch.i2xTail.toNat ≤ barSramSize := by
  have hroom := h.room
  have hend := (replyRing_bounds c).2.2
  rw [h.ring.i2xBuf]
  omega

/-- The batch that a tail write publishes. -/
theorem Batch.kick {m : Machine} {fs : List Frame} (hcons : Consistent m.npu)
    (hheads : HeadsOk m.npu) (hactive : (m.npu.chan c).active = true)
    (hholds : HoldsRequests (tailWritten m c v).npu c fs) (hfs : ∀ f ∈ fs, f.IsRequest) :
    Batch c (tailWritten m c v).npu fs ∧ batchPasses c (tailWritten m c v).npu fs =
      fs.length + marks (m.npu.chan c).x2iHead.toNat v.toNat := by
  have hsteps : Steps .accepting (fun _ _ => True) m (tailWritten m c v) :=
    .single (.guest m c (.x2iTail v))
  have hchan : (tailWritten m c v).npu.chan c = { m.npu.chan c with x2iTail := v } :=
    Npu.setChan_self ..
  have hactive' : ((tailWritten m c v).npu.chan c).active = true := by
    rw [hchan]
    exact hactive
  refine ⟨⟨hsteps.consistent hcons, hactive', ?_, hholds, hfs⟩, ?_⟩
  · exact hsteps.headsOk hcons hheads c hactive'
  · rw [batchPasses, hchan]

/-- A kick whose requests spare the channel leaves it active. -/
theorem kick_keeps {m : Machine} {fs : List Frame} (hcons : Consistent m.npu)
    (hheads : HeadsOk m.npu) (hactive : (m.npu.chan c).active = true)
    (hroom : (m.npu.chan c).i2xBuf.toNat + (m.npu.chan c).i2xTail.toNat ≤ barSramSize)
    (hholds : HoldsRequests (tailWritten m c v).npu c fs) (hfs : ∀ f ∈ fs, f.IsRequest)
    (hspares : ∀ f ∈ fs, f.Spares (tailWritten m c v).npu c) :
    ((kickChan host m c v).npu.chan c).active = true := by
  obtain ⟨hbatch, -⟩ := Batch.kick hcons hheads hactive hholds hfs
  obtain ⟨-, intr, hchan⟩ := @kick_requestLoop host c v m hcons hheads hactive hroom
  rw [hchan]
  exact hbatch.keeps hspares mboxMaxMsgPerKick

/-- The kick hands over the requests `fs`, once and in order, and brings the head to the tail. -/
def Drained (m : Machine) (c : ChanIdx) (v : UInt32) (fs : List Frame) : Prop :=
  kickFrames host m c v = fs.map (c, ·) ∧ ((kickChan host m c v).npu.chan c).x2iHead = v ∧
    ((kickChan host m c v).npu.chan c).x2iTail = v

/-- The guard counts the requests, and the tombstone with them. -/
theorem drained_iff {m : Machine} {fs : List Frame} (hcons : Consistent m.npu)
    (hheads : HeadsOk m.npu) (hactive : (m.npu.chan c).active = true)
    (hroom : (m.npu.chan c).i2xBuf.toNat + (m.npu.chan c).i2xTail.toNat ≤ barSramSize)
    (hholds : HoldsRequests (tailWritten m c v).npu c fs) (hfs : ∀ f ∈ fs, f.IsRequest)
    (hkeep : ((kickChan host m c v).npu.chan c).active = true) :
    Drained host m c v fs ↔
      fs.length + marks (m.npu.chan c).x2iHead.toNat v.toNat ≤ mboxMaxMsgPerKick := by
  obtain ⟨hbatch, hpasses⟩ := Batch.kick hcons hheads hactive hholds hfs
  obtain ⟨hframes, intr, hchan⟩ := @kick_requestLoop host c v m hcons hheads hactive hroom
  have htailv : ((tailWritten m c v).npu.chan c).x2iTail = v := by
    rw [show (tailWritten m c v).npu.chan c = _ from Npu.setChan_self ..]
  rw [hchan] at hkeep
  obtain ⟨hall, hsome, htail⟩ := hbatch.loop mboxMaxMsgPerKick hkeep
  rw [htailv] at hall hsome htail
  rw [hpasses] at hall hsome
  unfold Drained
  rw [hframes, hchan]
  constructor
  · intro hdrained
    by_contra hmore
    exact hsome (Nat.lt_of_not_le hmore) hdrained.2.1
  · intro hle
    obtain ⟨hfs', hhead⟩ := hall hle
    exact ⟨by rw [hfs'], hhead, htail⟩

end Kick

/-! ## Batches of short frames -/

/-- A frame of 20 bytes, the shortest there is. -/
def shortFrame (opcode : UInt32) : Frame := ⟨requestHeader 1 opcode 4, [0, 0, 0, 0]⟩

/-- Short frames are requests. -/
theorem shortFrame_isRequest (n : ℕ) (opcode : UInt32) :
    ∀ f ∈ List.replicate n (shortFrame opcode), f.IsRequest := by
  intro f hf
  obtain rfl := List.eq_of_mem_replicate hf
  have hpayload : (shortFrame opcode).payload = [0, 0, 0, 0] := rfl
  exact ⟨rfl, by rw [hpayload]; rfl, by rw [hpayload]; exact List.cons_ne_nil _ _⟩

/-- Short frames with another opcode than DESTROY_CONTEXT spare every channel. -/
theorem shortFrame_spares (n : ℕ) {opcode : UInt32} (h : opcode ≠ MsgOpcode.destroyContext.code)
    (npu : Npu) (c : ChanIdx) : ∀ f ∈ List.replicate n (shortFrame opcode), f.Spares npu c := by
  intro f hf s hs hop
  obtain rfl := List.eq_of_mem_replicate hf
  exact absurd hop h

/-- Short frames take up 20 bytes each. -/
theorem image_shortFrame_length (n : ℕ) (opcode : UInt32) :
    (image Frame.encode (List.replicate n (shortFrame opcode))).length = 20 * n := by
  induction n with
  | zero => rfl
  | succ n ih =>
    rw [List.replicate_succ, image_cons, List.length_append, ih, Frame.encode_length]
    change 20 + 20 * n = _
    omega

/-- A copy into the SRAM changes no register of a channel. -/
theorem mmioWriteBuf_sram_chan (host : Host) (m : Machine) (off : UInt32) (bytes : List UInt8) :
    (mmioWriteBuf host m barSram off bytes).npu.chan = m.npu.chan := by
  rw [mmioWriteBuf, if_pos rfl]
  split <;> rfl

/-- A batch that the guest copies to where the head of the device is. -/
theorem holdsRequests_written (host : Host) {m : Machine} {c : ChanIdx} {off v : UInt32}
    {fs : List Frame} (hoff : off.toNat = x2iBase c + (m.npu.chan c).x2iHead.toNat)
    (hv : v.toNat = (m.npu.chan c).x2iHead.toNat + (image Frame.encode fs).length)
    (hfits : v.toNat ≤ ringSize c - 4) :
    HoldsRequests (tailWritten (mmioWriteBuf host m barSram off (image Frame.encode fs)) c v).npu c
      fs := by
  obtain ⟨_, hle, hend⟩ := ringSize_bounds c
  rw [mmioWriteBuf_sram (by omega), hoff]
  unfold HoldsRequests
  rw [show (tailWritten _ c v).npu.chan c = _ from Npu.setChan_self ..]
  refine .straight hfits ⟨hv, ?_⟩
  change ((m.npu.sram.write (x2iBase c + (m.npu.chan c).x2iHead.toNat)
    (image Frame.encode fs)).window (x2iBase c)).read (m.npu.chan c).x2iHead.toNat _ = _
  rw [Memory.window_write]
  exact Memory.read_write_self ..

/-- A copy into the SRAM is no write to a head register. -/
theorem headWrites_writeBuf_sram (off : UInt32) (bytes : List UInt8) :
    (GuestOp.writeBuf barSram off bytes).headWrites = [] := by
  rw [GuestOp.headWrites, List.filterMap_eq_nil_iff]
  intro w _
  rw [headWrite?, if_neg (by decide)]

/-- The firmware runs and has one context, and the driver has taken the reply off the ring. -/
def oneContextOps : List GuestOp :=
  validateOps ++
  [.write barReg regPubSecIntr 1 4,
    .writeBuf barSram sramMgmtX2iOff
      ((requestHeader 1 0x2 28).encode ++ [0, 0, 0, 0, 0, 1] ++ List.replicate 22 0),
    .write barMbox mboxX2iTailOff 44 4, .write barMbox mboxI2xHeadOff 92 4]

/-- The same, and in the ring of the context lie `n` frames of 20 bytes. -/
def batchOps (n : ℕ) : List GuestOp :=
  oneContextOps ++
  [.writeBuf barSram (ctxRbBase 0) (image Frame.encode (List.replicate n (shortFrame 0x108)))]

private theorem batchOps_headsOk (n : ℕ) : ∀ op ∈ batchOps n, op.HeadsOk WithinRing := by
  have hcontext : ∀ op ∈ oneContextOps, op.HeadsOk WithinRing := by decide +kernel
  intro op hop w hw
  rcases List.mem_append.mp hop with hop | hop
  · exact hcontext op hop w hw
  · rw [List.mem_singleton.mp hop, headWrites_writeBuf_sram] at hw
    cases hw

private theorem batchOps_holds {n : ℕ} {v : UInt32} (hv : v.toNat = 20 * n) (hn : n ≤ 409) :
    let m := guestRun .accepting (batchOps n)
    (m.npu.chan 1).active = true ∧ (m.npu.chan 1).x2iHead = 0 ∧
      HoldsRequests (tailWritten m 1 v).npu 1 (List.replicate n (shortFrame 0x108)) := by
  intro m
  have hlen := image_shortFrame_length n 0x108
  have hsize : 20 * 409 ≤ ringSize 1 - 4 ∧ (ctxRbBase 0).toNat = x2iBase 1 := by decide
  have hactive : ((guestRun .accepting oneContextOps).npu.chan 1).active = true ∧
      ((guestRun .accepting oneContextOps).npu.chan 1).x2iHead = 0 := by decide +kernel
  have hm : m = mmioWriteBuf .accepting (guestRun .accepting oneContextOps) barSram (ctxRbBase 0)
      (image Frame.encode (List.replicate n (shortFrame 0x108))) := guestRun_snoc ..
  rw [hm, mmioWriteBuf_sram_chan]
  refine ⟨hactive.1, hactive.2, holdsRequests_written _ ?_ ?_ (by omega)⟩
  · rw [hsize.2, hactive.2]
    rfl
  · rw [hv, hlen, hactive.2]
    exact (Nat.zero_add _).symm

/-- The short frames leave the channel of the context active. -/
theorem batchOps_keeps {n : ℕ} {v : UInt32} (hv : v.toNat = 20 * n) (hn : n ≤ 409) :
    ((kickChan .accepting (guestRun .accepting (batchOps n)) 1 v).npu.chan 1).active = true := by
  obtain ⟨hactive, -, hholds⟩ := batchOps_holds hv hn
  have htails := guestRun_tailsOk .accepting (batchOps n) (batchOps_headsOk n) 1 hactive
  exact kick_keeps _ (guestRun_consistent ..) (guestRun_headsOk .accepting (batchOps n)) hactive
    htails.le_barSramSize hholds (shortFrame_isRequest n 0x108)
    (shortFrame_spares n (by decide) _ 1)

/-! ## What a kick drains -/

/-- A kick that publishes a batch, in a state that was reached with a driver that stores offsets of
the ring. The batch lies in the ring from the head of the device to the new tail `v`, and the
channel is not destroyed on the way. All requests are handed over, once and in order, and the head
gets to the tail, exactly when requests and tombstone are within the guard of the loop. -/
theorem kick_drains_iff (host : Host) (ops : List GuestOp)
    (hops : ∀ op ∈ ops, op.HeadsOk WithinRing) (c : ChanIdx) (v : UInt32) (fs : List Frame) :
    let m := guestRun host ops
    (m.npu.chan c).active = true → HoldsRequests (tailWritten m c v).npu c fs →
    (∀ f ∈ fs, f.IsRequest) → ((kickChan host m c v).npu.chan c).active = true →
    (Drained host m c v fs ↔
      fs.length + marks (m.npu.chan c).x2iHead.toNat v.toNat ≤ mboxMaxMsgPerKick) := by
  intro m hactive
  exact drained_iff host (guestRun_consistent host ops) (guestRun_headsOk host ops) hactive
    (guestRun_tailsOk host ops hops c hactive).le_barSramSize

/-- A batch of 256 requests, as many as the guard allows. -/
theorem kick_drains_iff_batchOps :
    let m := guestRun .accepting (batchOps 256)
    let fs := List.replicate 256 (shortFrame 0x108)
    Drained .accepting m 1 5120 fs ↔
      fs.length + marks (m.npu.chan 1).x2iHead.toNat (5120 : UInt32).toNat ≤
        mboxMaxMsgPerKick := by
  have hv : (5120 : UInt32).toNat = 20 * 256 := by decide
  have hn : 256 ≤ 409 := by decide
  exact kick_drains_iff .accepting (batchOps 256) (batchOps_headsOk 256) 1 5120
    (List.replicate 256 (shortFrame 0x108)) (batchOps_holds hv hn).1 (batchOps_holds hv hn).2.2
    (shortFrame_isRequest 256 0x108) (batchOps_keeps hv hn)

/-- The same for a batch none of whose messages destroys the context that the channel belongs to. -/
theorem spared_drains_iff (host : Host) {ops : List GuestOp}
    (hops : ∀ op ∈ ops, op.HeadsOk WithinRing) {c : ChanIdx} {v : UInt32} {fs : List Frame}
    (hactive : ((guestRun host ops).npu.chan c).active = true)
    (hholds : HoldsRequests (tailWritten (guestRun host ops) c v).npu c fs)
    (hfs : ∀ f ∈ fs, f.IsRequest)
    (hspares : ∀ f ∈ fs, f.Spares (tailWritten (guestRun host ops) c v).npu c) :
    Drained host (guestRun host ops) c v fs ↔
      fs.length + marks ((guestRun host ops).npu.chan c).x2iHead.toNat v.toNat ≤
        mboxMaxMsgPerKick := by
  have hcons := guestRun_consistent host ops
  have hheads := guestRun_headsOk host ops
  have hroom := (guestRun_tailsOk host ops hops c hactive).le_barSramSize
  exact drained_iff host hcons hheads hactive hroom hholds hfs
    (kick_keeps host hcons hheads hactive hroom hholds hfs hspares)

/-- 257 requests of 20 bytes fit into the ring of a context, and are not drained. -/
theorem kick_not_drained :
    let m := guestRun .accepting (batchOps 257)
    let fs := List.replicate 257 (shortFrame 0x108)
    (∀ op ∈ batchOps 257, op.HeadsOk WithinRing) ∧ (m.npu.chan 1).active = true ∧
      HoldsRequests (tailWritten m 1 5140).npu 1 fs ∧ (∀ f ∈ fs, f.IsRequest) ∧
      (5140 : UInt32) ≠ (m.npu.chan 1).x2iHead ∧
      (∀ f ∈ fs, f.Spares (tailWritten m 1 5140).npu 1) ∧
      ¬ Drained .accepting m 1 5140 fs := by
  have hv : (5140 : UInt32).toNat = 20 * 257 := by decide
  have hn : 257 ≤ 409 := by decide
  obtain ⟨hactive, hhead, hholds⟩ := batchOps_holds hv hn
  have hrequests := shortFrame_isRequest 257 0x108
  have htails := guestRun_tailsOk .accepting (batchOps 257) (batchOps_headsOk 257) 1 hactive
  refine ⟨batchOps_headsOk 257, hactive, hholds, hrequests, ?_,
    shortFrame_spares 257 (by decide) _ 1, ?_⟩
  · rw [hhead]
    decide
  · rw [drained_iff .accepting (guestRun_consistent .accepting (batchOps 257))
      (guestRun_headsOk .accepting (batchOps 257)) hactive htails.le_barSramSize hholds hrequests
      (batchOps_keeps hv hn), List.length_replicate]
    have hguard : mboxMaxMsgPerKick < 257 := by decide
    omega

end Xdna
