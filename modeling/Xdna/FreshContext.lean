import Xdna.Rejection
import Xdna.ReplyRing

/-!
# New contexts are new

A slot that is taken again brings nothing of its last tenant along: the creation of a context
writes every field of the slot and of its channel, and clears both rings. Two states
that differ only in what belongs to the free slot are equal afterwards.
-/

namespace Xdna

open ByteMemory

/-- The offset in SRAM lies in the rings of slot `s`. -/
def InSlotRings (s : SlotIdx) (a : ℕ) : Prop :=
  (ctxRbBase s).toNat ≤ a ∧ a < (ctxRbBase s).toNat + sramCtxRbStride.toNat

/-- The two states are equal except in what belongs to slot `s`, which is free in both: its
context record, its channel and its rings. -/
structure SameButSlot (s : SlotIdx) (npu npu' : Npu) : Prop where
  rest : npu' = { npu with sram := npu'.sram, chan := npu'.chan, ctx := npu'.ctx }
  sram : ∀ a, ¬ InSlotRings s a → npu'.sram a = npu.sram a
  chan : ∀ c, c ≠ slotChan s → npu'.chan c = npu.chan c
  ctx : ∀ s', s' ≠ s → npu'.ctx s' = npu.ctx s'
  free : (npu.ctx s).valid = false ∧ (npu'.ctx s).valid = false

variable {s : SlotIdx} {npu npu' : Npu}

/-- The search for a free slot does not look at the records of free slots. -/
theorem SameButSlot.freeSlot (h : SameButSlot s npu npu') :
    Xdna.freeSlot npu' = Xdna.freeSlot npu := by
  have hvalid : (fun s' => !(npu'.ctx s').valid) = fun s' => !(npu.ctx s').valid := by
    funext s'
    by_cases hs : s' = s
    · rw [hs, h.free.1, h.free.2]
    · rw [h.ctx s' hs]
  rw [Xdna.freeSlot, Xdna.freeSlot, hvalid]

private theorem update_eq_of_others {ι α : Type*} [DecidableEq ι] {f g : ι → α} {i : ι} (x : α)
    (h : ∀ j, j ≠ i → f j = g j) : Function.update f i x = Function.update g i x := by
  funext j
  by_cases hj : j = i
  · rw [hj, Function.update_self, Function.update_self]
  · rw [Function.update_of_ne hj, Function.update_of_ne hj, h j hj]

/-- The creation overwrites all that the two states may differ in. -/
theorem SameButSlot.createContext (h : SameButSlot s npu npu') (req : CreateCtxReq) :
    Xdna.createContext npu' s req = Xdna.createContext npu s req := by
  have hsram : npu'.sram.clear (ctxRbBase s).toNat sramCtxRbStride.toNat =
      npu.sram.clear (ctxRbBase s).toNat sramCtxRbStride.toNat := by
    funext a
    by_cases ha : InSlotRings s a
    · unfold InSlotRings at ha
      simp only [Memory.clear, if_pos ha]
    · have heq := h.sram a ha
      unfold InSlotRings at ha
      simp only [Memory.clear, if_neg ha, heq]
  have hcreated : createdContext npu' s req = createdContext npu s req := by
    rw [createdContext, createdContext, h.rest]
  rw [createContext_eq, createContext_eq, hsram, hcreated, update_eq_of_others _ h.chan,
    update_eq_of_others _ h.ctx, h.rest]

/-- A creation that succeeds has found a free slot and a possible number of columns. -/
theorem createStep_success {hdr : MsgHeader} {req : CreateCtxReq} {a : Answer}
    (h : (createStep npu hdr req).2 = some a) (ha : a.1 = .success) :
    ∃ s, Xdna.freeSlot npu = some s ∧ ¬ hdr.totalSize < CreateCtxReq.size ∧
      ¬ (req.numCol = 0 ∨ aieCols < req.numCol.toNat) := by
  have hbad {status : MsgStatus} (heq : some (statusAnswer hdr status) = some a)
      (hne : status ≠ .success) : False := by
    apply hne
    rw [← ha, ← Option.some.inj heq, statusAnswer]
  unfold createStep at h
  split at h
  · exact (hbad h (by decide)).elim
  · rename_i hlong
    cases hfree : Xdna.freeSlot npu with
    | none =>
      rw [hfree] at h
      exact (hbad h (by decide)).elim
    | some s =>
      rw [hfree] at h
      dsimp only at h
      split at h
      · exact (hbad h (by decide)).elim
      · exact ⟨s, rfl, hlong, ‹_›⟩

/-- A creation whose reply carries the status 0 has taken a free slot, and its reply describes
the channel of that slot. -/
theorem create_accepted {host : Host} {m : Machine} {c : ChanIdx} {hdr : MsgHeader}
    {payload : Memory} {f : Frame} (halive : m.npu.fwAlive = true)
    (hop : hdr.opcode = MsgOpcode.createContext.code)
    (hreply : replies (mertHandle host m c hdr payload).trace = replies m.trace ++ [(c, f)])
    (hstatus : f.status = 0) :
    ∃ s, Xdna.freeSlot m.npu = some s ∧ ¬ hdr.totalSize < CreateCtxReq.size ∧
      ¬ ((CreateCtxReq.decode payload).numCol = 0 ∨
        aieCols < (CreateCtxReq.decode payload).numCol.toNat) ∧
      mertOutcome host m hdr payload =
        npuOutcome m (createStep m.npu hdr (CreateCtxReq.decode payload)) ∧
      f = replyFrame hdr.id hdr.opcode
        (createReply (Xdna.createContext m.npu s (CreateCtxReq.decode payload)) s).encode := by
  have houtcome : mertOutcome host m hdr payload =
      npuOutcome m (createStep m.npu hdr (CreateCtxReq.decode payload)) := by
    rw [mertOutcome, MsgOpcode.ofCode?_eq_some.mpr hop.symm, if_neg (by decide), mertStep]
  have hreplies := replies_mertHandle host c hdr payload halive
  rw [hreply, houtcome] at hreplies
  obtain ⟨a, ha⟩ : ∃ a, (createStep m.npu hdr (CreateCtxReq.decode payload)).2 = some a := by
    rw [← Option.isSome_iff_exists, ← Option.ne_none_iff_isSome]
    intro hnone
    have hlen := congrArg List.length hreplies
    simp [npuOutcome, hnone] at hlen
  have hframe : f = replyFrame hdr.id hdr.opcode a.2 := by
    dsimp only [npuOutcome] at hreplies
    rw [ha] at hreplies
    simpa using List.append_cancel_left hreplies
  have hshaped : Answer.WellShaped hdr.opcode a := by
    have hwell := @mertOutcome_wellShaped host m hdr payload a
    rw [houtcome] at hwell
    exact hwell ha
  rw [hframe, replyFrame_status hshaped, MsgStatus.code_eq_zero] at hstatus
  obtain ⟨s, hslot, hlong, hcols⟩ := createStep_success ha hstatus
  refine ⟨s, hslot, hlong, hcols, houtcome, ?_⟩
  rw [createStep, if_neg hlong, hslot] at ha
  dsimp only at ha
  rw [if_neg hcols] at ha
  rw [hframe, ← Option.some.inj ha]

/-- Two states that differ only in the free slot which a creation is about to take. A creation
that succeeds in one of them has the same reply in the other, makes the same calls of the host,
and leaves the two machines equal, so that nothing later can tell them apart. -/
theorem create_forgets (host : Host) (h : SameButSlot s npu npu') {c : ChanIdx} {hdr : MsgHeader}
    {payload : Memory} (reads writes : ℕ) (tr : List Event) (halive : npu.fwAlive = true)
    (hslot : Xdna.freeSlot npu = some s) (hop : hdr.opcode = MsgOpcode.createContext.code)
    (hsuccess : ∃ f, replies (mertHandle host ⟨npu, reads, writes, tr⟩ c hdr payload).trace =
      replies tr ++ [(c, f)] ∧ f.status = 0) :
    mertHandle host ⟨npu', reads, writes, tr⟩ c hdr payload =
        mertHandle host ⟨npu, reads, writes, tr⟩ c hdr payload ∧
      ∀ ops : List GuestOp,
        ops.foldl (guestStep host) (mertHandle host ⟨npu', reads, writes, tr⟩ c hdr payload) =
          ops.foldl (guestStep host) (mertHandle host ⟨npu, reads, writes, tr⟩ c hdr payload) := by
  have houtcome (npu : Npu) : mertOutcome host ⟨npu, reads, writes, tr⟩ hdr payload =
      npuOutcome ⟨npu, reads, writes, tr⟩ (createStep npu hdr (CreateCtxReq.decode payload)) := by
    rw [mertOutcome, MsgOpcode.ofCode?_eq_some.mpr hop.symm, if_neg (by decide), mertStep]
  obtain ⟨f, hf, hstatus⟩ := hsuccess
  obtain ⟨s', hs', hlong, hcols, -⟩ := create_accepted halive hop hf hstatus
  obtain rfl := Option.some.inj (hslot.symm.trans hs')
  have hstep : createStep npu' hdr (CreateCtxReq.decode payload) =
      createStep npu hdr (CreateCtxReq.decode payload) := by
    unfold createStep
    rw [if_neg hlong, if_neg hlong, h.freeSlot, hslot]
    dsimp only
    rw [if_neg hcols, if_neg hcols, h.createContext]
  have halive' : npu'.fwAlive = true := by
    rw [h.rest]
    exact halive
  have hhandle {npu : Npu} (halive : npu.fwAlive = true) :
      mertHandle host ⟨npu, reads, writes, tr⟩ c hdr payload = answerWith host c hdr
        (npuOutcome ⟨npu, reads, writes, tr⟩
          (createStep npu hdr (CreateCtxReq.decode payload))) := by
    rw [← houtcome]
    exact mertHandle_eq c hdr payload halive
  have hsame : mertHandle host ⟨npu', reads, writes, tr⟩ c hdr payload =
      mertHandle host ⟨npu, reads, writes, tr⟩ c hdr payload := by
    rw [hhandle halive, hhandle halive', hstep, npuOutcome, npuOutcome]
  exact ⟨hsame, fun ops => by rw [hsame]⟩

/-- A booted device in whose first slot a former tenant has left a record, register values and
a byte in the ring. -/
def haunted : Npu :=
  { booted.npu with
    sram := booted.npu.sram.write 0x24010 [0xAA]
    chan := Function.update booted.npu.chan 1
      { booted.npu.chan 1 with x2iTail := 20, i2xHead := 8, intr := 1 }
    ctx := Function.update booted.npu.ctx 0
      { valid := false, id := 9, numCol := 4, heapAddr := 0x1000, heapSize := 64 } }

private theorem sameButSlot_haunted : SameButSlot 0 booted.npu haunted where
  rest := rfl
  sram a ha := by
    apply Memory.write_of_outside
    unfold InSlotRings at ha
    have hbase : (ctxRbBase 0).toNat = 0x24000 := rfl
    have hstride : sramCtxRbStride.toNat = 0x4000 := rfl
    rw [List.length_singleton]
    omega
  chan c hc := Function.update_of_ne hc ..
  ctx s hs := Function.update_of_ne hs ..
  free := ⟨by decide, by decide⟩

/-- The payload of a request for one column. -/
def oneColumn : Memory := Memory.write (fun _ => 0) 5 [1]

/-- What the former tenant has left is gone after a request for one column. -/
theorem create_forgets_haunted :
    mertHandle .accepting ⟨haunted, 0, 0, []⟩ 0 ⟨28, 0, 1, 2⟩ oneColumn =
        mertHandle .accepting ⟨booted.npu, 0, 0, []⟩ 0 ⟨28, 0, 1, 2⟩ oneColumn ∧
      ∀ ops : List GuestOp,
        ops.foldl (guestStep .accepting)
            (mertHandle .accepting ⟨haunted, 0, 0, []⟩ 0 ⟨28, 0, 1, 2⟩ oneColumn) =
          ops.foldl (guestStep .accepting)
            (mertHandle .accepting ⟨booted.npu, 0, 0, []⟩ 0 ⟨28, 0, 1, 2⟩ oneColumn) :=
  create_forgets .accepting sameButSlot_haunted 0 0 [] (by decide) (by decide +kernel) rfl
    ⟨replyFrame 1 2
        (createReply (createContext booted.npu 0 (CreateCtxReq.decode oneColumn)) 0).encode,
      by decide +kernel, by decide +kernel⟩

end Xdna
