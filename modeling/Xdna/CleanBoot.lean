import Xdna.RoundTrip

/-!
# What a boot finds

`xdna_fw_boot` sets up the management channel and nothing else. The contexts and the event
buffer of an earlier firmware are cleared by RELEASE_TMR only, and the PSP accepts VALIDATE
and START also while a firmware is running. So the table after a START is empty exactly
when it was empty before.
-/

namespace Xdna

open ByteMemory RingLog GuardedRun

/-! ## Creation -/

/-- No slot is free when all hold contexts. -/
theorem freeSlot_eq_none {npu : Npu} : freeSlot npu = none ↔ ∀ s, (npu.ctx s).valid = true := by
  simp [freeSlot]

/-- As long as a slot is left, one is found. -/
theorem exists_freeSlot {npu : Npu} (h : (validSlots npu).card < hwctxLimit) :
    ∃ s, freeSlot npu = some s := by
  refine Option.ne_none_iff_exists'.mp fun hnone => ?_
  have huniv : validSlots npu = Finset.univ :=
    Finset.eq_univ_of_forall fun s => mem_validSlots.mpr (freeSlot_eq_none.mp hnone s)
  rw [huniv, Finset.card_univ, Fintype.card_fin] at h
  exact Nat.lt_irrefl _ h

/-- A complete creation request with a possible number of columns. -/
structure Request.IsCreate (q : Request) : Prop where
  opcode : q.opcode = 0x2
  length : q.payload.length = 28
  cols : 1 ≤ (CreateCtxReq.decode (Memory.ofBytes q.payload)).numCol.toNat ∧
    (CreateCtxReq.decode (Memory.ofBytes q.payload)).numCol.toNat ≤ 5

variable {q : Request}

/-- A creation request can be sent. -/
theorem Request.IsCreate.sendable (h : q.IsCreate) : Sendable q.payload := by
  have hlen := h.length
  refine ⟨by omega, fun hnil => ?_, ?_⟩
  · rw [hnil] at hlen
    cases hlen
  · rw [hlen]
    decide

/-- The size word of a creation request. -/
theorem Request.IsCreate.totalSize (h : q.IsCreate) : q.header.totalSize = 28 := by
  rw [Request.header, requestHeader, h.length]
  rfl

/-- A complete request takes the free slot. -/
theorem Request.IsCreate.outcome (h : q.IsCreate) (host : Host) {m : Machine} {s : SlotIdx}
    (hfree : freeSlot m.npu = some s) :
    ∃ req, mertOutcome host m q.header (Memory.ofBytes q.payload) =
      ({ m with npu := createContext m.npu s req },
        some (.success, (createReply (createContext m.npu s req) s).encode)) := by
  have hop : MsgOpcode.ofCode? q.header.opcode = some .createContext :=
    MsgOpcode.ofCode?_eq_some.mpr h.opcode.symm
  refine ⟨CreateCtxReq.decode (Memory.ofBytes q.payload), ?_⟩
  rw [mertOutcome, if_neg (by rw [hop]; decide), npuOutcome, hop, mertStep, createStep,
    if_neg (by rw [h.totalSize]; decide), hfree]
  dsimp only
  rw [if_neg]
  rintro (hzero | hlarge)
  · have hcols := h.cols.1
    rw [hzero] at hcols
    exact absurd hcols (by decide)
  · have hcols := h.cols.2
    rw [show aieCols = 5 from rfl] at hlarge
    omega

/-! ## After the START -/

/-- The reply to the request says success. -/
def Succeeds (host : Host) (st : Pair) (q : Request) : Prop :=
  ∃ f, (st.sendRecv host q).2.2 = some f ∧ f.hdr.id = q.id ∧ f.payload.take 4 = le32 0

/-- The firmware knows of no context and no event buffer, and can take six contexts. -/
structure CleanStart (host : Host) (m : Machine) : Prop where
  contexts : ∀ s, (m.npu.ctx s).valid = false
  count : m.npu.stats.activeContexts = 0
  channels : ∀ s, (m.npu.chan (slotChan s)).active = false
  async : m.npu.asyncRegistered = false
  x2i : (m.npu.chan 0).x2iHead = 0 ∧ (m.npu.chan 0).x2iTail = 0
  i2x : (m.npu.chan 0).i2xHead = 0 ∧ (m.npu.chan 0).i2xTail = 0
  creates : ∀ qs : List Request, qs.length ≤ 6 → (∀ q ∈ qs, q.IsCreate) →
    Guarded (transact host) (Succeeds host) (mgmtDriver, m) qs

variable (host : Host)

/-- One more context is created as long as there is room for it. -/
theorem Idle.create_succeeds {st : Pair} (h : Idle st.1 st.2) (hq : q.IsCreate)
    (hroom : (validSlots st.2.npu).card < 6) :
    Succeeds host st q ∧ Idle (transact host st q).1 (transact host st q).2 ∧
      (validSlots (transact host st q).2.npu).card = (validSlots st.2.npu).card + 1 := by
  obtain ⟨htrans, hidle⟩ := h.sendRecv host hq.sendable
  have hplace : emptyPlace st.1.x2iTail.toNat (16 + q.payload.length) ≠ none := by
    rw [hq.length]
    exact emptyPlace_ne_none (by decide)
  have hvalid {npu npu' : Npu} (hfw : SameFw npu npu') : validSlots npu' = validSlots npu := by
    rw [validSlots, validSlots, hfw.ctx]
  unfold transact at hidle
  unfold Succeeds transact
  generalize st.sendRecv host q = r at htrans hidle ⊢
  cases htrans with
  | refused _ hnone _ _ => exact absurd hnone hplace
  | served m₀ m' reply _ hcons hfw hdma hreply hfw' hdma' =>
    rw [← hvalid hfw] at hroom ⊢
    obtain ⟨s, hfree⟩ := exists_freeSlot hroom
    obtain ⟨req, hout⟩ := hq.outcome host hfree
    rw [show (requestFrame q.id q.opcode q.payload).hdr = q.header from rfl, hout] at hreply hfw'
    refine ⟨⟨_, hreply, rfl, (createReply_wellShaped _ s).2⟩, hidle, ?_⟩
    have hnot : s ∉ validSlots m₀.npu := by simp [mem_validSlots, freeSlot_valid hfree]
    dsimp only at hfw' ⊢
    rw [hvalid hfw', validSlots_update (createContext_ctx m₀.npu s req), if_pos (by rfl),
      Finset.card_insert_of_notMem hnot]

/-- Six contexts can be created where there is none. -/
theorem Idle.creates_succeed {qs : List Request} (hqs : ∀ q ∈ qs, q.IsCreate) {st : Pair}
    (h : Idle st.1 st.2) (hroom : (validSlots st.2.npu).card + qs.length ≤ 6) :
    Guarded (transact host) (Succeeds host) st qs := by
  induction qs generalizing st with
  | nil => trivial
  | cons q qs ih =>
    rw [List.length_cons] at hroom
    obtain ⟨hsucc, hidle, hcard⟩ := h.create_succeeds host (hqs q (by simp)) (by omega)
    exact ⟨hsucc, ih (fun q' hq' => hqs q' (by simp [hq'])) hidle (by omega)⟩

/-- A START keeps the context table. -/
theorem Starts.ctx {m : Machine} (h : Starts host m) :
    (pspNotify host m).npu.ctx = m.npu.ctx := by
  rw [h.booted.1.ctx, fwBoot_ctx]

/-- After a START that was answered with 0 the firmware is as after the first boot if and only if
no context was valid and no event buffer was registered when the START was issued. -/
theorem cleanStart_iff {m : Machine} (h : Starts host m) :
    CleanStart host (pspNotify host m) ↔
      (∀ s, (m.npu.ctx s).valid = false) ∧ m.npu.asyncRegistered = false := by
  have hregs := h.booted.1
  have hidle := h.idle
  have hcons := h.reachable.consistent
  have hctx := h.ctx
  have hasync : (pspNotify host m).npu.asyncRegistered = m.npu.asyncRegistered := by
    rw [hregs.asyncRegistered, fwBoot_asyncRegistered]
  have hchan : (pspNotify host m).npu.chan 0 = mgmtChannel := by
    rw [hregs.chan, fwBoot_chan, Function.update_self]
  constructor
  · intro hclean
    exact ⟨fun s => hctx ▸ hclean.contexts s, hasync ▸ hclean.async⟩
  · rintro ⟨hvalid, hnone⟩
    have hempty : validSlots (pspNotify host m).npu = ∅ := by
      ext s
      simp [mem_validSlots, hctx, hvalid s]
    have hcard : (validSlots (pspNotify host m).npu).card = 0 := by rw [hempty]; rfl
    exact {
      contexts := fun s => by rw [hctx, hvalid s]
      count := UInt32.toNat_inj.mp (by rw [hidle.consistent.count, hcard]; rfl)
      channels := fun s => by rw [hidle.consistent.slot, hctx, hvalid s]
      async := by rw [hasync, hnone]
      x2i := by rw [hchan]; exact ⟨rfl, rfl⟩
      i2x := by rw [hchan]; exact ⟨rfl, rfl⟩
      creates := fun qs hlen hqs => hidle.creates_succeed host hqs (by rw [hcard]; omega) }

/-- A boot, a creation of a context with one column, and again the way to a START. -/
def restartOps : List GuestOp :=
  validateOps ++
  [.write barReg regPubSecIntr 1 4,
    .writeBuf barSram sramMgmtX2iOff
      ((requestHeader 1 0x2 28).encode ++ [0, 0, 0, 0, 0, 1] ++ List.replicate 22 0),
    .write barMbox mboxX2iTailOff 44 4] ++
  validateOps

private theorem starts_restartOps : Starts .accepting (guestRun .accepting restartOps) :=
  ⟨.guestRun _ _, by decide +kernel, by decide +kernel⟩

/-- The context of the first firmware is still there after the second boot. -/
theorem not_cleanStart_restartOps :
    ¬ CleanStart .accepting (pspNotify .accepting (guestRun .accepting restartOps)) := by
  intro hclean
  have hvalid : ((guestRun .accepting restartOps).npu.ctx 0).valid = true := by decide +kernel
  have hnone := hclean.contexts 0
  rw [starts_restartOps.ctx, hvalid] at hnone
  cases hnone

/-- The second boot as well, then RELEASE_TMR, and once more the way to a START. -/
def releasedOps : List GuestOp :=
  restartOps ++
  [.write barReg regPubSecIntr 1 4, .write barReg regScratch2 3 4,
    .write barReg regPubSecIntr 1 4] ++
  validateOps

private theorem starts_releasedOps : Starts .accepting (guestRun .accepting releasedOps) :=
  ⟨.guestRun _ _, by decide +kernel, by decide +kernel⟩

/-- The context lives through the second boot, and RELEASE_TMR makes the third one clean. -/
theorem cleanStart_releasedOps :
    CleanStart .accepting (pspNotify .accepting (guestRun .accepting releasedOps)) := by
  refine (cleanStart_iff .accepting starts_releasedOps).mpr ⟨?_, ?_⟩
  · decide +kernel
  · decide +kernel

end Xdna
