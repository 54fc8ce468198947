import Xdna.ContextIds
import Xdna.Rejection

/-!
# Partitions of the array

A context gets the columns that its creation asks for. The handler checks how many they are, but
not where they begin. As long as every request that it accepts begins far enough to the left, each
context lies in the array, and the requests that do not fit are refused.
-/

namespace Xdna

open ByteMemory

/-- The columns of the context are there, and are not none. -/
structure Context.InArray (ctx : Context) : Prop where
  pos : 1 ≤ ctx.numCol.toNat
  le : ctx.startCol.toNat + ctx.numCol.toNat ≤ aieCols

/-- Every valid context lies in the array. -/
def PartitionsOk (npu : Npu) : Prop := ∀ s, (npu.ctx s).valid = true → (npu.ctx s).InArray

/-- The requested columns are there, and are not none. -/
def CreateCtxReq.Fits (req : CreateCtxReq) : Prop :=
  1 ≤ req.numCol.toNat ∧ req.startCol.toNat + req.numCol.toNat ≤ aieCols

instance (req : CreateCtxReq) : Decidable req.Fits := inferInstanceAs (Decidable (_ ∧ _))

/-- If the message creates a context, the columns it asks for are there. -/
def Event.CreatesInside : Event → Prop
  | .handle c hdr payload npu => (Event.handle c hdr payload npu).creation?.isSome = true →
      (CreateCtxReq.decode (Memory.ofBytes payload)).Fits
  | _ => True

instance : DecidablePred Event.CreatesInside
  | .handle .. => inferInstanceAs (Decidable (_ = true → CreateCtxReq.Fits _))
  | .dmaRead .. => isTrue trivial
  | .dmaWrite .. => isTrue trivial
  | .raiseIrq .. => isTrue trivial
  | .ringRead .. => isTrue trivial
  | .ringWrite .. => isTrue trivial
  | .reject .. => isTrue trivial
  | .send .. => isTrue trivial
  | .pspDone .. => isTrue trivial

/-- The call of the handler for this message, in a device that is in the state of the event, is
answered with an error and changes nothing but what its reply needs. -/
def Refused (host : Host) (c : ChanIdx) (hdr : MsgHeader) (payload : List UInt8) (npu : Npu) :
    Prop :=
  ∀ (stack : Memory) (reads writes : ℕ) (tr : List Event),
    let m' := mertHandle host ⟨npu, reads, writes, tr⟩ c hdr (payloadBuffer payload stack)
    ∃ f, replies m'.trace = replies tr ++ [(c, f)] ∧ f.status ≠ 0 ∧ OnlyReply c f.payload npu m'.npu

/-- A creation whose columns are not there is refused. -/
def Event.RefusedOutside (host : Host) : Event → Prop
  | .handle c hdr payload npu => hdr.opcode = MsgOpcode.createContext.code →
      ¬ (CreateCtxReq.decode (Memory.ofBytes payload)).Fits → Refused host c hdr payload npu
  | _ => True

/-! ## One message -/

section Message

variable {host : Host} {m m' : Machine} {c : ChanIdx} {hdr : MsgHeader} {req : List UInt8}
  {p : Memory}

/-- A message that is no creation moves no context. -/
theorem MsgEffect.partitionsOk {npu npu' : Npu} (h : MsgEffect npu hdr p npu')
    (hop : hdr.opcode ≠ MsgOpcode.createContext.code) (hok : PartitionsOk npu) :
    PartitionsOk npu' := by
  have hupdate {s : SlotIdx} {ctx : Context} (hctx : npu'.ctx = Function.update npu.ctx s ctx)
      (hnew : ctx.valid = true → ctx.InArray) : PartitionsOk npu' := by
    intro s' hs'
    rw [hctx] at hs' ⊢
    by_cases heq : s' = s
    · subst heq
      rw [Function.update_self] at hs' ⊢
      exact hnew hs'
    · rw [Function.update_of_ne heq] at hs' ⊢
      exact hok s' hs'
  cases h with
  | none => exact hok
  | runtimeConfig => exact hok
  | pasid => exact hok
  | suspend => exact hok
  | async => exact hok
  | create _ hcreate => exact absurd hcreate hop
  | destroy s => exact hupdate (destroyContext_ctx npu s) fun h => nomatch h
  | heap s =>
    apply hupdate rfl
    intro hvalid
    obtain ⟨hpos, hle⟩ := hok s hvalid
    exact ⟨hpos, hle⟩

/-- A creation that creates nothing is refused. -/
theorem refused_of_create (hlen : hdr.totalSize.toNat = req.length) (halive : m.npu.fwAlive = true)
    (hop : hdr.opcode = MsgOpcode.createContext.code)
    (hnone : (Event.handle c hdr req m.npu).creation? = none) : Refused host c hdr req m.npu := by
  intro stack reads writes tr
  have hp : ∀ i < req.length, payloadBuffer req stack i = Memory.ofBytes req i :=
    fun i hi => payloadBuffer_of_lt stack hi
  have hout := mertOutcome_create (c := c) (m := ⟨m.npu, reads, writes, tr⟩) host hlen hp hop
  rcases hout with ⟨-, -, a, hans, hne⟩ | ⟨s, hsome, -⟩
  · obtain ⟨hreply, hstatus, honly⟩ :=
      mertHandle_error (m := ⟨m.npu, reads, writes, tr⟩) host c halive hans hne
    exact ⟨_, hreply, hstatus, honly⟩
  · dsimp only at hsome
    rw [hnone] at hsome
    cases hsome

private theorem Event.NoMessage.refusedOutside {e : Event} (h : e.NoMessage) :
    e.RefusedOutside host := by
  cases e <;> trivial

/-- An act of the device keeps the contexts in the array, if the creation in it is inside. -/
theorem Handling.partitions (h : Handling host m m') (hin : ∀ e ∈ m'.trace, e.CreatesInside)
    (hok : PartitionsOk m.npu) (hrefused : ∀ e ∈ m.trace, e.RefusedOutside host) :
    PartitionsOk m'.npu ∧ ∀ e ∈ m'.trace, e.RefusedOutside host := by
  cases h with
  | none hext hctx _ =>
    refine ⟨fun s hs => ?_, (hext.mono fun e he => he.refusedOutside).forall_trace hrefused⟩
    rcases hctx with hctx | hclear
    · rw [hctx] at hs ⊢
      exact hok s hs
    · rw [hclear s] at hs
      cases hs
  | @message c hdr req p m₁ ws ws' hlen hp halive hbefore hafter _ htrace hws hws' =>
    have hmem : .handle c hdr req m₁.npu ∈ m'.trace := by
      rw [htrace]
      exact List.mem_append_right _ (List.mem_append_right _ (List.mem_cons_self ..))
    have hinside := hin _ hmem
    have hok₁ : PartitionsOk m₁.npu := by
      intro s hs
      rw [hbefore.1] at hs ⊢
      exact hok s hs
    constructor
    · have hpartitions : PartitionsOk (mertOutcome host m₁ hdr p).1.npu := by
        by_cases hop : hdr.opcode = MsgOpcode.createContext.code
        · rcases mertOutcome_create (c := c) host hlen hp hop with ⟨-, hnpu, -⟩ | ⟨s, hsome, hnpu⟩
          · rw [hnpu]
            exact hok₁
          · obtain ⟨hpos, hle⟩ := hinside (by rw [hsome]; rfl)
            intro s' hs'
            rw [hnpu, createContext_ctx] at hs' ⊢
            by_cases heq : s' = s
            · subst heq
              rw [Function.update_self]
              exact ⟨hpos, hle⟩
            · rw [Function.update_of_ne heq] at hs' ⊢
              exact hok₁ s' hs'
        · exact (mertOutcome_effect host m₁ hdr p).partitionsOk hop hok₁
      intro s hs
      rw [hafter] at hs ⊢
      exact hpartitions s hs
    · intro e he
      rw [htrace] at he
      rcases List.mem_append.mp he with he | he
      · exact hrefused e he
      rcases List.mem_append.mp he with he | he
      · exact (hws e he).refusedOutside
      rcases List.mem_cons.mp he with rfl | he
      · intro hop hout
        apply refused_of_create hlen halive hop
        by_contra hsome
        exact hout (hinside (Option.isSome_iff_ne_none.mpr hsome))
      · exact (hws' e he).refusedOutside

end Message

/-! ## Runs -/

/-- In every run in which no accepted creation asks for columns that are not there: every valid
context lies in the array, and every creation that asks for such columns is refused. -/
theorem guestRun_partitions (host : Host) (ops : List GuestOp)
    (hinside : ∀ e ∈ (guestRun host ops).trace, e.CreatesInside) :
    PartitionsOk (guestRun host ops).npu ∧
      ∀ e ∈ (guestRun host ops).trace, e.RefusedOutside host := by
  have hacts : Acts host (fun _ _ => True) initial (guestRun host ops) :=
    guestRun_acts fun _ _ _ _ => trivial
  have hinv := hacts.preserves
    (P := fun m => HeadsOk m.npu ∧ ((∀ e ∈ m.trace, e.CreatesInside) →
      PartitionsOk m.npu ∧ ∀ e ∈ m.trace, e.RefusedOutside host)) consistent_npuReset
    (fun m m' hcons hm hact => ⟨(hact.steps hcons).headsOk hcons hm.1, fun hin => by
      have hhandling := hact.handling hcons hm.1
      obtain ⟨hok, hrefused⟩ := hm.2 fun e he => hin e (hhandling.mem_trace he)
      exact hhandling.partitions hin hok hrefused⟩)
    ⟨headsOk_npuReset, fun _ => ⟨fun s hs => ?_, fun _ he => nomatch he⟩⟩
  · exact hinv.2 hinside
  · rw [initial, npuReset_ctx] at hs
    cases hs

/-- A run with one creation, in the first column. -/
theorem guestRun_partitions_restartOps :
    PartitionsOk (guestRun .accepting restartOps).npu ∧
      ∀ e ∈ (guestRun .accepting restartOps).trace, e.RefusedOutside .accepting :=
  guestRun_partitions .accepting restartOps (by decide +kernel)

/-- The firmware runs, and a context has been created whose three columns begin at column 3. -/
def outsideOps : List GuestOp :=
  validateOps ++
  [.write barReg regPubSecIntr 1 4,
    .writeBuf barSram sramMgmtX2iOff
      ((requestHeader 1 0x2 28).encode ++ [0, 0, 0, 0, 3, 3] ++ List.replicate 22 0),
    .write barMbox mboxX2iTailOff 44 4]

/-- The last of its columns is not there. -/
theorem not_partitionsOk : ¬ PartitionsOk (guestRun .accepting outsideOps).npu := by
  intro h
  have hctx : ((guestRun .accepting outsideOps).npu.ctx 0).valid = true ∧
      ¬ ((guestRun .accepting outsideOps).npu.ctx 0).startCol.toNat +
        ((guestRun .accepting outsideOps).npu.ctx 0).numCol.toNat ≤ aieCols := by decide +kernel
  exact hctx.2 (h 0 hctx.1).le

end Xdna
