import Xdna.ContextRuns

/-!
# Context ids

Ids come from a 32-bit counter that is never set back, not even by RELEASE_TMR, and that nothing
keeps from coming around. As long as each creation finds a value in the counter that is not zero
and not in use, the id in a slot is the one that the last creation there has returned, and it finds
that slot and no other.
-/

namespace Xdna

open ByteMemory

/-! ## Creations in the trace -/

/-- The slot and the id of the context that a message creates, if it does. -/
def Event.creation? : Event → Option (SlotIdx × UInt32)
  | .handle _ hdr payload npu =>
    let req := CreateCtxReq.decode (Memory.ofBytes payload)
    if hdr.opcode = MsgOpcode.createContext.code ∧ ¬ hdr.totalSize < CreateCtxReq.size ∧
        ¬ (req.numCol = 0 ∨ aieCols < req.numCol.toNat) then
      (freeSlot npu).map fun s => (s, npu.nextCtxId)
    else none
  | _ => none

/-- A creation takes an id that is not zero and that no valid context has. -/
def Event.FreshId : Event → Prop
  | .handle c hdr payload npu => ∀ p ∈ (Event.handle c hdr payload npu).creation?,
      p.2 ≠ 0 ∧ ∀ s, (npu.ctx s).valid = true → (npu.ctx s).id ≠ p.2
  | _ => True

instance : DecidablePred Event.FreshId
  | .handle c hdr payload npu =>
    Option.decidableForallMem (Event.handle c hdr payload npu).creation?
  | .dmaRead .. => isTrue trivial
  | .dmaWrite .. => isTrue trivial
  | .raiseIrq .. => isTrue trivial
  | .ringRead .. => isTrue trivial
  | .ringWrite .. => isTrue trivial
  | .reject .. => isTrue trivial
  | .send .. => isTrue trivial
  | .pspDone .. => isTrue trivial

/-- The creations of a trace, with slots and ids. -/
def creationsOf (tr : List Event) : List (SlotIdx × UInt32) := tr.filterMap Event.creation?

/-- The id returned by the last creation in slot `s`. -/
def lastId (s : SlotIdx) (tr : List Event) : Option UInt32 := (creationsOf tr).reverse.lookup s

/-- The event is not a call of the message handler. -/
def Event.NoMessage : Event → Prop
  | .handle .. => False
  | _ => True

private theorem creationsOf_append (tr ws : List Event) :
    creationsOf (tr ++ ws) = creationsOf tr ++ creationsOf ws := List.filterMap_append

private theorem creationsOf_noMessage {ws : List Event} (h : ∀ e ∈ ws, e.NoMessage) :
    creationsOf ws = [] := by
  rw [creationsOf, List.filterMap_eq_nil_iff]
  intro e he
  have hno := h e he
  cases e <;> first | rfl | exact hno.elim

private theorem lastId_append_other (s : SlotIdx) {tr ws : List Event} (h : creationsOf ws = []) :
    lastId s (tr ++ ws) = lastId s tr := by
  rw [lastId, lastId, creationsOf_append, h, List.append_nil]

private theorem lastId_append_creation (s s' : SlotIdx) {tr ws : List Event} {k : UInt32}
    (h : creationsOf ws = [(s', k)]) :
    lastId s (tr ++ ws) = if s = s' then some k else lastId s tr := by
  rw [lastId, creationsOf_append, h, List.reverse_append, List.reverse_singleton,
    List.singleton_append, List.lookup_cons]
  by_cases hs : s = s'
  · rw [if_pos hs, hs, beq_self_eq_true]
  · rw [if_neg hs, beq_eq_false_iff_ne.mpr hs]
    rfl

/-! ## What a message does to the ids -/

/-- No context appears, and none changes its id. -/
def KeepsIds (npu npu' : Npu) : Prop :=
  ∀ s, (npu'.ctx s).valid = true → (npu.ctx s).valid = true ∧ (npu'.ctx s).id = (npu.ctx s).id

/-- The table has not changed. -/
theorem KeepsIds.of_eq {npu npu' : Npu} (h : npu'.ctx = npu.ctx) : KeepsIds npu npu' := by
  intro s hs
  rw [h] at hs ⊢
  exact ⟨hs, rfl⟩

private theorem MsgEffect.keepsIds {npu npu' : Npu} {hdr : MsgHeader} {p : Memory}
    (h : MsgEffect npu hdr p npu') (hop : hdr.opcode ≠ MsgOpcode.createContext.code) :
    KeepsIds npu npu' := by
  have hupdate {s : SlotIdx} {ctx : Context} (hctx : npu'.ctx = Function.update npu.ctx s ctx)
      (hvalid : ctx.valid = true → (npu.ctx s).valid = true) (hid : ctx.id = (npu.ctx s).id) :
      KeepsIds npu npu' := by
    intro s' hs'
    rw [hctx] at hs' ⊢
    by_cases heq : s' = s
    · subst heq
      rw [Function.update_self] at hs' ⊢
      exact ⟨hvalid hs', hid⟩
    · rw [Function.update_of_ne heq] at hs' ⊢
      exact ⟨hs', rfl⟩
  cases h with
  | none => exact .of_eq rfl
  | runtimeConfig => exact .of_eq rfl
  | pasid => exact .of_eq rfl
  | suspend => exact .of_eq rfl
  | async => exact .of_eq rfl
  | create _ hcreate => exact absurd hcreate hop
  | destroy s => exact hupdate (destroyContext_ctx npu s) (fun h => nomatch h) rfl
  | heap s => exact hupdate rfl id rfl

/-- Only a creation moves the counter. -/
theorem MsgEffect.nextCtxId {npu npu' : Npu} {hdr : MsgHeader} {p : Memory}
    (h : MsgEffect npu hdr p npu') (hop : hdr.opcode ≠ MsgOpcode.createContext.code) :
    npu'.nextCtxId = npu.nextCtxId := by
  cases h with
  | none | runtimeConfig | pasid | suspend | async | heap => rfl
  | create _ hcreate => exact absurd hcreate hop
  | destroy s => exact destroyContext_nextCtxId npu s

section Message

variable {m : Machine} {c : ChanIdx} {hdr : MsgHeader} {req : List UInt8} {p : Memory}

/-- A CREATE_CONTEXT creates the context of which its event tells, or is answered with an error. -/
theorem mertOutcome_create (host : Host) (hlen : hdr.totalSize.toNat = req.length)
    (hp : ∀ i < req.length, p i = Memory.ofBytes req i)
    (hop : hdr.opcode = MsgOpcode.createContext.code) :
    ((Event.handle c hdr req m.npu).creation? = none ∧ (mertOutcome host m hdr p).1.npu = m.npu ∧
      ∃ a, (mertOutcome host m hdr p).2 = some a ∧ a.1 ≠ .success) ∨
    ∃ s, (Event.handle c hdr req m.npu).creation? = some (s, m.npu.nextCtxId) ∧
      (mertOutcome host m hdr p).1.npu =
        createContext m.npu s (CreateCtxReq.decode (Memory.ofBytes req)) := by
  have herror (status : MsgStatus) (hne : status ≠ .success) :
      ∃ a, some (statusAnswer hdr status) = some a ∧ a.1 ≠ .success :=
    ⟨_, rfl, hne⟩
  rw [mertOutcome_of (o := .createContext) host m p hop (by decide), npuOutcome, mertStep,
    createStep, Event.creation?]
  dsimp only
  by_cases hshort : hdr.totalSize < CreateCtxReq.size
  · rw [if_pos hshort, if_neg fun h => h.2.1 hshort]
    exact .inl ⟨rfl, rfl, herror _ (by decide)⟩
  have hdecode : CreateCtxReq.decode p = CreateCtxReq.decode (Memory.ofBytes req) := by
    apply CreateCtxReq.decode_congr hp
    rw [UInt32.lt_iff_toNat_lt, hlen] at hshort
    exact Nat.le_of_not_lt hshort
  rw [if_neg hshort, hdecode]
  cases hfree : freeSlot m.npu with
  | none =>
    refine .inl ⟨?_, rfl, herror _ (by decide)⟩
    split <;> rfl
  | some s =>
    dsimp only
    by_cases hcols : (CreateCtxReq.decode (Memory.ofBytes req)).numCol = 0 ∨
        aieCols < (CreateCtxReq.decode (Memory.ofBytes req)).numCol.toNat
    · rw [if_pos hcols, if_neg fun h => h.2.2 hcols]
      exact .inl ⟨rfl, rfl, herror _ (by decide)⟩
    · rw [if_neg hcols, if_pos ⟨hop, hshort, hcols⟩]
      exact .inr ⟨s, rfl, rfl⟩

/-- A message creates the context of which its event tells, or leaves ids and counter as they
are. -/
theorem mertOutcome_ids (host : Host) (hlen : hdr.totalSize.toNat = req.length)
    (hp : ∀ i < req.length, p i = Memory.ofBytes req i) :
    ((Event.handle c hdr req m.npu).creation? = none ∧
      KeepsIds m.npu (mertOutcome host m hdr p).1.npu ∧
      (mertOutcome host m hdr p).1.npu.nextCtxId = m.npu.nextCtxId) ∨
    ∃ s creq, (Event.handle c hdr req m.npu).creation? = some (s, m.npu.nextCtxId) ∧
      (mertOutcome host m hdr p).1.npu = createContext m.npu s creq := by
  by_cases hop : hdr.opcode = MsgOpcode.createContext.code
  · rcases mertOutcome_create (c := c) (m := m) host hlen hp hop with
      ⟨hnone, hnpu, -⟩ | ⟨s, hsome, hnpu⟩
    · exact .inl ⟨hnone, .of_eq (congrArg Npu.ctx hnpu), congrArg Npu.nextCtxId hnpu⟩
    · exact .inr ⟨s, _, hsome, hnpu⟩
  · have heffect := mertOutcome_effect host m hdr p
    refine .inl ⟨?_, heffect.keepsIds hop, heffect.nextCtxId hop⟩
    rw [Event.creation?]
    exact if_neg fun h => hop h.1

end Message

/-! ## Steps -/

/-- What an act of the device means for the ids: it creates no context, or one whose creation is
in the trace with the table it was made in. -/
inductive IdStep (m m' : Machine) : Prop
  | keeps (ws : List Event) (htrace : m'.trace = m.trace ++ ws) (hws : creationsOf ws = [])
      (hfresh : ∀ e ∈ ws, e.FreshId) (hids : KeepsIds m.npu m'.npu)
      (hnext : m'.npu.nextCtxId = m.npu.nextCtxId)
  | creates (s : SlotIdx) (npu : Npu) (creq : CreateCtxReq) (ws : List Event)
      (htrace : m'.trace = m.trace ++ ws) (hws : creationsOf ws = [(s, npu.nextCtxId)])
      (hfresh : (∀ e ∈ ws, e.FreshId) ↔ npu.nextCtxId ≠ 0 ∧
        ∀ s', (npu.ctx s').valid = true → (npu.ctx s').id ≠ npu.nextCtxId)
      (hbefore : npu.ctx = m.npu.ctx ∧ npu.nextCtxId = m.npu.nextCtxId)
      (hctx : m'.npu.ctx = Function.update npu.ctx s (createdContext npu s creq))
      (hnext : m'.npu.nextCtxId = npu.nextCtxId + 1)

variable {host : Host} {m m' : Machine}

private theorem answerWith_noMessage (host : Host) (c : ChanIdx) (hdr : MsgHeader)
    (r : Machine × Option Answer) :
    r.1.Extends Event.NoMessage (answerWith host c hdr r) := by
  unfold answerWith
  cases r.2 with
  | none => exact .refl _
  | some a =>
    obtain ⟨m₁, hext, htrace⟩ := mboxSend_trace host r.1 c hdr.id hdr.opcode a.2
    exact (hext.mono fun e he => by cases he <;> trivial).trans (.of_trace_eq htrace trivial)

/-- What an act of the device means for the message handler: it is not called, and the table of
contexts stays as it is or is cleared; or it is called once, for a frame with the payload `req`. -/
inductive Handling (host : Host) (m m' : Machine) : Prop
  | none (h : m.Extends Event.NoMessage m')
      (hctx : m'.npu.ctx = m.npu.ctx ∨ ∀ s, (m'.npu.ctx s).valid = false)
      (hnext : m'.npu.nextCtxId = m.npu.nextCtxId)
  | message (c : ChanIdx) {hdr : MsgHeader} {req : List UInt8} {p : Memory} (m₁ : Machine)
      (ws ws' : List Event) (hlen : hdr.totalSize.toNat = req.length)
      (hp : ∀ i < req.length, p i = Memory.ofBytes req i) (halive : m₁.npu.fwAlive = true)
      (hbefore : m₁.npu.ctx = m.npu.ctx ∧ m₁.npu.nextCtxId = m.npu.nextCtxId)
      (hafter : m'.npu.ctx = (mertOutcome host m₁ hdr p).1.npu.ctx)
      (hnext : m'.npu.nextCtxId = (mertOutcome host m₁ hdr p).1.npu.nextCtxId)
      (htrace : m'.trace = m.trace ++ (ws ++ .handle c hdr req m₁.npu :: ws'))
      (hws : ∀ e ∈ ws, e.NoMessage) (hws' : ∀ e ∈ ws', e.NoMessage)

/-- No event is lost. -/
theorem Handling.mem_trace (h : Handling host m m') {e : Event} (he : e ∈ m.trace) :
    e ∈ m'.trace := by
  cases h with
  | none hext _ _ => exact hext.mem_trace he
  | message _ _ _ _ _ _ _ _ _ _ htrace _ _ => exact htrace ▸ List.mem_append_left _ he

private theorem Passed.handling {c : ChanIdx} (h : Passed host c m m')
    (halive : m.npu.fwAlive = true) : Handling host m m' := by
  cases h with
  | idle hext hfw =>
    exact .none (hext.mono fun e he => by cases e <;> trivial) (.inl hfw.ctx) hfw.nextCtxId
  | @handled hdr req m₁ stack htaken hlen hm' =>
    obtain ⟨ws, htrace, hreads⟩ := htaken.trace
    obtain ⟨ws₁, htrace₁, hdma⟩ := (mertOutcome_trace host m₁ hdr (payloadBuffer req stack)).2
    obtain ⟨ws₂, htrace₂, hsend⟩ :=
      answerWith_noMessage host c hdr (mertOutcome host m₁ hdr (payloadBuffer req stack))
    have hanswer := (answerWith_change host c hdr
      (mertOutcome host m₁ hdr (payloadBuffer req stack))).sameFw
    rw [← hm'] at hanswer htrace₂
    refine .message c m₁ ws (ws₁ ++ ws₂) hlen (fun i hi => payloadBuffer_of_lt stack hi)
      (htaken.fw.fwAlive.trans halive) ⟨htaken.fw.ctx, htaken.fw.nextCtxId⟩ hanswer.ctx
      hanswer.nextCtxId ?_ ?_ ?_
    · rw [htrace₂, htrace₁, htrace]
      simp only [List.append_assoc, List.cons_append, List.nil_append]
    · intro e he
      obtain ⟨_, _, rfl⟩ := hreads e he
      trivial
    · intro e he
      rcases List.mem_append.mp he with he | he
      · have hwrite := hdma e he
        cases e <;> trivial
      · exact hsend e he

/-- An act of the device calls the handler once or not at all. -/
theorem Act.handling {ok : ChanIdx → UInt32 → Prop} (h : Act host ok m m')
    (hcons : Consistent m.npu) (hheads : HeadsOk m.npu) : Handling host m m' := by
  cases h with
  | regs hf => exact .none (.modify _) (.inl (hf m.npu).ctx) (hf m.npu).nextCtxId
  | sram off bytes _ => exact .none (.modify _) (.inl rfl) rfl
  | guest c _ => exact .none (.modify _) (.inl rfl) rfl
  | pass c hactive =>
    exact (mboxPass_passed host hcons hheads hactive).handling (hcons.fwAlive_of_active hactive)
  | psp =>
    by_cases hcmd : m.npu.scratch 2 = pspCmdReleaseTmr
    · obtain ⟨hregs, _, _, _, htrace⟩ := pspKick_release host hcmd
      refine .none (.of_trace_eq htrace trivial) (.inr fun s => ?_) ?_
      · rw [hregs.ctx, fwShutdown_ctx]
      · rw [hregs.nextCtxId, fwShutdown_nextCtxId]
    · obtain ⟨hctx, hnext, htrace⟩ := pspCommand_ctx host (m := countPsp m) hcmd
      rw [pspKick_eq]
      have hreads := htrace.mono (Q := Event.NoMessage) fun e he => by
        cases e <;> trivial
      exact .none (hreads.trans ((Machine.Extends.modify _).trans (.emit trivial))) (.inl hctx)
        hnext

private theorem Event.NoMessage.freshId {e : Event} (h : e.NoMessage) : e.FreshId := by
  cases e <;> trivial

/-- What this means for the ids. -/
theorem Handling.idStep (h : Handling host m m') : IdStep m m' := by
  cases h with
  | none hext hctx hnext =>
    obtain ⟨ws, htrace, hws⟩ := hext
    refine .keeps ws htrace (creationsOf_noMessage hws) (fun e he => (hws e he).freshId) ?_ hnext
    rcases hctx with hctx | hclear
    · exact .of_eq hctx
    · intro s hs
      rw [hclear s] at hs
      cases hs
  | @message c hdr req p m₁ ws ws' hlen hp halive hbefore hafter hnext htrace hws hws' =>
    have hcreations : creationsOf (ws ++ .handle c hdr req m₁.npu :: ws') =
        creationsOf [.handle c hdr req m₁.npu] := by
      rw [creationsOf_append, ← List.singleton_append, creationsOf_append,
        creationsOf_noMessage hws, creationsOf_noMessage hws', List.nil_append, List.append_nil]
    have hfresh : (∀ e ∈ ws ++ .handle c hdr req m₁.npu :: ws', e.FreshId) ↔
        (Event.handle c hdr req m₁.npu).FreshId := by
      refine ⟨fun h => h _ (by simp), fun h e he => ?_⟩
      rcases List.mem_append.mp he with he | he
      · exact (hws e he).freshId
      rcases List.mem_cons.mp he with rfl | he
      · exact h
      · exact (hws' e he).freshId
    rcases mertOutcome_ids (c := c) host hlen hp with ⟨hnone, hkeeps, hsame⟩ |
      ⟨s, creq, hsome, hnpu⟩
    · have hnew : creationsOf (ws ++ .handle c hdr req m₁.npu :: ws') = [] := by
        rw [hcreations, creationsOf, List.filterMap_cons_none hnone]
        rfl
      refine .keeps _ htrace hnew (hfresh.mpr ?_) ?_ (by rw [hnext, hsame, hbefore.2])
      · intro p hp
        rw [hnone] at hp
        cases hp
      · intro s hs
        rw [hafter] at hs ⊢
        rw [← hbefore.1]
        exact hkeeps s hs
    · refine .creates s m₁.npu creq _ htrace
        (by rw [hcreations, creationsOf, List.filterMap_cons_some hsome]; rfl)
        (hfresh.trans ⟨fun h => h _ hsome, fun h p hp => ?_⟩) hbefore ?_ ?_
      · rw [hsome] at hp
        cases hp
        exact h
      · rw [hafter, hnpu, createContext_ctx]
      · rw [hnext, hnpu, createContext_nextCtxId]

/-! ## The counter comes around -/

section Driver

variable {d : Drv}

private theorem Reachable.wr32 (h : Reachable host m) (bar : Int) (off val : UInt32) :
    Reachable host (wr32 host m bar off val) := h.writeBuf bar off _

private theorem Reachable.ite (p : Prop) [Decidable p] (h : Reachable host m)
    (h' : Reachable host m') : Reachable host (if p then m else m') := by
  split
  · exact h
  · exact h'

private theorem Reachable.ite_pass {α : Type} (p : Prop) [Decidable p] {a b : Drv × Machine × α}
    (h : Reachable host a.2.1) (h' : Reachable host b.2.1) :
    Reachable host (if p then a else b).2.1 := by
  split
  · exact h
  · exact h'

private theorem Reachable.recvPass (h : Reachable host m) :
    Reachable host (recvPass host d m).2.1 := by
  unfold Xdna.recvPass
  dsimp only
  refine .ite_pass _ h (.ite_pass _ ?_ ?_)
  · dsimp only
    apply h.wr32
  · dsimp only
    apply h.wr32

private theorem Reachable.recvLoop (h : Reachable host m) (fuel : ℕ) :
    Reachable host (recvLoop host fuel d m).2.1 := by
  induction fuel generalizing d m with
  | zero => exact h
  | succ fuel ih =>
    have hpass : Reachable host (Xdna.recvPass host d m).2.1 := h.recvPass
    rw [Xdna.recvLoop]
    generalize Xdna.recvPass host d m = r at hpass
    obtain ⟨d', m', got⟩ := r
    cases got with
    | empty => exact hpass
    | tombstone => exact ih hpass
    | frame => exact hpass

private theorem Reachable.mboxPost (h : Reachable host m) (id opcode : UInt32) (req : List UInt8) :
    Reachable host (mboxPost host d m id opcode req).2.1 := by
  unfold Xdna.mboxPost
  dsimp only
  have hmarked (p : Prop) [Decidable p] (off : UInt32) (bytes : List UInt8) :
      Reachable host (if p then mmioWriteBuf host m barSram off bytes else m) :=
    .ite p (h.writeBuf ..) h
  apply Reachable.ite_pass
  · apply hmarked
  · dsimp only
    apply Reachable.wr32
    apply Reachable.ite
    · exact (hmarked ..).writeBuf ..
    · exact ((hmarked ..).writeBuf ..).writeBuf ..

private theorem Reachable.mboxRecv (h : Reachable host m) :
    Reachable host (mboxRecv host d m).2.1 := by
  unfold Xdna.mboxRecv
  exact (h.wr32 ..).recvLoop 64

/-- Driver transactions are guest accesses. -/
theorem Reachable.transact {st : Pair} (h : Reachable host st.2) (q : Request) :
    Reachable host (transact host st q).2 := by
  have hpost : Reachable host (Xdna.mboxPost host st.1 st.2 q.id q.opcode q.payload).2.1 :=
    h.mboxPost ..
  unfold Xdna.transact Pair.sendRecv mboxSendRecv
  generalize Xdna.mboxPost host st.1 st.2 q.id q.opcode q.payload = r at hpost ⊢
  exact .ite_pass _ hpost.mboxRecv hpost

end Driver

/-- Every reachable state is the end of a run. -/
theorem Reachable.exists_guestRun (h : Reachable host m) :
    ∃ ops, Xdna.guestRun host ops = m := by
  induction h with
  | reset => exact ⟨[], rfl⟩
  | @word m bar w _ ih =>
    obtain ⟨ops, rfl⟩ := ih
    by_cases hbar : bar = barSram
    · refine ⟨ops, ?_⟩
      rw [hbar, regWrite, if_neg (by decide), if_neg (by decide)]
    · refine ⟨ops ++ [GuestOp.writeBuf bar w.1 (le32 w.2)], ?_⟩
      rw [guestRun_snoc, Xdna.guestStep, mmioWriteBuf, if_neg hbar, writeWords_le32,
        List.foldl_cons, List.foldl_nil]
  | @sram m off bytes hin _ ih =>
    obtain ⟨ops, rfl⟩ := ih
    have hoff : (UInt32.ofNat off).toNat = off := by
      unfold barSramSize at hin
      exact UInt32.toNat_ofNat_of_lt' (show off < 2 ^ 32 by omega)
    refine ⟨ops ++ [GuestOp.writeBuf barSram (UInt32.ofNat off) bytes], ?_⟩
    rw [guestRun_snoc, Xdna.guestStep, mmioWriteBuf, if_pos rfl, hoff, if_neg (by omega)]

/-- A request for a context of one column. -/
def createRequest : Request := ⟨1, 0x2, [0, 0, 0, 0, 0, 1] ++ List.replicate 22 0⟩

private theorem createRequest_isCreate : createRequest.IsCreate := ⟨rfl, rfl, by decide⟩

/-- A request to destroy the context with the given id. -/
def destroyRequest (id : UInt32) : Request := ⟨2, 0x3, le32 id⟩

private theorem destroyRequest_sendable (id : UInt32) : Sendable (destroyRequest id).payload := by
  have hlen : (destroyRequest id).payload.length = 4 := le32_length id
  refine ⟨by rw [hlen], ?_, by rw [hlen]; decide⟩
  intro hnil
  rw [hnil] at hlen
  cases hlen

private theorem destroyRequest_decode (id : UInt32) :
    DestroyCtxReq.decode (Memory.ofBytes (destroyRequest id).payload) = ⟨id⟩ := by
  have hread := Memory.read_ofBytes (le32 id)
  rw [le32_length] at hread
  rw [DestroyCtxReq.decode, destroyRequest, Memory.word32_of_read hread]

/-- What a request that fits does to contexts and counter is what the handler does. -/
theorem Idle.served (host : Host) {st : Pair} (h : Idle st.1 st.2) {q : Request}
    (hq : Sendable q.payload) (hlen : q.payload.length ≤ 76) :
    ∃ m₀ : Machine, m₀.npu.ctx = st.2.npu.ctx ∧ m₀.npu.nextCtxId = st.2.npu.nextCtxId ∧
      (transact host st q).2.npu.ctx =
        (mertOutcome host m₀ q.header (Memory.ofBytes q.payload)).1.npu.ctx ∧
      (transact host st q).2.npu.nextCtxId =
        (mertOutcome host m₀ q.header (Memory.ofBytes q.payload)).1.npu.nextCtxId := by
  obtain ⟨htrans, -⟩ := h.sendRecv host hq
  have hplace : emptyPlace st.1.x2iTail.toNat (16 + q.payload.length) ≠ none :=
    emptyPlace_ne_none (by omega)
  unfold transact
  generalize st.sendRecv host q = r at htrans ⊢
  cases htrans with
  | refused _ hnone _ _ => exact absurd hnone hplace
  | served m₀ m' reply _ hcons hfw hdma hreply hfw' hdma' =>
    exact ⟨m₀, hfw.ctx, hfw.nextCtxId, hfw'.ctx, hfw'.nextCtxId⟩

/-- The machine is idle without contexts, after `n` creations. -/
structure AfterRounds (host : Host) (n : ℕ) (st : Pair) : Prop where
  idle : Idle st.1 st.2
  reachable : Reachable host st.2
  empty : ∀ s, (st.2.npu.ctx s).valid = false
  counter : st.2.npu.nextCtxId = UInt32.ofNat (n + 1)

/-- The first slot holds a context with the id `k`, and the others none. -/
structure OneContext (npu : Npu) (k : UInt32) : Prop where
  valid : (npu.ctx 0).valid = true
  id : (npu.ctx 0).id = k
  others : ∀ s, s ≠ 0 → (npu.ctx s).valid = false

section Rounds

variable {st : Pair} {n : ℕ}

private theorem freeSlot_of_empty {npu : Npu} (h : ∀ s, (npu.ctx s).valid = false) :
    freeSlot npu = some 0 := by
  rw [freeSlot, show List.finRange hwctxLimit = 0 :: (List.finRange hwctxLimit).tail from rfl,
    List.find?_cons_of_pos (by simp [h 0])]

private theorem AfterRounds.create (h : AfterRounds host n st) :
    Idle (transact host st createRequest).1 (transact host st createRequest).2 ∧
      OneContext (transact host st createRequest).2.npu st.2.npu.nextCtxId ∧
      (transact host st createRequest).2.npu.nextCtxId = st.2.npu.nextCtxId + 1 := by
  have hq := createRequest_isCreate
  obtain ⟨m₀, hctx₀, hnext₀, hctx, hnext⟩ :=
    h.idle.served host hq.sendable (by rw [hq.length]; decide)
  have hfree : freeSlot m₀.npu = some 0 := freeSlot_of_empty fun s => by rw [hctx₀, h.empty]
  obtain ⟨creq, hout⟩ := hq.outcome host hfree
  rw [hout] at hctx hnext
  dsimp only at hctx hnext
  rw [createContext_ctx] at hctx
  rw [createContext_nextCtxId, hnext₀] at hnext
  refine ⟨(h.idle.sendRecv host hq.sendable).2, ⟨?_, ?_, ?_⟩, hnext⟩
  · rw [hctx, Function.update_self]
    rfl
  · rw [hctx, Function.update_self, ← hnext₀]
    rfl
  · intro s hs
    rw [hctx, Function.update_of_ne hs, hctx₀, h.empty]

private theorem OneContext.destroy (host : Host) {k : UInt32} (hidle : Idle st.1 st.2)
    (h : OneContext st.2.npu k) :
    Idle (transact host st (destroyRequest k)).1 (transact host st (destroyRequest k)).2 ∧
      (∀ s, ((transact host st (destroyRequest k)).2.npu.ctx s).valid = false) ∧
      (transact host st (destroyRequest k)).2.npu.nextCtxId = st.2.npu.nextCtxId := by
  have hq := destroyRequest_sendable k
  obtain ⟨m₀, hctx₀, hnext₀, hctx, hnext⟩ :=
    hidle.served host hq (by rw [destroyRequest, le32_length]; decide)
  have hfound : ctxById m₀.npu k = some 0 := by
    rw [ctxById, show List.finRange hwctxLimit = 0 :: (List.finRange hwctxLimit).tail from rfl,
      List.find?_cons_of_pos (by simp [hctx₀, h.valid, h.id])]
  have htotal : (destroyRequest k).header.totalSize = 4 := by
    rw [Request.header, requestHeader, destroyRequest, le32_length]
    rfl
  have hlong : ¬ (destroyRequest k).header.totalSize < DestroyCtxReq.size := by
    rw [htotal]
    decide
  rw [mertOutcome_of (o := .destroyContext) host m₀ _ rfl (by decide), npuOutcome, mertStep,
    destroyRequest_decode, destroyStep, if_neg hlong, hfound] at hctx hnext
  dsimp only at hctx hnext
  rw [destroyContext_ctx] at hctx
  rw [destroyContext_nextCtxId, hnext₀] at hnext
  refine ⟨(hidle.sendRecv host hq).2, fun s => ?_, hnext⟩
  rw [hctx]
  by_cases hs : s = 0
  · rw [hs, Function.update_self]
  · rw [Function.update_of_ne hs, hctx₀, h.others s hs]

/-- A context is created and destroyed. -/
def round (host : Host) (st : Pair) : Pair :=
  transact host (transact host st createRequest) (destroyRequest st.2.npu.nextCtxId)

private theorem AfterRounds.round (h : AfterRounds host n st) :
    AfterRounds host (n + 1) (round host st) := by
  obtain ⟨hidle, hone, hnext⟩ := h.create
  obtain ⟨hidle', hempty, hnext'⟩ := hone.destroy host hidle
  have hreach := (h.reachable.transact createRequest).transact
    (destroyRequest st.2.npu.nextCtxId)
  rw [Xdna.round]
  refine ⟨hidle', hreach, hempty, ?_⟩
  rw [hnext', hnext, h.counter, UInt32.ofNat_add (n + 1) 1]
  rfl

private theorem AfterRounds.iterate (h : AfterRounds host 0 st) :
    AfterRounds host n ((Xdna.round host)^[n] st) := by
  induction n with
  | zero => exact h
  | succ n ih =>
    rw [Function.iterate_succ_apply']
    exact ih.round

end Rounds

/-- After a boot and `2 ^ 32 - 1` rounds. -/
def wrapped : Pair :=
  (round .accepting)^[2 ^ 32 - 1]
    (mgmtDriver, pspNotify .accepting (guestRun .accepting validateOps))

private theorem wrapped_afterRounds : AfterRounds .accepting (2 ^ 32 - 1) wrapped := by
  have hregs := starts_validateOps.booted.1
  have hreach := starts_validateOps.reachable.word barReg (regPubSecIntr, pspNotifyVal)
  apply AfterRounds.iterate
  refine ⟨starts_validateOps.idle, hreach, ?_, ?_⟩
  · have hdown : ¬ (guestRun .accepting validateOps).npu.fwAlive = true := by decide +kernel
    intro s
    rw [hregs.ctx, fwBoot_ctx, ← Bool.not_eq_true]
    exact fun hs => hdown ((guestRun_consistent .accepting validateOps).alive s hs)
  · rw [hregs.nextCtxId, fwBoot_nextCtxId]
    decide +kernel

/-! ## Runs -/

/-- The ids of the valid contexts are not zero, are distinct, and are those that the last
creations in their slots have returned. -/
structure IdsOk (m : Machine) : Prop where
  nonzero : ∀ s, (m.npu.ctx s).valid = true → (m.npu.ctx s).id ≠ 0
  distinct : ∀ s s', (m.npu.ctx s).valid = true → (m.npu.ctx s').valid = true →
    (m.npu.ctx s).id = (m.npu.ctx s').id → s = s'
  made : ∀ s, (m.npu.ctx s).valid = true → lastId s m.trace = some (m.npu.ctx s).id

private theorem IdStep.idsOk (hstep : IdStep m m') (h : IdsOk m)
    (hfresh : ∀ e ∈ m'.trace, e.FreshId) : IdsOk m' := by
  cases hstep with
  | keeps ws htrace hws _ hids _ =>
    refine ⟨fun s hs => ?_, fun s s' hs hs' heq => ?_, fun s hs => ?_⟩
    · rw [(hids s hs).2]
      exact h.nonzero s (hids s hs).1
    · rw [(hids s hs).2, (hids s' hs').2] at heq
      exact h.distinct s s' (hids s hs).1 (hids s' hs').1 heq
    · rw [htrace, lastId_append_other s hws, (hids s hs).2]
      exact h.made s (hids s hs).1
  | creates s₀ npu creq ws htrace hws hnew hbefore hctx _ =>
    rw [htrace] at hfresh
    obtain ⟨hzero, hother⟩ := hnew.mp fun e he => hfresh e (List.mem_append_right _ he)
    rw [hbefore.1] at hother hctx
    have hself : m'.npu.ctx s₀ = createdContext npu s₀ creq := by
      rw [hctx, Function.update_self]
    have hold {s : SlotIdx} (hs : s ≠ s₀) : m'.npu.ctx s = m.npu.ctx s := by
      rw [hctx, Function.update_of_ne hs]
    refine ⟨fun s hs => ?_, fun s s' hs hs' heq => ?_, fun s hs => ?_⟩
    · by_cases hs₀ : s = s₀
      · rw [hs₀, hself]
        exact hzero
      · rw [hold hs₀] at hs ⊢
        exact h.nonzero s hs
    · by_cases hs₀ : s = s₀ <;> by_cases hs₀' : s' = s₀
      · rw [hs₀, hs₀']
      · rw [hs₀, hself, hold hs₀'] at heq
        rw [hold hs₀'] at hs'
        exact absurd heq.symm (hother s' hs')
      · rw [hs₀', hself, hold hs₀] at heq
        rw [hold hs₀] at hs
        exact absurd heq (hother s hs)
      · rw [hold hs₀, hold hs₀'] at heq
        rw [hold hs₀] at hs
        rw [hold hs₀'] at hs'
        exact h.distinct s s' hs hs' heq
    · rw [htrace, lastId_append_creation s s₀ hws]
      by_cases hs₀ : s = s₀
      · rw [if_pos hs₀, hs₀, hself]
        rfl
      · rw [if_neg hs₀, hold hs₀]
        rw [hold hs₀] at hs
        exact h.made s hs

/-- The counter has not come around: it is one more than the number of creations, and the ids in
the table are smaller. -/
structure IdsCounted (m : Machine) : Prop where
  counter : m.npu.nextCtxId = UInt32.ofNat ((creationsOf m.trace).length + 1)
  below : ∀ s, (m.npu.ctx s).valid = true → (m.npu.ctx s).id.toNat ≤ (creationsOf m.trace).length
  fresh : ∀ e ∈ m.trace, e.FreshId

private theorem IdStep.idsCounted (hstep : IdStep m m') (h : IdsCounted m)
    (hfew : (creationsOf m'.trace).length < 2 ^ 32) : IdsCounted m' := by
  cases hstep with
  | keeps ws htrace hws hfresh hids hnext =>
    have hsame : creationsOf m'.trace = creationsOf m.trace := by
      rw [htrace, creationsOf_append, hws, List.append_nil]
    refine ⟨by rw [hnext, hsame, h.counter], fun s hs => ?_, fun e he => ?_⟩
    · rw [hsame, (hids s hs).2]
      exact h.below s (hids s hs).1
    · rw [htrace] at he
      exact (List.mem_append.mp he).elim (h.fresh e) (hfresh e)
  | creates s₀ npu creq ws htrace hws hfresh hbefore hctx hnext =>
    have hmore : (creationsOf m'.trace).length = (creationsOf m.trace).length + 1 := by
      rw [htrace, creationsOf_append, hws, List.length_append, List.length_singleton]
    have hcounter : npu.nextCtxId.toNat = (creationsOf m.trace).length + 1 := by
      rw [hbefore.2, h.counter, UInt32.toNat_ofNat_of_lt' (by rw [← hmore]; exact hfew)]
    rw [hbefore.1] at hctx hfresh
    refine ⟨?_, fun s hs => ?_, fun e he => ?_⟩
    · rw [hnext, hmore, hbefore.2, h.counter, UInt32.ofNat_add ((creationsOf m.trace).length + 1) 1]
      rfl
    · rw [hctx] at hs ⊢
      by_cases hs₀ : s = s₀
      · rw [hs₀, Function.update_self, createdContext]
        dsimp only
        omega
      · rw [Function.update_of_ne hs₀] at hs ⊢
        have := h.below s hs
        omega
    · rw [htrace] at he
      refine (List.mem_append.mp he).elim (h.fresh e) (hfresh.mpr ⟨fun hzero => ?_, ?_⟩ e)
      · rw [hzero] at hcounter
        exact absurd hcounter (by simp)
      · intro s' hs' heq
        have := h.below s' hs'
        rw [heq] at this
        omega

private theorem idsOk_initial : IdsOk initial := by
  have hnone (s : SlotIdx) : ¬ (initial.npu.ctx s).valid = true := by
    rw [initial, npuReset_ctx]
    exact Bool.false_ne_true
  exact ⟨fun s hs => absurd hs (hnone s), fun s _ hs => absurd hs (hnone s),
    fun s hs => absurd hs (hnone s)⟩

private theorem idsCounted_initial : IdsCounted initial := by
  refine ⟨?_, fun s hs => ?_, fun _ he => nomatch he⟩
  · rw [initial, npuReset_eq]
    rfl
  · rw [initial, npuReset_ctx] at hs
    cases hs

/-- Creations stay in the trace. -/
theorem IdStep.creationsOf_le (hstep : IdStep m m') :
    (creationsOf m.trace).length ≤ (creationsOf m'.trace).length := by
  cases hstep with
  | keeps ws htrace _ _ _ _ | creates _ _ _ ws htrace _ _ _ _ _ =>
    rw [htrace, creationsOf_append, List.length_append]
    exact Nat.le_add_right ..

private theorem IdsOk.lookup (h : IdsOk m) {s : SlotIdx} (hs : (m.npu.ctx s).valid = true) :
    ctxById m.npu (m.npu.ctx s).id = some s := by
  cases hfound : ctxById m.npu (m.npu.ctx s).id with
  | none =>
    have hnot := List.find?_eq_none.mp hfound s (List.mem_finRange s)
    simp [hs] at hnot
  | some s' =>
    obtain ⟨hvalid, hid⟩ := ctxById_valid hfound
    rw [h.distinct s' s hvalid hs hid]

/-- In every run in which no creation meets an id that is zero or in use, the ids of the
valid contexts are what their creations have returned, and each finds its own context. -/
theorem guestRun_idsOk (host : Host) (ops : List GuestOp)
    (hfresh : ∀ e ∈ (guestRun host ops).trace, e.FreshId) :
    IdsOk (guestRun host ops) ∧ ∀ s, ((guestRun host ops).npu.ctx s).valid = true →
      ctxById (guestRun host ops).npu ((guestRun host ops).npu.ctx s).id = some s := by
  have hacts : Acts host (fun _ _ => True) initial (guestRun host ops) :=
    guestRun_acts fun _ _ _ _ => trivial
  have hinv := hacts.preserves
    (P := fun m => HeadsOk m.npu ∧ ((∀ e ∈ m.trace, e.FreshId) → IdsOk m)) consistent_npuReset
    (fun m m' hcons hm hact => ⟨(hact.steps hcons).headsOk hcons hm.1, fun hfresh => by
      have hhandling := hact.handling hcons hm.1
      exact hhandling.idStep.idsOk (hm.2 fun e he => hfresh e (hhandling.mem_trace he)) hfresh⟩)
    ⟨headsOk_npuReset, fun _ => idsOk_initial⟩
  have hok := hinv.2 hfresh
  exact ⟨hok, fun s hs => hok.lookup hs⟩

/-- In every run with fewer than `2^32` creations, each of them takes an id that is not zero and not
in use. -/
theorem guestRun_freshId (host : Host) {ops : List GuestOp}
    (hfew : (creationsOf (guestRun host ops).trace).length < 2 ^ 32) :
    ∀ e ∈ (guestRun host ops).trace, e.FreshId := by
  have hacts : Acts host (fun _ _ => True) initial (guestRun host ops) :=
    guestRun_acts fun _ _ _ _ => trivial
  have hinv := hacts.preserves
    (P := fun m => HeadsOk m.npu ∧ ((creationsOf m.trace).length < 2 ^ 32 → IdsCounted m))
    consistent_npuReset
    (fun m m' hcons hm hact => ⟨(hact.steps hcons).headsOk hcons hm.1, fun hfew => by
      have hstep := (hact.handling hcons hm.1).idStep
      exact hstep.idsCounted (hm.2 (Nat.lt_of_le_of_lt hstep.creationsOf_le hfew)) hfew⟩)
    ⟨headsOk_npuReset, fun _ => idsCounted_initial⟩
  exact (hinv.2 hfew).fresh

/-- A run in which one context is created, and survives a second boot. -/
theorem guestRun_idsOk_restartOps :
    IdsOk (guestRun .accepting restartOps) ∧
      ∀ s, ((guestRun .accepting restartOps).npu.ctx s).valid = true →
        ctxById (guestRun .accepting restartOps).npu
          ((guestRun .accepting restartOps).npu.ctx s).id = some s :=
  guestRun_idsOk .accepting restartOps (by decide +kernel)

/-- The next context has the id zero. -/
theorem guestRun_zero_id :
    (∃ ops, guestRun .accepting ops = (transact .accepting wrapped createRequest).2) ∧
      ((transact .accepting wrapped createRequest).2.npu.ctx 0).valid = true ∧
      ((transact .accepting wrapped createRequest).2.npu.ctx 0).id = 0 := by
  have hrounds := wrapped_afterRounds
  obtain ⟨_, hone, _⟩ := hrounds.create
  refine ⟨(hrounds.reachable.transact _).exists_guestRun, hone.valid, ?_⟩
  rw [hone.id, hrounds.counter]
  rfl

end Xdna
