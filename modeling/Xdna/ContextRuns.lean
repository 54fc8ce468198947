import Xdna.ContextMap

/-!
# Every run is a run of the map

Each message does to the table what the map allows, with the answer the map
prescribes; of all else that happens only RELEASE_TMR concerns the table. An id is fresh as
long as the counter has not come around, which takes `2^32 - 1` creations.
-/

namespace Xdna

open ByteMemory SlotTable

/-! ## Observations -/

/-- What an event shows of context management. A reply is what the firmware hands to
`xdna_mbox_send`, whether or not there is room for it. -/
def Event.obs? : Event → Option Obs
  | .handle _ hdr payload _ => some (.request hdr.opcode payload)
  | .send _ _ opcode payload _ => some (.reply opcode payload)
  | .pspDone cmd _ => if cmd = pspCmdReleaseTmr then some .release else none
  | _ => none

/-- What is seen of context management in a trace. -/
def observe (tr : List Event) : List Obs := tr.filterMap Event.obs?

/-- The reply to a successful CREATE_CONTEXT. -/
def Obs.isCreation : Obs → Bool
  | .reply opcode payload => opcode = 0x2 ∧ payload.take 4 = le32 0
  | _ => false

/-- The number of successful creations. -/
def creations (os : List Obs) : ℕ := os.countP Obs.isCreation

/-- A request and the answer to it, if there is one. -/
def messageObs (hdr : MsgHeader) (req : List UInt8) (a : Option Answer) : List Obs :=
  .request hdr.opcode req :: a.toList.map fun a => .reply hdr.opcode a.2

/-! ## One message -/

variable {npu : Npu} {st : CtxState} {hdr : MsgHeader} {req : List UInt8}

private theorem totalSize_lt_iff (hlen : hdr.totalSize.toNat = req.length) {size : UInt32} :
    hdr.totalSize < size ↔ req.length < size.toNat := by
  rw [UInt32.lt_iff_toNat_lt, hlen]

/-- The answer of a status reply whose status comes first. -/
theorem statusAnswer_take (hoff : (respSizeFor hdr.opcode).2 = 0) (status : MsgStatus) :
    (statusAnswer hdr status).2.take 4 = le32 status.code := by
  have hshape := (statusAnswer_wellShaped hdr status).2
  rwa [hoff, List.drop_zero] at hshape

/-- CREATE_CONTEXT decides as the map does. -/
theorem Tracks.createStep_cases (h : Tracks npu st) (hlen : hdr.totalSize.toNat = req.length) :
    (st.map.createStatus req = .success ∧ ∃ s, freeSlot npu = some s ∧
      createStep npu hdr (CreateCtxReq.decode (Memory.ofBytes req)) =
        (createContext npu s (CreateCtxReq.decode (Memory.ofBytes req)),
          some (.success, (createReply (createContext npu s
            (CreateCtxReq.decode (Memory.ofBytes req))) s).encode))) ∨
    (st.map.createStatus req ≠ .success ∧
      createStep npu hdr (CreateCtxReq.decode (Memory.ofBytes req)) =
        (npu, some (statusAnswer hdr (st.map.createStatus req)))) := by
  have hcols : (CreateCtxReq.decode (Memory.ofBytes req)).numCol = (Memory.ofBytes req) 5 := rfl
  have hbad : ((Memory.ofBytes req) 5 = 0 ∨ aieCols < ((Memory.ofBytes req) 5).toNat) ↔
      ¬ (1 ≤ ((Memory.ofBytes req) 5).toNat ∧ ((Memory.ofBytes req) 5).toNat ≤ 5) := by
    rw [← UInt8.toNat_inj, show aieCols = 5 from rfl, show (0 : UInt8).toNat = 0 from rfl]
    omega
  have hsize : hdr.totalSize < CreateCtxReq.size ↔ req.length < 28 := totalSize_lt_iff hlen
  unfold CtxMap.createStatus createStep
  by_cases hshort : req.length < 28
  · rw [if_pos hshort, if_pos (hsize.mpr hshort)]
    exact .inr ⟨by decide, rfl⟩
  · rw [if_neg hshort, if_neg (hsize.not.mpr hshort), hcols]
    cases hfree : freeSlot npu with
    | none =>
      rw [if_pos (h.full_iff.mpr hfree)]
      exact .inr ⟨by decide, rfl⟩
    | some s =>
      rw [if_neg fun hfull => by rw [h.full_iff.mp hfull] at hfree; cases hfree]
      dsimp only
      by_cases hok : 1 ≤ ((Memory.ofBytes req) 5).toNat ∧ ((Memory.ofBytes req) 5).toNat ≤ 5
      · rw [if_pos hok, if_neg fun hb => hbad.mp hb hok]
        exact .inl ⟨rfl, s, rfl, rfl⟩
      · rw [if_neg hok, if_pos (hbad.mpr hok)]
        exact .inr ⟨by decide, rfl⟩

/-- The ways a request that names a context is answered. -/
theorem Tracks.lookupStatus_cases (h : Tracks npu st) (hlen : hdr.totalSize.toNat = req.length)
    (size : UInt32) :
    (hdr.totalSize < size ∧ st.map.lookupStatus size.toNat req = .invalidInputBuffer) ∨
    (¬ hdr.totalSize < size ∧ ctxById npu (namedCtx req) = none ∧
      st.map.lookupStatus size.toNat req = .mgmtErtInvalidParam) ∨
    (¬ hdr.totalSize < size ∧ ∃ s, ctxById npu (namedCtx req) = some s ∧
      st.map.lookupStatus size.toNat req = .success) := by
  unfold CtxMap.lookupStatus
  rw [totalSize_lt_iff hlen]
  by_cases hshort : req.length < size.toNat
  · exact .inl ⟨hshort, if_pos hshort⟩
  · rw [if_neg hshort]
    cases hid : ctxById npu (namedCtx req) with
    | none =>
      refine .inr (.inl ⟨hshort, rfl, if_neg fun hsome => ?_⟩)
      obtain ⟨s, hs⟩ := h.lookup.mp hsome
      rw [hid] at hs
      cases hs
    | some s => exact .inr (.inr ⟨hshort, s, rfl, if_pos (h.lookup.mpr ⟨s, hid⟩)⟩)

private theorem CtxMap.apply_destroy {t : CtxMap} {opcode : UInt32} (hop : opcode = 0x3) :
    t.apply opcode req = if t.lookupStatus 4 req = .success then
      Function.update t (namedCtx req) none else t := by
  subst hop
  simp [CtxMap.apply]

private theorem CtxMap.apply_heap {t : CtxMap} {opcode : UInt32}
    (hop : opcode = 0x106 ∨ opcode = 0x115) :
    t.apply opcode req = if t.lookupStatus 20 req = .success then
      Function.update t (namedCtx req) ((t (namedCtx req)).map fun e =>
        e.withHeap ((Memory.ofBytes req).word64 4) ((Memory.ofBytes req).word64 12)) else t := by
  rcases hop with rfl | rfl <;> simp [CtxMap.apply]

private theorem CtxMap.apply_other {t : CtxMap} {opcode : UInt32}
    (hop : opcode ≠ 0x3 ∧ opcode ≠ 0x106 ∧ opcode ≠ 0x115) : t.apply opcode req = t := by
  simp [CtxMap.apply, hop]

private theorem Tracks.destroy_message (h : Tracks npu st) (hlen : hdr.totalSize.toNat = req.length)
    (hop : hdr.opcode = 0x3) :
    let r := destroyStep npu hdr (DestroyCtxReq.decode (Memory.ofBytes req))
    Tracks r.1 ⟨st.map.apply hdr.opcode req, st.used⟩ ∧ r.1.nextCtxId = npu.nextCtxId ∧
      r.2 = some (statusAnswer hdr (st.map.lookupStatus 4 req)) := by
  unfold destroyStep
  rw [CtxMap.apply_destroy hop]
  rcases h.lookupStatus_cases hlen DestroyCtxReq.size with ⟨hshort, hstatus⟩ |
    ⟨hlong, hid, hstatus⟩ | ⟨hlong, s, hid, hstatus⟩ <;>
    rw [show DestroyCtxReq.size.toNat = 4 from rfl] at hstatus <;> rw [hstatus]
  · rw [if_pos hshort, if_neg (by decide)]
    exact ⟨h, rfl, rfl⟩
  · rw [if_neg hlong, if_neg (by decide),
      show (DestroyCtxReq.decode (Memory.ofBytes req)).contextId = namedCtx req from rfl, hid]
    exact ⟨h, rfl, rfl⟩
  · rw [if_neg hlong, if_pos rfl,
      show (DestroyCtxReq.decode (Memory.ofBytes req)).contextId = namedCtx req from rfl, hid]
    exact ⟨h.destroy hid, destroyContext_nextCtxId npu s, rfl⟩

private theorem Tracks.heap_message (h : Tracks npu st) (hlen : hdr.totalSize.toNat = req.length)
    (hop : hdr.opcode = 0x106 ∨ hdr.opcode = 0x115) :
    let r := heapStep npu hdr (MapHostBufferReq.decode (Memory.ofBytes req))
    Tracks r.1 ⟨st.map.apply hdr.opcode req, st.used⟩ ∧ r.1.nextCtxId = npu.nextCtxId ∧
      r.2 = some (statusAnswer hdr (st.map.lookupStatus 20 req)) := by
  unfold heapStep
  rw [CtxMap.apply_heap hop]
  rcases h.lookupStatus_cases hlen MapHostBufferReq.size with ⟨hshort, hstatus⟩ |
    ⟨hlong, hid, hstatus⟩ | ⟨hlong, s, hid, hstatus⟩ <;>
    rw [show MapHostBufferReq.size.toNat = 20 from rfl] at hstatus <;> rw [hstatus]
  · rw [if_pos hshort, if_neg (by decide)]
    exact ⟨h, rfl, rfl⟩
  · rw [if_neg hlong, if_neg (by decide),
      show (MapHostBufferReq.decode (Memory.ofBytes req)).contextId = namedCtx req from rfl, hid]
    exact ⟨h, rfl, rfl⟩
  · rw [if_neg hlong, if_pos rfl,
      show (MapHostBufferReq.decode (Memory.ofBytes req)).contextId = namedCtx req from rfl, hid]
    exact ⟨h.heap _ hid, rfl, rfl⟩

/-- A message that does not concern contexts leaves the table alone. -/
theorem MsgEffect.tracks {npu' : Npu} {p : Memory} (heffect : MsgEffect npu hdr p npu')
    (h : Tracks npu st) (hcreate : hdr.opcode ≠ 0x2)
    (hop : hdr.opcode ≠ 0x3 ∧ hdr.opcode ≠ 0x106 ∧ hdr.opcode ≠ 0x115) :
    Tracks npu' st ∧ npu'.nextCtxId = npu.nextCtxId := by
  cases heffect with
  | none => exact ⟨h, rfl⟩
  | runtimeConfig _ _ => exact ⟨h.congr rfl rfl, rfl⟩
  | pasid _ => exact ⟨h.congr rfl rfl, rfl⟩
  | suspend _ => exact ⟨h.congr rfl rfl, rfl⟩
  | async _ _ => exact ⟨h.congr rfl rfl, rfl⟩
  | create _ h2 => exact absurd h2 hcreate
  | destroy _ h3 => exact absurd h3 hop.1
  | heap _ hmap => exact absurd hmap (not_or.mpr ⟨hop.2.1, hop.2.2⟩)

/-- A message other than QUERY_COL_STATUS is carried out by `mertStep`. -/
theorem mertOutcome_of {o : MsgOpcode} (host : Host) (m : Machine) (p : Memory)
    (hop : hdr.opcode = o.code) (hne : o ≠ .queryColStatus) :
    mertOutcome host m hdr p = npuOutcome m (mertStep m.npu hdr p (some o)) := by
  have hof : MsgOpcode.ofCode? hdr.opcode = some o := MsgOpcode.ofCode?_eq_some.mpr hop.symm
  rw [mertOutcome, if_neg (by rw [hof]; exact fun heq => hne (Option.some.inj heq)), hof]

private theorem creations_messageObs (a : Answer) :
    creations (messageObs hdr req (some a)) =
      if hdr.opcode = 0x2 ∧ a.2.take 4 = le32 0 then 1 else 0 := by
  simp [creations, messageObs, List.countP_cons, Obs.isCreation]

private theorem createReply_take (npu : Npu) (s : SlotIdx) (creq : CreateCtxReq) :
    (createReply (createContext npu s creq) s).encode.take 8 = le32 0 ++ le32 npu.nextCtxId := by
  have hid : ((createContext npu s creq).ctx s).id = npu.nextCtxId := by
    rw [createContext_ctx, Function.update_self, createdContext]
  rw [← hid]
  unfold createReply CreateCtxResp.encode
  simp only [List.append_assoc]
  rw [← List.append_assoc]
  exact List.take_left' (by simp)

/-- CREATE_CONTEXT is a step of the map. -/
theorem Tracks.create_message (h : Tracks npu st) (hlen : hdr.totalSize.toNat = req.length)
    (hop : hdr.opcode = 0x2) {r : Npu × Option Answer}
    (hr : createStep npu hdr (CreateCtxReq.decode (Memory.ofBytes req)) = r)
    (hwrap : npu.nextCtxId.toNat + creations (messageObs hdr req r.2) < 2 ^ 32) :
    ∃ st', CtxStep st (messageObs hdr req r.2) st' ∧ Tracks r.1 st' ∧
      r.1.nextCtxId.toNat = npu.nextCtxId.toNat + creations (messageObs hdr req r.2) := by
  have hoff : (respSizeFor hdr.opcode).2 = 0 := by
    rw [hop]
    rfl
  have hother : hdr.opcode ≠ 0x3 ∧ hdr.opcode ≠ 0x106 ∧ hdr.opcode ≠ 0x115 := by
    rw [hop]
    decide
  rcases h.createStep_cases hlen with ⟨hstatus, s, hfree, heq⟩ | ⟨hstatus, heq⟩ <;>
    rw [hr] at heq <;> subst heq
  · have htake := createReply_take npu s (CreateCtxReq.decode (Memory.ofBytes req))
    have hone : creations (messageObs hdr req (some (.success, (createReply (createContext npu s
        (CreateCtxReq.decode (Memory.ofBytes req))) s).encode))) = 1 := by
      rw [creations_messageObs, if_pos]
      exact ⟨hop, (createReply_wellShaped _ s).2⟩
    rw [hone] at hwrap ⊢
    refine ⟨_, ?_, h.create _ hfree hwrap, ?_⟩
    · rw [messageObs, hop]
      refine .created npu.nextCtxId req _ ?_ ?_ hstatus htake
      · intro hzero
        have hpos := h.counter
        rw [hzero] at hpos
        exact absurd hpos (Nat.lt_irrefl 0)
      · exact fun hused => absurd ((h.used _).mp hused).2 (Nat.lt_irrefl _)
    · rw [createContext_nextCtxId, UInt32.toNat_add]
      exact Nat.mod_eq_of_lt hwrap
  · have hnone : creations (messageObs hdr req
        (some (statusAnswer hdr (st.map.createStatus req)))) = 0 := by
      rw [creations_messageObs, statusAnswer_take hoff, if_neg]
      rintro ⟨_, hcode⟩
      refine hstatus ?_
      revert hcode
      cases st.map.createStatus req <;> decide
    rw [hnone]
    refine ⟨⟨st.map.apply hdr.opcode req, st.used⟩, ?_, ?_, rfl⟩
    · refine .answered hdr.opcode req _ (fun _ => hstatus) fun s hs => ?_
      rw [statusAnswer_take hoff]
      rw [CtxMap.status?, if_pos hop] at hs
      rw [Option.some.inj hs]
    · rw [CtxMap.apply_other hother]
      exact h

/-- So is every message that creates no context and is answered. -/
theorem CtxStep.of_answer (st : CtxState) (req : List UInt8) (a : Answer)
    (hcreate : hdr.opcode ≠ 0x2)
    (hstatus : ∀ s, st.map.status? hdr.opcode req = some s → a.2.take 4 = le32 s.code) :
    CtxStep st (messageObs hdr req (some a)) ⟨st.map.apply hdr.opcode req, st.used⟩ ∧
      creations (messageObs hdr req (some a)) = 0 := by
  refine ⟨.answered hdr.opcode req a.2 (fun hop => absurd hop hcreate) hstatus, ?_⟩
  rw [creations_messageObs, if_neg fun hand => hcreate hand.1]

/-- Every message is a step of the map. -/
theorem Tracks.message (host : Host) {m : Machine} {p : Memory} (h : Tracks m.npu st)
    (hlen : hdr.totalSize.toNat = req.length) (hp : ∀ i < req.length, p i = Memory.ofBytes req i)
    {r : Machine × Option Answer} (hr : mertOutcome host m hdr p = r)
    (hwrap : m.npu.nextCtxId.toNat + creations (messageObs hdr req r.2) < 2 ^ 32) :
    ∃ st', CtxStep st (messageObs hdr req r.2) st' ∧ Tracks r.1.npu st' ∧
      r.1.npu.nextCtxId.toNat = m.npu.nextCtxId.toNat + creations (messageObs hdr req r.2) := by
  rw [mertOutcome_congr host m hdr (hlen ▸ Nat.min_le_left ..) hp] at hr
  by_cases hcreate : hdr.opcode = 0x2
  · rw [mertOutcome_of (o := .createContext) host m _ hcreate (by decide)] at hr
    subst hr
    exact h.create_message hlen hcreate rfl hwrap
  by_cases hdestroy : hdr.opcode = 0x3
  · rw [mertOutcome_of (o := .destroyContext) host m _ hdestroy (by decide)] at hr
    obtain ⟨htracks, hnext, hans⟩ := h.destroy_message hlen hdestroy
    subst hr
    dsimp only [npuOutcome, mertStep]
    rw [hans, hnext]
    obtain ⟨hstep, hzero⟩ := CtxStep.of_answer st req
      (statusAnswer hdr (st.map.lookupStatus 4 req)) hcreate fun s hs => by
        rw [statusAnswer_take (by rw [hdestroy]; rfl)]
        rw [CtxMap.status?, if_neg hcreate, if_pos hdestroy] at hs
        rw [Option.some.inj hs]
    exact ⟨_, hstep, htracks, by rw [hzero]; rfl⟩
  by_cases hheap : hdr.opcode = 0x106 ∨ hdr.opcode = 0x115
  · have hr' : npuOutcome m
        (heapStep m.npu hdr (MapHostBufferReq.decode (Memory.ofBytes req))) = r := by
      rcases hheap with hmap | hadd
      · rw [mertOutcome_of (o := .mapHostBuffer) host m _ hmap (by decide)] at hr
        exact hr
      · rw [mertOutcome_of (o := .addHostBuffer) host m _ hadd (by decide)] at hr
        exact hr
    obtain ⟨htracks, hnext, hans⟩ := h.heap_message hlen hheap
    subst hr'
    dsimp only [npuOutcome]
    rw [hans, hnext]
    obtain ⟨hstep, hzero⟩ := CtxStep.of_answer st req
      (statusAnswer hdr (st.map.lookupStatus 20 req)) hcreate fun s hs => by
        rw [statusAnswer_take (by rcases hheap with hmap | hadd <;> simp only [*] <;> rfl)]
        rw [CtxMap.status?, if_neg hcreate, if_neg hdestroy, if_pos hheap] at hs
        rw [Option.some.inj hs]
    exact ⟨_, hstep, htracks, by rw [hzero]; rfl⟩
  obtain ⟨hmap, hadd⟩ := not_or.mp hheap
  have htracks := (mertOutcome_effect host m hdr (Memory.ofBytes req)).tracks h hcreate
    ⟨hdestroy, hmap, hadd⟩
  have hnone := mertOutcome_eq_none host m hdr (Memory.ofBytes req)
  rw [hr] at htracks hnone
  rw [htracks.2]
  cases hans : r.2 with
  | none =>
    refine ⟨st, ?_, htracks.1, rfl⟩
    rw [messageObs, (hnone.mp hans).1]
    exact .unanswered req
  | some a =>
    obtain ⟨hstep, hzero⟩ := CtxStep.of_answer st req a hcreate fun s hs => by
      rw [CtxMap.status?, if_neg hcreate, if_neg hdestroy, if_neg hheap] at hs
      cases hs
    refine ⟨_, hstep, ?_, by rw [hzero]; rfl⟩
    rw [CtxMap.apply_other ⟨hdestroy, hmap, hadd⟩]
    exact htracks.1

/-! ## Acts of the device -/

/-- From `m` to `m'` the table has made a step that the map allows, or none. -/
def MapStep (m m' : Machine) : Prop :=
  ∃ os, observe m'.trace = observe m.trace ++ os ∧
    ∀ st, Tracks m.npu st → m.npu.nextCtxId.toNat + creations os < 2 ^ 32 →
      ∃ st', (os = [] ∧ st' = st ∨ CtxStep st os st') ∧ Tracks m'.npu st' ∧
        m'.npu.nextCtxId.toNat = m.npu.nextCtxId.toNat + creations os

variable {host : Host} {m m' : Machine}

/-- Nothing that concerns contexts has happened. -/
theorem MapStep.of_same (htrace : observe m'.trace = observe m.trace)
    (hctx : m'.npu.ctx = m.npu.ctx) (hnext : m'.npu.nextCtxId = m.npu.nextCtxId) : MapStep m m' :=
  ⟨[], by rw [htrace, List.append_nil], fun st h _ =>
    ⟨st, .inl ⟨rfl, rfl⟩, h.congr hctx hnext, by rw [hnext]; rfl⟩⟩

private theorem observe_extends {P : Event → Prop} (h : m.Extends P m')
    (hP : ∀ e, P e → e.obs? = none) :
    observe m'.trace = observe m.trace :=
  h.filterMap_eq hP

private theorem observe_append (tr ws : List Event) :
    observe (tr ++ ws) = observe tr ++ observe ws :=
  List.filterMap_append ..

private theorem observe_answerWith (host : Host) (c : ChanIdx) (hdr : MsgHeader)
    (r : Machine × Option Answer) :
    observe (answerWith host c hdr r).trace =
      observe r.1.trace ++ r.2.toList.map fun a => .reply hdr.opcode a.2 := by
  unfold answerWith
  cases r.2 with
  | none => simp
  | some a =>
    obtain ⟨m₁, hext, htrace⟩ := mboxSend_trace host r.1 c hdr.id hdr.opcode a.2
    have hm₁ : observe m₁.trace = observe r.1.trace :=
      observe_extends hext fun e he => by cases he <;> rfl
    dsimp only
    rw [mertReply, htrace, observe_append, hm₁]
    rfl

/-- A pass handles one message, or none. -/
theorem Passed.mapStep {c : ChanIdx} (h : Passed host c m m') : MapStep m m' := by
  cases h with
  | idle hext hfw =>
    refine .of_same ?_ hfw.ctx hfw.nextCtxId
    exact observe_extends hext fun e he => by cases e <;> first | rfl | exact he.elim
  | @handled hdr req m₁ stack htaken hlen hm' =>
    generalize hr : mertOutcome host m₁ hdr (payloadBuffer req stack) = r at hm'
    have hdma := (mertOutcome_trace host m₁ hdr (payloadBuffer req stack)).2
    rw [hr] at hdma
    have hobs : observe r.1.trace = observe m₁.trace :=
      observe_extends hdma fun e he => by cases e <;> first | rfl | exact he.elim
    obtain ⟨ws, htrace, hreads⟩ := htaken.trace
    have hws : observe ws = [] := by
      rw [observe, List.filterMap_eq_nil_iff]
      intro e he
      obtain ⟨_, _, rfl⟩ := hreads e he
      rfl
    have hanswer := (answerWith_change host c hdr r).sameFw
    rw [hm']
    refine ⟨messageObs hdr req r.2, ?_, fun st h hwrap => ?_⟩
    · rw [observe_answerWith, hobs, htrace, observe_append, observe_append, hws, List.append_nil,
        List.append_assoc]
      rfl
    · rw [← htaken.fw.nextCtxId] at hwrap ⊢
      obtain ⟨st', hstep, htracks, hnext⟩ :=
        (h.congr htaken.fw.ctx htaken.fw.nextCtxId).message host hlen
          (fun i hi => payloadBuffer_of_lt stack hi) hr hwrap
      exact ⟨st', .inr hstep, htracks.congr hanswer.ctx hanswer.nextCtxId,
        by rw [← hnext, hanswer.nextCtxId]⟩

/-- Apart from RELEASE_TMR no PSP command concerns contexts. -/
theorem pspCommand_ctx (host : Host) (h : m.npu.scratch 2 ≠ pspCmdReleaseTmr) :
    (pspCommand host m).1.npu.ctx = m.npu.ctx ∧
      (pspCommand host m).1.npu.nextCtxId = m.npu.nextCtxId ∧
      m.Extends Event.IsDmaRead (pspCommand host m).1 := by
  obtain ⟨hregs, htrace⟩ := pspFetchImage_steps host m (pspPaddr m.npu)
    (m.npu.scratch 9 &&& pspArg2Mask)
  unfold pspCommand
  dsimp only
  rw [if_neg h]
  split_ifs
  · exact ⟨hregs.ctx, hregs.nextCtxId, htrace.trans (.modify _)⟩
  · exact ⟨hregs.ctx, hregs.nextCtxId, htrace⟩
  · exact ⟨hregs.ctx, hregs.nextCtxId, htrace⟩
  · exact ⟨rfl, rfl, .refl m⟩
  · exact ⟨fwBoot_ctx _, fwBoot_nextCtxId _, .modify _⟩
  · exact ⟨rfl, rfl, .refl m⟩

private theorem pspKick_mapStep (host : Host) (m : Machine) : MapStep m (pspKick host m) := by
  by_cases hcmd : m.npu.scratch 2 = pspCmdReleaseTmr
  · obtain ⟨hregs, _, _, _, htrace⟩ := pspKick_release host hcmd
    have hslots : slotsOf (pspKick host m).npu = fun _ => none := by
      funext s
      rw [slotsOf, hregs.ctx, fwShutdown_ctx]
      rfl
    have hnext : (pspKick host m).npu.nextCtxId = m.npu.nextCtxId := by
      rw [hregs.nextCtxId, fwShutdown_nextCtxId]
    refine ⟨[.release], by rw [htrace, observe_append]; rfl, fun st h _ =>
      ⟨_, .inr .released, ⟨?_, ?_, hnext ▸ h.used, ?_, hnext ▸ h.counter⟩, by rw [hnext]; rfl⟩⟩
    · rw [hslots]
      intro i j k v w hi
      cases hi
    · rw [hslots, contents_empty]
    · rw [hslots]
      intro s k e hs
      cases hs
  · rw [pspKick_eq]
    obtain ⟨hctx, hnext, htrace⟩ := pspCommand_ctx host (m := countPsp m) hcmd
    refine .of_same ?_ hctx hnext
    have hreads : observe (pspCommand host (countPsp m)).1.trace = observe m.trace :=
      observe_extends htrace fun e he => by cases e <;> first | rfl | exact he.elim
    have hdone (resp : UInt32) : observe [.pspDone (m.npu.scratch 2) resp] = [] := by
      rw [observe, List.filterMap_cons, Event.obs?, if_neg hcmd]
      rfl
    rw [Machine.emit_trace, Machine.modify_trace, observe_append, hreads, hdone, List.append_nil]

/-- Every act of the device is a step of the map or none. -/
theorem Act.mapStep {ok : ChanIdx → UInt32 → Prop} (h : Act host ok m m')
    (hcons : Consistent m.npu) (hheads : HeadsOk m.npu) : MapStep m m' := by
  cases h with
  | regs hf => exact .of_same rfl (hf m.npu).ctx (hf m.npu).nextCtxId
  | sram off bytes _ => exact .of_same rfl rfl rfl
  | guest c _ => exact .of_same rfl rfl rfl
  | psp => exact pspKick_mapStep host m
  | pass c hactive => exact (mboxPass_passed host hcons hheads hactive).mapStep

/-! ## Runs -/

private theorem creations_append (os os' : List Obs) :
    creations (os ++ os') = creations os + creations os' := List.countP_append

/-- What has been observed so far is a run of the map, and the table tracks it, as long as the
counter has not come around. -/
def MapRun (m : Machine) : Prop :=
  creations (observe m.trace) < 2 ^ 32 - 1 →
    ∃ st, CtxRun (observe m.trace) st ∧ Tracks m.npu st ∧
      m.npu.nextCtxId.toNat = creations (observe m.trace) + 1

private theorem MapStep.run (hstep : MapStep m m') (h : MapRun m) : MapRun m' := by
  obtain ⟨os, htrace, hstep⟩ := hstep
  intro hfew
  rw [htrace, creations_append] at hfew
  obtain ⟨st, hrun, htracks, hnext⟩ := h (by omega)
  obtain ⟨st', hos, htracks', hnext'⟩ := hstep st htracks (by omega)
  refine ⟨st', ?_, htracks', by rw [hnext', hnext, htrace, creations_append]; omega⟩
  rw [htrace]
  rcases hos with ⟨rfl, rfl⟩ | hos
  · rwa [List.append_nil]
  · exact hrun.step hos

private theorem tracks_npuReset : Tracks npuReset ⟨fun _ => none, ∅⟩ := by
  have hslots : slotsOf npuReset = fun _ => none := by
    funext s
    rw [slotsOf, npuReset_ctx]
    rfl
  have hone : npuReset.nextCtxId.toNat = 1 := by
    rw [npuReset_eq]
    rfl
  refine ⟨?_, ?_, fun k => ?_, ?_, by omega⟩
  · rw [hslots]
    intro i j k v w hi
    cases hi
  · rw [hslots, contents_empty]
  · rw [hone, Set.mem_empty_iff_false, false_iff]
    omega
  · rw [hslots]
    intro s k e hs
    cases hs

/-- In every run with fewer than `2^32 - 1` successful creations, what is seen of context
management is what the map allows. No id is in two slots, and the lookups of the firmware read
the map. -/
theorem guestRun_contextsOf (host : Host) (ops : List GuestOp)
    (hfew : creations (observe (guestRun host ops).trace) < 2 ^ 32 - 1) :
    ∃ st, CtxRun (observe (guestRun host ops).trace) st ∧
      Distinct (slotsOf (guestRun host ops).npu) ∧ st.map = contextsOf (guestRun host ops).npu := by
  have hacts : Acts host (fun _ _ => True) initial (guestRun host ops) :=
    guestRun_acts fun _ _ _ _ => trivial
  have hinv := hacts.preserves (P := fun m => HeadsOk m.npu ∧ MapRun m) consistent_npuReset
    (fun m m' hcons hm hact => ⟨(hact.steps hcons).headsOk hcons hm.1,
      (hact.mapStep hcons hm.1).run hm.2⟩)
    ⟨headsOk_npuReset, fun _ => ⟨_, .reset, tracks_npuReset, by rw [initial, npuReset_eq]; rfl⟩⟩
  obtain ⟨st, hrun, htracks, _⟩ := hinv.2 hfew
  exact ⟨st, hrun, htracks.distinct, by rw [htracks.map, contextsOf_eq htracks.distinct]⟩

/-- A run with one creation. -/
theorem guestRun_contextsOf_restartOps :
    creations (observe (guestRun .accepting restartOps).trace) = 1 ∧
      ∃ st, CtxRun (observe (guestRun .accepting restartOps).trace) st ∧
        Distinct (slotsOf (guestRun .accepting restartOps).npu) ∧
        st.map = contextsOf (guestRun .accepting restartOps).npu := by
  have hone : creations (observe (guestRun .accepting restartOps).trace) = 1 := by
    decide +kernel
  exact ⟨hone, guestRun_contextsOf .accepting restartOps (by rw [hone]; decide)⟩

end Xdna
