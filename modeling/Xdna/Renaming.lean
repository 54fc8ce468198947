import Xdna.CleanBoot
import Xdna.ContextRuns
import Xdna.Rejection

/-!
# Renaming contexts

The firmware does nothing with a context id but look for the context that has it. Two devices
whose contexts agree up to a renaming of the ids answer a request and its renamed form alike, up
to the id in the reply of a creation.
-/

namespace Xdna

open ByteMemory

/-! ## Requests and replies -/

section Rename

variable (σ : Equiv.Perm UInt32)

/-- The requests that name a context, in the first word of the payload. -/
def Request.NamesContext (q : Request) : Prop :=
  q.opcode = MsgOpcode.destroyContext.code ∨ q.opcode = MsgOpcode.mapHostBuffer.code ∨
    q.opcode = MsgOpcode.addHostBuffer.code

instance (q : Request) : Decidable q.NamesContext := inferInstanceAs (Decidable (_ ∨ _ ∨ _))

/-- The request with the context that it names renamed. -/
def Request.rename (q : Request) : Request :=
  if q.NamesContext then { q with payload := le32 (σ (namedCtx q.payload)) ++ q.payload.drop 4 }
  else q

/-- The id in the reply of a creation. -/
def replyCtx (payload : List UInt8) : UInt32 := UInt32.ofNat (leValue ((payload.drop 4).take 4))

/-- The reply with the context renamed that it returns. Only a CREATE_CONTEXT that succeeds
returns one. -/
def renameReply (opcode : UInt32) (payload : List UInt8) : List UInt8 :=
  if opcode = MsgOpcode.createContext.code ∧ payload.take 4 = le32 0 then
    payload.take 4 ++ le32 (σ (replyCtx payload)) ++ payload.drop 8
  else payload

/-- The reply frame with the id of a created context renamed. -/
def Frame.rename (f : Frame) : Frame :=
  { f with payload := renameReply σ f.hdr.opcode f.payload }

variable {σ} {q : Request}

/-- The opcode stays. -/
theorem Request.rename_opcode : (q.rename σ).opcode = q.opcode := by
  unfold Request.rename
  split <;> rfl

/-- The message id stays. -/
theorem Request.rename_id : (q.rename σ).id = q.id := by
  unfold Request.rename
  split <;> rfl

/-- A request that names no context stays. -/
theorem Request.rename_of_not (h : ¬ q.NamesContext) : q.rename σ = q := if_neg h

/-- The length stays. -/
theorem Request.rename_length (σ : Equiv.Perm UInt32) (h : Sendable q.payload) :
    (q.rename σ).payload.length = q.payload.length := by
  unfold Request.rename
  split
  · have hwords := h.words
    have hpos := List.length_pos_of_ne_nil h.nonempty
    rw [List.length_append, le32_length, List.length_drop]
    omega
  · rfl

/-- A renamed request can be sent. -/
theorem Request.rename_sendable (σ : Equiv.Perm UInt32) (h : Sendable q.payload) :
    Sendable (q.rename σ).payload := by
  have hlen := Request.rename_length σ h
  refine ⟨by rw [hlen, h.words], fun hnil => h.nonempty ?_, by rw [hlen]; exact h.fits⟩
  rw [hnil] at hlen
  exact List.length_eq_zero_iff.mp hlen.symm

/-- The header stays. -/
theorem Request.rename_header (σ : Equiv.Perm UInt32) (h : Sendable q.payload) :
    (q.rename σ).header = q.header := by
  rw [Request.header, Request.header, Request.rename_length σ h, Request.rename_opcode,
    Request.rename_id]

private theorem namedCtx_le32 (k : UInt32) (rest : List UInt8) : namedCtx (le32 k ++ rest) = k := by
  have hread := Memory.take_drop_read (Memory.ofBytes (le32 k ++ rest)) 0
    (show 0 + 4 ≤ (le32 k ++ rest).length by simp)
  rw [Memory.read_ofBytes, List.drop_zero, take_status] at hread
  exact Memory.word32_of_read hread.symm

private theorem Request.rename_namedCtx (σ : Equiv.Perm UInt32) (h : q.NamesContext) :
    namedCtx (q.rename σ).payload = σ (namedCtx q.payload) := by
  rw [Request.rename, if_pos h]
  exact namedCtx_le32 ..

/-- Only replies to creations name a context. -/
theorem renameReply_of_ne {opcode : UInt32} {payload : List UInt8}
    (h : opcode ≠ MsgOpcode.createContext.code) : renameReply σ opcode payload = payload :=
  if_neg fun hop => h hop.1

/-- The reply of a refused creation names no context. -/
theorem renameReply_statusAnswer {hdr : MsgHeader} {status : MsgStatus}
    (h : status ≠ .success) : renameReply σ hdr.opcode (statusAnswer hdr status).2 =
      (statusAnswer hdr status).2 := by
  unfold renameReply
  rw [if_neg]
  rintro ⟨hop, hstatus⟩
  rw [statusAnswer_take (by rw [hop]; decide)] at hstatus
  exact h (MsgStatus.code_eq_zero.mp (le32_injective hstatus))

private theorem renameReply_length {opcode : UInt32} {payload : List UInt8}
    (h : payload.length = (respSizeFor opcode).1) :
    (renameReply σ opcode payload).length = payload.length := by
  unfold renameReply
  split
  · rename_i hop
    rw [hop.1, show (respSizeFor MsgOpcode.createContext.code).1 = 76 from by decide] at h
    rw [List.length_append, List.length_append, List.length_take, le32_length, List.length_drop]
    omega
  · rfl

/-- The frame of a renamed reply. -/
theorem replyFrame_renameReply {id opcode : UInt32} {payload : List UInt8}
    (h : payload.length = (respSizeFor opcode).1) :
    replyFrame id opcode (renameReply σ opcode payload) =
      (replyFrame id opcode payload).rename σ := by
  unfold replyFrame Frame.rename
  rw [renameReply_length h]
  rfl

end Rename

/-! ## Devices whose contexts are renamed -/

/-- The contexts of `npu'` are those of `npu`, with `σ k` in the place of the id `k`. -/
structure RenamedContexts (σ : Equiv.Perm UInt32) (npu npu' : Npu) : Prop where
  valid : ∀ s, (npu'.ctx s).valid = (npu.ctx s).valid
  id : ∀ s, (npu.ctx s).valid = true → (npu'.ctx s).id = σ (npu.ctx s).id
  nextCtxId : npu'.nextCtxId = σ npu.nextCtxId

section Contexts

variable {σ : Equiv.Perm UInt32} {npu npu' npu₁ npu₁' : Npu}

/-- The relation is about contexts and counters. -/
theorem RenamedContexts.congr (h : RenamedContexts σ npu npu') (hctx : npu₁.ctx = npu.ctx)
    (hnext : npu₁.nextCtxId = npu.nextCtxId) (hctx' : npu₁'.ctx = npu'.ctx)
    (hnext' : npu₁'.nextCtxId = npu'.nextCtxId) : RenamedContexts σ npu₁ npu₁' := by
  refine ⟨fun s => ?_, fun s hs => ?_, ?_⟩
  · rw [hctx, hctx', h.valid]
  · rw [hctx] at hs ⊢
    rw [hctx', h.id s hs]
  · rw [hnext, hnext', h.nextCtxId]

private theorem RenamedContexts.freeSlot (h : RenamedContexts σ npu npu') :
    Xdna.freeSlot npu' = Xdna.freeSlot npu := by
  simp only [Xdna.freeSlot, h.valid]

private theorem RenamedContexts.ctxById (h : RenamedContexts σ npu npu') (k : UInt32) :
    Xdna.ctxById npu' (σ k) = Xdna.ctxById npu k := by
  unfold Xdna.ctxById
  congr 1
  funext s
  rw [h.valid]
  cases hs : (npu.ctx s).valid with
  | false => rfl
  | true => simp [h.id s hs]

/-- Both devices change the same slot in the same way. -/
theorem RenamedContexts.update (h : RenamedContexts σ npu npu') {s : SlotIdx} {ctx ctx' : Context}
    (hctx : npu₁.ctx = Function.update npu.ctx s ctx)
    (hctx' : npu₁'.ctx = Function.update npu'.ctx s ctx') (hvalid : ctx'.valid = ctx.valid)
    (hid : ctx.valid = true → ctx'.id = σ ctx.id) (hnext : npu₁'.nextCtxId = σ npu₁.nextCtxId) :
    RenamedContexts σ npu₁ npu₁' := by
  refine ⟨fun s' => ?_, fun s' hs' => ?_, hnext⟩
  · rw [hctx, hctx']
    by_cases heq : s' = s
    · rw [heq, Function.update_self, Function.update_self, hvalid]
    · rw [Function.update_of_ne heq, Function.update_of_ne heq, h.valid]
  · rw [hctx] at hs' ⊢
    rw [hctx']
    by_cases heq : s' = s
    · rw [heq, Function.update_self] at hs' ⊢
      rw [Function.update_self, hid hs']
    · rw [Function.update_of_ne heq] at hs' ⊢
      rw [Function.update_of_ne heq, h.id s' hs']

end Contexts

/-! ## Messages -/

/-- A renamed message keeps the contexts renamed, and its reply is the renamed one. -/
structure RenamedStep (σ : Equiv.Perm UInt32) (opcode : UInt32) (r r' : Npu × Option Answer) :
    Prop where
  contexts : RenamedContexts σ r.1 r'.1
  reply : r'.2.map Prod.snd = r.2.map fun a => renameReply σ opcode a.2

private theorem renameReply_created (σ : Equiv.Perm UInt32) (k : UInt32) (rest : List UInt8) :
    renameReply σ MsgOpcode.createContext.code (le32 0 ++ le32 k ++ rest) =
      le32 0 ++ le32 (σ k) ++ rest := by
  have htake : (le32 0 ++ le32 k ++ rest).take 4 = le32 0 := by
    rw [List.append_assoc]
    exact take_status ..
  have hid : replyCtx (le32 0 ++ le32 k ++ rest) = k := by
    rw [replyCtx, List.append_assoc, List.drop_left' (le32_length 0), take_status,
      ofNat_leValue_le32]
  rw [renameReply, if_pos ⟨rfl, htake⟩, htake, hid, List.drop_left' (by simp)]

/-- The reply of a creation depends on the slot and on the counter of the ids. -/
theorem createReply_encode (s : SlotIdx) : ∃ rest, ∀ (npu : Npu) (creq : CreateCtxReq),
    (createReply (createContext npu s creq) s).encode = le32 0 ++ le32 npu.nextCtxId ++ rest := by
  refine ⟨?_, fun npu creq => ?_⟩
  rotate_left
  rw [createReply, createContext_ctx, createContext_chan, Function.update_self,
    Function.update_self, CreateCtxResp.encode, createdContext]
  dsimp only
  simp only [List.append_assoc]
  rfl

section Steps

variable {σ : Equiv.Perm UInt32} {npu npu' : Npu} {hdr : MsgHeader}

/-- Two devices that give the same answer. -/
theorem RenamedStep.of_answer {opcode : UInt32} {npu₁ npu₁' : Npu} {a : Option Answer}
    (h : RenamedContexts σ npu₁ npu₁') (ha : ∀ b ∈ a, renameReply σ opcode b.2 = b.2) :
    RenamedStep σ opcode (npu₁, a) (npu₁', a) := by
  refine ⟨h, ?_⟩
  cases a with
  | none => rfl
  | some b => rw [Option.map_some, Option.map_some, ha b rfl]

private theorem RenamedContexts.createStep (h : RenamedContexts σ npu npu')
    (hσ : ∀ k, σ (k + 1) = σ k + 1) (hop : hdr.opcode = MsgOpcode.createContext.code)
    (creq : CreateCtxReq) :
    RenamedStep σ hdr.opcode (createStep npu hdr creq) (Xdna.createStep npu' hdr creq) := by
  have hrefused {status : MsgStatus} (hne : status ≠ .success) :
      RenamedStep σ hdr.opcode (npu, some (statusAnswer hdr status))
        (npu', some (statusAnswer hdr status)) := by
    apply RenamedStep.of_answer h
    intro b hb
    rw [← Option.some.inj hb]
    exact renameReply_statusAnswer hne
  unfold Xdna.createStep
  rw [h.freeSlot]
  split
  · exact hrefused (by decide)
  cases Xdna.freeSlot npu with
  | none => exact hrefused (by decide)
  | some s =>
    dsimp only
    split
    · exact hrefused (by decide)
    · obtain ⟨rest, hreply⟩ := createReply_encode s
      refine ⟨h.update (createContext_ctx ..) (createContext_ctx ..) rfl
        (fun _ => h.nextCtxId) ?_, ?_⟩
      · rw [createContext_nextCtxId, createContext_nextCtxId, h.nextCtxId, hσ]
      · dsimp only [Option.map_some]
        rw [hreply, hreply, hop, renameReply_created, h.nextCtxId]

private theorem RenamedContexts.destroyStep (h : RenamedContexts σ npu npu')
    (hop : hdr.opcode ≠ MsgOpcode.createContext.code) {req req' : DestroyCtxReq}
    (hreq : req'.contextId = σ req.contextId) :
    RenamedStep σ hdr.opcode (destroyStep npu hdr req) (Xdna.destroyStep npu' hdr req') := by
  unfold Xdna.destroyStep
  rw [hreq, h.ctxById]
  split
  · exact .of_answer h fun b _ => renameReply_of_ne hop
  cases Xdna.ctxById npu req.contextId with
  | none => exact .of_answer h fun b _ => renameReply_of_ne hop
  | some s =>
    refine .of_answer (h.update (destroyContext_ctx ..) (destroyContext_ctx ..) rfl
      (fun hs => nomatch hs) ?_) fun b _ => renameReply_of_ne hop
    rw [destroyContext_nextCtxId, destroyContext_nextCtxId, h.nextCtxId]

private theorem RenamedContexts.heapStep (h : RenamedContexts σ npu npu')
    (hop : hdr.opcode ≠ MsgOpcode.createContext.code) {req req' : MapHostBufferReq}
    (hreq : req'.contextId = σ req.contextId) :
    RenamedStep σ hdr.opcode (heapStep npu hdr req) (Xdna.heapStep npu' hdr req') := by
  unfold Xdna.heapStep
  rw [hreq, h.ctxById]
  split
  · exact .of_answer h fun b _ => renameReply_of_ne hop
  cases Xdna.ctxById npu req.contextId with
  | none => exact .of_answer h fun b _ => renameReply_of_ne hop
  | some s =>
    exact .of_answer (h.update rfl rfl (h.valid s) (h.id s) h.nextCtxId)
      fun b _ => renameReply_of_ne hop

/-- The messages that name no context. -/
theorem RenamedContexts.mertStep (h : RenamedContexts σ npu npu') {p : Memory}
    (hop : hdr.opcode ≠ MsgOpcode.createContext.code ∧
      hdr.opcode ≠ MsgOpcode.destroyContext.code ∧ hdr.opcode ≠ MsgOpcode.mapHostBuffer.code ∧
      hdr.opcode ≠ MsgOpcode.addHostBuffer.code)
    (hget : hdr.opcode = MsgOpcode.getRuntimeConfig.code →
      ¬ hdr.totalSize < GetRuntimeCfgReq.size →
      runtimeConfigResp npu' (GetRuntimeCfgReq.decode p) =
        runtimeConfigResp npu (GetRuntimeCfgReq.decode p)) :
    RenamedStep σ hdr.opcode (mertStep npu hdr p (MsgOpcode.ofCode? hdr.opcode))
      (Xdna.mertStep npu' hdr p (MsgOpcode.ofCode? hdr.opcode)) := by
  have hanswer {npu₁ npu₁' : Npu} (a : Option Answer) (hctx : npu₁.ctx = npu.ctx)
      (hnext : npu₁.nextCtxId = npu.nextCtxId) (hctx' : npu₁'.ctx = npu'.ctx)
      (hnext' : npu₁'.nextCtxId = npu'.nextCtxId) :
      RenamedStep σ hdr.opcode (npu₁, a) (npu₁', a) :=
    .of_answer (h.congr hctx hnext hctx' hnext') fun _ _ => renameReply_of_ne hop.1
  cases hof : MsgOpcode.ofCode? hdr.opcode with
  | none => exact hanswer _ rfl rfl rfl rfl
  | some o =>
    have hcode := (MsgOpcode.ofCode?_eq_some.mp hof).symm
    cases o <;> simp only [Xdna.mertStep]
    case setRuntimeConfig =>
      unfold setRuntimeConfigStep
      split
      · exact hanswer _ rfl rfl rfl rfl
      · split <;> exact hanswer _ rfl rfl rfl rfl
    case getRuntimeConfig =>
      unfold getRuntimeConfigStep
      split
      · exact hanswer _ rfl rfl rfl rfl
      · rw [hget hcode ‹_›]
        exact hanswer _ rfl rfl rfl rfl
    case assignMgmtPasid =>
      unfold assignPasidStep
      split <;> exact hanswer _ rfl rfl rfl rfl
    case createContext => exact absurd hcode hop.1
    case destroyContext => exact absurd hcode hop.2.1
    case mapHostBuffer => exact absurd hcode hop.2.2.1
    case addHostBuffer => exact absurd hcode hop.2.2.2
    case registerAsyncEventMsg =>
      unfold asyncStep
      split <;> exact hanswer _ rfl rfl rfl rfl
    all_goals exact hanswer _ rfl rfl rfl rfl

end Steps

/-! ## The column dump -/

/-- The dump depends on the number of host calls made so far and on nothing else. -/
theorem colStatusLoop_dmaWrites (dmaWrite : ℕ → UInt64 → List UInt8 → Bool) (addr : UInt64)
    (size : UInt32) (m : Machine) (done : UInt32) :
    ∀ m' : Machine, m'.dmaWrites = m.dmaWrites →
      (colStatusLoop dmaWrite addr size m' done).2 = (colStatusLoop dmaWrite addr size m done).2 ∧
      (colStatusLoop dmaWrite addr size m' done).1.dmaWrites =
        (colStatusLoop dmaWrite addr size m done).1.dmaWrites := by
  fun_induction colStatusLoop dmaWrite addr size m done with
  | case1 m done hlt n ok m₁ hok ih =>
    intro m' h
    have hcall : dmaWrite m.dmaWrites (addr + done.toUInt64) (List.replicate
        (if 256 < size - done then 256 else size - done).toNat 0) = true := hok
    rw [colStatusLoop, dif_pos hlt]
    dsimp only
    rw [h, if_pos hcall]
    apply ih
    rfl
  | case2 m done hlt n ok m₁ hok =>
    intro m' h
    have hcall : ¬ dmaWrite m.dmaWrites (addr + done.toUInt64) (List.replicate
        (if 256 < size - done then 256 else size - done).toNat 0) = true := hok
    rw [colStatusLoop, dif_pos hlt]
    dsimp only
    rw [h, if_neg hcall]
    exact ⟨rfl, rfl⟩
  | case3 m done hlt =>
    intro m' h
    rw [colStatusLoop, dif_neg hlt]
    exact ⟨rfl, h⟩

private theorem queryColStatus_dmaWrites (host : Host) {m m' : Machine} (req : ColumnInfoReq)
    (h : m'.dmaWrites = m.dmaWrites) :
    (queryColStatus host m' req).2 = (queryColStatus host m req).2 ∧
      (queryColStatus host m' req).1.dmaWrites = (queryColStatus host m req).1.dmaWrites := by
  unfold queryColStatus
  split
  · exact ⟨rfl, h⟩
  cases host.dmaWrite with
  | none => exact ⟨rfl, h⟩
  | some dmaWrite =>
    obtain ⟨hresult, hcalls⟩ :=
      colStatusLoop_dmaWrites dmaWrite req.dumpBuffAddr req.dumpBuffSize m 0 m' h
    dsimp only
    rw [hresult]
    exact ⟨rfl, hcalls⟩

/-! ## The runtime configuration -/

/-- The entry that a request sets, with its new value. -/
def Request.sets? (q : Request) : Option (Fin 64 × UInt64) :=
  let req := SetRuntimeCfgReq.decode (Memory.ofBytes q.payload)
  if h : (q.opcode = MsgOpcode.setRuntimeConfig.code ∧ 12 ≤ q.payload.length) ∧
      req.type.toNat < 64 then
    some (⟨req.type.toNat, h.2⟩, req.value)
  else none

/-- The entry whose value the reply to a request carries. -/
def Request.reads? (q : Request) : Option (Fin 64) :=
  let req := GetRuntimeCfgReq.decode (Memory.ofBytes q.payload)
  if h : (q.opcode = MsgOpcode.getRuntimeConfig.code ∧ 4 ≤ q.payload.length) ∧
      req.type.toNat < 64 then
    some ⟨req.type.toNat, h.2⟩
  else none

/-- What a request makes of the configuration. -/
def Request.configure (q : Request) (cfg : Fin 64 → UInt64) : Fin 64 → UInt64 :=
  match q.sets? with
  | none => cfg
  | some (i, v) => Function.update cfg i v

section Config

variable {q : Request}

private theorem Sendable.totalSize_lt (hq : Sendable q.payload) {size : UInt32} :
    q.header.totalSize < size ↔ q.payload.length < size.toNat := by
  rw [UInt32.lt_iff_toNat_lt, show q.header.totalSize.toNat = q.payload.length from hq.length_toNat]

private theorem mertStep_rtCfg {npu : Npu} {hdr : MsgHeader} {p : Memory} {op : Option MsgOpcode}
    (hop : op ≠ some .setRuntimeConfig) : (mertStep npu hdr p op).1.rtCfg = npu.rtCfg := by
  cases op with
  | none => rfl
  | some o =>
    cases o <;> simp only [mertStep]
    case setRuntimeConfig => exact absurd rfl hop
    case getRuntimeConfig =>
      unfold getRuntimeConfigStep
      split <;> rfl
    case assignMgmtPasid =>
      unfold assignPasidStep
      split <;> rfl
    case createContext =>
      unfold createStep
      split
      · rfl
      cases freeSlot npu with
      | none => rfl
      | some s =>
        dsimp only
        split
        · rfl
        · exact createContext_rtCfg ..
    case destroyContext =>
      unfold destroyStep
      split
      · rfl
      cases ctxById npu (DestroyCtxReq.decode p).contextId with
      | none => rfl
      | some s =>
        exact destroyContext_rtCfg ..
    case mapHostBuffer | addHostBuffer =>
      unfold heapStep
      split
      · rfl
      cases ctxById npu (MapHostBufferReq.decode p).contextId <;> rfl
    case registerAsyncEventMsg =>
      unfold asyncStep
      split <;> rfl

/-- A message changes the entry that it sets. -/
theorem mertOutcome_rtCfg (host : Host) (m : Machine) (hq : Sendable q.payload) :
    (mertOutcome host m q.header (Memory.ofBytes q.payload)).1.npu.rtCfg =
      q.configure m.npu.rtCfg := by
  by_cases hop : q.opcode = MsgOpcode.setRuntimeConfig.code
  · rw [mertOutcome_of (o := .setRuntimeConfig) host m _ hop (by decide), npuOutcome, mertStep,
      setRuntimeConfigStep, Request.configure, Request.sets?]
    dsimp only
    by_cases hshort : q.header.totalSize < SetRuntimeCfgReq.size
    · have hlen := hq.totalSize_lt.mp hshort
      rw [if_pos hshort, dif_neg fun h => Nat.not_le_of_lt hlen h.1.2]
    · have hlen := hq.totalSize_lt.not.mp hshort
      rw [if_neg hshort]
      split
      · rw [dif_pos ⟨⟨hop, Nat.le_of_not_lt hlen⟩, ‹_›⟩]
      · rw [dif_neg fun h => absurd h.2 ‹_›]
  · have hsets : q.sets? = none := dif_neg fun h => hop h.1.1
    have hof : MsgOpcode.ofCode? q.header.opcode ≠ some .setRuntimeConfig :=
      fun h => hop (MsgOpcode.ofCode?_eq_some.mp h).symm
    rw [Request.configure, hsets, mertOutcome]
    split
    · split
      · rfl
      · dsimp only
        rw [(queryColStatus_frame host m _).1]
    · exact mertStep_rtCfg hof

/-- The value of an entry goes into the reply as it is. -/
theorem mertOutcome_reads (host : Host) (m : Machine) (hq : Sendable q.payload) {i : Fin 64}
    (hi : q.reads? = some i) :
    (mertOutcome host m q.header (Memory.ofBytes q.payload)).2 =
      some (.success, le32 0 ++ le64 (m.npu.rtCfg i)) := by
  unfold Request.reads? at hi
  dsimp only at hi
  split at hi
  · rename_i h
    have hlong : GetRuntimeCfgReq.size.toNat ≤ q.payload.length := h.1.2
    rw [mertOutcome_of (o := .getRuntimeConfig) host m _ h.1.1 (by decide), npuOutcome, mertStep,
      getRuntimeConfigStep, if_neg (hq.totalSize_lt.not.mpr (Nat.not_lt.mpr hlong)),
      runtimeConfigResp, dif_pos h.2, Option.some.inj hi]
    rfl
  · cases hi

end Config

/-! ## Renamed messages -/

/-- A message and its renamed form on two devices whose contexts are renamed: the contexts stay
renamed, the replies agree, and so do the host calls. Only an entry of the configuration that the
message reads has to be the same. -/
theorem RenamedContexts.mertOutcome {σ : Equiv.Perm UInt32} {m m' : Machine} {q : Request}
    (host : Host) (h : RenamedContexts σ m.npu m'.npu) (hσ : ∀ k, σ (k + 1) = σ k + 1)
    (hdma : m'.dmaWrites = m.dmaWrites) (hq : Sendable q.payload)
    (hreads : ∀ i, q.reads? = some i → m'.npu.rtCfg i = m.npu.rtCfg i) :
    let r := mertOutcome host m q.header (Memory.ofBytes q.payload)
    let r' := Xdna.mertOutcome host m' q.header (Memory.ofBytes (q.rename σ).payload)
    RenamedStep σ q.opcode (r.1.npu, r.2) (r'.1.npu, r'.2) ∧ r'.1.dmaWrites = r.1.dmaWrites := by
  intro r r'
  have hboth {o : MsgOpcode} (hop : q.header.opcode = o.code) (hne : o ≠ .queryColStatus) :
      r = npuOutcome m (Xdna.mertStep m.npu q.header (Memory.ofBytes q.payload) (some o)) ∧
        r' = npuOutcome m' (Xdna.mertStep m'.npu q.header (Memory.ofBytes (q.rename σ).payload)
          (some o)) :=
    ⟨mertOutcome_of host m _ hop hne, mertOutcome_of host m' _ hop hne⟩
  by_cases hnames : q.NamesContext
  · have hne : q.header.opcode ≠ MsgOpcode.createContext.code := by
      intro heq
      have hop : q.opcode = MsgOpcode.createContext.code := heq
      unfold Request.NamesContext at hnames
      rw [hop] at hnames
      revert hnames
      decide
    have hctx := Request.rename_namedCtx σ hnames
    rcases hnames with hop | hop | hop
    · obtain ⟨hr, hr'⟩ := hboth (o := .destroyContext) hop (by decide)
      rw [hr, hr']
      exact ⟨h.destroyStep hne hctx, hdma⟩
    · obtain ⟨hr, hr'⟩ := hboth (o := .mapHostBuffer) hop (by decide)
      rw [hr, hr']
      exact ⟨h.heapStep hne hctx, hdma⟩
    · obtain ⟨hr, hr'⟩ := hboth (o := .addHostBuffer) hop (by decide)
      rw [hr, hr']
      exact ⟨h.heapStep hne hctx, hdma⟩
  · have hsame : (q.rename σ).payload = q.payload := by rw [Request.rename_of_not hnames]
    simp only [r, r', hsame]
    by_cases hcreate : q.header.opcode = MsgOpcode.createContext.code
    · rw [mertOutcome_of (o := .createContext) host m _ hcreate (by decide),
        mertOutcome_of (o := .createContext) host m' _ hcreate (by decide)]
      exact ⟨h.createStep hσ hcreate _, hdma⟩
    · unfold Request.NamesContext at hnames
      rw [not_or, not_or] at hnames
      unfold Xdna.mertOutcome
      split
      · split
        · exact ⟨.of_answer h fun _ _ => renameReply_of_ne hcreate, hdma⟩
        · obtain ⟨hresult, hcalls⟩ := queryColStatus_dmaWrites host
            (ColumnInfoReq.decode (Memory.ofBytes q.payload)) hdma
          dsimp only
          rw [hresult, (queryColStatus_frame host m _).1, (queryColStatus_frame host m' _).1]
          exact ⟨.of_answer h fun _ _ => renameReply_of_ne hcreate, hcalls⟩
      · refine ⟨h.mertStep ⟨hcreate, hnames⟩ fun hop hlong => ?_, hdma⟩
        unfold runtimeConfigResp
        split
        · have hlen := Nat.le_of_not_lt (hq.totalSize_lt.not.mp hlong)
          rw [hreads _ (dif_pos ⟨⟨hop, hlen⟩, ‹_›⟩)]
        · rfl

end Xdna
