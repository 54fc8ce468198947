import Xdna.Messages
import Xdna.ContextMap
import Xdna.ColumnDump

/-!
# The service of the firmware

What the management firmware is for, without messages and memory: a table of six contexts, the
runtime configuration, and the column dump. A call changes the service and has a reply, both
in terms of the fields of the message. The message handler of the firmware is this service,
whatever the rest of the device is like.
-/

namespace Xdna

open ByteMemory PackedLayout

/-! ## The abstract service -/

/-- The state of the service. The dumps of the past count because the host answers each write on
its own. -/
structure Service where
  config : Fin 64 → UInt64
  contexts : SlotIdx → Option (UInt32 × CtxEntry)
  nextId : UInt32
  dumpWrites : ℕ

namespace Resp

variable {β : Type}

/-- The request is served. -/
def ok (body : β) : Resp β := ⟨MsgStatus.success.code, body⟩

/-- The fields behind the status of an error are zero. -/
def refused (l : Layout β) (status : MsgStatus) : Resp β := ⟨status.code, l.zero⟩

end Resp

/-- The ring and registers of a context are those of its place in the table. -/
def NewCtx.inSlot (k : SlotIdx) (id : UInt32) : NewCtx where
  contextId := id
  msixId := UInt16.ofNat (k.val + 1)
  numCqPairsAllocated := 1
  reserved := 0
  cqPair0 :=
    let regs := mboxChanBase (k.val + 1)
    { x2iQ := ⟨mboxDevAddr (regs + mboxX2iHeadOff), mboxDevAddr (regs + mboxX2iTailOff),
        sramDevAddr (ctxRbBase k), sramCtxRbSize⟩
      i2xQ := ⟨mboxDevAddr (regs + mboxI2xHeadOff), mboxDevAddr (regs + mboxI2xTailOff),
        sramDevAddr (ctxRbBase k + sramCtxRbSize), sramCtxRbSize⟩ }
  cqPair1 := CqPair.zero

namespace Service

/-- The first free place. -/
def free (s : Service) : Option SlotIdx :=
  (List.finRange hwctxLimit).find? fun k => (s.contexts k).isNone

/-- The first place with a context of the given id. -/
def find (s : Service) (id : UInt32) : Option SlotIdx :=
  (List.finRange hwctxLimit).find? fun k => (s.contexts k).any (·.1 = id)

/-- The service with another entry for a slot. -/
def put (s : Service) (k : SlotIdx) (entry : Option (UInt32 × CtxEntry)) : Service :=
  { s with contexts := Function.update s.contexts k entry }

/-- SET_RUNTIME_CONFIG. -/
def setConfig (s : Service) (req : SetRuntimeCfgReq) : Service × Resp Unit :=
  if h : req.type.toNat < 64 then
    ({ s with config := Function.update s.config ⟨_, h⟩ req.value }, .ok ())
  else (s, .refused .unit .invalidParam)

/-- GET_RUNTIME_CONFIG. -/
def getConfig (s : Service) (req : GetRuntimeCfgReq) : Resp UInt64 :=
  if h : req.type.toNat < 64 then .ok (s.config ⟨_, h⟩) else ⟨MsgStatus.invalidParam.code, 0⟩

/-- CREATE_CONTEXT. -/
def create (s : Service) (req : CreateCtxReq) : Service × Resp NewCtx :=
  match s.free with
  | none => (s, .refused NewCtx.layout .mgmtErtNoavail)
  | some k =>
    if 1 ≤ req.numCol.toNat ∧ req.numCol.toNat ≤ 5 then
      ({ s.put k (some (s.nextId, .requested req)) with nextId := s.nextId + 1 },
        .ok (.inSlot k s.nextId))
    else (s, .refused NewCtx.layout .mgmtErtInvalidParam)

/-- DESTROY_CONTEXT. -/
def destroy (s : Service) (req : DestroyCtxReq) : Service × Resp Unit :=
  match s.find req.contextId with
  | none => (s, .refused .unit .mgmtErtInvalidParam)
  | some k => (s.put k none, .ok ())

/-- MAP_HOST_BUFFER. -/
def mapHeap (s : Service) (req : MapHostBufferReq) : Service × Resp Unit :=
  match s.find req.contextId with
  | none => (s, .refused .unit .mgmtErtInvalidParam)
  | some k =>
    (s.put k ((s.contexts k).map fun c => (c.1, c.2.withHeap req.bufAddr req.bufSize)), .ok ())

/-- A shutdown of the firmware: the configuration and the next id are kept. -/
def shutDown (s : Service) : Service := { s with contexts := fun _ => none }

/-- A reset of the device. -/
def reset (s : Service) : Service where
  config _ := 0
  contexts _ := none
  nextId := 1
  dumpWrites := s.dumpWrites

/-- The writes of a dump: zeros, in blocks of 256 bytes and a rest. -/
def dumpBlocks (size : ℕ) : ℕ := (size + 255) / 256

/-- The first block, from the `j`-th on, that the host does not take. -/
def refusedFrom (dmaWrite : ℕ → UInt64 → List UInt8 → Bool) (addr : UInt64) (size k j : ℕ) :
    Option ℕ :=
  (List.range' j (dumpBlocks size - j)).find? fun i =>
    !dmaWrite (k + i) (addr + UInt64.ofNat (256 * i)) (List.replicate (min 256 (size - 256 * i)) 0)

/-- The dump stops at the first block that the host does not take, and reports how much it has
taken. -/
def dump (s : Service) (host : Host) (req : ColumnInfoReq) : Service × Resp UInt32 :=
  if req.dumpBuffAddr = 0 ∨ req.dumpBuffSize = 0 then (s, ⟨MsgStatus.invalidParam.code, 0⟩)
  else match host.dmaWrite with
    | none => (s, ⟨MsgStatus.aieDmaError.code, 0⟩)
    | some dmaWrite =>
      match refusedFrom dmaWrite req.dumpBuffAddr req.dumpBuffSize.toNat s.dumpWrites 0 with
      | none =>
        ({ s with dumpWrites := s.dumpWrites + dumpBlocks req.dumpBuffSize.toNat },
          .ok req.dumpBuffSize)
      | some i =>
        ({ s with dumpWrites := s.dumpWrites + i + 1 },
          ⟨MsgStatus.aieDmaError.code, UInt32.ofNat (256 * i)⟩)

/-- What the service answers to a call, and the service after it. -/
def answer (s : Service) (host : Host) : (c : Call) → Service × Resp c.Body
  | .getProtocolVersion => (s, .ok (mgmtProtMajor, mgmtProtMinor))
  | .getFirmwareVersion => (s, .ok ⟨fwVerMajor, fwVerMinor, fwVerSub, fwVerBuild⟩)
  | .queryAieVersion => (s, .ok (UInt16.ofNat aieVersionMajor, UInt16.ofNat aieVersionMinor))
  | .queryAieTileInfo => (s, .ok fillTileInfo)
  | .setRuntimeConfig req => s.setConfig req
  | .getRuntimeConfig req => (s, s.getConfig req)
  | .assignMgmtPasid _ => (s, .ok ())
  | .suspend => (s, .ok ())
  | .resume => (s, .ok ())
  | .invokeSelfTest => (s, .ok ())
  | .createContext req => s.create req
  | .destroyContext req => s.destroy req
  | .mapHostBuffer req => s.mapHeap req
  | .addHostBuffer req => s.mapHeap req
  | .queryColStatus req => s.dump host req
  | .getTelemetry => (s, .ok ⟨1, 0, 0⟩)
  | .executeBufferCf _ => (s, .refused .unit .invalidOperation)

end Service

/-! ## The firmware as a service -/

/-- The service that the device has to offer. -/
def Service.of (m : Machine) : Service where
  config := m.npu.rtCfg
  contexts := slotsOf m.npu
  nextId := m.npu.nextCtxId
  dumpWrites := m.dmaWrites

/-- What the service sees of the machine. -/
theorem Service.of_congr {m m' : Machine} (hcfg : m'.npu.rtCfg = m.npu.rtCfg)
    (hctx : m'.npu.ctx = m.npu.ctx) (hnext : m'.npu.nextCtxId = m.npu.nextCtxId)
    (hdma : m'.dmaWrites = m.dmaWrites) : Service.of m' = Service.of m := by
  have hslots : slotsOf m'.npu = slotsOf m.npu := by
    funext k
    rw [slotsOf, slotsOf, hctx]
  rw [Service.of, Service.of, hcfg, hnext, hdma, hslots]

/-- The outcome of a message is that of a call: the new state of the service, and its reply. -/
structure Serves {β : Type} (l : Layout (Resp β)) (a : Service × Resp β)
    (r : Machine × Option Answer) : Prop where
  state : Service.of r.1 = a.1
  reply : r.2.map Prod.snd = some (l.encode a.2)

section Handlers

variable {m : Machine} {hdr : MsgHeader}

private theorem Service.free_of (m : Machine) : (Service.of m).free = freeSlot m.npu := by
  unfold Service.free freeSlot
  congr 1
  funext k
  cases hvalid : (m.npu.ctx k).valid <;> simp [Service.of, slotsOf, Context.slot, hvalid]

private theorem Service.find_of (m : Machine) (id : UInt32) :
    (Service.of m).find id = ctxById m.npu id := by
  unfold Service.find ctxById
  congr 1
  funext k
  cases hvalid : (m.npu.ctx k).valid <;> simp [Service.of, slotsOf, Context.slot, hvalid]

/-- A message that changes nothing of the service. -/
theorem Serves.of_reply {β : Type} {l : Layout (Resp β)} {a : Resp β} {npu : Npu} {answer : Answer}
    (hcfg : npu.rtCfg = m.npu.rtCfg) (hctx : npu.ctx = m.npu.ctx)
    (hnext : npu.nextCtxId = m.npu.nextCtxId) (hreply : answer.2 = l.encode a) :
    Serves l (Service.of m, a) (npuOutcome m (npu, some answer)) := by
  exact ⟨Service.of_congr hcfg hctx hnext rfl, congrArg some hreply⟩

/-- The reply of `mert_reply_status`. -/
theorem statusAnswer_unit (h : respSizeFor hdr.opcode = (4, 0)) (status : MsgStatus) :
    (statusAnswer hdr status).2 = (Resp.statusFirst .unit).encode (.refused .unit status) :=
  statusReply_eq .unit h status

private theorem serves_setConfig (hlen : ¬ hdr.totalSize < SetRuntimeCfgReq.size)
    (hresp : respSizeFor hdr.opcode = (4, 0)) (req : SetRuntimeCfgReq) :
    Serves (Resp.statusFirst .unit) ((Service.of m).setConfig req)
      (npuOutcome m (setRuntimeConfigStep m.npu hdr req)) := by
  rw [setRuntimeConfigStep, if_neg hlen, Service.setConfig]
  by_cases h : req.type.toNat < 64
  · rw [dif_pos h, dif_pos h]
    exact ⟨rfl, congrArg some (statusAnswer_unit hresp .success)⟩
  · rw [dif_neg h, dif_neg h]
    exact .of_reply rfl rfl rfl (statusAnswer_unit hresp .invalidParam)

private theorem serves_getConfig (hlen : ¬ hdr.totalSize < GetRuntimeCfgReq.size)
    (req : GetRuntimeCfgReq) :
    Serves (Resp.statusFirst .u64) (Service.of m, (Service.of m).getConfig req)
      (npuOutcome m (getRuntimeConfigStep m.npu hdr req)) := by
  rw [getRuntimeConfigStep, if_neg hlen]
  refine .of_reply rfl rfl rfl ?_
  rw [Service.getConfig, runtimeConfigResp]
  by_cases h : req.type.toNat < 64
  · rw [dif_pos h, dif_pos h]
    rfl
  · rw [dif_neg h, dif_neg h]
    rfl

private theorem serves_create (hlen : ¬ hdr.totalSize < CreateCtxReq.size)
    (hresp : respSizeFor hdr.opcode = (76, 0)) (req : CreateCtxReq) :
    Serves (Resp.statusFirst NewCtx.layout) ((Service.of m).create req)
      (npuOutcome m (createStep m.npu hdr req)) := by
  rw [createStep, if_neg hlen, Service.create, Service.free_of]
  cases hfree : freeSlot m.npu with
  | none => exact .of_reply rfl rfl rfl (statusReply_eq NewCtx.layout hresp _)
  | some k =>
    dsimp only
    have hcols : req.numCol = 0 ∨ aieCols < req.numCol.toNat ↔
        ¬ (1 ≤ req.numCol.toNat ∧ req.numCol.toNat ≤ 5) := by
      rw [← UInt8.toNat_inj, show aieCols = 5 from rfl, show (0 : UInt8).toNat = 0 from rfl]
      omega
    by_cases h : 1 ≤ req.numCol.toNat ∧ req.numCol.toNat ≤ 5
    · rw [if_pos h, if_neg fun h' => hcols.mp h' h]
      refine ⟨?_, congrArg some ?_⟩
      · have hslots : slotsOf (createContext m.npu k req) = Function.update (slotsOf m.npu) k
            (some (m.npu.nextCtxId, .requested req)) :=
          slotsOf_update (createContext_ctx m.npu k req)
        rw [Service.of, npuOutcome]
        dsimp only
        rw [hslots, createContext_rtCfg, createContext_nextCtxId]
        rfl
      · have hreply := CreateCtxResp.encode_eq req (createReply (createContext m.npu k req) k)
        rw [createReply, createContext_chan, createContext_ctx, Function.update_self,
          Function.update_self] at hreply ⊢
        exact hreply
    · rw [if_neg h, if_pos (hcols.mpr h)]
      exact .of_reply rfl rfl rfl (statusReply_eq NewCtx.layout hresp _)

private theorem serves_destroy (hlen : ¬ hdr.totalSize < DestroyCtxReq.size)
    (hresp : respSizeFor hdr.opcode = (4, 0)) (req : DestroyCtxReq) :
    Serves (Resp.statusFirst .unit) ((Service.of m).destroy req)
      (npuOutcome m (destroyStep m.npu hdr req)) := by
  rw [destroyStep, if_neg hlen, Service.destroy, Service.find_of]
  cases hfind : ctxById m.npu req.contextId with
  | none => exact .of_reply rfl rfl rfl (statusAnswer_unit hresp _)
  | some k =>
    have hslots : slotsOf (destroyContext m.npu k) = Function.update (slotsOf m.npu) k none :=
      slotsOf_update (destroyContext_ctx m.npu k)
    refine ⟨?_, congrArg some (statusAnswer_unit hresp _)⟩
    rw [Service.of, npuOutcome]
    dsimp only
    rw [hslots, destroyContext_rtCfg, destroyContext_nextCtxId]
    rfl

private theorem serves_mapHeap (hlen : ¬ hdr.totalSize < MapHostBufferReq.size)
    (hresp : respSizeFor hdr.opcode = (4, 0)) (req : MapHostBufferReq) :
    Serves (Resp.statusFirst .unit) ((Service.of m).mapHeap req)
      (npuOutcome m (heapStep m.npu hdr req)) := by
  rw [heapStep, if_neg hlen, Service.mapHeap, Service.find_of]
  cases hfind : ctxById m.npu req.contextId with
  | none => exact .of_reply rfl rfl rfl (statusAnswer_unit hresp _)
  | some k =>
    have hslot : (Service.of m).contexts k = some (req.contextId, (m.npu.ctx k).entry) :=
      slotsOf_of_ctxById hfind
    obtain ⟨hvalid, hid⟩ := ctxById_valid hfind
    have hslots : slotsOf (mapHeap m.npu k req) = Function.update (slotsOf m.npu) k
        (some (req.contextId, (m.npu.ctx k).entry.withHeap req.bufAddr req.bufSize)) := by
      rw [slotsOf_update (show (mapHeap m.npu k req).ctx = Function.update m.npu.ctx k _ from rfl)]
      simp [Context.slot, hvalid, hid, Context.entry, CtxEntry.withHeap]
    refine ⟨?_, congrArg some (statusAnswer_unit hresp _)⟩
    dsimp only
    rw [hslot, Service.of, npuOutcome]
    dsimp only
    rw [hslots]
    rfl

end Handlers

/-! ### Dumps -/

section Dumps

variable {dmaWrite : ℕ → UInt64 → List UInt8 → Bool} {addr : UInt64}

/-- The blocks from the `j`-th on: one block, and the blocks after it. -/
theorem Service.refusedFrom_succ {size k j : ℕ} (hj : j < dumpBlocks size) :
    refusedFrom dmaWrite addr size k j =
      if dmaWrite (k + j) (addr + UInt64.ofNat (256 * j))
        (List.replicate (min 256 (size - 256 * j)) 0) = true
      then refusedFrom dmaWrite addr size k (j + 1) else some j := by
  obtain ⟨n, hn⟩ : ∃ n, dumpBlocks size - j = n + 1 := ⟨dumpBlocks size - j - 1, by omega⟩
  rw [refusedFrom, refusedFrom, hn, show dumpBlocks size - (j + 1) = n by omega, List.range'_succ,
    List.find?_cons]
  split <;> rename_i hok <;> simp_all

/-- What the loop has done when the host has refused block `refused`, or none. -/
structure DumpDone (npu : Npu) (size : UInt32) (k : ℕ) (refused : Option ℕ)
    (r : Machine × UInt32 × Bool) : Prop where
  npu : r.1.npu = npu
  failed : r.2.2 = refused.isSome
  written : r.2.1 = refused.elim size fun i => UInt32.ofNat (256 * i)
  dmaWrites : r.1.dmaWrites =
    refused.elim (k + Service.dumpBlocks size.toNat) fun i => k + i + 1
  inside : ∀ i, refused = some i → 256 * i < size.toNat

/-- The loop, `j` blocks having been written before. -/
theorem colStatusLoop_done (size : UInt32) (m : Machine) (done : UInt32) {k j : ℕ}
    (hdone : done.toNat = min (256 * j) size.toNat) (hj : j ≤ Service.dumpBlocks size.toNat)
    (hm : m.dmaWrites = k + j) :
    DumpDone m.npu size k (Service.refusedFrom dmaWrite addr size.toNat k j)
      (colStatusLoop dmaWrite addr size m done) := by
  have hblocks : Service.dumpBlocks size.toNat = (size.toNat + 255) / 256 := rfl
  have hsize := size.toNat_lt
  fun_induction colStatusLoop dmaWrite addr size m done generalizing j with
  | case1 m done hlt n ok m₁ hok =>
    rename_i ih
    have hn : n.toNat = min 256 (size.toNat - done.toNat) := chunk_toNat hlt
    rw [UInt32.lt_iff_toNat_lt] at hlt
    have hnext : (done + n).toNat = done.toNat + n.toNat := by
      rw [UInt32.toNat_add, Nat.mod_eq_of_lt (by omega)]
    have hblock : dmaWrite (k + j) (addr + UInt64.ofNat (256 * j))
        (List.replicate (min 256 (size.toNat - 256 * j)) 0) = true := by
      rw [← hm, show 256 * j = done.toNat by omega, ← toUInt64_eq, ← hn]
      exact hok
    rw [Service.refusedFrom_succ (by omega), if_pos hblock]
    exact ih (by omega) (by omega) (by simp only [m₁]; omega)
  | case2 m done hlt n ok m₁ =>
    rename_i hok
    have hn : n.toNat = min 256 (size.toNat - done.toNat) := chunk_toNat hlt
    rw [UInt32.lt_iff_toNat_lt] at hlt
    have hdone' : done.toNat = 256 * j := by omega
    have hblock : ¬ dmaWrite (k + j) (addr + UInt64.ofNat (256 * j))
        (List.replicate (min 256 (size.toNat - 256 * j)) 0) = true := by
      rw [← hm, ← hdone', ← toUInt64_eq, ← hn]
      exact hok
    rw [Service.refusedFrom_succ (by omega), if_neg hblock]
    refine ⟨rfl, rfl, ?_, congrArg (· + 1) hm, ?_⟩
    · rw [Option.elim_some, ← hdone', UInt32.ofNat_toNat]
    · intro i hi
      rw [← Option.some.inj hi]
      omega
  | case3 m done hnot =>
    rw [UInt32.lt_iff_toNat_lt] at hnot
    have hnone : Service.refusedFrom dmaWrite addr size.toNat k j = none := by
      rw [Service.refusedFrom, show Service.dumpBlocks size.toNat - j = 0 by omega]
      rfl
    have hall : done = size := UInt32.toNat_inj.mp (by omega)
    rw [hnone]
    refine ⟨rfl, rfl, hall, hm.trans ?_, ?_⟩
    · rw [Option.elim_none]
      omega
    · intro i hi
      cases hi

/-- The dump of the service is that of the firmware. -/
theorem serves_dump (host : Host) (m : Machine) (req : ColumnInfoReq) :
    Serves (Resp.statusFirst .u32) ((Service.of m).dump host req)
      ((queryColStatus host m req).1,
        some ((queryColStatus host m req).2.status, (queryColStatus host m req).2.encode)) := by
  unfold queryColStatus Service.dump
  by_cases hreq : req.dumpBuffAddr = 0 ∨ req.dumpBuffSize = 0
  · rw [if_pos hreq, if_pos hreq]
    exact ⟨rfl, rfl⟩
  rw [if_neg hreq, if_neg hreq]
  cases host.dmaWrite with
  | none => exact ⟨rfl, rfl⟩
  | some dmaWrite =>
    have hdone := @colStatusLoop_done dmaWrite req.dumpBuffAddr req.dumpBuffSize m 0 m.dmaWrites 0
      (by simp) (Nat.zero_le _) rfl
    have hdumped : (Service.of m).dumpWrites = m.dmaWrites := rfl
    dsimp only
    rw [hdumped]
    generalize colStatusLoop dmaWrite req.dumpBuffAddr req.dumpBuffSize m 0 = r at hdone ⊢
    obtain ⟨hnpu, hfailed, hwritten, hwrites, hinside⟩ := hdone
    cases hrefused : Service.refusedFrom dmaWrite req.dumpBuffAddr req.dumpBuffSize.toNat
        m.dmaWrites 0 with
    | none =>
      rw [hrefused] at hwritten hwrites
      rw [Option.elim_none] at hwritten hwrites
      refine ⟨?_, ?_⟩
      · rw [Service.of, hnpu, hwrites]
        rfl
      · rw [if_pos hwritten, hwritten]
        rfl
    | some i =>
      have hlt := hinside i hrefused
      have hsize := req.dumpBuffSize.toNat_lt
      rw [hrefused] at hfailed hwritten hwrites
      rw [Option.elim_some] at hwritten hwrites
      have hne : ¬ r.2.1 = req.dumpBuffSize := by
        rw [hwritten, ← UInt32.toNat_inj, UInt32.toNat_ofNat_of_lt' (hlt.trans hsize)]
        omega
      refine ⟨?_, ?_⟩
      · rw [Service.of, hnpu, hwrites]
        rfl
      · rw [if_neg hne, hfailed, hwritten]
        rfl

end Dumps

/-! ### Calls -/

/-- The firmware answers a call as the service does. -/
theorem mertOutcome_serves (host : Host) (m : Machine) (c : Call) {hdr : MsgHeader}
    (hop : hdr.opcode = c.opcode.code) (hlen : hdr.totalSize.toNat = c.encode.length) :
    Serves c.reply ((Service.of m).answer host c)
      (mertOutcome host m hdr (Memory.ofBytes c.encode)) := by
  have hcode : MsgOpcode.ofCode? hdr.opcode = some c.opcode :=
    MsgOpcode.ofCode?_eq_some.mpr hop.symm
  have hlong (n : UInt32) (h : n.toNat = c.encode.length) : ¬ hdr.totalSize < n := by
    rw [UInt32.lt_iff_toNat_lt, hlen, h]
    exact Nat.lt_irrefl _
  have hresp : respSizeFor hdr.opcode = respSizeFor c.opcode.code := congrArg _ hop
  have hstep (op : MsgOpcode) (h : c.opcode = op) (hne : op ≠ .queryColStatus) :
      mertOutcome host m hdr (Memory.ofBytes c.encode) =
        npuOutcome m (mertStep m.npu hdr (Memory.ofBytes c.encode) (some op)) := by
    rw [mertOutcome, hcode, h, if_neg fun heq => hne (Option.some.inj heq)]
  cases c with
  | getProtocolVersion =>
    rw [hstep .getProtocolVersion rfl (by decide)]
    exact .of_reply rfl rfl rfl (ProtocolVersionResp.encode_eq _)
  | getFirmwareVersion =>
    rw [hstep .getFirmwareVersion rfl (by decide)]
    exact .of_reply rfl rfl rfl (FirmwareVersionResp.encode_eq _)
  | queryAieVersion =>
    rw [hstep .queryAieVersion rfl (by decide)]
    exact .of_reply rfl rfl rfl (AieVersionResp.encode_eq _)
  | queryAieTileInfo =>
    rw [hstep .queryAieTileInfo rfl (by decide)]
    exact .of_reply rfl rfl rfl (AieTileInfoResp.encode_eq _)
  | getTelemetry =>
    rw [hstep .getTelemetry rfl (by decide)]
    exact .of_reply rfl rfl rfl (TelemetryResp.encode_eq _)
  | suspend | resume | invokeSelfTest =>
    rw [hstep _ rfl (by decide)]
    exact .of_reply rfl rfl rfl (statusAnswer_unit hresp .success)
  | executeBufferCf req =>
    rw [hstep .executeBufferCf rfl (by decide)]
    exact .of_reply rfl rfl rfl (statusAnswer_unit hresp .invalidOperation)
  | assignMgmtPasid req =>
    have hsize := hlong AssignPasidReq.size (AssignPasidReq.layout.length_encode req).symm
    rw [hstep .assignMgmtPasid rfl (by decide), mertStep, assignPasidStep, if_neg hsize]
    exact .of_reply rfl rfl rfl (statusAnswer_unit hresp .success)
  | setRuntimeConfig req =>
    have hsize := hlong SetRuntimeCfgReq.size (SetRuntimeCfgReq.layout.length_encode req).symm
    have hserves := serves_setConfig (m := m) hsize hresp req
    rwa [hstep .setRuntimeConfig rfl (by decide), mertStep, Call.encode,
      SetRuntimeCfgReq.decode_encode]
  | getRuntimeConfig req =>
    have hsize := hlong GetRuntimeCfgReq.size (GetRuntimeCfgReq.layout.length_encode req).symm
    have hserves := serves_getConfig (m := m) hsize req
    rwa [hstep .getRuntimeConfig rfl (by decide), mertStep, Call.encode,
      GetRuntimeCfgReq.decode_encode]
  | createContext req =>
    have hsize := hlong CreateCtxReq.size (CreateCtxReq.layout.length_encode req).symm
    have hserves := serves_create (m := m) hsize hresp req
    rwa [hstep .createContext rfl (by decide), mertStep, Call.encode, CreateCtxReq.decode_encode]
  | destroyContext req =>
    have hsize := hlong DestroyCtxReq.size (DestroyCtxReq.layout.length_encode req).symm
    have hserves := serves_destroy (m := m) hsize hresp req
    rwa [hstep .destroyContext rfl (by decide), mertStep, Call.encode, DestroyCtxReq.decode_encode]
  | mapHostBuffer req =>
    have hsize := hlong MapHostBufferReq.size (MapHostBufferReq.layout.length_encode req).symm
    have hserves := serves_mapHeap (m := m) hsize hresp req
    rwa [hstep .mapHostBuffer rfl (by decide), mertStep, Call.encode,
      MapHostBufferReq.decode_encode]
  | addHostBuffer req =>
    have hsize := hlong MapHostBufferReq.size (MapHostBufferReq.layout.length_encode req).symm
    have hserves := serves_mapHeap (m := m) hsize hresp req
    rwa [hstep .addHostBuffer rfl (by decide), mertStep, Call.encode,
      MapHostBufferReq.decode_encode]
  | queryColStatus req =>
    have hsize := hlong ColumnInfoReq.size (ColumnInfoReq.layout.length_encode req).symm
    change MsgOpcode.ofCode? hdr.opcode = some .queryColStatus at hcode
    rw [mertOutcome, if_pos hcode, if_neg hsize, Call.encode, ColumnInfoReq.decode_encode]
    exact serves_dump host m req

end Xdna
