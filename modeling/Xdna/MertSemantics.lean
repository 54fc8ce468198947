import Xdna.Device.Mert
import Xdna.Trace

/-!
# What a message does

Every path through the message handler changes the firmware state in one of a
few ways and then hands at most one payload to `xdna_mbox_send`. `mertOutcome`
separates the two, and `mertHandle_eq` shows that the handler is nothing else. The
changes themselves are listed once, in `MsgEffect`.
-/

namespace Xdna

open ByteMemory

/-- The reply to an opcode always fits the buffer of `mert_reply_status`. -/
theorem respSizeFor_le (opcode : UInt32) : (respSizeFor opcode).1 ≤ 128 := by
  unfold respSizeFor
  split <;> decide

private theorem mertReplyStatus_eq (host : Host) (m : Machine) (c : ChanIdx) (hdr : MsgHeader)
    (status : MsgStatus) :
    mertReplyStatus host m c hdr status =
      mertReply host m c hdr (statusReply hdr.opcode status) := by
  rw [mertReplyStatus, if_neg (by have := respSizeFor_le hdr.opcode; omega)]

/-- The status a message is answered with, and the payload that carries it. -/
abbrev Answer := MsgStatus × List UInt8

/-- An answer that carries nothing but the status. -/
def statusAnswer (hdr : MsgHeader) (status : MsgStatus) : Answer :=
  (status, statusReply hdr.opcode status)

/-- `SET_RUNTIME_CONFIG`. -/
def setRuntimeConfigStep (npu : Npu) (hdr : MsgHeader) (req : SetRuntimeCfgReq) :
    Npu × Option Answer :=
  if hdr.totalSize < SetRuntimeCfgReq.size then (npu, some (statusAnswer hdr .invalidInputBuffer))
  else if h : req.type.toNat < 64 then
    ({ npu with rtCfg := Function.update npu.rtCfg ⟨_, h⟩ req.value },
      some (statusAnswer hdr .success))
  else (npu, some (statusAnswer hdr .invalidParam))

/-- `GET_RUNTIME_CONFIG`. -/
def getRuntimeConfigStep (npu : Npu) (hdr : MsgHeader) (req : GetRuntimeCfgReq) :
    Npu × Option Answer :=
  if hdr.totalSize < GetRuntimeCfgReq.size then (npu, some (statusAnswer hdr .invalidInputBuffer))
  else (npu, some ((runtimeConfigResp npu req).status, (runtimeConfigResp npu req).encode))

/-- `ASSIGN_MGMT_PASID`. -/
def assignPasidStep (npu : Npu) (hdr : MsgHeader) (req : AssignPasidReq) : Npu × Option Answer :=
  if hdr.totalSize < AssignPasidReq.size then (npu, some (statusAnswer hdr .invalidInputBuffer))
  else ({ npu with mgmtPasid := req.pasid }, some (statusAnswer hdr .success))

/-- `CREATE_CONTEXT`. -/
def createStep (npu : Npu) (hdr : MsgHeader) (req : CreateCtxReq) : Npu × Option Answer :=
  if hdr.totalSize < CreateCtxReq.size then (npu, some (statusAnswer hdr .invalidInputBuffer))
  else match freeSlot npu with
  | none => (npu, some (statusAnswer hdr .mgmtErtNoavail))
  | some s =>
    if req.numCol = 0 ∨ aieCols < req.numCol.toNat then
      (npu, some (statusAnswer hdr .mgmtErtInvalidParam))
    else
      (createContext npu s req, some (.success, (createReply (createContext npu s req) s).encode))

/-- `DESTROY_CONTEXT`. -/
def destroyStep (npu : Npu) (hdr : MsgHeader) (req : DestroyCtxReq) : Npu × Option Answer :=
  if hdr.totalSize < DestroyCtxReq.size then (npu, some (statusAnswer hdr .invalidInputBuffer))
  else match ctxById npu req.contextId with
  | none => (npu, some (statusAnswer hdr .mgmtErtInvalidParam))
  | some s => (destroyContext npu s, some (statusAnswer hdr .success))

/-- `MAP_HOST_BUFFER` and `ADD_HOST_BUFFER`. -/
def heapStep (npu : Npu) (hdr : MsgHeader) (req : MapHostBufferReq) : Npu × Option Answer :=
  if hdr.totalSize < MapHostBufferReq.size then (npu, some (statusAnswer hdr .invalidInputBuffer))
  else match ctxById npu req.contextId with
  | none => (npu, some (statusAnswer hdr .mgmtErtInvalidParam))
  | some s => (mapHeap npu s req, some (statusAnswer hdr .success))

/-- `REGISTER_ASYNC_EVENT_MSG`: the only message without an immediate answer. -/
def asyncStep (npu : Npu) (hdr : MsgHeader) (req : AsyncEventReq) : Npu × Option Answer :=
  if hdr.totalSize < AsyncEventReq.size then (npu, some (statusAnswer hdr .invalidInputBuffer))
  else ({ npu with
    asyncBufAddr := req.bufAddr, asyncBufSize := req.bufSize, asyncRegistered := true }, none)

/-- The change of state and the answer of a message, for every opcode but `QUERY_COL_STATUS`,
whose answer depends on the host. -/
def mertStep (npu : Npu) (hdr : MsgHeader) (payload : Memory) :
    Option MsgOpcode → Npu × Option Answer
  | some .getProtocolVersion =>
    (npu, some (.success, (ProtocolVersionResp.mk .success mgmtProtMajor mgmtProtMinor).encode))
  | some .getFirmwareVersion =>
    (npu, some (.success,
      (FirmwareVersionResp.mk .success fwVerMajor fwVerMinor fwVerSub fwVerBuild).encode))
  | some .queryAieVersion =>
    (npu, some (.success, (AieVersionResp.mk .success (UInt16.ofNat aieVersionMajor)
      (UInt16.ofNat aieVersionMinor)).encode))
  | some .queryAieTileInfo =>
    (npu, some (.success, (AieTileInfoResp.mk .success fillTileInfo).encode))
  | some .setRuntimeConfig => setRuntimeConfigStep npu hdr (SetRuntimeCfgReq.decode payload)
  | some .getRuntimeConfig => getRuntimeConfigStep npu hdr (GetRuntimeCfgReq.decode payload)
  | some .assignMgmtPasid => assignPasidStep npu hdr (AssignPasidReq.decode payload)
  | some .suspend => ({ npu with fwSuspended := true }, some (statusAnswer hdr .success))
  | some .resume => ({ npu with fwSuspended := false }, some (statusAnswer hdr .success))
  | some .invokeSelfTest => (npu, some (statusAnswer hdr .success))
  | some .createContext => createStep npu hdr (CreateCtxReq.decode payload)
  | some .destroyContext => destroyStep npu hdr (DestroyCtxReq.decode payload)
  | some .mapHostBuffer => heapStep npu hdr (MapHostBufferReq.decode payload)
  | some .addHostBuffer => heapStep npu hdr (MapHostBufferReq.decode payload)
  | some .registerAsyncEventMsg => asyncStep npu hdr (AsyncEventReq.decode payload)
  | some .getTelemetry => (npu, some (.success, (TelemetryResp.mk 1 0 0 .success).encode))
  | some .configCu => (npu, some (statusAnswer hdr .invalidOperation))
  | some .executeBufferCf => (npu, some (statusAnswer hdr .invalidOperation))
  | some .execDpu => (npu, some (statusAnswer hdr .invalidOperation))
  | some .chainExecBufferCf => (npu, some (statusAnswer hdr .invalidOperation))
  | some .chainExecDpu => (npu, some (statusAnswer hdr .invalidOperation))
  | some .chainExecNpu => (npu, some (statusAnswer hdr .invalidOperation))
  | some .syncBo => (npu, some (statusAnswer hdr .invalidOperation))
  | some .configDebugBo => (npu, some (statusAnswer hdr .invalidOperation))
  | _ => (npu, some (statusAnswer hdr .invalidCommand))

/-- The machine after a message that changes only the device state, before its answer. -/
def npuOutcome (m : Machine) (r : Npu × Option Answer) : Machine × Option Answer :=
  ({ m with npu := r.1 }, r.2)

/-- The effect of a message on the machine, and the answer to it if there is one. -/
def mertOutcome (host : Host) (m : Machine) (hdr : MsgHeader) (payload : Memory) :
    Machine × Option Answer :=
  if MsgOpcode.ofCode? hdr.opcode = some .queryColStatus then
    if hdr.totalSize < ColumnInfoReq.size then (m, some (statusAnswer hdr .invalidInputBuffer))
    else
      let r := queryColStatus host m (ColumnInfoReq.decode payload)
      (r.1, some (r.2.status, r.2.encode))
  else
    npuOutcome m (mertStep m.npu hdr payload (MsgOpcode.ofCode? hdr.opcode))

/-- Hand an answer, if there is one, to `mert_reply`. -/
def answerWith (host : Host) (c : ChanIdx) (hdr : MsgHeader) (r : Machine × Option Answer) :
    Machine :=
  match r.2 with
  | none => r.1
  | some a => mertReply host r.1 c hdr a.2

section Handlers

variable (host : Host) (m : Machine) (c : ChanIdx) (hdr : MsgHeader) (payload : Memory)

private theorem handleSetRuntimeConfig_eq :
    handleSetRuntimeConfig host m c hdr payload = answerWith host c hdr
      (npuOutcome m (setRuntimeConfigStep m.npu hdr (SetRuntimeCfgReq.decode payload))) := by
  simp only [handleSetRuntimeConfig, setRuntimeConfigStep, mertReplyStatus_eq]
  split
  · rfl
  · split <;> rfl

private theorem handleGetRuntimeConfig_eq :
    handleGetRuntimeConfig host m c hdr payload = answerWith host c hdr
      (npuOutcome m (getRuntimeConfigStep m.npu hdr (GetRuntimeCfgReq.decode payload))) := by
  simp only [handleGetRuntimeConfig, getRuntimeConfigStep, mertReplyStatus_eq]
  split <;> rfl

private theorem handleAssignMgmtPasid_eq :
    handleAssignMgmtPasid host m c hdr payload = answerWith host c hdr
      (npuOutcome m (assignPasidStep m.npu hdr (AssignPasidReq.decode payload))) := by
  simp only [handleAssignMgmtPasid, assignPasidStep, mertReplyStatus_eq]
  split <;> rfl

private theorem handleCreateContext_eq :
    handleCreateContext host m c hdr payload = answerWith host c hdr
      (npuOutcome m (createStep m.npu hdr (CreateCtxReq.decode payload))) := by
  simp only [handleCreateContext, createStep, mertReplyStatus_eq]
  split
  · rfl
  · cases freeSlot m.npu with
    | none => rfl
    | some s => dsimp only; split <;> rfl

private theorem handleDestroyContext_eq :
    handleDestroyContext host m c hdr payload = answerWith host c hdr
      (npuOutcome m (destroyStep m.npu hdr (DestroyCtxReq.decode payload))) := by
  simp only [handleDestroyContext, destroyStep, mertReplyStatus_eq]
  split
  · rfl
  · cases ctxById m.npu (DestroyCtxReq.decode payload).contextId <;> rfl

private theorem handleMapHostBuffer_eq :
    handleMapHostBuffer host m c hdr payload = answerWith host c hdr
      (npuOutcome m (heapStep m.npu hdr (MapHostBufferReq.decode payload))) := by
  simp only [handleMapHostBuffer, heapStep, mertReplyStatus_eq]
  split
  · rfl
  · cases ctxById m.npu (MapHostBufferReq.decode payload).contextId <;> rfl

private theorem handleRegisterAsyncEvent_eq :
    handleRegisterAsyncEvent host m c hdr payload = answerWith host c hdr
      (npuOutcome m (asyncStep m.npu hdr (AsyncEventReq.decode payload))) := by
  simp only [handleRegisterAsyncEvent, asyncStep, mertReplyStatus_eq]
  split <;> rfl

end Handlers

/-- While the firmware is alive, handling a message is its effect followed by its answer. -/
theorem mertHandle_eq {host : Host} {m : Machine} (c : ChanIdx) (hdr : MsgHeader)
    (payload : Memory) (halive : m.npu.fwAlive = true) :
    mertHandle host m c hdr payload = answerWith host c hdr (mertOutcome host m hdr payload) := by
  rw [mertHandle, if_neg (by simp [halive]), mertOutcome]
  cases MsgOpcode.ofCode? hdr.opcode with
  | none => exact mertReplyStatus_eq ..
  | some o =>
    cases o
    case queryColStatus =>
      simp only [handleQueryColStatus, mertReplyStatus_eq, if_true]
      split <;> simp only [answerWith, statusAnswer]
    all_goals rw [if_neg (by decide)]
    case setRuntimeConfig => exact handleSetRuntimeConfig_eq ..
    case getRuntimeConfig => exact handleGetRuntimeConfig_eq ..
    case assignMgmtPasid => exact handleAssignMgmtPasid_eq ..
    case createContext => exact handleCreateContext_eq ..
    case destroyContext => exact handleDestroyContext_eq ..
    case mapHostBuffer => exact handleMapHostBuffer_eq ..
    case addHostBuffer => exact handleMapHostBuffer_eq ..
    case registerAsyncEventMsg => exact handleRegisterAsyncEvent_eq ..
    case getProtocolVersion => rfl
    case getFirmwareVersion => rfl
    case queryAieVersion => rfl
    case queryAieTileInfo => rfl
    case getTelemetry => rfl
    all_goals exact mertReplyStatus_eq ..

/-! ## Effects -/

/-- The ways in which a message changes the device state, with the conditions under
which it does. Everything else a message does is in the trace. -/
inductive MsgEffect (npu : Npu) (hdr : MsgHeader) (payload : Memory) : Npu → Prop
  | none : MsgEffect npu hdr payload npu
  | runtimeConfig (type : Fin 64) (value : UInt64) :
      MsgEffect npu hdr payload { npu with rtCfg := Function.update npu.rtCfg type value }
  | pasid (v : UInt16) : MsgEffect npu hdr payload { npu with mgmtPasid := v }
  | suspend (v : Bool) : MsgEffect npu hdr payload { npu with fwSuspended := v }
  | async (addr : UInt64) (size : UInt32) :
      MsgEffect npu hdr payload
        { npu with asyncBufAddr := addr, asyncBufSize := size, asyncRegistered := true }
  | create (s : SlotIdx) (hop : hdr.opcode = MsgOpcode.createContext.code)
      (hlen : ¬ hdr.totalSize < CreateCtxReq.size) (hfree : freeSlot npu = some s)
      (hcols : ¬ ((CreateCtxReq.decode payload).numCol = 0 ∨
        aieCols < (CreateCtxReq.decode payload).numCol.toNat)) :
      MsgEffect npu hdr payload (createContext npu s (CreateCtxReq.decode payload))
  | destroy (s : SlotIdx) (hop : hdr.opcode = MsgOpcode.destroyContext.code)
      (hlen : ¬ hdr.totalSize < DestroyCtxReq.size)
      (hid : ctxById npu (DestroyCtxReq.decode payload).contextId = some s) :
      MsgEffect npu hdr payload (destroyContext npu s)
  | heap (s : SlotIdx)
      (hop : hdr.opcode = MsgOpcode.mapHostBuffer.code ∨
        hdr.opcode = MsgOpcode.addHostBuffer.code)
      (hlen : ¬ hdr.totalSize < MapHostBufferReq.size)
      (hid : ctxById npu (MapHostBufferReq.decode payload).contextId = some s) :
      MsgEffect npu hdr payload (mapHeap npu s (MapHostBufferReq.decode payload))

/-- A message has one of the listed effects. -/
theorem mertStep_effect (npu : Npu) (hdr : MsgHeader) (payload : Memory) :
    MsgEffect npu hdr payload (mertStep npu hdr payload (MsgOpcode.ofCode? hdr.opcode)).1 := by
  cases hop : MsgOpcode.ofCode? hdr.opcode with
  | none => exact .none
  | some o =>
    have hcode := (MsgOpcode.ofCode?_eq_some.mp hop).symm
    cases o <;> simp only [mertStep]
    case setRuntimeConfig =>
      unfold setRuntimeConfigStep
      split
      · exact .none
      · split
        · exact .runtimeConfig _ _
        · exact .none
    case getRuntimeConfig =>
      unfold getRuntimeConfigStep
      split <;> exact .none
    case assignMgmtPasid =>
      unfold assignPasidStep
      split
      · exact .none
      · exact .pasid _
    case suspend => exact .suspend _
    case resume => exact .suspend _
    case createContext =>
      unfold createStep
      split
      · exact .none
      · rename_i hlen
        cases hfree : freeSlot npu with
        | none => exact .none
        | some s =>
          dsimp only
          split
          · exact .none
          · rename_i hcols
            exact .create s hcode hlen hfree hcols
    case destroyContext =>
      unfold destroyStep
      split
      · exact .none
      · rename_i hlen
        cases hid : ctxById npu (DestroyCtxReq.decode payload).contextId with
        | none => exact .none
        | some s => exact .destroy s hcode hlen hid
    case mapHostBuffer =>
      unfold heapStep
      split
      · exact .none
      · rename_i hlen
        cases hid : ctxById npu (MapHostBufferReq.decode payload).contextId with
        | none => exact .none
        | some s => exact .heap s (.inl hcode) hlen hid
    case addHostBuffer =>
      unfold heapStep
      split
      · exact .none
      · rename_i hlen
        cases hid : ctxById npu (MapHostBufferReq.decode payload).contextId with
        | none => exact .none
        | some s => exact .heap s (.inr hcode) hlen hid
    case registerAsyncEventMsg =>
      unfold asyncStep
      split
      · exact .none
      · exact .async _ _
    all_goals exact .none

/-- The column dump leaves the device state alone and only calls `dma_write`. -/
theorem colStatusLoop_frame (dmaWrite : ℕ → UInt64 → List UInt8 → Bool) (addr : UInt64)
    (size : UInt32) (m : Machine) (done : UInt32) :
    (colStatusLoop dmaWrite addr size m done).1.npu = m.npu ∧
    (colStatusLoop dmaWrite addr size m done).1.dmaReads = m.dmaReads ∧
    m.Extends Event.IsDmaWrite (colStatusLoop dmaWrite addr size m done).1 := by
  fun_induction colStatusLoop with
  | case1 m done _ n ok m₁ hok ih =>
    obtain ⟨hnpu, hreads, htrace⟩ := ih
    exact ⟨hnpu, hreads, (Machine.Extends.of_trace_eq rfl trivial).trans htrace⟩
  | case2 m done _ n ok m₁ _ => exact ⟨rfl, rfl, .of_trace_eq rfl trivial⟩
  | case3 => exact ⟨rfl, rfl, .refl _⟩

/-- A column dump makes DMA writes and changes nothing in the device. -/
theorem queryColStatus_frame (host : Host) (m : Machine) (req : ColumnInfoReq) :
    (queryColStatus host m req).1.npu = m.npu ∧
    (queryColStatus host m req).1.dmaReads = m.dmaReads ∧
    m.Extends Event.IsDmaWrite (queryColStatus host m req).1 := by
  unfold queryColStatus
  split
  · exact ⟨rfl, rfl, .refl _⟩
  · cases host.dmaWrite with
    | none => exact ⟨rfl, rfl, .refl _⟩
    | some dmaWrite => exact colStatusLoop_frame ..

/-- A message has one of the effects that its opcode can have. -/
theorem mertOutcome_effect (host : Host) (m : Machine) (hdr : MsgHeader) (payload : Memory) :
    MsgEffect m.npu hdr payload (mertOutcome host m hdr payload).1.npu := by
  unfold mertOutcome
  split
  · split
    · exact .none
    · dsimp only
      rw [(queryColStatus_frame host m (ColumnInfoReq.decode payload)).1]
      exact .none
  · exact mertStep_effect ..

/-- Before its answer a message makes no host call but `dma_write`. -/
theorem mertOutcome_trace (host : Host) (m : Machine) (hdr : MsgHeader) (payload : Memory) :
    (mertOutcome host m hdr payload).1.dmaReads = m.dmaReads ∧
    m.Extends Event.IsDmaWrite (mertOutcome host m hdr payload).1 := by
  unfold mertOutcome
  split
  · split
    · exact ⟨rfl, .refl _⟩
    · dsimp only
      exact (queryColStatus_frame host m (ColumnInfoReq.decode payload)).2
  · exact ⟨rfl, .of_eq rfl⟩

/-! ## What is read of the payload -/

section Payload

variable {p p' : Memory} {n : ℕ} (h : ∀ i < n, p i = p' i)

include h

private theorem SetRuntimeCfgReq.decode_congr (hn : 12 ≤ n) :
    SetRuntimeCfgReq.decode p = SetRuntimeCfgReq.decode p' := by
  rw [SetRuntimeCfgReq.decode, SetRuntimeCfgReq.decode, Memory.word32_congr h (by omega),
    Memory.word64_congr h (by omega)]

private theorem GetRuntimeCfgReq.decode_congr (hn : 4 ≤ n) :
    GetRuntimeCfgReq.decode p = GetRuntimeCfgReq.decode p' := by
  rw [GetRuntimeCfgReq.decode, GetRuntimeCfgReq.decode, Memory.word32_congr h (by omega)]

private theorem AssignPasidReq.decode_congr (hn : 4 ≤ n) :
    AssignPasidReq.decode p = AssignPasidReq.decode p' := by
  rw [AssignPasidReq.decode, AssignPasidReq.decode, Memory.word16_congr h (by omega),
    Memory.word16_congr h (by omega)]

/-- A request is read from its first 28 bytes. -/
theorem CreateCtxReq.decode_congr (hn : 28 ≤ n) :
    CreateCtxReq.decode p = CreateCtxReq.decode p' := by
  simp only [CreateCtxReq.decode, Memory.word16_congr h (show 10 + 2 ≤ n by omega),
    Memory.word32_congr h (show 0 + 4 ≤ n by omega),
    Memory.word32_congr h (show 20 + 4 ≤ n by omega),
    Memory.word32_congr h (show 24 + 4 ≤ n by omega),
    Memory.word64_congr h (show 12 + 8 ≤ n by omega), h 4 (by omega), h 5 (by omega),
    h 6 (by omega), h 7 (by omega), h 8 (by omega), h 9 (by omega)]

private theorem DestroyCtxReq.decode_congr (hn : 4 ≤ n) :
    DestroyCtxReq.decode p = DestroyCtxReq.decode p' := by
  rw [DestroyCtxReq.decode, DestroyCtxReq.decode, Memory.word32_congr h (by omega)]

private theorem MapHostBufferReq.decode_congr (hn : 20 ≤ n) :
    MapHostBufferReq.decode p = MapHostBufferReq.decode p' := by
  rw [MapHostBufferReq.decode, MapHostBufferReq.decode, Memory.word32_congr h (by omega),
    Memory.word64_congr h (by omega), Memory.word64_congr h (by omega)]

private theorem AsyncEventReq.decode_congr (hn : 12 ≤ n) :
    AsyncEventReq.decode p = AsyncEventReq.decode p' := by
  rw [AsyncEventReq.decode, AsyncEventReq.decode, Memory.word64_congr h (by omega),
    Memory.word32_congr h (by omega)]

private theorem ColumnInfoReq.decode_congr (hn : 20 ≤ n) :
    ColumnInfoReq.decode p = ColumnInfoReq.decode p' := by
  rw [ColumnInfoReq.decode, ColumnInfoReq.decode, Memory.word64_congr h (by omega),
    Memory.word32_congr h (by omega), Memory.word32_congr h (by omega),
    Memory.word32_congr h (by omega)]

end Payload

/-- A request that is long enough for its struct is read within the bytes it has, and no struct
is longer than 28 bytes. -/
theorem le_totalSize {hdr : MsgHeader} {n : ℕ} {size : UInt32}
    (hn : min hdr.totalSize.toNat 28 ≤ n) (h : ¬ hdr.totalSize < size) (hsize : size.toNat ≤ 28) :
    size.toNat ≤ n := by
  rw [UInt32.lt_iff_toNat_lt] at h
  omega

private theorem mertStep_congr (npu : Npu) (hdr : MsgHeader) (op : Option MsgOpcode) {p p' : Memory}
    {n : ℕ} (hn : min hdr.totalSize.toNat 28 ≤ n) (h : ∀ i < n, p i = p' i) :
    mertStep npu hdr p op = mertStep npu hdr p' op := by
  cases op with
  | none => rfl
  | some o =>
    cases o <;> simp only [mertStep]
    case setRuntimeConfig =>
      unfold setRuntimeConfigStep
      split
      · rfl
      · rename_i hk
        simp only [SetRuntimeCfgReq.decode_congr h (le_totalSize hn hk (by decide))]
    case getRuntimeConfig =>
      unfold getRuntimeConfigStep
      split
      · rfl
      · rename_i hk
        rw [GetRuntimeCfgReq.decode_congr h (le_totalSize hn hk (by decide))]
    case assignMgmtPasid =>
      unfold assignPasidStep
      split
      · rfl
      · rename_i hk
        rw [AssignPasidReq.decode_congr h (le_totalSize hn hk (by decide))]
    case createContext =>
      unfold createStep
      split
      · rfl
      · rename_i hk
        rw [CreateCtxReq.decode_congr h (le_totalSize hn hk (by decide))]
    case destroyContext =>
      unfold destroyStep
      split
      · rfl
      · rename_i hk
        rw [DestroyCtxReq.decode_congr h (le_totalSize hn hk (by decide))]
    case mapHostBuffer =>
      unfold heapStep
      split
      · rfl
      · rename_i hk
        rw [MapHostBufferReq.decode_congr h (le_totalSize hn hk (by decide))]
    case addHostBuffer =>
      unfold heapStep
      split
      · rfl
      · rename_i hk
        rw [MapHostBufferReq.decode_congr h (le_totalSize hn hk (by decide))]
    case registerAsyncEventMsg =>
      unfold asyncStep
      split
      · rfl
      · rename_i hk
        rw [AsyncEventReq.decode_congr h (le_totalSize hn hk (by decide))]

/-- What lies in the buffer behind `totalSize` bytes does not matter. -/
theorem mertOutcome_congr (host : Host) (m : Machine) (hdr : MsgHeader) {p p' : Memory} {n : ℕ}
    (hn : min hdr.totalSize.toNat 28 ≤ n) (h : ∀ i < n, p i = p' i) :
    mertOutcome host m hdr p = mertOutcome host m hdr p' := by
  unfold mertOutcome
  split
  · split
    · rfl
    · rename_i hk
      rw [ColumnInfoReq.decode_congr h (le_totalSize hn hk (by decide))]
  · rw [mertStep_congr m.npu hdr _ hn h]

end Xdna
