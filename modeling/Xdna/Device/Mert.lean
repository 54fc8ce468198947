import Xdna.Device.Mailbox

/-!
# The management firmware

The message handler of `src/xdna_mert.c`. Requests are decoded from the payload
buffer at the offsets of the packed request structs, and replies are encoded
field by field, so that their sizes are those the static assertions of the source
fix. The buffer is longer than the request: what lies behind `totalSize` bytes is
whatever was on the stack.
-/

namespace Xdna

open ByteMemory

/-! ## Requests -/

/-- The payload of SET_RUNTIME_CONFIG. -/
structure SetRuntimeCfgReq where
  type : UInt32
  value : UInt64

/-- `sizeof(SetRuntimeCfgReq)`. -/
def SetRuntimeCfgReq.size : UInt32 := 12

/-- A `SetRuntimeCfgReq` at the start of the payload buffer. -/
def SetRuntimeCfgReq.decode (p : Memory) : SetRuntimeCfgReq := ⟨p.word32 0, p.word64 4⟩

/-- The payload of GET_RUNTIME_CONFIG. -/
structure GetRuntimeCfgReq where
  type : UInt32

/-- `sizeof(GetRuntimeCfgReq)`. -/
def GetRuntimeCfgReq.size : UInt32 := 4

/-- A `GetRuntimeCfgReq` at the start of the payload buffer. -/
def GetRuntimeCfgReq.decode (p : Memory) : GetRuntimeCfgReq := ⟨p.word32 0⟩

/-- The payload of ASSIGN_MGMT_PASID. -/
structure AssignPasidReq where
  pasid : UInt16
  reserved : UInt16

/-- `sizeof(AssignPasidReq)`. -/
def AssignPasidReq.size : UInt32 := 4

/-- An `AssignPasidReq` at the start of the payload buffer. -/
def AssignPasidReq.decode (p : Memory) : AssignPasidReq := ⟨p.word16 0, p.word16 2⟩

/-- The payload of CREATE_CONTEXT. -/
structure CreateCtxReq where
  aieType : UInt32
  startCol : UInt8
  numCol : UInt8
  numUnusedCol : UInt8
  reserved : UInt8
  numCqPairsRequested : UInt8
  reserved1 : UInt8
  pasid : UInt16
  pad : UInt64
  secCommTargetType : UInt32
  contextPriority : UInt32

/-- `sizeof(CreateCtxReq)`. -/
def CreateCtxReq.size : UInt32 := 28

/-- A `CreateCtxReq` at the start of the payload buffer. -/
def CreateCtxReq.decode (p : Memory) : CreateCtxReq where
  aieType := p.word32 0
  startCol := p 4
  numCol := p 5
  numUnusedCol := p 6
  reserved := p 7
  numCqPairsRequested := p 8
  reserved1 := p 9
  pasid := p.word16 10
  pad := p.word64 12
  secCommTargetType := p.word32 20
  contextPriority := p.word32 24

/-- The payload of DESTROY_CONTEXT. -/
structure DestroyCtxReq where
  contextId : UInt32

/-- `sizeof(DestroyCtxReq)`. -/
def DestroyCtxReq.size : UInt32 := 4

/-- A `DestroyCtxReq` at the start of the payload buffer. -/
def DestroyCtxReq.decode (p : Memory) : DestroyCtxReq := ⟨p.word32 0⟩

/-- The payload of MAP_HOST_BUFFER and ADD_HOST_BUFFER. -/
structure MapHostBufferReq where
  contextId : UInt32
  bufAddr : UInt64
  bufSize : UInt64

/-- `sizeof(MapHostBufferReq)`. -/
def MapHostBufferReq.size : UInt32 := 20

/-- A `MapHostBufferReq` at the start of the payload buffer. -/
def MapHostBufferReq.decode (p : Memory) : MapHostBufferReq := ⟨p.word32 0, p.word64 4, p.word64 12⟩

/-- The payload of REGISTER_ASYNC_EVENT_MSG. -/
structure AsyncEventReq where
  bufAddr : UInt64
  bufSize : UInt32

/-- `sizeof(AsyncEventReq)`. -/
def AsyncEventReq.size : UInt32 := 12

/-- An `AsyncEventReq` at the start of the payload buffer. -/
def AsyncEventReq.decode (p : Memory) : AsyncEventReq := ⟨p.word64 0, p.word32 8⟩

/-- The payload of QUERY_COL_STATUS. -/
structure ColumnInfoReq where
  dumpBuffAddr : UInt64
  dumpBuffSize : UInt32
  numCols : UInt32
  aieBitmap : UInt32

/-- `sizeof(ColumnInfoReq)`. -/
def ColumnInfoReq.size : UInt32 := 20

/-- A `ColumnInfoReq` at the start of the payload buffer. -/
def ColumnInfoReq.decode (p : Memory) : ColumnInfoReq :=
  ⟨p.word64 0, p.word32 8, p.word32 12, p.word32 16⟩

/-! ## Replies -/

/-- The reply to GET_PROTOCOL_VERSION. -/
structure ProtocolVersionResp where
  status : MsgStatus
  major : UInt32
  minor : UInt32

/-- The bytes of a `ProtocolVersionResp`, in the order of its fields. -/
def ProtocolVersionResp.encode (r : ProtocolVersionResp) : List UInt8 :=
  le32 r.status.code ++ le32 r.major ++ le32 r.minor

/-- The reply to GET_FIRMWARE_VERSION. -/
structure FirmwareVersionResp where
  status : MsgStatus
  major : UInt32
  minor : UInt32
  sub : UInt32
  build : UInt32

/-- The bytes of a `FirmwareVersionResp`, in the order of its fields. -/
def FirmwareVersionResp.encode (r : FirmwareVersionResp) : List UInt8 :=
  le32 r.status.code ++ le32 r.major ++ le32 r.minor ++ le32 r.sub ++ le32 r.build

/-- The reply to QUERY_AIE_VERSION. -/
structure AieVersionResp where
  status : MsgStatus
  major : UInt16
  minor : UInt16

/-- The bytes of an `AieVersionResp`, in the order of its fields. -/
def AieVersionResp.encode (r : AieVersionResp) : List UInt8 :=
  le32 r.status.code ++ le16 r.major ++ le16 r.minor

/-- The array, in the terms of QUERY_AIE_TILE_INFO. -/
structure AieTileInfo where
  size : UInt32
  major : UInt16
  minor : UInt16
  cols : UInt16
  rows : UInt16
  coreRows : UInt16
  memRows : UInt16
  shimRows : UInt16
  coreRowStart : UInt16
  memRowStart : UInt16
  shimRowStart : UInt16
  coreDmaChannels : UInt16
  memDmaChannels : UInt16
  shimDmaChannels : UInt16
  coreLocks : UInt16
  memLocks : UInt16
  shimLocks : UInt16
  coreEvents : UInt16
  memEvents : UInt16
  shimEvents : UInt16
  reserved : UInt16

/-- The bytes of an `AieTileInfo`, in the order of its fields. -/
def AieTileInfo.encode (i : AieTileInfo) : List UInt8 :=
  le32 i.size ++ le16 i.major ++ le16 i.minor ++ le16 i.cols ++ le16 i.rows ++ le16 i.coreRows ++
    le16 i.memRows ++ le16 i.shimRows ++ le16 i.coreRowStart ++ le16 i.memRowStart ++
    le16 i.shimRowStart ++ le16 i.coreDmaChannels ++ le16 i.memDmaChannels ++
    le16 i.shimDmaChannels ++ le16 i.coreLocks ++ le16 i.memLocks ++ le16 i.shimLocks ++
    le16 i.coreEvents ++ le16 i.memEvents ++ le16 i.shimEvents ++ le16 i.reserved

/-- The reply to QUERY_AIE_TILE_INFO. -/
structure AieTileInfoResp where
  status : MsgStatus
  info : AieTileInfo

/-- The bytes of an `AieTileInfoResp`, in the order of its fields. -/
def AieTileInfoResp.encode (r : AieTileInfoResp) : List UInt8 :=
  le32 r.status.code ++ r.info.encode

/-- The reply to GET_RUNTIME_CONFIG. -/
structure GetRuntimeCfgResp where
  status : MsgStatus
  value : UInt64

/-- The bytes of a `GetRuntimeCfgResp`, in the order of its fields. -/
def GetRuntimeCfgResp.encode (r : GetRuntimeCfgResp) : List UInt8 :=
  le32 r.status.code ++ le64 r.value

/-- One ring of a channel, as the driver is told of it. -/
structure CqInfo where
  headAddr : UInt32
  tailAddr : UInt32
  bufAddr : UInt32
  bufSize : UInt32

/-- The bytes of a `CqInfo`, in the order of its fields. -/
def CqInfo.encode (q : CqInfo) : List UInt8 :=
  le32 q.headAddr ++ le32 q.tailAddr ++ le32 q.bufAddr ++ le32 q.bufSize

/-- The two rings of a channel. -/
structure CqPair where
  x2iQ : CqInfo
  i2xQ : CqInfo

/-- The bytes of a `CqPair`, in the order of its fields. -/
def CqPair.encode (p : CqPair) : List UInt8 := p.x2iQ.encode ++ p.i2xQ.encode

/-- The unused second queue pair of a create reply. -/
def CqPair.zero : CqPair := ⟨⟨0, 0, 0, 0⟩, ⟨0, 0, 0, 0⟩⟩

/-- The reply to CREATE_CONTEXT. -/
structure CreateCtxResp where
  status : MsgStatus
  contextId : UInt32
  msixId : UInt16
  numCqPairsAllocated : UInt8
  reserved : UInt8
  cqPair0 : CqPair
  cqPair1 : CqPair

/-- The bytes of a `CreateCtxResp`, in the order of its fields. -/
def CreateCtxResp.encode (r : CreateCtxResp) : List UInt8 :=
  le32 r.status.code ++ le32 r.contextId ++ le16 r.msixId ++ [r.numCqPairsAllocated, r.reserved] ++
    r.cqPair0.encode ++ r.cqPair1.encode

/-- The reply to QUERY_COL_STATUS. -/
structure ColumnInfoResp where
  status : MsgStatus
  size : UInt32

/-- The bytes of a `ColumnInfoResp`, in the order of its fields. -/
def ColumnInfoResp.encode (r : ColumnInfoResp) : List UInt8 := le32 r.status.code ++ le32 r.size

/-- The status is the last field of this reply. -/
structure TelemetryResp where
  major : UInt32
  minor : UInt32
  size : UInt32
  status : MsgStatus

/-- The bytes of a `TelemetryResp`, in the order of its fields. -/
def TelemetryResp.encode (r : TelemetryResp) : List UInt8 :=
  le32 r.major ++ le32 r.minor ++ le32 r.size ++ le32 r.status.code

/-- `XDNA_COL_STATUS_SIZE`. -/
def colStatusSize : UInt32 := 0x2000

/-- `fill_tile_info`. -/
def fillTileInfo : AieTileInfo where
  size := colStatusSize
  major := UInt16.ofNat aieVersionMajor
  minor := UInt16.ofNat aieVersionMinor
  cols := UInt16.ofNat aieCols
  rows := UInt16.ofNat aieRows
  coreRows := UInt16.ofNat aieCoreRows
  memRows := UInt16.ofNat aieMemRows
  shimRows := UInt16.ofNat aieShimRows
  coreRowStart := UInt16.ofNat aieCoreRowStart
  memRowStart := UInt16.ofNat aieMemRowStart
  shimRowStart := UInt16.ofNat aieShimRowStart
  coreDmaChannels := 2
  memDmaChannels := 6
  shimDmaChannels := 2
  coreLocks := 16
  memLocks := 64
  shimLocks := 16
  coreEvents := 128
  memEvents := 128
  shimEvents := 128
  reserved := 0

/-! ## Sending replies -/

/-- `mert_reply`: the return value of `xdna_mbox_send` is ignored. -/
def mertReply (host : Host) (m : Machine) (c : ChanIdx) (hdr : MsgHeader)
    (payload : List UInt8) : Machine :=
  (mboxSend host m c hdr.id hdr.opcode payload).1

/-- `resp_size_for`: the size of the reply to an opcode and the offset of its status. -/
def respSizeFor (opcode : UInt32) : ℕ × ℕ :=
  match MsgOpcode.ofCode? opcode with
  | some .getProtocolVersion => (12, 0)
  | some .getFirmwareVersion => (20, 0)
  | some .queryAieVersion => (8, 0)
  | some .queryAieTileInfo => (48, 0)
  | some .queryColStatus => (8, 0)
  | some .getRuntimeConfig => (12, 0)
  | some .getTelemetry => (16, 12)
  | some .createContext => (76, 0)
  | some .registerAsyncEventMsg => (8, 0)
  | some .getAppHealth => (36, 0)
  | some .getDevRevision => (12, 0)
  | some .chainExecBufferCf => (12, 0)
  | some .chainExecDpu => (12, 0)
  | some .chainExecNpu => (12, 0)
  | _ => (4, 0)

/-- The buffer `mert_reply_status` sends: zero but for the status. -/
def statusReply (opcode : UInt32) (status : MsgStatus) : List UInt8 :=
  Memory.read (Memory.write (fun _ => 0) (respSizeFor opcode).2 (le32 status.code)) 0
    (respSizeFor opcode).1

/-- `mert_reply_status`. -/
def mertReplyStatus (host : Host) (m : Machine) (c : ChanIdx) (hdr : MsgHeader)
    (status : MsgStatus) : Machine :=
  if 128 < (respSizeFor hdr.opcode).1 then m
  else mertReply host m c hdr (statusReply hdr.opcode status)

/-! ## Contexts -/

/-- `ctx_by_id`: the first valid context with the given id. -/
def ctxById (npu : Npu) (id : UInt32) : Option SlotIdx :=
  (List.finRange hwctxLimit).find? fun s => (npu.ctx s).valid && (npu.ctx s).id = id

/-- The slot that `handle_create_context` takes: the first one that is not valid. -/
def freeSlot (npu : Npu) : Option SlotIdx :=
  (List.finRange hwctxLimit).find? fun s => !(npu.ctx s).valid

/-- `XDNA_SRAM_CTX_RB_BASE + slot * XDNA_SRAM_CTX_RB_STRIDE`. -/
def ctxRbBase (s : SlotIdx) : UInt32 := sramCtxRbBase + UInt32.ofNat s.val * sramCtxRbStride

/-- The channel record of a newly created context. -/
def createdChannel (s : SlotIdx) : Channel where
  active := true
  index := (slotChan s).val
  x2iBuf := ctxRbBase s
  x2iSize := sramCtxRbSize
  i2xBuf := ctxRbBase s + sramCtxRbSize
  i2xSize := sramCtxRbSize

/-- The context record of a newly created context. -/
def createdContext (npu : Npu) (s : SlotIdx) (req : CreateCtxReq) : Context where
  valid := true
  id := npu.nextCtxId
  pasid := req.pasid
  startCol := req.startCol
  numCol := req.numCol
  priority := req.contextPriority
  chan := (slotChan s).val
  heapAddr := 0
  heapSize := 0

/-- The state changes of a successful `handle_create_context`. -/
def createContext (npu : Npu) (s : SlotIdx) (req : CreateCtxReq) : Npu :=
  let npu₁ := ((mboxChannelReset npu (slotChan s).val).setChan (slotChan s)
    (createdChannel s)).sramClear (ctxRbBase s).toNat sramCtxRbStride.toNat
  { npu₁.setCtx s (createdContext npu s req) with
    nextCtxId := npu₁.nextCtxId + 1
    stats := { npu₁.stats with activeContexts := npu₁.stats.activeContexts + 1 } }

/-- The reply of a successful `handle_create_context`. -/
def createReply (npu : Npu) (s : SlotIdx) : CreateCtxResp :=
  let cch := npu.chan (slotChan s)
  let chanBase := mboxChanBase (slotChan s).val
  { status := .success
    contextId := (npu.ctx s).id
    msixId := UInt16.ofNat (slotChan s).val
    numCqPairsAllocated := 1
    reserved := 0
    cqPair0 :=
      { x2iQ := ⟨mboxDevAddr (chanBase + mboxX2iHeadOff), mboxDevAddr (chanBase + mboxX2iTailOff),
          sramDevAddr cch.x2iBuf, cch.x2iSize⟩
        i2xQ := ⟨mboxDevAddr (chanBase + mboxI2xHeadOff), mboxDevAddr (chanBase + mboxI2xTailOff),
          sramDevAddr cch.i2xBuf, cch.i2xSize⟩ }
    cqPair1 := CqPair.zero }

/-- `handle_create_context`. -/
def handleCreateContext (host : Host) (m : Machine) (c : ChanIdx) (hdr : MsgHeader)
    (payload : Memory) : Machine :=
  if hdr.totalSize < CreateCtxReq.size then mertReplyStatus host m c hdr .invalidInputBuffer
  else
    let req := CreateCtxReq.decode payload
    match freeSlot m.npu with
    | none => mertReplyStatus host m c hdr .mgmtErtNoavail
    | some s =>
      if req.numCol = 0 ∨ aieCols < req.numCol.toNat then
        mertReplyStatus host m c hdr .mgmtErtInvalidParam
      else
        let m₁ := m.modify (createContext · s req)
        mertReply host m₁ c hdr (createReply m₁.npu s).encode

/-- The state changes of a successful `handle_destroy_context`. -/
def destroyContext (npu : Npu) (s : SlotIdx) : Npu :=
  let npu₁ := mboxChannelReset npu (npu.ctx s).chan
  let npu₂ := npu₁.setCtx s { npu₁.ctx s with valid := false }
  if npu₂.stats.activeContexts = 0 then npu₂
  else { npu₂ with
    stats := { npu₂.stats with activeContexts := npu₂.stats.activeContexts - 1 } }

/-- `handle_destroy_context`. -/
def handleDestroyContext (host : Host) (m : Machine) (c : ChanIdx) (hdr : MsgHeader)
    (payload : Memory) : Machine :=
  if hdr.totalSize < DestroyCtxReq.size then mertReplyStatus host m c hdr .invalidInputBuffer
  else
    let req := DestroyCtxReq.decode payload
    match ctxById m.npu req.contextId with
    | none => mertReplyStatus host m c hdr .mgmtErtInvalidParam
    | some s => mertReplyStatus host (m.modify (destroyContext · s)) c hdr .success

/-! ## Column status -/

/-- The `dma_write` loop of `QUERY_COL_STATUS`, from `done` bytes on. Returns the number of
bytes written and whether a write failed. Each chunk is nonempty and ends at or before
`size`, so that the counter does not wrap. -/
def colStatusLoop (dmaWrite : ℕ → UInt64 → List UInt8 → Bool) (addr : UInt64) (size : UInt32)
    (m : Machine) (done : UInt32) : Machine × UInt32 × Bool :=
  if _h : done < size then
    let n := if 256 < size - done then 256 else size - done
    let ok := dmaWrite m.dmaWrites (addr + done.toUInt64) (List.replicate n.toNat 0)
    let m₁ := { m.emit (.dmaWrite (addr + done.toUInt64) n ok) with dmaWrites := m.dmaWrites + 1 }
    if ok then colStatusLoop dmaWrite addr size m₁ (done + n) else (m₁, done, true)
  else (m, done, false)
termination_by size.toNat - done.toNat
decreasing_by
  have hlt : done.toNat < size.toNat := UInt32.lt_iff_toNat_lt.mp ‹_›
  have hsub := UInt32.toNat_sub_of_le size done (UInt32.le_iff_toNat_le.mpr hlt.le)
  have hn : n.toNat = min 256 (size.toNat - done.toNat) := by
    simp only [n]
    split <;> rename_i hc <;> rw [UInt32.lt_iff_toNat_lt, hsub] at hc <;>
      simp only [UInt32.reduceToNat] at hc ⊢ <;> omega
  have hsize := size.toNat_lt
  rw [UInt32.toNat_add, hn]
  omega

/-- The part of `QUERY_COL_STATUS` before the reply. -/
def queryColStatus (host : Host) (m : Machine) (req : ColumnInfoReq) : Machine × ColumnInfoResp :=
  if req.dumpBuffAddr = 0 ∨ req.dumpBuffSize = 0 then (m, ⟨.invalidParam, 0⟩)
  else match host.dmaWrite with
    | none => (m, ⟨.aieDmaError, 0⟩)
    | some dmaWrite =>
      let r := colStatusLoop dmaWrite req.dumpBuffAddr req.dumpBuffSize m 0
      let status := if r.2.2 then MsgStatus.aieDmaError else .success
      (r.1, ⟨if r.2.1 = req.dumpBuffSize then .success else status, r.2.1⟩)

/-! ## The dispatcher -/

/-- The case `SET_RUNTIME_CONFIG` of the `switch`. -/
def handleSetRuntimeConfig (host : Host) (m : Machine) (c : ChanIdx) (hdr : MsgHeader)
    (payload : Memory) : Machine :=
  if hdr.totalSize < SetRuntimeCfgReq.size then mertReplyStatus host m c hdr .invalidInputBuffer
  else
    let req := SetRuntimeCfgReq.decode payload
    if h : req.type.toNat < 64 then
      mertReplyStatus host (m.modify fun npu =>
        { npu with rtCfg := Function.update npu.rtCfg ⟨_, h⟩ req.value }) c hdr .success
    else mertReplyStatus host m c hdr .invalidParam

/-- The `resp` of `GET_RUNTIME_CONFIG`. -/
def runtimeConfigResp (npu : Npu) (req : GetRuntimeCfgReq) : GetRuntimeCfgResp :=
  if h : req.type.toNat < 64 then ⟨.success, npu.rtCfg ⟨_, h⟩⟩ else ⟨.invalidParam, 0⟩

/-- The case `GET_RUNTIME_CONFIG` of the `switch`. -/
def handleGetRuntimeConfig (host : Host) (m : Machine) (c : ChanIdx) (hdr : MsgHeader)
    (payload : Memory) : Machine :=
  if hdr.totalSize < GetRuntimeCfgReq.size then mertReplyStatus host m c hdr .invalidInputBuffer
  else
    let req := GetRuntimeCfgReq.decode payload
    mertReply host m c hdr (runtimeConfigResp m.npu req).encode

/-- The case `ASSIGN_MGMT_PASID` of the `switch`. -/
def handleAssignMgmtPasid (host : Host) (m : Machine) (c : ChanIdx) (hdr : MsgHeader)
    (payload : Memory) : Machine :=
  if hdr.totalSize < AssignPasidReq.size then mertReplyStatus host m c hdr .invalidInputBuffer
  else
    let req := AssignPasidReq.decode payload
    mertReplyStatus host (m.modify fun npu => { npu with mgmtPasid := req.pasid }) c hdr .success

/-- The state changes of a successful `MAP_HOST_BUFFER`. -/
def mapHeap (npu : Npu) (s : SlotIdx) (req : MapHostBufferReq) : Npu :=
  npu.setCtx s { npu.ctx s with heapAddr := req.bufAddr, heapSize := req.bufSize }

/-- The case `MAP_HOST_BUFFER` of the `switch`, which `ADD_HOST_BUFFER` shares. -/
def handleMapHostBuffer (host : Host) (m : Machine) (c : ChanIdx) (hdr : MsgHeader)
    (payload : Memory) : Machine :=
  if hdr.totalSize < MapHostBufferReq.size then mertReplyStatus host m c hdr .invalidInputBuffer
  else
    let req := MapHostBufferReq.decode payload
    match ctxById m.npu req.contextId with
    | none => mertReplyStatus host m c hdr .mgmtErtInvalidParam
    | some s => mertReplyStatus host (m.modify (mapHeap · s req)) c hdr .success

/-- The case `REGISTER_ASYNC_EVENT_MSG` of the `switch`. An accepted registration is answered
when an asynchronous event happens, of which the emulator has none. -/
def handleRegisterAsyncEvent (host : Host) (m : Machine) (c : ChanIdx) (hdr : MsgHeader)
    (payload : Memory) : Machine :=
  if hdr.totalSize < AsyncEventReq.size then mertReplyStatus host m c hdr .invalidInputBuffer
  else
    let req := AsyncEventReq.decode payload
    m.modify fun npu => { npu with
      asyncBufAddr := req.bufAddr
      asyncBufSize := req.bufSize
      asyncRegistered := true }

/-- The case `QUERY_COL_STATUS` of the `switch`. -/
def handleQueryColStatus (host : Host) (m : Machine) (c : ChanIdx) (hdr : MsgHeader)
    (payload : Memory) : Machine :=
  if hdr.totalSize < ColumnInfoReq.size then mertReplyStatus host m c hdr .invalidInputBuffer
  else
    let r := queryColStatus host m (ColumnInfoReq.decode payload)
    mertReply host r.1 c hdr r.2.encode

/-- `xdna_mert_handle`. Opcodes that need the array to execute anything are answered with an
error rather than with fabricated success. -/
def mertHandle (host : Host) (m : Machine) (c : ChanIdx) (hdr : MsgHeader)
    (payload : Memory) : Machine :=
  if !m.npu.fwAlive then m
  else match MsgOpcode.ofCode? hdr.opcode with
  | some .getProtocolVersion =>
    mertReply host m c hdr (ProtocolVersionResp.mk .success mgmtProtMajor mgmtProtMinor).encode
  | some .getFirmwareVersion =>
    mertReply host m c hdr
      (FirmwareVersionResp.mk .success fwVerMajor fwVerMinor fwVerSub fwVerBuild).encode
  | some .queryAieVersion =>
    mertReply host m c hdr (AieVersionResp.mk .success (UInt16.ofNat aieVersionMajor)
      (UInt16.ofNat aieVersionMinor)).encode
  | some .queryAieTileInfo =>
    mertReply host m c hdr (AieTileInfoResp.mk .success fillTileInfo).encode
  | some .setRuntimeConfig => handleSetRuntimeConfig host m c hdr payload
  | some .getRuntimeConfig => handleGetRuntimeConfig host m c hdr payload
  | some .assignMgmtPasid => handleAssignMgmtPasid host m c hdr payload
  | some .suspend =>
    mertReplyStatus host (m.modify fun npu => { npu with fwSuspended := true }) c hdr .success
  | some .resume =>
    mertReplyStatus host (m.modify fun npu => { npu with fwSuspended := false }) c hdr .success
  | some .invokeSelfTest => mertReplyStatus host m c hdr .success
  | some .createContext => handleCreateContext host m c hdr payload
  | some .destroyContext => handleDestroyContext host m c hdr payload
  | some .mapHostBuffer | some .addHostBuffer => handleMapHostBuffer host m c hdr payload
  | some .registerAsyncEventMsg => handleRegisterAsyncEvent host m c hdr payload
  | some .queryColStatus => handleQueryColStatus host m c hdr payload
  | some .getTelemetry => mertReply host m c hdr (TelemetryResp.mk 1 0 0 .success).encode
  | some .configCu | some .executeBufferCf | some .execDpu | some .chainExecBufferCf
  | some .chainExecDpu | some .chainExecNpu | some .syncBo | some .configDebugBo =>
    mertReplyStatus host m c hdr .invalidOperation
  | _ => mertReplyStatus host m c hdr .invalidCommand

end Xdna
