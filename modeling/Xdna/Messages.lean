import Xdna.MertSemantics
import Xdna.General.PackedLayout

/-!
# Messages as the driver sees them

The packed structs of `tests/test_boot.c` and of the firmware, each as a layout. A call is a
request with its fields; its reply begins with the status word, but for GET_TELEMETRY. The
driver has the layouts of the firmware: what one side writes the other one reads.
-/

namespace Xdna

open ByteMemory PackedLayout

/-! ## Requests -/

/-- The fields of SET_RUNTIME_CONFIG. -/
def SetRuntimeCfgReq.layout : Layout SetRuntimeCfgReq :=
  (Layout.u32.pair .u64).iso
    ⟨fun p => ⟨p.1, p.2⟩, fun r => (r.type, r.value), fun _ => rfl, fun _ => rfl⟩

/-- The field of GET_RUNTIME_CONFIG. -/
def GetRuntimeCfgReq.layout : Layout GetRuntimeCfgReq :=
  Layout.u32.iso ⟨fun v => ⟨v⟩, fun r => r.type, fun _ => rfl, fun _ => rfl⟩

/-- The fields of ASSIGN_MGMT_PASID. -/
def AssignPasidReq.layout : Layout AssignPasidReq :=
  (Layout.u16.pair .u16).iso
    ⟨fun p => ⟨p.1, p.2⟩, fun r => (r.pasid, r.reserved), fun _ => rfl, fun _ => rfl⟩

/-- The fields of CREATE_CONTEXT. -/
def CreateCtxReq.layout : Layout CreateCtxReq :=
  (Layout.u32.pair (.pair .u8 (.pair .u8 (.pair .u8 (.pair .u8 (.pair .u8 (.pair .u8
    (.pair .u16 (.pair .u64 (.pair .u32 .u32)))))))))).iso
    ⟨fun (a, b, c, d, e, f, g, h, i, j, k) => ⟨a, b, c, d, e, f, g, h, i, j, k⟩,
      fun r => (r.aieType, r.startCol, r.numCol, r.numUnusedCol, r.reserved,
        r.numCqPairsRequested, r.reserved1, r.pasid, r.pad, r.secCommTargetType,
        r.contextPriority), fun _ => rfl, fun _ => rfl⟩

/-- The field of DESTROY_CONTEXT. -/
def DestroyCtxReq.layout : Layout DestroyCtxReq :=
  Layout.u32.iso ⟨fun v => ⟨v⟩, fun r => r.contextId, fun _ => rfl, fun _ => rfl⟩

/-- The fields of MAP_HOST_BUFFER and ADD_HOST_BUFFER. -/
def MapHostBufferReq.layout : Layout MapHostBufferReq :=
  (Layout.u32.pair (.pair .u64 .u64)).iso
    ⟨fun (a, b, c) => ⟨a, b, c⟩, fun r => (r.contextId, r.bufAddr, r.bufSize),
      fun _ => rfl, fun _ => rfl⟩

/-- The fields of QUERY_COL_STATUS. -/
def ColumnInfoReq.layout : Layout ColumnInfoReq :=
  (Layout.u64.pair (.pair .u32 (.pair .u32 .u32))).iso
    ⟨fun (a, b, c, d) => ⟨a, b, c, d⟩,
      fun r => (r.dumpBuffAddr, r.dumpBuffSize, r.numCols, r.aieBitmap),
      fun _ => rfl, fun _ => rfl⟩

section Requests

/-! The firmware reads the fields that the driver has written. -/

/-- The firmware reads what the driver has written. -/
@[simp] theorem SetRuntimeCfgReq.decode_encode (req : SetRuntimeCfgReq) :
    decode (Memory.ofBytes (layout.encode req)) = req := layout.decode_ofBytes req

/-- The firmware reads what the driver has written. -/
@[simp] theorem GetRuntimeCfgReq.decode_encode (req : GetRuntimeCfgReq) :
    decode (Memory.ofBytes (layout.encode req)) = req := layout.decode_ofBytes req

/-- The firmware reads what the driver has written. -/
@[simp] theorem AssignPasidReq.decode_encode (req : AssignPasidReq) :
    decode (Memory.ofBytes (layout.encode req)) = req := layout.decode_ofBytes req

/-- The firmware reads what the driver has written. -/
@[simp] theorem CreateCtxReq.decode_encode (req : CreateCtxReq) :
    decode (Memory.ofBytes (layout.encode req)) = req := layout.decode_ofBytes req

/-- The firmware reads what the driver has written. -/
@[simp] theorem DestroyCtxReq.decode_encode (req : DestroyCtxReq) :
    decode (Memory.ofBytes (layout.encode req)) = req := layout.decode_ofBytes req

/-- The firmware reads what the driver has written. -/
@[simp] theorem MapHostBufferReq.decode_encode (req : MapHostBufferReq) :
    decode (Memory.ofBytes (layout.encode req)) = req := layout.decode_ofBytes req

/-- The firmware reads what the driver has written. -/
@[simp] theorem ColumnInfoReq.decode_encode (req : ColumnInfoReq) :
    decode (Memory.ofBytes (layout.encode req)) = req := layout.decode_ofBytes req

end Requests

/-! ## Replies -/

/-- A reply: the status word and the other fields. -/
structure Resp (β : Type) where
  status : UInt32
  body : β

/-- A reply that begins with the status. -/
def Resp.statusFirst {β : Type} (l : Layout β) : Layout (Resp β) :=
  (Layout.u32.pair l).iso
    ⟨fun p => ⟨p.1, p.2⟩, fun r => (r.status, r.body), fun _ => rfl, fun _ => rfl⟩

/-- A reply that ends with the status. -/
def Resp.statusLast {β : Type} (l : Layout β) : Layout (Resp β) :=
  (l.pair .u32).iso
    ⟨fun p => ⟨p.2, p.1⟩, fun r => (r.body, r.status), fun _ => rfl, fun _ => rfl⟩

/-- The fields of `FwVerResp` behind the status. -/
structure FwVersion where
  major : UInt32
  minor : UInt32
  sub : UInt32
  build : UInt32

/-- The fields behind the status of GET_FIRMWARE_VERSION. -/
def FwVersion.layout : Layout FwVersion :=
  (Layout.u32.pair (.pair .u32 (.pair .u32 .u32))).iso
    ⟨fun (a, b, c, d) => ⟨a, b, c, d⟩, fun v => (v.major, v.minor, v.sub, v.build),
      fun _ => rfl, fun _ => rfl⟩

/-- The fields behind the status of QUERY_AIE_TILE_INFO. -/
def AieTileInfo.layout : Layout AieTileInfo :=
  (Layout.u32.pair (.pair .u16 (.pair .u16 (.pair .u16 (.pair .u16 (.pair .u16 (.pair .u16
    (.pair .u16 (.pair .u16 (.pair .u16 (.pair .u16 (.pair .u16 (.pair .u16 (.pair .u16
    (.pair .u16 (.pair .u16 (.pair .u16 (.pair .u16 (.pair .u16 (.pair .u16
      .u16)))))))))))))))))))).iso
    ⟨fun (a, b, c, d, e, f, g, h, i, j, k, l, m, n, o, p, q, r, s, t, u) =>
        ⟨a, b, c, d, e, f, g, h, i, j, k, l, m, n, o, p, q, r, s, t, u⟩,
      fun i => (i.size, i.major, i.minor, i.cols, i.rows, i.coreRows, i.memRows, i.shimRows,
        i.coreRowStart, i.memRowStart, i.shimRowStart, i.coreDmaChannels, i.memDmaChannels,
        i.shimDmaChannels, i.coreLocks, i.memLocks, i.shimLocks, i.coreEvents, i.memEvents,
        i.shimEvents, i.reserved),
      fun _ => rfl, fun _ => rfl⟩

/-- The fields of one ring. -/
def CqInfo.layout : Layout CqInfo :=
  (Layout.u32.pair (.pair .u32 (.pair .u32 .u32))).iso
    ⟨fun (a, b, c, d) => ⟨a, b, c, d⟩, fun q => (q.headAddr, q.tailAddr, q.bufAddr, q.bufSize),
      fun _ => rfl, fun _ => rfl⟩

/-- The fields of the two rings of a channel. -/
def CqPair.layout : Layout CqPair :=
  (CqInfo.layout.pair CqInfo.layout).iso
    ⟨fun p => ⟨p.1, p.2⟩, fun q => (q.x2iQ, q.i2xQ), fun _ => rfl, fun _ => rfl⟩

/-- The fields of `CreateCtxResp` behind the status. -/
structure NewCtx where
  contextId : UInt32
  msixId : UInt16
  numCqPairsAllocated : UInt8
  reserved : UInt8
  cqPair0 : CqPair
  cqPair1 : CqPair

/-- The fields behind the status of CREATE_CONTEXT. -/
def NewCtx.layout : Layout NewCtx :=
  (Layout.u32.pair (.pair .u16 (.pair .u8 (.pair .u8
    (.pair CqPair.layout CqPair.layout))))).iso
    ⟨fun (a, b, c, d, e, f) => ⟨a, b, c, d, e, f⟩,
      fun r => (r.contextId, r.msixId, r.numCqPairsAllocated, r.reserved, r.cqPair0, r.cqPair1),
      fun _ => rfl, fun _ => rfl⟩

/-- The fields of the telemetry reply before the status. -/
structure Telemetry where
  major : UInt32
  minor : UInt32
  size : UInt32

/-- The fields in front of the status of GET_TELEMETRY. -/
def Telemetry.layout : Layout Telemetry :=
  (Layout.u32.pair (.pair .u32 .u32)).iso
    ⟨fun (a, b, c) => ⟨a, b, c⟩, fun t => (t.major, t.minor, t.size),
      fun _ => rfl, fun _ => rfl⟩

/-! ## Calls -/

/-- A message with its request. Messages that need no request carry a word of zeros. -/
inductive Call where
  | getProtocolVersion
  | getFirmwareVersion
  | queryAieVersion
  | queryAieTileInfo
  | setRuntimeConfig (req : SetRuntimeCfgReq)
  | getRuntimeConfig (req : GetRuntimeCfgReq)
  | assignMgmtPasid (req : AssignPasidReq)
  | suspend
  | resume
  | invokeSelfTest
  | createContext (req : CreateCtxReq)
  | destroyContext (req : DestroyCtxReq)
  | mapHostBuffer (req : MapHostBufferReq)
  | addHostBuffer (req : MapHostBufferReq)
  | queryColStatus (req : ColumnInfoReq)
  | getTelemetry
  | executeBufferCf (req : { bs : List UInt8 // bs.length = 80 })

namespace Call

/-- The opcode under which the driver sends the call. -/
def opcode : Call → MsgOpcode
  | getProtocolVersion => .getProtocolVersion
  | getFirmwareVersion => .getFirmwareVersion
  | queryAieVersion => .queryAieVersion
  | queryAieTileInfo => .queryAieTileInfo
  | setRuntimeConfig _ => .setRuntimeConfig
  | getRuntimeConfig _ => .getRuntimeConfig
  | assignMgmtPasid _ => .assignMgmtPasid
  | suspend => .suspend
  | resume => .resume
  | invokeSelfTest => .invokeSelfTest
  | createContext _ => .createContext
  | destroyContext _ => .destroyContext
  | mapHostBuffer _ => .mapHostBuffer
  | addHostBuffer _ => .addHostBuffer
  | queryColStatus _ => .queryColStatus
  | getTelemetry => .getTelemetry
  | executeBufferCf _ => .executeBufferCf

/-- The bytes of the request. -/
def encode : Call → List UInt8
  | setRuntimeConfig req => SetRuntimeCfgReq.layout.encode req
  | getRuntimeConfig req => GetRuntimeCfgReq.layout.encode req
  | assignMgmtPasid req => AssignPasidReq.layout.encode req
  | createContext req => CreateCtxReq.layout.encode req
  | destroyContext req => DestroyCtxReq.layout.encode req
  | mapHostBuffer req | addHostBuffer req => MapHostBufferReq.layout.encode req
  | queryColStatus req => ColumnInfoReq.layout.encode req
  | executeBufferCf req => (Layout.bytes 80).encode req
  | getProtocolVersion | getFirmwareVersion | queryAieVersion | queryAieTileInfo | suspend | resume
  | invokeSelfTest | getTelemetry => Layout.u32.encode 0

/-- The fields of the reply, apart from the status. -/
abbrev Body : Call → Type
  | getProtocolVersion => UInt32 × UInt32
  | getFirmwareVersion => FwVersion
  | queryAieVersion => UInt16 × UInt16
  | queryAieTileInfo => AieTileInfo
  | getRuntimeConfig _ => UInt64
  | createContext _ => NewCtx
  | queryColStatus _ => UInt32
  | getTelemetry => Telemetry
  | setRuntimeConfig _ | assignMgmtPasid _ | suspend | resume | invokeSelfTest | destroyContext _
  | mapHostBuffer _ | addHostBuffer _ | executeBufferCf _ => Unit

/-- The layout of the reply. -/
def reply : (c : Call) → Layout (Resp c.Body)
  | getProtocolVersion => Resp.statusFirst (.pair .u32 .u32)
  | getFirmwareVersion => Resp.statusFirst FwVersion.layout
  | queryAieVersion => Resp.statusFirst (.pair .u16 .u16)
  | queryAieTileInfo => Resp.statusFirst AieTileInfo.layout
  | getRuntimeConfig _ => Resp.statusFirst .u64
  | createContext _ => Resp.statusFirst NewCtx.layout
  | queryColStatus _ => Resp.statusFirst .u32
  | getTelemetry => Resp.statusLast Telemetry.layout
  | setRuntimeConfig _ | assignMgmtPasid _ | suspend | resume | invokeSelfTest | destroyContext _
  | mapHostBuffer _ | addHostBuffer _ | executeBufferCf _ => Resp.statusFirst .unit

/-- Every request is a whole number of words, and fits every empty ring. -/
theorem encode_length (c : Call) :
    c.encode.length % 4 = 0 ∧ 4 ≤ c.encode.length ∧ c.encode.length ≤ 80 := by
  cases c <;> simp only [encode, Layout.length_encode] <;> decide

/-- The driver expects the size that the firmware has for the opcode. -/
theorem reply_size (c : Call) : c.reply.size = (respSizeFor c.opcode.code).1 := by
  cases c <;> rfl

end Call

/-! ## Replies of the firmware -/

/-- The firmware writes its answer as the driver reads it. -/
theorem ProtocolVersionResp.encode_eq (r : ProtocolVersionResp) : r.encode =
    Call.getProtocolVersion.reply.encode ⟨r.status.code, (r.major, r.minor)⟩ :=
  List.append_assoc ..

/-- The firmware writes its answer as the driver reads it. -/
theorem FirmwareVersionResp.encode_eq (r : FirmwareVersionResp) : r.encode =
    Call.getFirmwareVersion.reply.encode ⟨r.status.code, ⟨r.major, r.minor, r.sub, r.build⟩⟩ := by
  simp [encode, Call.reply, Resp.statusFirst, FwVersion.layout]

/-- The firmware writes its answer as the driver reads it. -/
theorem AieVersionResp.encode_eq (r : AieVersionResp) : r.encode =
    Call.queryAieVersion.reply.encode ⟨r.status.code, (r.major, r.minor)⟩ :=
  List.append_assoc ..

private theorem AieTileInfo.encode_eq (i : AieTileInfo) : i.encode = layout.encode i := by
  -- The equation lemma of a definition with so many fields is slow to derive.
  delta encode
  rw [layout, Layout.iso_encode, Equiv.coe_fn_symm_mk]
  simp only [Layout.pair_encode, Layout.u16_encode, Layout.u32_encode, List.append_assoc]

/-- The firmware writes its answer as the driver reads it. -/
theorem AieTileInfoResp.encode_eq (r : AieTileInfoResp) : r.encode =
    Call.queryAieTileInfo.reply.encode ⟨r.status.code, r.info⟩ := by
  rw [encode, r.info.encode_eq]
  rfl

/-- The firmware writes its answer as the driver reads it. -/
theorem GetRuntimeCfgResp.encode_eq (req : GetRuntimeCfgReq) (r : GetRuntimeCfgResp) :
    r.encode = (Call.getRuntimeConfig req).reply.encode ⟨r.status.code, r.value⟩ := rfl

/-- The firmware writes its answer as the driver reads it. -/
theorem CreateCtxResp.encode_eq (req : CreateCtxReq) (r : CreateCtxResp) : r.encode =
    (Call.createContext req).reply.encode ⟨r.status.code, ⟨r.contextId, r.msixId,
      r.numCqPairsAllocated, r.reserved, r.cqPair0, r.cqPair1⟩⟩ := by
  simp [encode, CqPair.encode, CqInfo.encode, Call.reply, Resp.statusFirst, NewCtx.layout,
    CqPair.layout, CqInfo.layout]

/-- The firmware writes its answer as the driver reads it. -/
theorem ColumnInfoResp.encode_eq (req : ColumnInfoReq) (r : ColumnInfoResp) :
    r.encode = (Call.queryColStatus req).reply.encode ⟨r.status.code, r.size⟩ := rfl

/-- The firmware writes its answer as the driver reads it. -/
theorem TelemetryResp.encode_eq (r : TelemetryResp) : r.encode =
    Call.getTelemetry.reply.encode ⟨r.status.code, ⟨r.major, r.minor, r.size⟩⟩ := by
  simp [encode, Call.reply, Resp.statusLast, Telemetry.layout]

/-- `mert_reply_status` sends zeros behind the status. -/
theorem statusReply_eq {opcode : UInt32} {β : Type} (l : Layout β)
    (h : respSizeFor opcode = (4 + l.size, 0)) (status : MsgStatus) :
    statusReply opcode status = (Resp.statusFirst l).encode ⟨status.code, l.zero⟩ := by
  have hzero : Memory.read (fun _ => 0) 4 l.size = List.replicate l.size 0 := by
    simp [Memory.read]
  have hself := Memory.read_write_self (fun _ => 0) 0 (le32 status.code)
  rw [le32_length] at hself
  rw [statusReply, h, Memory.read_add, hself, Nat.zero_add,
    Memory.read_write_disjoint (.inr (by rw [le32_length])), hzero, ← l.encode_zero]
  rfl

end Xdna
