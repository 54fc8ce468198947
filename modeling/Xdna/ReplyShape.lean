import Xdna.Device.Mmio
import Xdna.MertSemantics
import Xdna.SendSemantics

/-!
# The shape of a reply

The driver rejects a reply whose size is not that of the response struct of the
opcode, whatever its status. On success the size comes from the struct that is
sent, on an error from the table `respSizeFor`; both are compared here with the
table of the hardware notes. A telemetry reply is the only one that does not begin
with its status.
-/

namespace Xdna

open ByteMemory

/-! ## The documented table -/

/-- The response sizes listed in `docs/01-donanim-arayuzu.md`. -/
def documentedSizes : List (UInt32 × ℕ) :=
  [(0x301, 12), (0x108, 20), (0x0F, 8), (0x0E, 48), (0x0D, 8), (0x10B, 12), (0x04, 16), (0x02, 76),
    (0x10C, 8), (0x114, 36), (0x117, 12), (0x12, 12), (0x13, 12), (0x18, 12)]

/-- The size the driver expects; an opcode that is not listed is answered with a status only. -/
def driverRespSize (opcode : UInt32) : ℕ := (documentedSizes.lookup opcode).getD 4

/-- Where the driver looks for the status: `GET_TELEMETRY` has it at the end. -/
def driverStatusOffset (opcode : UInt32) : ℕ := if opcode = 0x04 then 12 else 0

private theorem documentedSizes_ofCode? : ∀ p ∈ documentedSizes, MsgOpcode.ofCode? p.1 ≠ none := by
  decide

/-- The table in the source is the documented one. -/
theorem respSizeFor_eq (opcode : UInt32) :
    respSizeFor opcode = (driverRespSize opcode, driverStatusOffset opcode) := by
  cases hop : MsgOpcode.ofCode? opcode with
  | some o =>
    rw [← MsgOpcode.ofCode?_eq_some.mp hop]
    cases o <;> decide
  | none =>
    have hlook : documentedSizes.lookup opcode = none := by
      rw [List.lookup_eq_none_iff]
      intro p hp
      simp only [bne_iff_ne, ne_eq]
      rintro rfl
      exact documentedSizes_ofCode? p hp hop
    have hne : opcode ≠ 0x04 := by
      rintro rfl
      exact absurd hop (by decide)
    simp [respSizeFor, hop, driverRespSize, hlook, driverStatusOffset, hne]

/-! ## Answers -/

/-- An answer to `opcode` has the size of its struct and carries the status where that
struct has it. -/
def Answer.WellShaped (opcode : UInt32) (a : Answer) : Prop :=
  a.2.length = (respSizeFor opcode).1 ∧
    (a.2.drop (respSizeFor opcode).2).take 4 = le32 a.1.code

instance (opcode : UInt32) (a : Answer) : Decidable (Answer.WellShaped opcode a) :=
  inferInstanceAs (Decidable (_ ∧ _))

private theorem respSizeFor_status (opcode : UInt32) :
    (respSizeFor opcode).2 + 4 ≤ (respSizeFor opcode).1 := by
  unfold respSizeFor
  split <;> decide

/-- The replies to errors, and those that are a status and nothing else. -/
theorem statusAnswer_wellShaped (hdr : MsgHeader) (status : MsgStatus) :
    Answer.WellShaped hdr.opcode (statusAnswer hdr status) := by
  refine ⟨Memory.read_length .., ?_⟩
  rw [statusAnswer, statusReply, Memory.take_drop_read _ _ (respSizeFor_status _), Nat.zero_add]
  exact Memory.read_write_self _ _ (le32 status.code)

/-- A struct that begins with its status. -/
theorem take_status (v : UInt32) (rest : List UInt8) : (le32 v ++ rest).take 4 = le32 v :=
  List.take_left' (le32_length v)

/-- The reply to a creation has the size and the status that the driver expects. -/
theorem createReply_wellShaped (npu : Npu) (s : SlotIdx) :
    Answer.WellShaped MsgOpcode.createContext.code
      (.success, (createReply npu s).encode) := by
  refine ⟨?_, ?_⟩
  · simp only [CreateCtxResp.encode, CqPair.encode, CqInfo.encode, List.length_append, le32_length,
      le16_length, List.length_cons, List.length_nil]
    decide
  · simp only [CreateCtxResp.encode, List.append_assoc]
    exact take_status ..

private theorem runtimeConfigResp_wellShaped (npu : Npu) (req : GetRuntimeCfgReq) :
    Answer.WellShaped MsgOpcode.getRuntimeConfig.code
      ((runtimeConfigResp npu req).status, (runtimeConfigResp npu req).encode) := by
  refine ⟨?_, take_status ..⟩
  simp only [GetRuntimeCfgResp.encode, List.length_append, le32_length, le64_length]
  decide

private theorem columnInfoResp_wellShaped (r : ColumnInfoResp) :
    Answer.WellShaped MsgOpcode.queryColStatus.code (r.status, r.encode) := by
  refine ⟨?_, take_status ..⟩
  simp only [ColumnInfoResp.encode, List.length_append, le32_length]
  decide

/-- Whatever branch a message takes, its answer has the shape of its opcode. -/
theorem mertStep_wellShaped {npu : Npu} {hdr : MsgHeader} {payload : Memory} {a : Answer}
    (h : (mertStep npu hdr payload (MsgOpcode.ofCode? hdr.opcode)).2 = some a) :
    Answer.WellShaped hdr.opcode a := by
  have hstatus := statusAnswer_wellShaped hdr
  cases hop : MsgOpcode.ofCode? hdr.opcode with
  | none =>
    rw [hop] at h
    cases h
    exact hstatus _
  | some o =>
    have hcode := MsgOpcode.ofCode?_eq_some.mp hop
    rw [hop] at h
    cases o <;> simp only [mertStep] at h
    case getProtocolVersion => cases h; rw [← hcode]; decide
    case getFirmwareVersion => cases h; rw [← hcode]; decide
    case queryAieVersion => cases h; rw [← hcode]; decide
    case queryAieTileInfo => cases h; rw [← hcode]; decide
    case getTelemetry => cases h; rw [← hcode]; decide
    case setRuntimeConfig =>
      unfold setRuntimeConfigStep at h
      split at h
      · cases h; exact hstatus _
      · split at h <;> cases h <;> exact hstatus _
    case getRuntimeConfig =>
      unfold getRuntimeConfigStep at h
      split at h <;> cases h
      · exact hstatus _
      · rw [← hcode]
        exact runtimeConfigResp_wellShaped ..
    case assignMgmtPasid =>
      unfold assignPasidStep at h
      split at h <;> cases h <;> exact hstatus _
    case createContext =>
      unfold createStep at h
      split at h
      · cases h; exact hstatus _
      · split at h
        · cases h; exact hstatus _
        · split at h <;> cases h
          · exact hstatus _
          · rw [← hcode]
            exact createReply_wellShaped ..
    case destroyContext =>
      unfold destroyStep at h
      split at h
      · cases h; exact hstatus _
      · split at h <;> cases h <;> exact hstatus _
    case mapHostBuffer =>
      unfold heapStep at h
      split at h
      · cases h; exact hstatus _
      · split at h <;> cases h <;> exact hstatus _
    case addHostBuffer =>
      unfold heapStep at h
      split at h
      · cases h; exact hstatus _
      · split at h <;> cases h <;> exact hstatus _
    case registerAsyncEventMsg =>
      unfold asyncStep at h
      split at h <;> cases h
      exact hstatus _
    all_goals cases h; exact hstatus _

/-- Every answer has the size that belongs to its opcode, with the status in its place. -/
theorem mertOutcome_wellShaped {host : Host} {m : Machine} {hdr : MsgHeader} {payload : Memory}
    {a : Answer} (h : (mertOutcome host m hdr payload).2 = some a) :
    Answer.WellShaped hdr.opcode a := by
  unfold mertOutcome at h
  split at h
  · rename_i hop
    split at h
    · rw [← Option.some.inj h]
      exact statusAnswer_wellShaped ..
    · dsimp only at h
      rw [← Option.some.inj h, ← MsgOpcode.ofCode?_eq_some.mp hop]
      exact columnInfoResp_wellShaped _
  · exact mertStep_wellShaped h

/-- The messages that are answered later: accepted registrations of the event buffer. -/
def MsgHeader.AnsweredLater (hdr : MsgHeader) : Prop :=
  hdr.opcode = MsgOpcode.registerAsyncEventMsg.code ∧ AsyncEventReq.size ≤ hdr.totalSize

instance (hdr : MsgHeader) : Decidable hdr.AnsweredLater := inferInstanceAs (Decidable (_ ∧ _))

/-- Exactly these messages have no answer. -/
theorem mertOutcome_eq_none (host : Host) (m : Machine) (hdr : MsgHeader) (payload : Memory) :
    (mertOutcome host m hdr payload).2 = none ↔ hdr.AnsweredLater := by
  unfold mertOutcome MsgHeader.AnsweredLater
  cases hop : MsgOpcode.ofCode? hdr.opcode with
  | none =>
    have hne : hdr.opcode ≠ MsgOpcode.registerAsyncEventMsg.code := by
      intro heq
      rw [MsgOpcode.ofCode?_eq_some.mpr heq.symm] at hop
      cases hop
    simp [npuOutcome, mertStep, hne]
  | some o =>
    have hcode := MsgOpcode.ofCode?_eq_some.mp hop
    rw [← hcode]
    cases o
    case registerAsyncEventMsg =>
      simp only [reduceCtorEq, Option.some.injEq, if_false, npuOutcome, mertStep, asyncStep,
        true_and]
      rw [← UInt32.not_lt]
      split <;> simp [*]
    case queryColStatus =>
      simp only [if_true]
      split <;> simp [MsgOpcode.code]
    all_goals
      simp only [Option.some.injEq, reduceCtorEq, if_false, npuOutcome, mertStep,
        setRuntimeConfigStep, getRuntimeConfigStep, assignPasidStep, createStep, destroyStep,
        heapStep]
      refine iff_of_false ?_ (by simp [MsgOpcode.code])
      repeat' split
      all_goals simp

/-! ## Frames -/

/-- The channel and the frame of a call of `xdna_mbox_send`. -/
def Event.reply? : Event → Option (ChanIdx × Frame)
  | .send c id opcode payload _ => some (c, replyFrame id opcode payload)
  | _ => none

/-- The replies the firmware has issued. -/
def replies (tr : List Event) : List (ChanIdx × Frame) := tr.filterMap Event.reply?

/-- A call of `xdna_mbox_send` is one reply. -/
theorem replies_mboxSend (host : Host) (m : Machine) (c : ChanIdx) (id opcode : UInt32)
    (payload : List UInt8) :
    replies (mboxSend host m c id opcode payload).1.trace =
      replies m.trace ++ [(c, replyFrame id opcode payload)] := by
  obtain ⟨m₁, hext, htrace⟩ := mboxSend_trace host m c id opcode payload
  have hm₁ : replies m₁.trace = replies m.trace := by
    refine hext.filterMap_eq fun e he => ?_
    cases he <;> rfl
  rw [htrace, replies, List.filterMap_append, ← replies, hm₁]
  rfl

/-- What the driver checks of a reply `f` with status `status` to the request `hdr`. -/
structure HasReplyShape (hdr : MsgHeader) (status : MsgStatus) (f : Frame) : Prop where
  id : f.hdr.id = hdr.id
  opcode : f.hdr.opcode = hdr.opcode
  totalSize : f.hdr.totalSize.toNat = driverRespSize hdr.opcode
  size : f.payload.length = driverRespSize hdr.opcode
  szVerSize : (f.hdr.szVer &&& 0x7FF).toNat = driverRespSize hdr.opcode
  szVerProto : (f.hdr.szVer >>> 16) &&& 0xFF = 1
  status : (f.payload.drop (driverStatusOffset hdr.opcode)).take 4 = le32 status.code

/-- The version word of a frame that is no longer than the reply buffer. -/
theorem replyHeader_szVer : ∀ n ≤ 128,
    ((replyHeader 0 0 (UInt32.ofNat n)).szVer &&& 0x7FF).toNat = n ∧
      ((replyHeader 0 0 (UInt32.ofNat n)).szVer >>> 16) &&& 0xFF = 1 := by
  decide +kernel

private theorem Answer.WellShaped.hasReplyShape {hdr : MsgHeader} {a : Answer}
    (h : Answer.WellShaped hdr.opcode a) :
    HasReplyShape hdr a.1 (replyFrame hdr.id hdr.opcode a.2) := by
  obtain ⟨hlen, hstatus⟩ := h
  have hle := respSizeFor_le hdr.opcode
  rw [respSizeFor_eq] at hlen hstatus hle
  obtain ⟨hsize, hproto⟩ := replyHeader_szVer a.2.length (by omega)
  exact {
    id := rfl
    opcode := rfl
    totalSize := by
      rw [replyFrame, replyHeader, UInt32.toNat_ofNat_of_lt' (by unfold UInt32.size; omega)]
      exact hlen
    size := hlen
    szVerSize := hsize.trans hlen
    szVerProto := hproto
    status := hstatus }

/-- Every message has exactly one reply of the size and layout the driver expects, or none if
it registers the event buffer. The reply is what the send puts into the SRAM. -/
theorem mertHandle_reply_shape (host : Host) {m : Machine} (c : ChanIdx) (hdr : MsgHeader)
    (payload : Memory) (halive : m.npu.fwAlive = true) :
    (replies (mertHandle host m c hdr payload).trace = replies m.trace ↔
      hdr.opcode = 0x10C ∧ 12 ≤ hdr.totalSize) ∧
    (¬ (hdr.opcode = 0x10C ∧ 12 ≤ hdr.totalSize) → ∃ m₁ status f,
      mertOutcome host m hdr payload = (m₁, some (status, f.payload)) ∧
      mertHandle host m c hdr payload = (mboxSend host m₁ c hdr.id hdr.opcode f.payload).1 ∧
      replies (mertHandle host m c hdr payload).trace = replies m.trace ++ [(c, f)] ∧
      HasReplyShape hdr status f ∧
      ∀ off, off = (m₁.npu.chan c).i2xBuf.toNat +
          ((m₁.npu.chan c).sendStart (pkgSize f.payload)).toNat →
        off + (16 + f.payload.length) ≤ barSramSize →
        (mboxSend host m₁ c hdr.id hdr.opcode f.payload).2 = true →
        (mertHandle host m c hdr payload).npu.sram.read off (16 + f.payload.length) =
          f.encode) := by
  have hlater := mertOutcome_eq_none host m hdr payload
  have hreplies : replies (mertOutcome host m hdr payload).1.trace = replies m.trace := by
    refine (mertOutcome_trace host m hdr payload).2.filterMap_eq fun e he => ?_
    cases e <;> first | rfl | exact he.elim
  rw [mertHandle_eq c hdr payload halive]
  cases hout : mertOutcome host m hdr payload with
  | mk m₁ answer =>
    rw [hout] at hlater hreplies
    cases answer with
    | none => exact ⟨iff_of_true hreplies (hlater.mp rfl), fun hnot => absurd (hlater.mp rfl) hnot⟩
    | some a =>
      have hnot : ¬ hdr.AnsweredLater := fun h => by cases hlater.mpr h
      have hsend := replies_mboxSend host m₁ c hdr.id hdr.opcode a.2
      rw [hreplies] at hsend
      refine ⟨iff_of_false ?_ hnot, fun _ => ⟨m₁, a.1, replyFrame hdr.id hdr.opcode a.2, rfl, rfl,
        hsend, (mertOutcome_wellShaped (by rw [hout])).hasReplyShape, ?_⟩⟩
      · intro heq
        have hlen := congrArg List.length (hsend.symm.trans heq)
        simp at hlen
      · rintro off rfl hin hsent
        exact mboxSend_stored host hdr.id hdr.opcode hsent hin

/-- The shape at a `DESTROY_CONTEXT` that is too short: a status, and nothing else. -/
theorem mertHandle_reply_shape_destroy :
    let hdr : MsgHeader := ⟨0, 0, 7, 0x3⟩
    let m : Machine := ⟨{ zeroNpu with fwAlive := true }, 0, 0, []⟩
    ∃ status f,
      replies (mertHandle .accepting m 0 hdr fun _ => 0).trace = [(0, f)] ∧
      HasReplyShape hdr status f := by
  obtain ⟨_, status, f, _, _, hreplies, hshape, _⟩ :=
    (mertHandle_reply_shape .accepting (m := ⟨{ zeroNpu with fwAlive := true }, 0, 0, []⟩) 0
      ⟨0, 0, 7, 0x3⟩ (fun _ => 0) rfl).2 (by decide)
  exact ⟨status, f, hreplies, hshape⟩

end Xdna
