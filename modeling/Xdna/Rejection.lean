import Xdna.ReplyShape
import Xdna.ReplyRing

/-!
# Rejected requests

A request that is answered with an error has done nothing but send its reply. All checks of a
handler stand before its first change of the state, and the column dump, which may fail half
way, changes no state at all.
-/

namespace Xdna

open ByteMemory

/-! ## Nothing happens before the answer -/

private theorem mertStep_rejected {npu : Npu} {hdr : MsgHeader} {payload : Memory}
    {op : Option MsgOpcode} {a : Answer} (h : (mertStep npu hdr payload op).2 = some a)
    (hne : a.1 ≠ .success) : (mertStep npu hdr payload op).1 = npu := by
  have hdone {status : MsgStatus} {bytes : List UInt8}
      (heq : some (status, bytes) = some a) (hok : status = .success) : False := by
    apply hne
    rw [← Option.some.inj heq, hok]
  cases op with
  | none => rfl
  | some o =>
    cases o <;> simp only [mertStep] at h ⊢
    case setRuntimeConfig =>
      unfold setRuntimeConfigStep at h ⊢
      split at h
      · rw [if_pos ‹_›]
      · rw [if_neg ‹_›]
        split at h
        · exact (hdone h rfl).elim
        · rw [dif_neg ‹_›]
    case getRuntimeConfig =>
      unfold getRuntimeConfigStep
      split <;> rfl
    case assignMgmtPasid =>
      unfold assignPasidStep at h ⊢
      split at h
      · rw [if_pos ‹_›]
      · exact (hdone h rfl).elim
    case suspend => exact (hdone h rfl).elim
    case resume => exact (hdone h rfl).elim
    case createContext =>
      unfold createStep at h ⊢
      split at h
      · rw [if_pos ‹_›]
      · rw [if_neg ‹_›]
        cases hfree : freeSlot npu with
        | none => rfl
        | some s =>
          rw [hfree] at h
          dsimp only at h ⊢
          split at h
          · rw [if_pos ‹_›]
          · exact (hdone h rfl).elim
    case destroyContext =>
      unfold destroyStep at h ⊢
      split at h
      · rw [if_pos ‹_›]
      · rw [if_neg ‹_›]
        cases hid : ctxById npu (DestroyCtxReq.decode payload).contextId with
        | none => rfl
        | some s =>
          rw [hid] at h
          exact (hdone h rfl).elim
    case mapHostBuffer =>
      unfold heapStep at h ⊢
      split at h
      · rw [if_pos ‹_›]
      · rw [if_neg ‹_›]
        cases hid : ctxById npu (MapHostBufferReq.decode payload).contextId with
        | none => rfl
        | some s =>
          rw [hid] at h
          exact (hdone h rfl).elim
    case addHostBuffer =>
      unfold heapStep at h ⊢
      split at h
      · rw [if_pos ‹_›]
      · rw [if_neg ‹_›]
        cases hid : ctxById npu (MapHostBufferReq.decode payload).contextId with
        | none => rfl
        | some s =>
          rw [hid] at h
          exact (hdone h rfl).elim
    case registerAsyncEventMsg =>
      unfold asyncStep at h ⊢
      split at h
      · rw [if_pos ‹_›]
      · cases h

private theorem mertOutcome_rejected {host : Host} {m : Machine} {hdr : MsgHeader}
    {payload : Memory} {a : Answer} (h : (mertOutcome host m hdr payload).2 = some a)
    (hne : a.1 ≠ .success) :
    (mertOutcome host m hdr payload).1.npu = m.npu := by
  unfold mertOutcome at h ⊢
  split at h
  · rw [if_pos ‹_›]
    split
    · rfl
    · dsimp only
      rw [(queryColStatus_frame host m (ColumnInfoReq.decode payload)).1]
  · rw [if_neg ‹_›]
    dsimp only [npuOutcome] at h ⊢
    exact mertStep_rejected h hne

/-- The opcodes for which the emulator has a handler that can succeed. -/
def implementedOpcodes : List UInt32 :=
  [0x301, 0x108, 0xF, 0xE, 0x10A, 0x10B, 0x103, 0x101, 0x102, 0x104, 0x2, 0x3, 0x106, 0x115, 0x10C,
    0xD, 0x4]

private theorem mertOutcome_unimplemented (host : Host) (m : Machine) {hdr : MsgHeader}
    (payload : Memory) (hop : hdr.opcode ∉ implementedOpcodes) :
    ∃ status : MsgStatus, status ≠ .success ∧
      mertOutcome host m hdr payload = (m, some (statusAnswer hdr status)) := by
  have hfound {o : MsgOpcode} (hof : MsgOpcode.ofCode? hdr.opcode = some o)
      (hmem : o.code ∈ implementedOpcodes) : False := by
    apply hop
    rw [← MsgOpcode.ofCode?_eq_some.mp hof]
    exact hmem
  unfold mertOutcome
  cases hof : MsgOpcode.ofCode? hdr.opcode with
  | none => exact ⟨.invalidCommand, by decide, rfl⟩
  | some o =>
    cases o
    case configCu | executeBufferCf | execDpu | chainExecBufferCf | chainExecDpu | chainExecNpu |
        syncBo | configDebugBo => exact ⟨.invalidOperation, by decide, rfl⟩
    case updateProperty | getAppHealth | getDevRevision =>
      exact ⟨.invalidCommand, by decide, rfl⟩
    all_goals exact (hfound hof (by decide)).elim

/-! ## What the reply writes -/

/-- Offset `a` of the SRAM is neither in the frame that carries `payload` nor in the tombstone in
front of it, if there is one. -/
structure OutsideReply (ch : Channel) (payload : List UInt8) (a : ℕ) : Prop where
  frame : a < ch.i2xBuf.toNat + (ch.sendStart (pkgSize payload)).toNat ∨
    ch.i2xBuf.toNat + (ch.sendStart (pkgSize payload)).toNat + (16 + payload.length) ≤ a
  mark : ch.sendWraps (pkgSize payload) = true →
    a < (ch.i2xBuf + ch.i2xTail).toNat ∨ (ch.i2xBuf + ch.i2xTail).toNat + 4 ≤ a

private theorem sramCopy_outside (npu : Npu) {off a : ℕ} {bytes : List UInt8}
    (h : a < off ∨ off + bytes.length ≤ a) : (npu.sramCopy off bytes).sram a = npu.sram a := by
  have hlen := List.length_take_le' (barSramSize - off) bytes
  exact Memory.write_of_outside (by omega)

section Send

variable {m : Machine} {c : ChanIdx} {payload : List UInt8} {a : ℕ}
  (h : OutsideReply (m.npu.chan c) payload a)

include h

private theorem OutsideReply.sendMark :
    (m.sendMark c (pkgSize payload)).npu.sram a = m.npu.sram a := by
  unfold Machine.sendMark
  dsimp only
  split
  · rename_i hwraps
    unfold Machine.ringTombstone
    split
    · rfl
    · rename_i hlim
      rw [Machine.emit_npu, Machine.modify_npu, Npu.sramWrite32, if_neg hlim]
      apply sramCopy_outside
      rw [le32_length]
      exact h.mark hwraps
  · rfl

/-- A send leaves the bytes outside its frame and its tombstone as they were. -/
theorem OutsideReply.send (host : Host) (id opcode : UInt32) :
    (mboxSend host m c id opcode payload).1.npu.sram a = m.npu.sram a := by
  have hmark := h.sendMark
  have hframe := h.frame
  have hresult := mboxSendBody_result host m c id opcode payload
  unfold mboxSend
  rw [Machine.emit_npu]
  generalize mboxSendBody host m c id opcode payload = r at hresult ⊢
  cases hresult with
  | refused _ => rfl
  | full _ _ _ => exact hmark
  | sent _ _ _ =>
    rw [sram_raiseIrq, sentMachine, ← hmark]
    rw [Machine.modify_npu, show (Npu.postFrame _ c _ _).sram = _ from rfl, Machine.sendCopy]
    have hhdr (m₁ : Machine) : (m₁.ringCopy c ((m.npu.chan c).i2xBuf.toNat +
        ((m.npu.chan c).sendStart (pkgSize payload)).toNat)
        (replyHeader id opcode (UInt32.ofNat payload.length)).encode).npu.sram a =
        m₁.npu.sram a := by
      apply sramCopy_outside
      rw [MsgHeader.encode_length]
      omega
    split
    · exact hhdr _
    · rw [← hhdr]
      apply sramCopy_outside
      rw [show msgHeaderSize.toNat = 16 from rfl]
      omega

end Send

/-! ## Messages -/

/-- The status in a reply, where the driver looks for it. -/
def Frame.status (f : Frame) : UInt32 :=
  UInt32.ofNat (leValue ((f.payload.drop (driverStatusOffset f.hdr.opcode)).take 4))

/-- Between the two states there is only a reply on channel `c` that carries `payload`. -/
structure OnlyReply (c : ChanIdx) (payload : List UInt8) (npu npu' : Npu) : Prop where
  ctx : npu'.ctx = npu.ctx
  nextCtxId : npu'.nextCtxId = npu.nextCtxId
  activeContexts : npu'.stats.activeContexts = npu.stats.activeContexts
  rtCfg : npu'.rtCfg = npu.rtCfg
  mgmtPasid : npu'.mgmtPasid = npu.mgmtPasid
  fwSuspended : npu'.fwSuspended = npu.fwSuspended
  async : npu'.asyncRegistered = npu.asyncRegistered ∧ npu'.asyncBufAddr = npu.asyncBufAddr ∧
    npu'.asyncBufSize = npu.asyncBufSize
  others : ∀ c', c' ≠ c → npu'.chan c' = npu.chan c'
  own : ∃ tail intr, npu'.chan c = { npu.chan c with i2xTail := tail, intr := intr }
  sram : ∀ a, OutsideReply (npu.chan c) payload a → npu'.sram a = npu.sram a

private theorem ReplyChange.onlyReply {c : ChanIdx} {payload : List UInt8} {npu npu' : Npu}
    (h : ReplyChange c npu npu')
    (hsram : ∀ a, OutsideReply (npu.chan c) payload a → npu'.sram a = npu.sram a) :
    OnlyReply c payload npu npu' := by
  obtain ⟨hrest, ⟨tail, intr, hchan⟩, hcount⟩ := h
  refine ⟨by rw [hrest], by rw [hrest], hcount, by rw [hrest], by rw [hrest], by rw [hrest],
    ⟨by rw [hrest], by rw [hrest], by rw [hrest]⟩, ?_, ?_, hsram⟩
  · intro c' hne
    rw [hchan, Function.update_of_ne hne]
  · exact ⟨tail, intr, by rw [hchan, Function.update_self]⟩

/-- The status of an answer is in the reply frame. -/
theorem replyFrame_status {hdr : MsgHeader} {a : Answer} (h : Answer.WellShaped hdr.opcode a) :
    (replyFrame hdr.id hdr.opcode a.2).status = a.1.code := by
  have hstatus := h.2
  rw [respSizeFor_eq] at hstatus
  rw [Frame.status, show (replyFrame hdr.id hdr.opcode a.2).hdr.opcode = hdr.opcode from rfl,
    show (replyFrame hdr.id hdr.opcode a.2).payload = a.2 from rfl, hstatus, ofNat_leValue_le32]

/-- The code 0 is that of success. -/
theorem MsgStatus.code_eq_zero {status : MsgStatus} : status.code = 0 ↔ status = .success := by
  cases status <;> decide

/-- The reply to a message, if it has one. -/
theorem replies_mertHandle (host : Host) {m : Machine} (c : ChanIdx) (hdr : MsgHeader)
    (payload : Memory) (halive : m.npu.fwAlive = true) :
    replies (mertHandle host m c hdr payload).trace = replies m.trace ++
      (mertOutcome host m hdr payload).2.toList.map fun a =>
        (c, replyFrame hdr.id hdr.opcode a.2) := by
  have hreplies : replies (mertOutcome host m hdr payload).1.trace = replies m.trace := by
    refine (mertOutcome_trace host m hdr payload).2.filterMap_eq fun e he => ?_
    cases e <;> first | rfl | exact he.elim
  rw [mertHandle_eq c hdr payload halive]
  unfold answerWith
  cases hans : (mertOutcome host m hdr payload).2 with
  | none => simp [hreplies]
  | some a =>
    dsimp only
    rw [mertReply, replies_mboxSend, hreplies]
    rfl

/-- The handling of a message that is answered with an error is the send of its reply. -/
theorem mertHandle_error (host : Host) {m : Machine} (c : ChanIdx) {hdr : MsgHeader}
    {payload : Memory} (halive : m.npu.fwAlive = true) {a : Answer}
    (hans : (mertOutcome host m hdr payload).2 = some a) (hne : a.1 ≠ .success) :
    replies (mertHandle host m c hdr payload).trace =
        replies m.trace ++ [(c, replyFrame hdr.id hdr.opcode a.2)] ∧
      (replyFrame hdr.id hdr.opcode a.2).status ≠ 0 ∧
      OnlyReply c a.2 m.npu (mertHandle host m c hdr payload).npu := by
  refine ⟨?_, ?_, ?_⟩
  · rw [replies_mertHandle host c hdr payload halive, hans]
    rfl
  · rw [replyFrame_status (mertOutcome_wellShaped hans)]
    exact MsgStatus.code_eq_zero.not.mpr hne
  · rw [mertHandle_eq c hdr payload halive, answerWith, hans, ← mertOutcome_rejected hans hne]
    dsimp only
    rw [mertReply]
    exact (mboxSend_change ..).onlyReply fun b hb => hb.send host hdr.id hdr.opcode

/-- A message that is answered with an error changes nothing but what its reply needs, and an
opcode that the emulator does not implement is always answered with an error. -/
theorem mertHandle_rejected (host : Host) {m : Machine} (c : ChanIdx) (hdr : MsgHeader)
    (payload : Memory) (halive : m.npu.fwAlive = true) :
    (∀ f, replies (mertHandle host m c hdr payload).trace = replies m.trace ++ [(c, f)] →
      f.status ≠ 0 → OnlyReply c f.payload m.npu (mertHandle host m c hdr payload).npu) ∧
    (hdr.opcode ∉ implementedOpcodes →
      ∃ f, replies (mertHandle host m c hdr payload).trace = replies m.trace ++ [(c, f)] ∧
        f.status ≠ 0) := by
  have hreplies := replies_mertHandle host c hdr payload halive
  constructor
  · intro f hf hstatus
    rw [hf] at hreplies
    cases hans : (mertOutcome host m hdr payload).2 with
    | none =>
      rw [hans] at hreplies
      have hlen := congrArg List.length hreplies
      simp at hlen
    | some a =>
      rw [hans] at hreplies
      have hfa : (c, f) = (c, replyFrame hdr.id hdr.opcode a.2) := by
        simpa using List.append_cancel_left hreplies
      obtain rfl := (Prod.ext_iff.mp hfa).2
      rw [replyFrame_status (mertOutcome_wellShaped hans)] at hstatus
      exact (mertHandle_error host c halive hans (MsgStatus.code_eq_zero.not.mp hstatus)).2.2
  · intro hop
    obtain ⟨status, hne, hout⟩ := mertOutcome_unimplemented host m payload hop
    have hans : (mertOutcome host m hdr payload).2 = some (statusAnswer hdr status) := by
      rw [hout]
    obtain ⟨hreply, hstatus, -⟩ := mertHandle_error host c halive hans hne
    exact ⟨_, hreply, hstatus⟩

/-- A DESTROY_CONTEXT for an unknown id, and a message that executes something. -/
theorem mertHandle_rejected_destroy :
    (∀ f, replies (mertHandle .accepting booted 0 ⟨4, 0, 1, 0x3⟩ fun _ => 0).trace =
      replies booted.trace ++ [(0, f)] → f.status ≠ 0 →
        OnlyReply 0 f.payload booted.npu
          (mertHandle .accepting booted 0 ⟨4, 0, 1, 0x3⟩ fun _ => 0).npu) ∧
    ∃ f, replies (mertHandle .accepting booted 0 ⟨4, 0, 1, 0x10⟩ fun _ => 0).trace =
      replies booted.trace ++ [(0, f)] ∧ f.status ≠ 0 :=
  ⟨(mertHandle_rejected .accepting 0 ⟨4, 0, 1, 0x3⟩ _ (fwBoot_fwAlive npuReset)).1,
    (mertHandle_rejected .accepting 0 ⟨4, 0, 1, 0x10⟩ _ (fwBoot_fwAlive npuReset)).2 (by decide)⟩

end Xdna
