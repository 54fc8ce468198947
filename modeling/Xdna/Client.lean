import Xdna.HwStart
import Xdna.Service

/-!
# Calls of the driver

The driver of `tests/test_boot.c` with its message ids and its checks of a reply, and on top of
it the calls with their fields. After a successful `drv_hw_start` every call returns what the
service answers: rings, registers and bytes are no longer to be seen. The service outlives the
firmware: a restart takes the configuration over, and only a reset clears it.
-/

namespace Xdna

open ByteMemory PackedLayout GuardedRun

/-! ## The client -/

/-- `XDNA_MBOX_MAGIC_VAL`. -/
def mboxMagicVal : UInt32 := 0x1D000000

/-- A `Drv` with its `next_id`. -/
structure Client where
  drv : Drv
  nextId : UInt32

/-- `(d->next_id++ & 0xFF) | XDNA_MBOX_MAGIC_VAL`. -/
def Client.msgId (cl : Client) : UInt32 := (cl.nextId &&& 0xFF) ||| mboxMagicVal

/-- The checks of `mbox_recv` on the header of the reply: its size, its id, the version. -/
def replyChecks (id respSize : UInt32) (hdr : MsgHeader) : Bool :=
  hdr.totalSize = respSize && hdr.id = id &&
    (hdr.szVer >>> msgProtoVerShift) &&& 0xFF = msgProtocolVer

/-- `mbox_send_recv`; `none` if it returns -1 or the header of the reply fails a check. Only a
request that is sent uses up its id. -/
def Client.sendRecv (host : Host) (cl : Client) (m : Machine) (opcode : UInt32)
    (req : List UInt8) (respSize : UInt32) : Client × Machine × Option (List UInt8) :=
  let posted := (mboxPost host cl.drv m cl.msgId opcode req).2.2
  let r := mboxSendRecv host cl.drv m cl.msgId opcode req
  (⟨r.1, if posted then cl.nextId + 1 else cl.nextId⟩, r.2.1,
    (r.2.2.filter fun f => replyChecks cl.msgId respSize f.hdr).map Frame.payload)

/-- A call: the request is laid out, and the reply is read as the fields of its struct. -/
def Client.call (host : Host) (cl : Client) (m : Machine) (c : Call) :
    Client × Machine × Option (Resp c.Body) :=
  let r := cl.sendRecv host m c.opcode.code c.encode (UInt32.ofNat c.reply.size)
  (r.1, r.2.1, r.2.2.map fun bytes => c.reply.decode (Memory.ofBytes bytes) 0)

/-! ## One call -/

/-- The driver takes every call. -/
theorem Call.sendable (c : Call) : Sendable c.encode := by
  obtain ⟨hwords, hpos, hmax⟩ := c.encode_length
  have hsize : ringSize 0 = 0x1000 := rfl
  exact ⟨hwords, List.ne_nil_of_length_pos (by omega), by omega⟩

/-- The header of a reply passes the checks of the driver. -/
theorem replyChecks_replyFrame (id opcode : UInt32) {payload : List UInt8}
    (h : payload.length ≤ 128) :
    replyChecks id (UInt32.ofNat payload.length) (replyFrame id opcode payload).hdr = true := by
  have hver := (replyHeader_szVer payload.length h).2
  simp only [replyChecks, Bool.and_eq_true, decide_eq_true_eq]
  exact ⟨⟨rfl, rfl⟩, hver⟩

section Calls

variable {host : Host} {cl : Client} {m : Machine}

/-- On idle rings a call has the reply of the service, and leaves the rings idle and the service
as it should be. -/
theorem Client.call_serves (h : Idle cl.drv m) (c : Call) :
    (cl.call host m c).2.2 = some ((Service.of m).answer host c).2 ∧
      Service.of (cl.call host m c).2.1 = ((Service.of m).answer host c).1 ∧
      Idle (cl.call host m c).1.drv (cl.call host m c).2.1 := by
  have hsend := c.sendable
  obtain ⟨htrans, hidle⟩ := @Idle.transaction host cl.drv m cl.msgId c.opcode.code c.encode h hsend
  have hplace : emptyPlace cl.drv.x2iTail.toNat (16 + c.encode.length) ≠ none :=
    emptyPlace_ne_none (by have := c.encode_length.2.2; omega)
  unfold Client.call Client.sendRecv
  dsimp only
  generalize mboxSendRecv host cl.drv m cl.msgId c.opcode.code c.encode = r at htrans hidle ⊢
  cases htrans with
  | refused _ hnone _ _ => exact absurd hnone hplace
  | served m₀ m' reply _ hcons hfw hdma hreply hfw' hdma' =>
    have hserves := @mertOutcome_serves host m₀ c (requestFrame cl.msgId c.opcode.code c.encode).hdr
      rfl hsend.length_toNat
    have hof : Service.of m₀ = Service.of m :=
      Service.of_congr hfw.rtCfg hfw.ctx hfw.nextCtxId hdma
    have hof' := Service.of_congr hfw'.rtCfg hfw'.ctx hfw'.nextCtxId hdma'
    rw [hof] at hserves
    obtain ⟨a, ha, hbytes⟩ := Option.map_eq_some_iff.mp hserves.reply
    rw [ha, Option.map_some, hbytes] at hreply
    set payload := c.reply.encode ((Service.of m).answer host c).2
    have hlen : payload.length = c.reply.size := c.reply.length_encode _
    have hmax : payload.length ≤ 128 := by
      rw [hlen, c.reply_size]
      exact respSizeFor_le _
    have hchecks := replyChecks_replyFrame cl.msgId c.opcode.code hmax
    rw [hlen] at hchecks
    refine ⟨?_, hof'.trans hserves.state, hidle⟩
    rw [hreply, Option.filter_some, if_pos hchecks, Option.map_some, Option.map_some]
    exact congrArg some (c.reply.decode_ofBytes _)

end Calls

/-! ## The service between calls -/

section Between

variable {host : Host} {m : Machine}

/-- Nothing of the service is in the SMU. -/
theorem smuExec_service (host : Host) (m : Machine) (cmd arg : UInt32) :
    Service.of (smuExec host m cmd arg).1 = Service.of m := by
  have hexec := smuExec_executed host m cmd arg
  have hregs := hexec.regs
  have hview (m : Machine) : (pspView m).dmaWrites = m.dmaWrites := rfl
  refine Service.of_congr hregs.rtCfg hregs.ctx hregs.nextCtxId ?_
  rw [← hview (smuExec host m cmd arg).1, hexec.rest, hview]

private theorem powered_service (host : Host) (m : Machine) :
    Service.of (powered host m) = Service.of m := by
  rw [powered, smuExec_service, smuExec_service]

private theorem validate_service {img : Image} (h : (validate host m img).npu.scratch 3 ≠ 0) :
    Service.of (validate host m img) = Service.of m := by
  have hregs := (validate_failed h).1
  refine Service.of_congr hregs.rtCfg hregs.ctx hregs.nextCtxId ?_
  rw [validate, pspExec_eq, pspKick_eq, Machine.emit_dmaWrites, Machine.modify_dmaWrites,
    (pspCommand_validate host (validate_cmd m img)).2]
  rfl

/-- The driver only reads the info block, and clears the liveness word. -/
theorem getMgmtChannInfo_service (host : Host) (d : Drv) (m : Machine) :
    Service.of (getMgmtChannInfo host d m).1 = Service.of m := by
  unfold getMgmtChannInfo
  dsimp only
  split_ifs
  · rfl
  · rfl
  · rw [wr32_sram host m 0 (by decide)]
    rfl

/-- A start takes over the contexts and the configuration of the firmware before. -/
theorem hwStart_service (host : Host) (d : Drv) (hcons : Consistent m.npu) :
    Service.of (hwStart host d m).1 = Service.of m := by
  have hregs := (powered_spec host m).2.1
  have hvalid := validate_powered host m
  rw [hwStart_eq]
  split_ifs with hready himage
  · have hloaded := @load_loaded host (powered host m) hwImage (hregs.consistent hcons)
      (hvalid.mpr himage)
    rw [getMgmtChannInfo_service, ← powered_service host m]
    exact Service.of_congr hloaded.rtCfg hloaded.ctx hloaded.nextCtxId hloaded.dmaWrites
  · rw [validate_service fun h => himage (hvalid.mp h)]
    exact powered_service host m
  · exact powered_service host m

private theorem release_service (host : Host) (m : Machine) :
    Service.of (release host m) = (Service.of m).shutDown := by
  have hreleased := release_released host m
  have hslots : slotsOf (release host m).npu = fun _ => none := by
    funext k
    rw [slotsOf, Context.slot, hreleased.ctx k]
    rfl
  rw [Service.of, hreleased.rtCfg, hreleased.nextCtxId, hreleased.dmaWrites, hslots]
  rfl

private theorem coldReset_service (m : Machine) :
    Service.of (coldReset m) = (Service.of m).reset := by
  rw [Service.of, coldReset, npuReset_eq]
  rfl

end Between

/-! ## Sequences of calls -/

/-- What the driver does with the device. -/
inductive ClientOp where
  /-- With a new `Drv`. -/
  | hwStart
  | call (c : Call)
  | smu (cmd arg : UInt32)
  | releaseTmr
  | reset

/-- The driver, if its last start has succeeded, and the device, beside the service that they
stand for. -/
structure Serving where
  client : Option Client
  device : Machine
  service : Service

/-- The driver makes its call, and the service answers on its own. -/
def Serving.step (host : Host) (s : Serving) : ClientOp → Serving
  | .hwStart =>
    { s with
      client := (Xdna.hwStart host .new s.device).2.map fun d => ⟨d, 1⟩
      device := (Xdna.hwStart host .new s.device).1 }
  | .call c =>
    match s.client with
    | none => s
    | some cl =>
      { client := some (cl.call host s.device c).1
        device := (cl.call host s.device c).2.1
        service := (s.service.answer host c).1 }
  | .smu cmd arg => { s with device := (smuExec host s.device cmd arg).1 }
  | .releaseTmr =>
    let r := pspExecChecked host s.device pspCmdReleaseTmr 0 0 0
    if r.2 then ⟨none, r.1, s.service.shutDown⟩ else { s with device := r.1 }
  | .reset => ⟨none, coldReset s.device, s.service.reset⟩

/-- The driver gets what the service has answered. A start succeeds if the PSP takes commands
and the host can read the image, an SMU command is answered by itself, a release fails only if
the PSP does not take commands, and after a reset it does. -/
def Serving.Agrees (host : Host) (s : Serving) : ClientOp → Prop
  | .hwStart => (Xdna.hwStart host .new s.device).2.isSome = true ↔
      PspReady s.device ∧ readsHwImage host s.device = true
  | .call c => ∀ cl, s.client = some cl →
      (cl.call host s.device c).2.2 = some (s.service.answer host c).2
  | .smu cmd arg => (smuExec host s.device cmd arg).2 =
      some (SmuKick.accepted ⟨cmd, arg⟩, SmuKick.out ⟨cmd, arg⟩)
  | .releaseTmr => (pspExecChecked host s.device pspCmdReleaseTmr 0 0 0).2 =
      decide (PspReady s.device)
  | .reset => PspReady (coldReset s.device)

/-- The session of the driver, without the ids. -/
def Serving.session (s : Serving) : Session := (s.client.map Client.drv, s.device)

/-- The service is that of the device, and between calls the rings are empty. -/
structure Serving.InStep (s : Serving) : Prop where
  linked : s.session.Linked
  service : Service.of s.device = s.service

namespace Serving.InStep

variable {host : Host} {s : Serving}

private theorem hwStart (h : s.InStep) :
    s.Agrees host .hwStart ∧ (s.step host .hwStart).InStep := by
  have hcons : Consistent s.device.npu := h.linked.consistent
  have hspec := hwStart_spec host hcons .new
  have hlinked : (s.session.call host .hwStart).Linked := h.linked.hwStart
  have hservice := (hwStart_service host .new hcons).trans h.service
  rw [session, Session.call] at hlinked
  dsimp only [Agrees, step] at hlinked ⊢
  generalize Xdna.hwStart host .new s.device = r at hspec hlinked hservice ⊢
  cases hspec with
  | started hready hread _ => exact ⟨iff_of_true rfl ⟨hready, hread⟩, hlinked, hservice⟩
  | failed hnot _ => exact ⟨iff_of_false Bool.false_ne_true hnot, hlinked, hservice⟩

private theorem call (h : s.InStep) (c : Call) :
    s.Agrees host (.call c) ∧ (s.step host (.call c)).InStep := by
  obtain ⟨client, m, service⟩ := s
  cases client with
  | none => exact ⟨fun cl hcl => (by cases hcl), h⟩
  | some cl =>
    have hserves := @Client.call_serves host cl m (h.linked.idle cl.drv rfl) c
    rw [h.service] at hserves
    dsimp only [Agrees, step]
    have hreply := hserves.1
    generalize cl.call host m c = r at hserves ⊢
    obtain ⟨-, hservice, hidle⟩ := hserves
    exact ⟨fun cl' hcl => Option.some.inj hcl ▸ hreply,
      ⟨hidle.consistent, fun d hd => Option.some.inj hd ▸ hidle⟩, hservice⟩

private theorem smu (h : s.InStep) (cmd arg : UInt32) :
    s.Agrees host (.smu cmd arg) ∧ (s.step host (.smu cmd arg)).InStep := by
  have hanswer := (smuExec_executed host s.device cmd arg).answer
  have hlinked : (s.session.call host (.smu cmd arg)).Linked := h.linked.smu cmd arg
  have hservice := (smuExec_service host s.device cmd arg).trans h.service
  rw [session, Session.call] at hlinked
  dsimp only [Agrees, step]
  generalize smuExec host s.device cmd arg = r at hanswer hlinked hservice ⊢
  exact ⟨hanswer, hlinked, hservice⟩

private theorem releaseTmr (h : s.InStep) :
    s.Agrees host .releaseTmr ∧ (s.step host .releaseTmr).InStep := by
  have hagrees : s.Agrees host .releaseTmr := (releaseTmr_spec host s.session).1
  have hlinked : (s.session.call host .releaseTmr).Linked := h.linked.releaseTmr
  have hservice := release_service host s.device
  rw [h.service] at hservice
  refine ⟨hagrees, ?_⟩
  dsimp only [Agrees, step, Session.call, session] at hagrees hlinked ⊢
  rw [hagrees, pspExecChecked_eq, ← release] at hlinked ⊢
  by_cases hready : PspReady s.device
  · rw [decide_eq_true hready, if_pos rfl, if_pos hready] at hlinked ⊢
    exact ⟨hlinked, hservice⟩
  · rw [if_neg (by rw [decide_eq_false hready]; decide), if_neg hready]
    exact h

private theorem reset (h : s.InStep) : s.Agrees host .reset ∧ (s.step host .reset).InStep :=
  ⟨pspReady_npuReset, @Session.Linked.reset host s.session,
    (coldReset_service s.device).trans (congrArg Service.reset h.service)⟩

end Serving.InStep

end Xdna
