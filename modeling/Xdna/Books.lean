import Xdna.Rules
import Xdna.General.EventSourcing

/-!
# The books of the device

The counters that `xdna_npu_get_stats` reports, and what the firmware has been told to remember
apart from its contexts, are sourced in the trace: each is what the events make of its value after
reset. The counters count commands, messages and interrupts; the settings are those of
the last message or PSP command that set them.
-/

namespace Xdna

open ByteMemory EventSourcing

/-! ## Counters -/

/-- The counters of `XdnaStats` that go with an event of the trace. -/
structure Counters where
  pspCmds : UInt64
  mboxMsgsIn : UInt64
  mboxMsgsOut : UInt64
  irqsRaised : UInt64

/-- The counters of `XdnaStats` that the device only ever increments. -/
def Stats.counters (st : Stats) : Counters :=
  ⟨st.pspCmds, st.mboxMsgsIn, st.mboxMsgsOut, st.irqsRaised⟩

/-- What an event counts. -/
def Counters.apply (n : Counters) : Event → Counters
  | .pspDone .. => { n with pspCmds := n.pspCmds + 1 }
  | .handle .. => { n with mboxMsgsIn := n.mboxMsgsIn + 1 }
  | .send _ _ _ _ true => { n with mboxMsgsOut := n.mboxMsgsOut + 1 }
  | .raiseIrq .. => { n with irqsRaised := n.irqsRaised + 1 }
  | _ => n

/-- The counters are sourced in the trace. -/
def counterSource : Source Machine Event Counters where
  log := Machine.trace
  part m := m.npu.stats.counters
  apply := Counters.apply
  recorded _ := none

private theorem witnessed_counterSource (n : Counters) (es : List Event) :
    counterSource.Witnessed n es := by
  induction es generalizing n with
  | nil => trivial
  | cons e es ih => exact ⟨fun b hb => by simp [counterSource] at hb, ih _⟩

/-! ## Settings -/

/-- What the firmware remembers of the messages that do not concern contexts. -/
structure Settings where
  rtCfg : Fin 64 → UInt64
  mgmtPasid : UInt16
  fwSuspended : Bool
  asyncBufAddr : UInt64
  asyncBufSize : UInt32
  asyncRegistered : Bool

/-- The settings of the device. -/
def Npu.settings (npu : Npu) : Settings where
  rtCfg := npu.rtCfg
  mgmtPasid := npu.mgmtPasid
  fwSuspended := npu.fwSuspended
  asyncBufAddr := npu.asyncBufAddr
  asyncBufSize := npu.asyncBufSize
  asyncRegistered := npu.asyncRegistered

namespace Settings

/-- An entry of the runtime configuration is set, if there is one of that type. -/
def setRuntimeConfig (st : Settings) (req : SetRuntimeCfgReq) : Settings :=
  if h : req.type.toNat < 64 then
    { st with rtCfg := Function.update st.rtCfg ⟨_, h⟩ req.value }
  else st

/-- A message that is long enough for its request struct. -/
def message (st : Settings) (hdr : MsgHeader) (payload : Memory) : Settings :=
  match MsgOpcode.ofCode? hdr.opcode with
  | some .setRuntimeConfig =>
    if hdr.totalSize < SetRuntimeCfgReq.size then st
    else st.setRuntimeConfig (SetRuntimeCfgReq.decode payload)
  | some .assignMgmtPasid =>
    if hdr.totalSize < AssignPasidReq.size then st
    else { st with mgmtPasid := (AssignPasidReq.decode payload).pasid }
  | some .suspend => { st with fwSuspended := true }
  | some .resume => { st with fwSuspended := false }
  | some .registerAsyncEventMsg =>
    if hdr.totalSize < AsyncEventReq.size then st
    else { st with
      asyncBufAddr := (AsyncEventReq.decode payload).bufAddr
      asyncBufSize := (AsyncEventReq.decode payload).bufSize
      asyncRegistered := true }
  | _ => st

/-- A successful START ends a suspension, and RELEASE_TMR an asynchronous registration. -/
def command (st : Settings) (cmd resp : UInt32) : Settings :=
  if cmd = pspCmdStart ∧ resp = 0 then { st with fwSuspended := false }
  else if cmd = pspCmdReleaseTmr then { st with asyncRegistered := false }
  else st

/-- What an event sets. -/
def apply (st : Settings) : Event → Settings
  | .handle _ hdr payload _ => st.message hdr (Memory.ofBytes payload)
  | .pspDone cmd resp => st.command cmd resp
  | _ => st

end Settings

/-- The settings are sourced in the trace, and a call of the handler records them. -/
def settingsSource : Source Machine Event Settings where
  log := Machine.trace
  part m := m.npu.settings
  apply := Settings.apply
  recorded
    | .handle _ _ _ npu => some npu.settings
    | _ => none

/-! ## Sending -/

/-- The counters that a send moves. -/
def Stats.sentBy (host : Host) (st : Stats) : Stats :=
  if host.raiseIrq then
    { st with mboxMsgsOut := st.mboxMsgsOut + 1, irqsRaised := st.irqsRaised + 1 }
  else { st with mboxMsgsOut := st.mboxMsgsOut + 1 }

/-- The event is a write to a ring. -/
def Event.IsRingWrite : Event → Prop
  | .ringWrite .. => True
  | _ => False

section Send

variable (host : Host) (m : Machine) (c : ChanIdx)

private theorem sendMark_stats (pkgSize : UInt32) :
    (m.sendMark c pkgSize).npu.stats = m.npu.stats ∧
      m.Extends Event.IsRingWrite (m.sendMark c pkgSize) := by
  unfold Machine.sendMark Machine.ringTombstone
  dsimp only
  split
  · split
    · exact ⟨rfl, .refl m⟩
    · rename_i hlim
      refine ⟨?_, (Machine.Extends.modify _).trans (.emit trivial)⟩
      rw [Machine.emit_npu, Machine.modify_npu, Npu.sramWrite32, if_neg hlim]
      rfl
  · exact ⟨rfl, .refl m⟩

private theorem sendCopy_stats (off : ℕ) (hdr : MsgHeader) (payload : List UInt8) :
    (m.sendCopy c off hdr payload).npu.stats = m.npu.stats ∧
      m.Extends Event.IsRingWrite (m.sendCopy c off hdr payload) := by
  have hcopy (m : Machine) (off : ℕ) (bytes : List UInt8) :
      m.Extends Event.IsRingWrite (m.ringCopy c off bytes) :=
    (Machine.Extends.modify _).trans (.emit trivial)
  unfold Machine.sendCopy
  dsimp only
  split
  · exact ⟨rfl, hcopy ..⟩
  · exact ⟨rfl, (hcopy ..).trans (hcopy ..)⟩

/-- A send that returns 0 counts a message, and an interrupt if there is a callback for it; one
that fails counts nothing. -/
theorem mboxSend_stats (id opcode : UInt32) (payload : List UInt8) :
    ∃ ws, (∀ e ∈ ws, e.IsRingWrite) ∧
      ((mboxSend host m c id opcode payload).2 = false ∧
        (mboxSend host m c id opcode payload).1.npu.stats = m.npu.stats ∧
        (mboxSend host m c id opcode payload).1.trace =
          m.trace ++ (ws ++ [.send c id opcode payload false]) ∨
      (mboxSend host m c id opcode payload).2 = true ∧
        (mboxSend host m c id opcode payload).1.npu.stats = m.npu.stats.sentBy host ∧
        ∃ vector npu, (mboxSend host m c id opcode payload).1.trace =
          m.trace ++ (ws ++ ((if host.raiseIrq then [.raiseIrq vector npu] else []) ++
            [.send c id opcode payload true]))) := by
  have h := mboxSendBody_result host m c id opcode payload
  unfold mboxSend
  generalize mboxSendBody host m c id opcode payload = r at h ⊢
  cases h with
  | refused _ => exact ⟨[], by simp, .inl ⟨rfl, rfl, rfl⟩⟩
  | full _ _ _ =>
    obtain ⟨hstats, ws, htrace, hws⟩ := sendMark_stats m c (pkgSize payload)
    refine ⟨ws, hws, .inl ⟨rfl, hstats, ?_⟩⟩
    rw [Machine.emit_trace, htrace, List.append_assoc]
  | sent _ _ _ =>
    obtain ⟨hstats, ws, htrace, hws⟩ := sendMark_stats m c (pkgSize payload)
    obtain ⟨hstats', ws', htrace', hws'⟩ := sendCopy_stats (m.sendMark c (pkgSize payload)) c
      ((m.npu.chan c).i2xBuf.toNat + ((m.npu.chan c).sendStart (pkgSize payload)).toNat)
      (replyHeader id opcode (UInt32.ofNat payload.length)) payload
    refine ⟨ws ++ ws', ?_, .inr ⟨rfl, ?_, ?_⟩⟩
    · intro e he
      exact (List.mem_append.mp he).elim (hws e) (hws' e)
    · have hsent : (sentMachine m c id opcode payload).npu.stats =
          { m.npu.stats with mboxMsgsOut := m.npu.stats.mboxMsgsOut + 1 } := by
        rw [← hstats, ← hstats']
        rfl
      unfold Machine.raiseIrq Stats.sentBy
      split
      · simp only [Machine.emit_npu, Machine.modify_npu, hsent]
      · exact hsent
    · have hsent : (sentMachine m c id opcode payload).trace = m.trace ++ (ws ++ ws') := by
        rw [← List.append_assoc, ← htrace, ← htrace']
        rfl
      refine ⟨((sentMachine m c id opcode payload).npu.chan c).index,
        (sentMachine m c id opcode payload).npu, ?_⟩
      unfold Machine.raiseIrq
      split
      · simp only [Machine.emit_trace, Machine.modify_trace, hsent, List.append_assoc]
      · simp only [Machine.emit_trace, hsent, List.append_assoc, List.nil_append]

end Send

/-! ## Commands and messages -/

/-- Register writes count nothing here. -/
theorem RegWrite.counters {val : UInt32} {f : Npu → Npu} (h : RegWrite val f) (npu : Npu) :
    (f npu).stats.counters = npu.stats.counters := by
  cases h with
  | smu =>
    unfold smuKick smuComplete
    dsimp only
    repeat' split
    all_goals rfl
  | _ => rfl

private theorem RegWrite.settings {val : UInt32} {f : Npu → Npu} (h : RegWrite val f) (npu : Npu) :
    (f npu).settings = npu.settings := by
  cases h with
  | smu =>
    unfold smuKick smuComplete
    dsimp only
    repeat' split
    all_goals rfl
  | _ => rfl

/-- What a message does counts nothing here. -/
theorem MsgEffect.counters {npu npu' : Npu} {hdr : MsgHeader} {payload : Memory}
    (h : MsgEffect npu hdr payload npu') : npu'.stats.counters = npu.stats.counters := by
  cases h with
  | create s => rw [createContext_eq]; rfl
  | destroy s =>
    rw [destroyContext_eq]
    dsimp only [Stats.dropContext]
    split <;> rfl
  | _ => rfl

/-- What a command of the PSP does to counters and settings, before it is counted itself. -/
theorem PspResult.books {m : Machine} {r : Machine × UInt32} (h : PspResult m r) :
    r.1.npu.stats.counters = m.npu.stats.counters ∧
      r.1.npu.settings = m.npu.settings.command (m.npu.scratch 2) r.2 := by
  have hother {v : UInt32} (hstart : ¬ (m.npu.scratch 2 = pspCmdStart ∧ v = 0))
      (hrelease : m.npu.scratch 2 ≠ pspCmdReleaseTmr) :
      m.npu.settings.command (m.npu.scratch 2) v = m.npu.settings := by
    rw [Settings.command, if_neg hstart, if_neg hrelease]
  cases h with
  | failed hresp hnpu _ hrelease =>
    dsimp only
    rw [hnpu, hother (fun h => hresp h.2) hrelease]
    exact ⟨rfl, rfl⟩
  | cert hcmd hnpu =>
    dsimp only
    rw [hnpu, hother (by rw [hcmd]; decide) (by rw [hcmd]; decide)]
    exact ⟨rfl, rfl⟩
  | validated hcmd hnpu =>
    dsimp only
    rw [hnpu, hother (by rw [hcmd]; decide) (by rw [hcmd]; decide)]
    exact ⟨rfl, rfl⟩
  | started hcmd _ hnpu =>
    dsimp only
    rw [hnpu, fwBoot_eq, Settings.command, if_pos ⟨hcmd, rfl⟩]
    exact ⟨rfl, rfl⟩
  | released hcmd hnpu =>
    dsimp only
    rw [hnpu, fwShutdown_eq, Settings.command, if_neg (by rw [hcmd]; decide), if_pos hcmd]
    exact ⟨rfl, rfl⟩

/-- A send keeps the settings. -/
theorem ReplyChange.settings {c : ChanIdx} {npu npu' : Npu} (h : ReplyChange c npu npu') :
    npu'.settings = npu.settings := by
  rw [h.rest]
  rfl

/-- What a message does to the settings. -/
theorem mertStep_settings (npu : Npu) (hdr : MsgHeader) (p : Memory) :
    (mertStep npu hdr p (MsgOpcode.ofCode? hdr.opcode)).1.settings =
      npu.settings.message hdr p := by
  unfold Settings.message
  cases hop : MsgOpcode.ofCode? hdr.opcode with
  | none => rfl
  | some o =>
    cases o <;> simp only [mertStep]
    case setRuntimeConfig =>
      unfold setRuntimeConfigStep Settings.setRuntimeConfig
      split
      · rfl
      · split <;> rfl
    case getRuntimeConfig =>
      unfold getRuntimeConfigStep
      split <;> rfl
    case assignMgmtPasid =>
      unfold assignPasidStep
      split <;> rfl
    case createContext =>
      unfold createStep
      split
      · rfl
      · cases freeSlot npu with
        | none => rfl
        | some s =>
          dsimp only
          split
          · rfl
          · rw [createContext_eq]
            rfl
    case destroyContext =>
      unfold destroyStep
      split
      · rfl
      · cases ctxById npu (DestroyCtxReq.decode p).contextId with
        | none => rfl
        | some s =>
          dsimp only
          rw [destroyContext_eq]
          rfl
    case mapHostBuffer | addHostBuffer =>
      unfold heapStep
      split
      · rfl
      · cases ctxById npu (MapHostBufferReq.decode p).contextId <;> rfl
    case registerAsyncEventMsg =>
      unfold asyncStep
      split <;> rfl
    all_goals rfl

private theorem mertOutcome_settings (host : Host) (m : Machine) (hdr : MsgHeader) (p : Memory) :
    (mertOutcome host m hdr p).1.npu.settings = m.npu.settings.message hdr p := by
  unfold mertOutcome
  split
  · rename_i hop
    have hnone : m.npu.settings.message hdr p = m.npu.settings := by
      rw [Settings.message, hop]
    rw [hnone]
    split
    · rfl
    · dsimp only
      rw [(queryColStatus_frame host m (ColumnInfoReq.decode p)).1]
  · exact mertStep_settings m.npu hdr p

/-! ## Runs -/

/-- The events that move no counter. -/
def Event.CountsNothing (e : Event) : Prop := ∀ n : Counters, n.apply e = n

/-- The events that move no setting. -/
def Event.SetsNothing : Event → Prop
  | .handle .. => False
  | .pspDone .. => False
  | _ => True

/-- Such an event is silent for the settings. -/
theorem Event.SetsNothing.silent {e : Event} (h : e.SetsNothing) : settingsSource.Silent e := by
  cases e <;> first | exact ⟨rfl, fun _ => rfl⟩ | exact h.elim

/-- Such an event is silent for the counters. -/
theorem Event.CountsNothing.silent {e : Event} (h : e.CountsNothing) : counterSource.Silent e :=
  ⟨rfl, h⟩

private theorem Event.IsRingWrite.countsNothing {e : Event} (h : e.IsRingWrite) :
    e.CountsNothing := by
  cases e <;> first | exact fun _ => rfl | exact h.elim

private theorem Event.IsSearch.countsNothing {e : Event} (h : e.IsSearch) : e.CountsNothing := by
  cases e <;> first | exact fun _ => rfl | exact h.elim

private theorem Event.IsDmaRead.countsNothing {e : Event} (h : e.IsDmaRead) : e.CountsNothing := by
  cases e <;> first | exact fun _ => rfl | exact h.elim

private theorem Event.IsDmaWrite.countsNothing {e : Event} (h : e.IsDmaWrite) :
    e.CountsNothing := by
  cases e <;> first | exact fun _ => rfl | exact h.elim

variable (host : Host) {ok : ChanIdx → UInt32 → Prop} {m m' : Machine}

/-- An answer counts as a reply, or nothing if it was refused or there is none. -/
theorem answerWith_stats (c : ChanIdx) (hdr : MsgHeader) (r : Machine × Option Answer) :
    (answerWith host c hdr r).npu.stats = r.1.npu.stats ∨
      (answerWith host c hdr r).npu.stats = r.1.npu.stats.sentBy host := by
  unfold answerWith
  cases r.2 with
  | none => exact .inl rfl
  | some a =>
    obtain ⟨_, _, ⟨_, h, _⟩ | ⟨_, h, _⟩⟩ := mboxSend_stats host r.1 c hdr.id hdr.opcode a.2
    · exact .inl h
    · exact .inr h

private theorem answerWith_counters (c : ChanIdx) (hdr : MsgHeader) (r : Machine × Option Answer) :
    counterSource.Moves r.1 (answerWith host c hdr r) := by
  unfold answerWith
  cases r.2 with
  | none => exact .refl _
  | some a =>
    obtain ⟨ws, hws, ⟨_, hstats, htrace⟩ | ⟨_, hstats, vector, npu, htrace⟩⟩ :=
      mboxSend_stats host r.1 c hdr.id hdr.opcode a.2
    · refine .of_silent htrace ?_ (congrArg Stats.counters hstats)
      intro e he
      rcases List.mem_append.mp he with he | he
      · exact (hws e he).countsNothing.silent
      · rw [List.mem_singleton.mp he]
        exact ⟨rfl, fun _ => rfl⟩
    · refine ⟨_, htrace, ?_, witnessed_counterSource ..⟩
      rw [List.foldl_append, Source.foldl_silent fun e he => (hws e he).countsNothing.silent]
      refine (congrArg Stats.counters hstats).trans ?_
      unfold Stats.sentBy
      split <;> rfl

/-- In all that the device does, the counters move with the trace. -/
theorem counters_kept (host : Host) (ok : ChanIdx → UInt32 → Prop) :
    Kept host ok counterSource.Moves where
  refl := .refl
  trans := .trans
  reg h := .of_eq rfl (h.counters _)
  guest _ := .of_eq rfl rfl
  kick {m} _ := by
    obtain ⟨ws, hws, htrace⟩ := pspKick_trace host m
    refine .of_event htrace (fun e he => (hws.isDmaRead e he).countsNothing.silent)
      (fun e he => by simp at he) ?_ (fun b hb => by simp [counterSource] at hb)
    exact (pspCommand_result host (countPsp m)).books.1
  pass {m c} hm hactive := by
    have hform := mboxPass_form host hm.consistent hm.headsOk hactive
    generalize (mboxPass host c m).1 = m' at hform ⊢
    cases hform with
    | search htrace hnpu _ =>
      obtain ⟨ws, htrace, hws⟩ := htrace
      refine .of_silent htrace (fun e he => (hws e he).countsNothing.silent) ?_
      rcases hnpu with hnpu | hnpu
      · exact congrArg (fun npu => npu.stats.counters) hnpu
      · exact congrArg (fun npu => npu.stats.counters) hnpu
    | message size hpeek =>
      obtain ⟨ws, hws, htrace⟩ := takenFrame_trace m c size
      have htaken : counterSource.Moves m (takenFrame m c size) :=
        .of_event htrace (fun e he => (hws e he).countsNothing.silent) (fun e he => by simp at he)
          rfl (fun b hb => by simp [counterSource] at hb)
      obtain ⟨ws', htrace', hws'⟩ := (mertOutcome_trace host (takenFrame m c size)
        (headHeader m.npu c) (Memory.ofBytes (headPayload m.npu c size))).2
      have houtcome : counterSource.Moves (takenFrame m c size) (headOutcome host m c size).1 :=
        .of_silent htrace' (fun e he => (hws' e he).countsNothing.silent)
          (mertOutcome_effect ..).counters
      exact (htaken.trans houtcome).trans (answerWith_counters ..)

private theorem answerWith_settings (c : ChanIdx) (hdr : MsgHeader) (r : Machine × Option Answer) :
    settingsSource.Moves r.1 (answerWith host c hdr r) := by
  obtain ⟨ws, htrace, hws⟩ : r.1.Extends Event.SetsNothing (answerWith host c hdr r) := by
    unfold answerWith
    cases r.2 with
    | none => exact .refl _
    | some a =>
      obtain ⟨m₁, hext, htrace⟩ := mboxSend_trace host r.1 c hdr.id hdr.opcode a.2
      exact (hext.mono fun e he => by cases he <;> trivial).trans (.of_trace_eq htrace trivial)
  exact .of_silent htrace (fun e he => (hws e he).silent) (answerWith_change ..).settings

private theorem headOutcome_settings (m : Machine) (c : ChanIdx) (size : UInt32) :
    settingsSource.Moves m (headOutcome host m c size).1 := by
  obtain ⟨ws, hws, htrace⟩ := takenFrame_trace m c size
  obtain ⟨ws', htrace', hws'⟩ := (mertOutcome_trace host (takenFrame m c size)
    (headHeader m.npu c) (Memory.ofBytes (headPayload m.npu c size))).2
  have hlog : (headOutcome host m c size).1.trace = m.trace ++ (ws ++
      .handle c (headHeader m.npu c) (headPayload m.npu c size) (takenFrame m c size).npu ::
        ws') := by
    rw [headOutcome, htrace', htrace]
    simp only [List.append_assoc, List.cons_append, List.nil_append]
  refine .of_event hlog (fun e he => ?_) (fun e he => ?_) ?_ (fun b hb => ?_)
  · have hsearch := hws e he
    exact Event.SetsNothing.silent (by cases e <;> trivial)
  · have hdma := hws' e he
    exact Event.SetsNothing.silent (by cases e <;> trivial)
  · exact mertOutcome_settings host (takenFrame m c size) _ _
  · exact (Option.some.inj hb).symm

/-- In all that the device does, the settings move with the trace. -/
theorem settings_kept (host : Host) (ok : ChanIdx → UInt32 → Prop) :
    Kept host ok settingsSource.Moves where
  refl := .refl
  trans := .trans
  reg h := .of_eq rfl (h.settings _)
  guest _ := .of_eq rfl rfl
  kick {m} _ := by
    obtain ⟨ws, hws, htrace⟩ := pspKick_trace host m
    refine .of_event htrace (fun e he => ?_) (fun e he => by simp at he) ?_
      (fun b hb => by simp [settingsSource] at hb)
    · have hread := hws.isDmaRead e he
      exact Event.SetsNothing.silent (by cases e <;> trivial)
    · exact (pspCommand_result host (countPsp m)).books.2
  pass {m c} hm hactive := by
    have hform := mboxPass_form host hm.consistent hm.headsOk hactive
    generalize (mboxPass host c m).1 = m' at hform ⊢
    cases hform with
    | search htrace hnpu _ =>
      obtain ⟨ws, htrace, hws⟩ := htrace
      refine .of_silent htrace (fun e he => ?_) ?_
      · have hsearch := hws e he
        exact Event.SetsNothing.silent (by cases e <;> trivial)
      · change m'.npu.settings = m.npu.settings
        rcases hnpu with hnpu | hnpu <;> rw [hnpu]
        rfl
    | message size _ =>
      exact (headOutcome_settings host m c size).trans (answerWith_settings ..)

end Xdna
