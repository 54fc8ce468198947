import Xdna.Management
import Xdna.PspHistory

/-!
# What every access keeps

A register access is a change of one register, a command of the PSP, or a kick whose passes
each find an active channel of a live firmware. A relation between the states before and after
that holds of each of these holds of every access, and so of every run.
-/

namespace Xdna

open ByteMemory Relation

/-- Every value may be permitted. -/
theorem GuestOp.headsOk_true (op : GuestOp) : op.HeadsOk fun _ _ => True := fun _ _ => trivial

/-- A state the device goes through in a run in which the values stored in the `i2x` head
registers are among the permitted ones. -/
abbrev Visited (host : Host) (ok : ChanIdx → UInt32 → Prop) (m : Machine) : Prop :=
  Acts host ok initial m

section Visited

variable {host : Host} {ok : ChanIdx → UInt32 → Prop} {m : Machine}

/-- The tables are consistent in every state of a run. -/
theorem Visited.consistent (h : Visited host ok m) : Consistent m.npu :=
  Acts.consistent h consistent_npuReset

/-- The heads are in order in every state of a run. -/
theorem Visited.headsOk (h : Visited host ok m) : HeadsOk m.npu :=
  (Acts.steps h consistent_npuReset).headsOk consistent_npuReset headsOk_npuReset

/-- A channel is active only while the firmware is alive. -/
theorem Visited.fwAlive (h : Visited host ok m) {c : ChanIdx}
    (hactive : (m.npu.chan c).active = true) : m.npu.fwAlive = true :=
  h.consistent.fwAlive_of_active hactive

end Visited

/-! ## Passes -/

/-- The frame of `size` bytes at the head of channel `c` is examined and taken off the ring, and
the handler is called. -/
def takenFrame (m : Machine) (c : ChanIdx) (size : UInt32) : Machine :=
  takeFrame (m.emit (.ringRead c (m.npu.chan c).headOff 4)) c size

/-- Taking a frame off the ring moves the head behind it. -/
theorem takenFrame_npu (m : Machine) (c : ChanIdx) (size : UInt32) :
    (takenFrame m c size).npu = m.npu.consume c size := rfl

/-- Taking a frame off the ring reads from it, and then calls the handler. -/
theorem takenFrame_trace (m : Machine) (c : ChanIdx) (size : UInt32) :
    ∃ ws, (∀ e ∈ ws, e.IsSearch) ∧ (takenFrame m c size).trace = m.trace ++ (ws ++
      [.handle c (headHeader m.npu c) (headPayload m.npu c size) (takenFrame m c size).npu]) := by
  refine ⟨[.ringRead c (m.npu.chan c).headOff 4, .ringRead c (m.npu.chan c).headOff 16,
    .ringRead c ((m.npu.chan c).headOff + 16) size.toNat], ?_, ?_⟩
  · intro e he
    simp only [List.mem_cons, List.not_mem_nil, or_false] at he
    rcases he with rfl | rfl | rfl <;> trivial
  · rw [takenFrame, takeFrame_trace, Machine.emit_trace, List.append_assoc]
    rfl

/-- The message of a frame at the head of channel `c`, with the machine and the answer. -/
def headOutcome (host : Host) (m : Machine) (c : ChanIdx) (size : UInt32) :
    Machine × Option Answer :=
  mertOutcome host (takenFrame m c size) (headHeader m.npu c)
    (Memory.ofBytes (headPayload m.npu c size))

/-- What a pass comes to: it has found no frame, or it has taken one and answered its message. -/
inductive PassForm (host : Host) (c : ChanIdx) (m : Machine) : Machine → Prop
  | search {m' : Machine} (htrace : m.Extends Event.IsSearch m')
      (hnpu : m'.npu = m.npu ∨ m'.npu = m.npu.setX2iHead c 0)
      (hdma : m'.dmaWrites = m.dmaWrites) : PassForm host c m m'
  | message (size : UInt32) (hpeek : (m.npu.chan c).peek m.npu = .frame size) :
      PassForm host c m (answerWith host c (headHeader m.npu c) (headOutcome host m c size))

/-- The bytes behind the request in the payload buffer do not show in the outcome. -/
theorem mboxPass_form (host : Host) {m : Machine} {c : ChanIdx} (hcons : Consistent m.npu)
    (hheads : HeadsOk m.npu) (hactive : (m.npu.chan c).active = true) :
    PassForm host c m (mboxPass host c m).1 := by
  cases hpeek : (m.npu.chan c).peek m.npu with
  | ringEnd =>
    unfold mboxPass
    dsimp only
    rw [hpeek]
    exact .search (.modify _) (.inr rfl) rfl
  | tombstone =>
    rw [mboxPass_tombstone hpeek]
    exact .search ((Machine.Extends.emit trivial).trans (.modify _)) (.inr rfl) rfl
  | reject =>
    rw [mboxPass_reject hpeek]
    refine .search ⟨_, rfl, ?_⟩ (.inl rfl) rfl
    intro e he
    rcases List.mem_cons.mp he with rfl | he
    · trivial
    · rw [List.mem_singleton.mp he]
      trivial
  | frame size =>
    have hlen := (hheads c hactive).totalSize hpeek
    have hform := @PassForm.message host c m size hpeek
    rw [headOutcome] at hform
    rw [mboxPass_deliver (hcons.fwAlive_of_active hactive) hpeek]
    rwa [mertOutcome_congr host _ _ (n := (headPayload m.npu c size).length) (by omega)
      fun i hi => payloadBuffer_of_lt _ hi]

/-- What a command of the PSP reads of the memory of the host: nothing, or the start of the image
that it is to validate. -/
inductive PspReads (cmd resp : UInt32) : List Event → Prop
  | none : PspReads cmd resp []
  | image (paddr : UInt64) (len : UInt32) (ok : Bool)
      (hcmd : cmd = pspCmdValidate ∨ cmd = pspCmdValidateCert) (hlen : len ≤ pspPeekBytes)
      (hresp : resp = if ok then 0 else pspErrorCancel) :
      PspReads cmd resp [.dmaRead paddr len ok]

/-- These events are reads of the memory of the host. -/
theorem PspReads.isDmaRead {cmd resp : UInt32} {ws : List Event} (h : PspReads cmd resp ws) :
    ∀ e ∈ ws, e.IsDmaRead := by
  intro e he
  cases h with
  | none => simp at he
  | image paddr len ok =>
    rw [List.mem_singleton.mp he]
    trivial

private theorem pspFetchImage_reads (host : Host) (m : Machine) (paddr : UInt64) (size : UInt32)
    {cmd : UInt32} (hcmd : cmd = pspCmdValidate ∨ cmd = pspCmdValidateCert) :
    ∃ ws, PspReads cmd (pspFetchImage host m paddr size).2 ws ∧
      (pspFetchImage host m paddr size).1.trace = m.trace ++ ws := by
  have hlen : (if size < pspPeekBytes then size else pspPeekBytes) ≤ pspPeekBytes := by
    split
    · exact UInt32.le_of_lt ‹_›
    · exact UInt32.le_refl _
  unfold pspFetchImage
  dsimp only
  split
  · exact ⟨[], .none, (List.append_nil _).symm⟩
  · split
    · exact ⟨[], .none, (List.append_nil _).symm⟩
    · exact ⟨_, .image _ _ _ hcmd hlen rfl, rfl⟩

private theorem pspCommand_reads (host : Host) (m : Machine) :
    ∃ ws, PspReads (m.npu.scratch 2) (pspCommand host m).2 ws ∧
      (pspCommand host m).1.trace = m.trace ++ ws := by
  have hfetch := @pspFetchImage_reads host m (pspPaddr m.npu)
    (m.npu.scratch 9 &&& pspArg2Mask) (m.npu.scratch 2)
  unfold pspCommand
  dsimp only
  generalize pspFetchImage host m (pspPaddr m.npu) (m.npu.scratch 9 &&& pspArg2Mask) = r
    at hfetch ⊢
  split
  · rename_i hcmd
    obtain ⟨ws, hws, htrace⟩ := hfetch (.inl hcmd)
    split
    · exact ⟨ws, hws, by rw [Machine.modify_trace, htrace]⟩
    · exact ⟨ws, hws, htrace⟩
  split
  · exact hfetch (.inr ‹_›)
  split
  · split
    · exact ⟨[], .none, by rw [List.append_nil]⟩
    · exact ⟨[], .none, by rw [Machine.modify_trace, List.append_nil]⟩
  split
  · exact ⟨[], .none, by rw [Machine.modify_trace, List.append_nil]⟩
  · exact ⟨[], .none, by rw [List.append_nil]⟩

/-- A PSP command reads at most the start of the image, and then completes. -/
theorem pspKick_trace (host : Host) (m : Machine) :
    ∃ ws, PspReads (m.npu.scratch 2) (pspCommand host (countPsp m)).2 ws ∧
      (pspKick host m).trace = m.trace ++
        (ws ++ [.pspDone (m.npu.scratch 2) (pspCommand host (countPsp m)).2]) := by
  obtain ⟨ws, hws, htrace⟩ := pspCommand_reads host (countPsp m)
  refine ⟨ws, hws, ?_⟩
  rw [pspKick_eq, Machine.emit_trace, Machine.modify_trace, htrace, List.append_assoc]
  rfl

/-- A PSP command does not write to the memory of the host. -/
theorem pspKick_dmaWrites (host : Host) (m : Machine) :
    (pspKick host m).dmaWrites = m.dmaWrites := by
  have hcommand (m : Machine) : (pspCommand host m).1.dmaWrites = m.dmaWrites := by
    have hfetch : (pspFetchImage host m (pspPaddr m.npu)
        (m.npu.scratch 9 &&& pspArg2Mask)).1.dmaWrites = m.dmaWrites := by
      unfold pspFetchImage
      dsimp only
      split
      · rfl
      · split <;> rfl
    unfold pspCommand
    dsimp only
    generalize pspFetchImage host m (pspPaddr m.npu) (m.npu.scratch 9 &&& pspArg2Mask) = r
      at hfetch ⊢
    repeat' split
    all_goals simp only [Machine.modify_dmaWrites, hfetch]
  rw [pspKick_eq, Machine.emit_dmaWrites, Machine.modify_dmaWrites, hcommand]
  rfl

/-! ## Register writes -/

/-- A write to the REG BAR that starts no command is a change of one register. -/
inductive PlainWrite (off val : UInt32) : (Npu → Npu) → Prop
  | none : PlainWrite off val id
  | scratch (i : Fin 10) : PlainWrite off val (·.setScratch i val)
  | pwaitmode (hoff : off = regPwaitmode) :
      PlainWrite off val fun npu => { npu with pwaitmode := val }
  | secIntr : PlainWrite off val fun npu => { npu with secIntr := val }
  | pwrmgmtIntr : PlainWrite off val fun npu => { npu with pwrmgmtIntr := val }

/-- What a write to the REG BAR does: a command of the PSP, one of the SMU, or neither. -/
inductive RegBarWrite (host : Host) (m : Machine) : UInt32 → UInt32 → Machine → Prop
  | psp : RegBarWrite host m regPubSecIntr pspNotifyVal
      (pspKick host (m.modify fun npu => { npu with secIntr := pspNotifyVal }))
  | smu : RegBarWrite host m regPubPwrmgmtIr 1
      ((m.modify fun npu => { npu with pwrmgmtIntr := 1 }).modify smuKick)
  | plain {off val : UInt32} {f : Npu → Npu}
      (hpsp : ¬ (off = regPubSecIntr ∧ val = pspNotifyVal))
      (hsmu : ¬ (off = regPubPwrmgmtIr ∧ val = 1)) (h : PlainWrite off val f) :
      RegBarWrite host m off val (m.modify f)

/-- A write to the REG BAR is of one of the kinds. -/
theorem regBarWrite_kind (host : Host) (m : Machine) (off val : UInt32) :
    RegBarWrite host m off val (regBarWrite host m off val) := by
  by_cases hpsp : off = regPubSecIntr ∧ val = pspNotifyVal
  · obtain ⟨rfl, rfl⟩ := hpsp
    have heq := pspNotify_eq host m
    rw [pspNotify, regWrite, if_pos rfl] at heq
    rw [heq]
    exact .psp
  by_cases hsmu : off = regPubPwrmgmtIr ∧ val = 1
  · obtain ⟨rfl, rfl⟩ := hsmu
    rw [regBarWrite, if_neg (by decide), if_neg (by decide), if_pos rfl]
    exact .smu
  have hplain {f : Npu → Npu} (h : PlainWrite off val f) :
      RegBarWrite host m off val (m.modify f) :=
    .plain hpsp hsmu h
  have hscratch {p : Prop} [Decidable p] (i : Fin 10) {m' : Machine}
      (h : RegBarWrite host m off val m') :
      RegBarWrite host m off val (if p then m.modify (·.setScratch i val) else m') := by
    split
    · exact hplain (.scratch i)
    · exact h
  unfold regBarWrite
  dsimp only
  by_cases hwait : off = regPwaitmode
  · rw [if_pos hwait]
    exact hplain (.pwaitmode hwait)
  rw [if_neg hwait]
  by_cases hsec : off = regPubSecIntr
  · rw [if_pos hsec, if_neg fun hval => hpsp ⟨hsec, hval⟩]
    exact hplain .secIntr
  rw [if_neg hsec]
  by_cases hpwr : off = regPubPwrmgmtIr
  · rw [if_pos hpwr, if_neg fun hval => hsmu ⟨hpwr, hval⟩]
    exact hplain .pwrmgmtIntr
  rw [if_neg hpwr]
  iterate 7 apply hscratch
  exact hplain .none

/-! ## Accesses -/

/-- A relation between states that holds of every pass of a kick. -/
structure KeptByPass (host : Host) (ok : ChanIdx → UInt32 → Prop)
    (P : Machine → Machine → Prop) : Prop where
  refl : ∀ m, P m m
  trans : ∀ {m m' m''}, P m m' → P m' m'' → P m m''
  pass : ∀ {m c}, Visited host ok m → (m.npu.chan c).active = true →
    P m (mboxPass host c m).1

/-- A relation that also holds of all else an access to the MBOX BAR can consist of. -/
structure KeptByMbox (host : Host) (ok : ChanIdx → UInt32 → Prop)
    (P : Machine → Machine → Prop) : Prop extends KeptByPass host ok P where
  guest : ∀ {m c ch}, GuestWrite (ok c) (m.npu.chan c) ch → P m (m.modify (·.setChan c ch))

/-- A relation that also holds of all an access to the REG BAR can consist of. -/
structure Kept (host : Host) (ok : ChanIdx → UInt32 → Prop) (P : Machine → Machine → Prop) : Prop
    extends KeptByMbox host ok P where
  reg : ∀ {m val f}, RegWrite val f → P m (m.modify f)
  kick : ∀ {m}, Visited host ok m → P m (pspKick host m)

section Rules

variable {host : Host} {ok : ChanIdx → UInt32 → Prop} {P : Machine → Machine → Prop}
  {m : Machine}

namespace KeptByPass

/-- The induction is on the passes the guard allows; each one leaves the channel active, or the
loop at its end. -/
theorem mboxLoop (h : KeptByPass host ok P) {c : ChanIdx} (fuel : ℕ) (hm : Visited host ok m)
    (hpending : (m.npu.chan c).Pending) : P m (mboxLoop host c fuel m) := by
  induction fuel generalizing m with
  | zero => exact h.refl m
  | succ fuel ih =>
    rw [Xdna.mboxLoop]
    split
    · exact h.refl m
    · rename_i hne
      have hactive : (m.npu.chan c).active = true := hpending.resolve_right hne
      have hpass := h.pass hm hactive
      dsimp only
      split
      · exact h.trans hpass
          (ih (hm.tail (.pass m c hactive)) (mboxPass_pending hm.consistent hactive))
      · exact hpass

/-- The relation holds of every kick. -/
theorem mboxProcess (h : KeptByPass host ok P) (hm : Visited host ok m) (chanIdx : ℕ) :
    P m (mboxProcess host m chanIdx) := by
  unfold Xdna.mboxProcess
  split
  · split
    · exact h.mboxLoop _ hm (.inl ‹_›)
    · exact h.refl m
  · exact h.refl m

end KeptByPass

namespace KeptByMbox

/-- The relation holds of every write to the MBOX BAR. -/
theorem mboxRegWrite (h : KeptByMbox host ok P) (hm : Visited host ok m) {off val : UInt32}
    (hok : ∀ c v, headWrite? barMbox (off, val) = some (c, v) → ok c v) :
    P m (mboxRegWrite host m off val) := by
  unfold Xdna.mboxRegWrite
  cases hoff : chanFromOff off with
  | none => exact h.refl m
  | some p =>
    obtain ⟨c, reg⟩ := p
    dsimp only
    split
    · have hw : GuestWrite (ok c) (m.npu.chan c) { m.npu.chan c with x2iTail := val } :=
        .x2iTail val
      exact h.trans (h.guest hw) (h.mboxProcess (hm.tail (.guest m c hw)) _)
    · split
      · rename_i hreg
        exact h.guest (.i2xHead val (hok c val (by simp [headWrite?, hoff, hreg])))
      · split
        · exact h.guest (.intr val)
        · exact h.refl m

end KeptByMbox

namespace Kept

private theorem regBarWrite (h : Kept host ok P) (hm : Visited host ok m) (off val : UInt32) :
    P m (regBarWrite host m off val) := by
  rcases regBarWrite_cases host m off val with ⟨_, _, heq⟩ | ⟨_, f, hf, heq⟩
  · rw [heq]
    have hintr : P m (m.modify fun npu => { npu with secIntr := val }) := h.reg .secIntr
    exact h.trans hintr (h.kick (hm.tail (.regs m RegWrite.secIntr.regChange)))
  · rw [heq]
    exact h.reg hf

/-- A register access. -/
theorem regWrite (h : Kept host ok P) (hm : Visited host ok m) {bar : Int} {w : UInt32 × UInt32}
    (hok : ∀ p, headWrite? bar w = some p → ok p.1 p.2) : P m (regWrite host bar m w) := by
  unfold Xdna.regWrite
  split
  · exact h.regBarWrite hm ..
  · split
    · rename_i hbar
      subst hbar
      exact h.mboxRegWrite hm fun c v hw => hok (c, v) hw
    · exact h.refl m

private theorem regWrites (h : Kept host ok P) (hm : Visited host ok m) {bar : Int}
    {ws : List (UInt32 × UInt32)} (hok : ∀ p ∈ ws.filterMap (headWrite? bar), ok p.1 p.2) :
    P m (ws.foldl (Xdna.regWrite host bar) m) := by
  induction ws generalizing m with
  | nil => exact h.refl m
  | cons w ws ih =>
    have hw : ∀ p, headWrite? bar w = some p → ok p.1 p.2 := fun p hp =>
      hok p (List.mem_filterMap.mpr ⟨w, by simp, hp⟩)
    refine h.trans (h.regWrite hm hw) (ih (hm.trans (regWrite_acts hm.consistent hw)) ?_)
    intro p hp
    obtain ⟨w', hw', heq⟩ := List.mem_filterMap.mp hp
    exact hok p (List.mem_filterMap.mpr ⟨w', by simp [hw'], heq⟩)

/-- A block write; for the SRAM BAR the relation must hold of a copy. -/
theorem writeBuf (h : Kept host ok P) (hm : Visited host ok m) {bar : Int} {off : UInt32}
    {bytes : List UInt8}
    (hcopy : bar = barSram → off.toNat + bytes.length ≤ barSramSize →
      P m (m.modify (·.sramCopy off.toNat bytes)))
    (hok : ∀ p ∈ (writeWords off bytes).filterMap (headWrite? bar), ok p.1 p.2) :
    P m (mmioWriteBuf host m bar off bytes) := by
  unfold mmioWriteBuf
  split
  · split
    · exact h.refl m
    · exact hcopy ‹_› (by omega)
  · exact h.regWrites hm hok

/-- A relation that also holds of every copy into the SRAM holds of every run. -/
theorem guestRun (h : Kept host ok P)
    (hcopy : ∀ {m : Machine} {off : ℕ} {bytes : List UInt8}, off + bytes.length ≤ barSramSize →
      P m (m.modify (·.sramCopy off bytes)))
    {ops : List GuestOp} (hok : ∀ op ∈ ops, op.HeadsOk ok) : P initial (guestRun host ops) := by
  have hrun (m : Machine) (hm : Visited host ok m) : P m (ops.foldl (guestStep host) m) := by
    induction ops generalizing m with
    | nil => exact h.refl m
    | cons op ops ih =>
      have hop := hok op (by simp)
      have hstep : P m (guestStep host m op) := by
        cases op with
        | read => exact h.refl m
        | readBuf => exact h.refl m
        | write => exact h.writeBuf hm (fun _ hin => hcopy hin) hop
        | writeBuf => exact h.writeBuf hm (fun _ hin => hcopy hin) hop
      exact h.trans hstep (ih (fun op' hop' => hok op' (by simp [hop'])) _
        (hm.trans (guestStep_acts hm.consistent hop)))
  exact hrun initial .refl

end Kept

end Rules

/-! ## Runs of single accesses -/

/-- A value that the access writes to an `i2x` head register is among the permitted ones. -/
def Access.HeadOk (ok : ChanIdx → UInt32 → Prop) : Access → Prop
  | .word bar w => ∀ p, headWrite? bar w = some p → ok p.1 p.2
  | .sram .. => True

/-- Every value may be permitted. -/
theorem Access.headOk_true (a : Access) : a.HeadOk fun _ _ => True := by
  cases a with
  | sram => trivial
  | word => exact fun _ _ => trivial

/-- The accesses of an operation write the heads that the operation writes. -/
theorem GuestOp.HeadsOk.access {ok : ChanIdx → UInt32 → Prop} {op : GuestOp} (h : op.HeadsOk ok)
    {a : Access} (ha : a ∈ op.accesses) : a.HeadOk ok := by
  have hblock {bar : Int} {off : UInt32} {bytes : List UInt8} {a : Access}
      (h : ∀ p ∈ (writeWords off bytes).filterMap (headWrite? bar), ok p.1 p.2)
      (ha : a ∈ blockAccesses bar off bytes) : a.HeadOk ok := by
    unfold blockAccesses at ha
    split at ha
    · rw [List.mem_singleton.mp ha]
      trivial
    · obtain ⟨w, hw, rfl⟩ := List.mem_map.mp ha
      exact fun p hp => h p (List.mem_filterMap.mpr ⟨w, hw, hp⟩)
  cases op with
  | read => cases ha
  | readBuf => cases ha
  | write => exact hblock h ha
  | writeBuf => exact hblock h ha

/-- An access is a sequence of acts. -/
theorem accessStep_acts {host : Host} {ok : ChanIdx → UInt32 → Prop} {m : Machine}
    (hm : Consistent m.npu) {a : Access} (ha : a.HeadOk ok) :
    Acts host ok m (accessStep host m a) := by
  cases a with
  | sram off bytes =>
    refine @guestStep_acts host ok m (.writeBuf barSram off bytes) hm fun p hp => ?_
    obtain ⟨w, _, hw⟩ := List.mem_filterMap.mp hp
    rw [headWrite?, if_neg (by decide)] at hw
    cases hw
  | word bar w => exact regWrite_acts hm ha

/-- A run of accesses ends in a state of a run. -/
theorem accessRun_visited {host : Host} {ok : ChanIdx → UInt32 → Prop} {as : List Access}
    (h : ∀ a ∈ as, a.HeadOk ok) : Visited host ok (accessRun host as) := by
  induction as using List.reverseRecOn with
  | nil => exact .refl
  | append_singleton as a ih =>
    have has := ih fun a' ha' => h a' (by simp [ha'])
    rw [accessRun_append]
    exact has.trans (accessStep_acts has.consistent (h a (by simp)))

/-- The same without a condition on the heads. -/
theorem accessRun_visited_true (host : Host) (as : List Access) :
    Visited host (fun _ _ => True) (accessRun host as) :=
  accessRun_visited fun a _ => a.headOk_true

end Xdna
