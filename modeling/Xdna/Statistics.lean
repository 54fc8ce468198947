import Xdna.SmuHistory

/-!
# The report of the device

What `xdna_npu_get_stats` reports at the end of a run, said in terms of what the guest has
done and what the host has seen: kicks, calls of the message handler, replies, interrupts.
-/

namespace Xdna

open EventSourcing

/-! ## What is counted -/

private theorem Counters.apply_eq (n : Counters) (e : Event) : n.apply e =
    { pspCmds := (n.apply e).pspCmds
      mboxMsgsIn := if e.isHandle then n.mboxMsgsIn + 1 else n.mboxMsgsIn
      mboxMsgsOut := if e.isReply then n.mboxMsgsOut + 1 else n.mboxMsgsOut
      irqsRaised := if e.isInterrupt then n.irqsRaised + 1 else n.irqsRaised } := by
  cases e with
  | send _ _ _ _ sent => cases sent <;> rfl
  | _ => rfl

private theorem iterate_succ_zero (n : ℕ) : (· + 1)^[n] (0 : UInt64) = UInt64.ofNat n := by
  induction n with
  | zero => rfl
  | succ n ih => rw [Function.iterate_succ_apply', ih, UInt64.ofNat_add, UInt64.ofNat_one]

private theorem smuKicks_length (host : Host) (as : List Access) :
    (smuKicks host as).length = as.count smuKickAccess := by
  induction as using List.reverseRecOn with
  | nil => rfl
  | append_singleton as a ih =>
    rw [smuKicks_append, List.length_append, ih, List.count_append, List.count_singleton]
    by_cases ha : a = smuKickAccess
    · simp [ha]
    · simp [ha]

/-! ## Counters over runs -/

/-- Interrupts go with replies, and commands of the PSP with neither. -/
structure SameCommands (host : Host) (st st' : Stats) : Prop where
  pspCmds : st'.pspCmds = st.pspCmds
  irqsRaised : st.irqsRaised = (if host.raiseIrq then st.mboxMsgsOut else 0) →
    st'.irqsRaised = if host.raiseIrq then st'.mboxMsgsOut else 0

namespace SameCommands

variable {host : Host} {st st' st'' : Stats}

private theorem of_eq (hpsp : st'.pspCmds = st.pspCmds) (hout : st'.mboxMsgsOut = st.mboxMsgsOut)
    (hirqs : st'.irqsRaised = st.irqsRaised) : SameCommands host st st' :=
  ⟨hpsp, fun h => by rw [hirqs, hout, h]⟩

private theorem of_counters (h : st'.counters = st.counters) : SameCommands host st st' :=
  of_eq (congrArg Counters.pspCmds h) (congrArg Counters.mboxMsgsOut h)
    (congrArg Counters.irqsRaised h)

private theorem trans (h : SameCommands host st st') (h' : SameCommands host st' st'') :
    SameCommands host st st'' :=
  ⟨h'.pspCmds.trans h.pspCmds, fun heq => h'.irqsRaised (h.irqsRaised heq)⟩

/-- A reply counts no command. -/
theorem sentBy (host : Host) (st : Stats) : SameCommands host st (st.sentBy host) := by
  unfold Stats.sentBy
  constructor
  · split <;> rfl
  · intro h
    split
    · rename_i hraise
      rw [if_pos hraise] at h
      dsimp only
      rw [h]
    · rename_i hraise
      rw [if_neg hraise] at h
      exact h

end SameCommands

private theorem answerWith_sameCommands (host : Host) (c : ChanIdx) (hdr : MsgHeader)
    (r : Machine × Option Answer) :
    SameCommands host r.1.npu.stats (answerWith host c hdr r).npu.stats := by
  rcases answerWith_stats host c hdr r with h | h <;> rw [h]
  · exact .of_eq rfl rfl rfl
  · exact .sentBy host _

private theorem sameCommands_keptByMbox (host : Host) (ok : ChanIdx → UInt32 → Prop) :
    KeptByMbox host ok fun m m' => SameCommands host m.npu.stats m'.npu.stats where
  refl _ := .of_eq rfl rfl rfl
  trans := .trans
  guest _ := .of_eq rfl rfl rfl
  pass {m c} hm hactive := by
    have hform := mboxPass_form host hm.consistent hm.headsOk hactive
    generalize (mboxPass host c m).1 = m' at hform ⊢
    cases hform with
    | search _ hnpu _ =>
      refine .of_counters ?_
      rcases hnpu with hnpu | hnpu <;> rw [hnpu]
      rfl
    | message size _ =>
      have htaken : SameCommands host m.npu.stats (takenFrame m c size).npu.stats :=
        .of_eq rfl rfl rfl
      have houtcome : SameCommands host (takenFrame m c size).npu.stats
          (headOutcome host m c size).1.npu.stats :=
        .of_counters (mertOutcome_effect ..).counters
      exact (htaken.trans houtcome).trans (answerWith_sameCommands ..)

private theorem accessStep_sameCommands (host : Host) {m : Machine}
    (hm : Visited host (fun _ _ => True) m) {a : Access} (ha : a ≠ kickAccess) :
    SameCommands host m.npu.stats (accessStep host m a).npu.stats := by
  cases a with
  | sram off bytes =>
    rw [accessStep, mmioWriteBuf, if_pos rfl]
    split
    · exact .of_eq rfl rfl rfl
    · exact .of_eq rfl rfl rfl
  | word bar w =>
    rw [accessStep, regWrite]
    split
    · rename_i hbar
      rcases regBarWrite_cases host m w.1 w.2 with ⟨hoff, hval, _⟩ | ⟨_, f, hf, heq⟩
      · exact absurd (by rw [kickAccess, hbar, ← hoff, ← hval]) ha
      · rw [heq]
        exact .of_counters (hf.counters m.npu)
    · split
      · exact (sameCommands_keptByMbox host _).mboxRegWrite hm fun _ _ _ => trivial
      · exact .of_eq rfl rfl rfl

private theorem kick_counters (host : Host) (m : Machine) :
    (accessStep host m kickAccess).npu.stats.counters =
      { m.npu.stats.counters with pspCmds := m.npu.stats.pspCmds + 1 } := by
  have hstep : accessStep host m kickAccess =
      pspKick host (m.modify fun npu => { npu with secIntr := pspNotifyVal }) := pspNotify_eq host m
  rw [hstep, pspKick_eq]
  exact (pspCommand_result host
    (countPsp (m.modify fun npu => { npu with secIntr := pspNotifyVal }))).books.1

/-- What is known of the commands and interrupts after the accesses `as`. -/
theorem accessRun_commands (host : Host) (as : List Access) :
    (accessRun host as).npu.stats.pspCmds = UInt64.ofNat (as.count kickAccess) ∧
      (accessRun host as).npu.stats.irqsRaised =
        if host.raiseIrq then (accessRun host as).npu.stats.mboxMsgsOut else 0 := by
  induction as using List.reverseRecOn with
  | nil =>
    refine ⟨rfl, ?_⟩
    split <;> rfl
  | append_singleton as a ih =>
    obtain ⟨hpsp, hirqs⟩ := ih
    rw [accessRun_append, List.count_append, List.count_singleton]
    by_cases ha : a = kickAccess
    · subst ha
      have hcounters := kick_counters host (accessRun host as)
      constructor
      · refine (congrArg Counters.pspCmds hcounters).trans ?_
        rw [if_pos (beq_self_eq_true _), UInt64.ofNat_add, ← hpsp]
        rfl
      · refine (congrArg Counters.irqsRaised hcounters).trans (hirqs.trans ?_)
        rw [show (accessStep host (accessRun host as) kickAccess).npu.stats.mboxMsgsOut =
          (accessRun host as).npu.stats.mboxMsgsOut from congrArg Counters.mboxMsgsOut hcounters]
    · have hsame := accessStep_sameCommands host (accessRun_visited_true host as) ha
      refine ⟨?_, hsame.irqsRaised hirqs⟩
      rw [hsame.pspCmds, hpsp, if_neg (by simpa using ha), Nat.add_zero]

/-! ## The report -/

private theorem traced_counter (host : Host) (ops : List GuestOp) (p : Event → Bool)
    (get : Counters → UInt64) (hget : get npuReset.stats.counters = 0)
    (hp : ∀ n e, get (n.apply e) = if p e then get n + 1 else get n) :
    get (guestRun host ops).npu.stats.counters =
      UInt64.ofNat ((guestRun host ops).trace.countP p) := by
  have hmoves : counterSource.Moves initial (guestRun host ops) :=
    (counters_kept host fun _ _ => True).guestRun (fun _ => .of_eq rfl rfl)
      fun op _ => op.headsOk_true
  have hpart : (guestRun host ops).npu.stats.counters =
      (guestRun host ops).trace.foldl Counters.apply npuReset.stats.counters := hmoves.part_eq rfl
  rw [hpart, foldl_eq_iterate p (· + 1) hp, hget, iterate_succ_zero]

/-- What `xdna_npu_get_stats` reports after the run `ops`. -/
structure ReportOf (host : Host) (ops : List GuestOp) (report : StatsReport) : Prop where
  pspCmds : report.pspCmds = UInt64.ofNat ((ops.flatMap GuestOp.accesses).count kickAccess)
  smuCmds : report.smuCmds = UInt64.ofNat ((ops.flatMap GuestOp.accesses).count smuKickAccess)
  mboxMsgsIn : report.mboxMsgsIn = UInt64.ofNat ((guestRun host ops).trace.countP Event.isHandle)
  mboxMsgsOut : report.mboxMsgsOut = UInt64.ofNat ((guestRun host ops).trace.countP Event.isReply)
  irqsRaised : report.irqsRaised =
    UInt64.ofNat ((guestRun host ops).trace.countP Event.isInterrupt)
  /-- Each reply raises one interrupt, if the host has a callback for it. -/
  announced : report.irqsRaised = if host.raiseIrq then report.mboxMsgsOut else 0
  activeContexts : report.activeContexts.toNat = (validSlots (guestRun host ops).npu).card
  fwAlive : report.fwAlive = true ↔ ∃ k, mostRecent Kick.switches
    (kicks host (ops.flatMap GuestOp.accesses)) = some k ∧ k.starts = true
  powerOn : report.powerOn =
    (lastOf SmuKick.power? (smuKicks host (ops.flatMap GuestOp.accesses))).getD false

/-- The report is right after every run. -/
theorem guestRun_report (host : Host) (ops : List GuestOp) :
    ReportOf host ops (getStats (guestRun host ops).npu) := by
  have hruns := guestRun_accesses host ops
  have hsmu := accessRun_smuLaw host (ops.flatMap GuestOp.accesses)
  have hcommands := accessRun_commands host (ops.flatMap GuestOp.accesses)
  rw [← hruns] at hcommands
  refine ⟨hcommands.1, ?_, ?_, ?_, ?_, hcommands.2, (guestRun_consistent host ops).count, ?_, ?_⟩
  · rw [← smuKicks_length host, ← hsmu.smuCmds, ← hruns]
    rfl
  · exact traced_counter host ops Event.isHandle Counters.mboxMsgsIn rfl fun n e =>
      congrArg Counters.mboxMsgsIn (Counters.apply_eq n e)
  · exact traced_counter host ops Event.isReply Counters.mboxMsgsOut rfl fun n e =>
      congrArg Counters.mboxMsgsOut (Counters.apply_eq n e)
  · exact traced_counter host ops Event.isInterrupt Counters.irqsRaised rfl fun n e =>
      congrArg Counters.irqsRaised (Counters.apply_eq n e)
  · have halive := (accessRun_pspTracks host (ops.flatMap GuestOp.accesses)).alive
    rwa [← hruns] at halive
  · rw [← hsmu.powerOn, ← hruns]
    rfl

end Xdna
