import Xdna.PspHistory
import Xdna.Renaming

/-!
# Reload and cold start

RELEASE_TMR takes the firmware down, `xdna_npu_reset` the whole device. After VALIDATE and START
the management driver sees the same firmware in both cases, up to the ids of the contexts, but
for the runtime configuration: the reload leaves it as it was.
-/

namespace Xdna

open ByteMemory RingLog GuardedRun

/-! ## PSP commands of the driver -/

/-- The registers that `psp_exec` has written when it kicks the PSP. -/
def commanded (cmd arg0 arg1 arg2 : UInt32) (npu : Npu) : Npu :=
  { (((npu.setScratch 2 cmd).setScratch 3 arg0).setScratch 4 arg1).setScratch 9
      ((arg2 ||| (cmd <<< pspArg2CmdShift)) &&& pspArg2Mask) with secIntr := pspNotifyVal }

private theorem regChange_commanded (cmd arg0 arg1 arg2 : UInt32) (npu : Npu) :
    RegChange npu (commanded cmd arg0 arg1 arg2 npu) := by constructor <;> rfl

/-- The command is in its register. -/
theorem commanded_scratch (cmd arg0 arg1 arg2 : UInt32) (npu : Npu) :
    (commanded cmd arg0 arg1 arg2 npu).scratch 2 = cmd := by
  simp [commanded, Npu.setScratch]

/-- The driver writes the registers of a command, and then the notify value. -/
theorem pspExec_eq (host : Host) (m : Machine) (cmd arg0 arg1 arg2 : UInt32) :
    pspExec host m cmd arg0 arg1 arg2 =
      pspKick host (m.modify (commanded cmd arg0 arg1 arg2)) := by
  have hscratch (m : Machine) (v : UInt32) :
      regBarWrite host m regScratch2 v = m.modify (·.setScratch 2 v) ∧
      regBarWrite host m regScratch3 v = m.modify (·.setScratch 3 v) ∧
      regBarWrite host m regScratch4 v = m.modify (·.setScratch 4 v) ∧
      regBarWrite host m regScratch9 v = m.modify (·.setScratch 9 v) := by
    refine ⟨?_, ?_, ?_, ?_⟩ <;> rw [regBarWrite]
    · iterate 3 rw [if_neg (by decide)]
      exact if_pos rfl
    · iterate 4 rw [if_neg (by decide)]
      exact if_pos rfl
    · iterate 5 rw [if_neg (by decide)]
      exact if_pos rfl
    · iterate 9 rw [if_neg (by decide)]
      exact if_pos rfl
  have hclear (m : Machine) : regBarWrite host m regPubSecIntr 0 =
      m.modify fun npu => { npu with secIntr := 0 } := by
    rw [regBarWrite, if_neg (by decide), if_pos rfl]
    exact if_neg (by decide)
  have hkick (m : Machine) : regBarWrite host m regPubSecIntr pspNotifyVal =
      pspKick host (m.modify fun npu => { npu with secIntr := pspNotifyVal }) := by
    rw [regBarWrite, if_neg (by decide), if_pos rfl]
    exact if_pos rfl
  unfold pspExec
  simp only [wr32_reg, hscratch, hclear, hkick]
  rfl

/-- A PSP command keeps the device consistent. -/
theorem pspExec_consistent (host : Host) {m : Machine} (h : Consistent m.npu)
    (cmd arg0 arg1 arg2 : UInt32) : Consistent (pspExec host m cmd arg0 arg1 arg2).npu := by
  have hacts : Acts host (fun _ _ => True) m (pspExec host m cmd arg0 arg1 arg2) := by
    rw [pspExec_eq]
    exact .tail (.single (.regs m (regChange_commanded cmd arg0 arg1 arg2))) (.psp _)
  exact hacts.consistent h

/-- The image that VALIDATE names. -/
structure Image where
  lo : UInt32
  hi : UInt32
  size : UInt32

/-- The driver sends RELEASE_TMR. -/
def release (host : Host) (m : Machine) : Machine := pspExec host m pspCmdReleaseTmr 0 0 0

/-- The driver sends VALIDATE. -/
def validate (host : Host) (m : Machine) (img : Image) : Machine :=
  pspExec host m pspCmdValidate img.lo img.hi img.size

/-- VALIDATE and START, the latter with the argument `PSP_START_COPY_FW`. -/
def load (host : Host) (m : Machine) (img : Image) : Machine :=
  pspExec host (validate host m img) pspCmdStart 1 0 0

/-- A reload of the firmware. -/
def reload (host : Host) (m : Machine) (img : Image) : Machine := load host (release host m) img

/-- The machine after `xdna_npu_reset`; the host goes on. -/
def coldReset (m : Machine) : Machine := { m with npu := npuReset }

/-- The firmware is loaded after a reset. -/
def coldStart (host : Host) (m : Machine) (img : Image) : Machine := load host (coldReset m) img

/-- After a reset the VALIDATE of the image is answered with 0. -/
def Image.Readable (img : Image) (host : Host) (m : Machine) : Prop :=
  (validate host (coldReset m) img).npu.scratch 3 = 0

variable {host : Host} {m : Machine} {img : Image}

/-- What RELEASE_TMR clears, and what it keeps. -/
structure Released (m m' : Machine) : Prop where
  ctx : ∀ s, (m'.npu.ctx s).valid = false
  rtCfg : m'.npu.rtCfg = m.npu.rtCfg
  nextCtxId : m'.npu.nextCtxId = m.npu.nextCtxId
  dmaReads : m'.dmaReads = m.dmaReads
  dmaWrites : m'.dmaWrites = m.dmaWrites

/-- What RELEASE_TMR leaves behind. -/
theorem release_released (host : Host) (m : Machine) : Released m (release host m) := by
  rw [release, pspExec_eq]
  have hregs := regChange_commanded pspCmdReleaseTmr 0 0 0 m.npu
  obtain ⟨hkick, -, hwrites, hreads, -⟩ := pspKick_release host
    (m := m.modify (commanded pspCmdReleaseTmr 0 0 0)) (commanded_scratch ..)
  refine ⟨fun s => ?_, ?_, ?_, hreads, hwrites⟩
  · rw [hkick.ctx, fwShutdown_ctx]
  · rw [hkick.rtCfg, fwShutdown_rtCfg]
    exact hregs.rtCfg
  · rw [hkick.nextCtxId, fwShutdown_nextCtxId]
    exact hregs.nextCtxId

private theorem pspFetchImage_calls (host : Host) (m : Machine) (paddr : UInt64) (size : UInt32) :
    (pspFetchImage host m paddr size).1.dmaWrites = m.dmaWrites ∧
      ∀ m' : Machine, m'.dmaReads = m.dmaReads →
        (pspFetchImage host m' paddr size).2 = (pspFetchImage host m paddr size).2 := by
  unfold pspFetchImage
  dsimp only
  split
  · exact ⟨rfl, fun _ _ => rfl⟩
  split
  · exact ⟨rfl, fun _ _ => rfl⟩
  · refine ⟨rfl, fun m' h => ?_⟩
    rw [h]

/-- The answer to VALIDATE is that of the image read. -/
theorem pspCommand_validate (host : Host) {m : Machine} (h : m.npu.scratch 2 = pspCmdValidate) :
    (pspCommand host m).2 =
        (pspFetchImage host m (pspPaddr m.npu) (m.npu.scratch 9 &&& pspArg2Mask)).2 ∧
      (pspCommand host m).1.dmaWrites = m.dmaWrites := by
  have hcalls := (pspFetchImage_calls host m (pspPaddr m.npu)
    (m.npu.scratch 9 &&& pspArg2Mask)).1
  unfold pspCommand
  dsimp only
  rw [if_pos h]
  split
  · exact ⟨rfl, hcalls⟩
  · exact ⟨rfl, hcalls⟩

/-- The PSP finds the command VALIDATE. -/
theorem validate_cmd (m : Machine) (img : Image) : (countPsp
    (m.modify (commanded pspCmdValidate img.lo img.hi img.size))).npu.scratch 2 = pspCmdValidate :=
  commanded_scratch pspCmdValidate img.lo img.hi img.size m.npu

/-- The response to VALIDATE is that of the PSP. -/
theorem validate_resp (host : Host) (m : Machine) (img : Image) :
    (validate host m img).npu.scratch 3 = (pspCommand host (countPsp
      (m.modify (commanded pspCmdValidate img.lo img.hi img.size)))).2 := by
  rw [validate, pspExec_eq, pspKick_eq, Machine.emit_npu, Machine.modify_npu,
    (pspComplete_scratch ..).1]

/-- Whether an image is readable depends on the number of reads made so far. -/
theorem Image.Readable.validate (h : img.Readable host m) {m' : Machine}
    (hreads : m'.dmaReads = m.dmaReads) : (validate host m' img).npu.scratch 3 = 0 := by
  unfold Image.Readable at h
  rw [validate_resp, (pspCommand_validate host (validate_cmd ..)).1] at h ⊢
  rw [← h]
  exact (pspFetchImage_calls host _ _ _).2 _ hreads

/-- A successful VALIDATE. -/
theorem validate_validated (h : (validate host m img).npu.scratch 3 = 0) :
    RegChange m.npu (validate host m img).npu ∧
      (validate host m img).npu.pspState = .validated ∧
      (validate host m img).dmaWrites = m.dmaWrites := by
  have hcmd := validate_cmd m img
  have hwrites := (pspCommand_validate host hcmd).2
  have hresult := pspCommand_result host
    (countPsp (m.modify (commanded pspCmdValidate img.lo img.hi img.size)))
  rw [validate_resp] at h
  rw [validate, pspExec_eq, pspKick_eq, Machine.emit_npu, Machine.modify_npu,
    Machine.emit_dmaWrites, Machine.modify_dmaWrites, hwrites]
  generalize pspCommand host (countPsp
    (m.modify (commanded pspCmdValidate img.lo img.hi img.size))) = r at h hresult ⊢
  cases hresult with
  | failed hresp _ _ _ => exact absurd h hresp
  | cert hcert _ =>
    rw [hcmd] at hcert
    exact absurd hcert (by decide)
  | validated _ hnpu =>
    dsimp only
    rw [hnpu]
    exact ⟨by constructor <;> rfl, rfl, rfl⟩
  | started hstart _ _ =>
    rw [hcmd] at hstart
    exact absurd hstart (by decide)
  | released hrelease _ =>
    rw [hcmd] at hrelease
    exact absurd hrelease (by decide)

/-- What a firmware finds that has been loaded into the device `m`. -/
structure Loaded (m m' : Machine) : Prop where
  idle : Idle mgmtDriver m'
  ctx : m'.npu.ctx = m.npu.ctx
  rtCfg : m'.npu.rtCfg = m.npu.rtCfg
  nextCtxId : m'.npu.nextCtxId = m.npu.nextCtxId
  dmaWrites : m'.dmaWrites = m.dmaWrites

/-- What VALIDATE and START leave behind if the image can be read. -/
theorem load_loaded (hcons : Consistent m.npu)
    (hread : (validate host m img).npu.scratch 3 = 0) : Loaded m (load host m img) := by
  obtain ⟨hregs, hstate, hwrites⟩ := validate_validated hread
  have hcons' : Consistent (load host m img).npu :=
    pspExec_consistent host (pspExec_consistent host hcons ..) ..
  have hstart := regChange_commanded pspCmdStart 1 0 0 (validate host m img).npu
  have hload : load host m img =
      pspKick host ((validate host m img).modify (commanded pspCmdStart 1 0 0)) := pspExec_eq ..
  rw [hload] at hcons' ⊢
  rcases pspKick_start host (m := (validate host m img).modify (commanded pspCmdStart 1 0 0))
    (commanded_scratch ..) with ⟨hbad, -⟩ | ⟨-, hboot, hwrites', -, -⟩
  · exact absurd hstate hbad
  · refine ⟨idle_of_boot hboot hcons', ?_, ?_, ?_, ?_⟩
    · rw [hboot.ctx, fwBoot_ctx]
      exact hstart.ctx.trans hregs.ctx
    · rw [hboot.rtCfg, fwBoot_rtCfg]
      exact hstart.rtCfg.trans hregs.rtCfg
    · rw [hboot.nextCtxId, fwBoot_nextCtxId]
      exact hstart.nextCtxId.trans hregs.nextCtxId
    · rw [hwrites']
      exact hwrites

/-! ## Transactions -/

/-- The reply that the driver reads to a request. -/
def Pair.reply (host : Host) (st : Pair) (q : Request) : Option Frame := (st.sendRecv host q).2.2

variable {st st' : Pair} {q : Request}

/-- The driver has refused the request. -/
structure Unsent (host : Host) (st : Pair) (q : Request) : Prop where
  fw : SameFw st.2.npu (transact host st q).2.npu
  dmaWrites : (transact host st q).2.dmaWrites = st.2.dmaWrites
  tail : (transact host st q).1.x2iTail = st.1.x2iTail
  reply : st.reply host q = none

/-- The message handler has been called with the request, on the machine `m₀`. -/
structure Served (host : Host) (st : Pair) (q : Request) (m₀ : Machine) : Prop where
  before : SameFw st.2.npu m₀.npu
  dmaBefore : m₀.dmaWrites = st.2.dmaWrites
  tail : (transact host st q).1.x2iTail = emptyNext st.1.x2iTail (16 + q.payload.length)
  reply : st.reply host q = (mertOutcome host m₀ q.header (Memory.ofBytes q.payload)).2.map
    fun a => replyFrame q.id q.opcode a.2
  after : SameFw (mertOutcome host m₀ q.header (Memory.ofBytes q.payload)).1.npu
    (transact host st q).2.npu
  dmaAfter : (transact host st q).2.dmaWrites =
    (mertOutcome host m₀ q.header (Memory.ofBytes q.payload)).1.dmaWrites

/-- Which of the two it is depends on the place for the request. -/
theorem Idle.transact_cases (host : Host) (h : Idle st.1 st.2) (hq : Sendable q.payload) :
    (emptyPlace st.1.x2iTail.toNat (16 + q.payload.length) = none → Unsent host st q) ∧
      (emptyPlace st.1.x2iTail.toNat (16 + q.payload.length) ≠ none →
        ∃ m₀, Served host st q m₀) := by
  have htrans := (h.sendRecv host hq).1
  obtain ⟨r, hr⟩ : ∃ r, st.sendRecv host q = r := ⟨_, rfl⟩
  have hstep : transact host st q = (r.1, r.2.1) := by rw [transact, hr]
  have hreply : st.reply host q = r.2.2 := by rw [Pair.reply, hr]
  rw [hr] at htrans
  cases htrans with
  | refused m' hplace hfw hdma =>
    refine ⟨fun _ => ⟨?_, ?_, ?_, hreply⟩, fun hne => absurd hplace hne⟩
    · rw [hstep]
      exact hfw
    · rw [hstep]
      exact hdma
    · rw [hstep]
  | served m₀ m' reply hplace hcons hfw hdma hmap hfw' hdma' =>
    refine ⟨fun hnone => absurd hnone hplace, fun _ => ⟨m₀, hfw, hdma, ?_, ?_, ?_, ?_⟩⟩
    · rw [hstep]
      rfl
    · rw [hreply]
      exact hmap
    · rw [hstep]
      exact hfw'
    · rw [hstep]
      exact hdma'

/-! ## The two runs -/

/-- The replies to requests that the driver sends one after the other, from a load on. -/
def replySequence (host : Host) (m : Machine) (qs : List Request) : List (Option Frame) :=
  outputs (transact host) (Pair.reply host) (mgmtDriver, m) qs

/-- The renamed requests have on `m'` the replies that the requests have on `m`, renamed. -/
def SameReplies (host : Host) (σ : Equiv.Perm UInt32) (m m' : Machine) (qs : List Request) :
    Prop :=
  replySequence host m' (qs.map (·.rename σ)) =
    (replySequence host m qs).map (Option.map (·.rename σ))

/-- What requests make of a configuration that was there before them: where the driver writes the
next request, and the entries that none has set yet. -/
structure Leftover where
  tail : UInt32
  cfg : Fin 64 → UInt64

/-- The driver finds a place for the request. -/
def Leftover.Accepts (l : Leftover) (q : Request) : Prop :=
  emptyPlace l.tail.toNat (16 + q.payload.length) ≠ none

instance (l : Leftover) (q : Request) : Decidable (l.Accepts q) :=
  inferInstanceAs (Decidable (_ ≠ _))

/-- What is left over after a request. -/
def Leftover.next (l : Leftover) (q : Request) : Leftover :=
  if l.Accepts q then
    { tail := emptyNext l.tail (16 + q.payload.length)
      cfg := match q.sets? with
        | none => l.cfg
        | some (i, _) => Function.update l.cfg i 0 }
  else l

/-- The request does not read an entry that was there before, unless it is zero. -/
def Leftover.Unread (l : Leftover) (q : Request) : Prop :=
  l.Accepts q → ∀ i, q.reads? = some i → l.cfg i = 0

instance : DecidableRel Leftover.Unread := fun l q =>
  inferInstanceAs (Decidable (l.Accepts q → ∀ i, q.reads? = some i → l.cfg i = 0))

/-- Between two transactions: the run `st` from a cold start, and the run `st'` from a reload. -/
structure InStep (st st' : Pair) (l : Leftover) : Prop where
  idle : Idle st.1 st.2
  idle' : Idle st'.1 st'.2
  tail : st.1.x2iTail = l.tail
  tail' : st'.1.x2iTail = l.tail
  cfg : ∀ i, st'.2.npu.rtCfg i = st.2.npu.rtCfg i ↔ l.cfg i = 0

private theorem Request.rename_sets? (σ : Equiv.Perm UInt32) : (q.rename σ).sets? = q.sets? := by
  by_cases h : q.NamesContext
  · have hne : q.opcode ≠ MsgOpcode.setRuntimeConfig.code := by
      rcases h with hop | hop | hop <;> rw [hop] <;> decide
    have hnone : q.sets? = none := dif_neg fun hs => hne hs.1.1
    have hnone' : (q.rename σ).sets? = none :=
      dif_neg fun hs => hne (Request.rename_opcode.symm.trans hs.1.1)
    rw [hnone, hnone']
  · rw [Request.rename_of_not h]

private theorem Request.rename_of_reads (σ : Equiv.Perm UInt32) {i : Fin 64}
    (h : q.reads? = some i) : q.rename σ = q := by
  unfold Request.reads? at h
  dsimp only at h
  split at h
  · rename_i hop
    apply Request.rename_of_not
    unfold Request.NamesContext
    rw [hop.1.1]
    decide
  · cases h

/-- Both runs set the same entry to the same value. -/
theorem Served.cfg {m₀ m₀' : Machine} {σ : Equiv.Perm UInt32} {l : Leftover}
    (h : Served host st q m₀) (h' : Served host st' (q.rename σ) m₀') (hq : Sendable q.payload)
    (hacc : l.Accepts q)
    (hcfg : ∀ i, st'.2.npu.rtCfg i = st.2.npu.rtCfg i ↔ l.cfg i = 0) (i : Fin 64) :
    (transact host st' (q.rename σ)).2.npu.rtCfg i = (transact host st q).2.npu.rtCfg i ↔
      (l.next q).cfg i = 0 := by
  rw [h.after.rtCfg, h'.after.rtCfg, mertOutcome_rtCfg host m₀ hq,
    mertOutcome_rtCfg host m₀' (Request.rename_sendable σ hq), h.before.rtCfg, h'.before.rtCfg,
    Request.configure, Request.configure, Request.rename_sets?, Leftover.next, if_pos hacc]
  cases q.sets? with
  | none => exact hcfg i
  | some p =>
    dsimp only
    by_cases hi : i = p.1
    · rw [hi, Function.update_self, Function.update_self, Function.update_self]
      exact iff_of_true rfl rfl
    · rw [Function.update_of_ne hi, Function.update_of_ne hi, Function.update_of_ne hi]
      exact hcfg i

/-- One transaction of both runs, under any renaming. Where the replies agree, nothing is read of
the configuration that was there before. -/
theorem InStep.step (host : Host) (σ : Equiv.Perm UInt32) {l : Leftover} (h : InStep st st' l)
    (hq : Sendable q.payload) :
    InStep (transact host st q) (transact host st' (q.rename σ)) (l.next q) ∧
      (st'.reply host (q.rename σ) = (st.reply host q).map (·.rename σ) → l.Unread q) := by
  have hq' := Request.rename_sendable σ hq
  have hidle := (h.idle.sendRecv host hq).2
  have hidle' := (h.idle'.sendRecv host hq').2
  obtain ⟨hunsent, hserved⟩ := h.idle.transact_cases host hq
  obtain ⟨hunsent', hserved'⟩ := h.idle'.transact_cases host hq'
  rw [h.tail] at hunsent hserved
  rw [h.tail', Request.rename_length σ hq] at hunsent' hserved'
  by_cases hacc : l.Accepts q
  · obtain ⟨m₀, hs⟩ := hserved hacc
    obtain ⟨m₀', hs'⟩ := hserved' hacc
    refine ⟨⟨hidle, hidle', ?_, ?_, hs.cfg hs' hq hacc h.cfg⟩, fun heq _ i hi => ?_⟩
    · rw [hs.tail, h.tail, Leftover.next, if_pos hacc]
    · rw [hs'.tail, h.tail', Request.rename_length σ hq, Leftover.next, if_pos hacc]
    · rw [hs.reply, hs'.reply, Request.rename_of_reads σ hi, mertOutcome_reads host m₀ hq hi,
        mertOutcome_reads host m₀' hq hi, Option.map_some, Option.map_some, Option.map_some,
        Option.some.injEq] at heq
      have hop : q.opcode ≠ MsgOpcode.createContext.code := by
        intro hcreate
        unfold Request.reads? at hi
        dsimp only at hi
        rw [dif_neg fun hr => absurd (hcreate.symm.trans hr.1.1) (by decide)] at hi
        cases hi
      have hpayload := congrArg Frame.payload heq
      dsimp only [replyFrame, Frame.rename] at hpayload
      rw [renameReply_of_ne (show (replyHeader q.id q.opcode _).opcode ≠ _ from hop)] at hpayload
      have hvalue := le64_injective (List.append_cancel_left hpayload)
      rw [hs.before.rtCfg, hs'.before.rtCfg] at hvalue
      exact (h.cfg i).mp hvalue
  · have hnone := not_not.mp hacc
    have hs := hunsent hnone
    have hs' := hunsent' hnone
    refine ⟨⟨hidle, hidle', ?_, ?_, fun i => ?_⟩, fun _ hacc' => absurd hacc' hacc⟩
    · rw [hs.tail, h.tail, Leftover.next, if_neg hacc]
    · rw [hs'.tail, h.tail', Leftover.next, if_neg hacc]
    · rw [hs.fw.rtCfg, hs'.fw.rtCfg, Leftover.next, if_neg hacc]
      exact h.cfg i

/-- A transaction of two devices whose contexts are renamed: they stay so, and the replies agree
unless something is read of the configuration that was there before. -/
theorem InStep.renamed (host : Host) {σ : Equiv.Perm UInt32} (hσ : ∀ k, σ (k + 1) = σ k + 1)
    {l : Leftover} (h : InStep st st' l) (hctx : RenamedContexts σ st.2.npu st'.2.npu)
    (hdma : st'.2.dmaWrites = st.2.dmaWrites) (hq : Sendable q.payload) (hread : l.Unread q) :
    st'.reply host (q.rename σ) = (st.reply host q).map (·.rename σ) ∧
      RenamedContexts σ (transact host st q).2.npu (transact host st' (q.rename σ)).2.npu ∧
      (transact host st' (q.rename σ)).2.dmaWrites = (transact host st q).2.dmaWrites := by
  have hq' := Request.rename_sendable σ hq
  obtain ⟨hunsent, hserved⟩ := h.idle.transact_cases host hq
  obtain ⟨hunsent', hserved'⟩ := h.idle'.transact_cases host hq'
  rw [h.tail] at hunsent hserved
  rw [h.tail', Request.rename_length σ hq] at hunsent' hserved'
  by_cases hacc : l.Accepts q
  · obtain ⟨m₀, hs⟩ := hserved hacc
    obtain ⟨m₀', hs'⟩ := hserved' hacc
    have hctx₀ : RenamedContexts σ m₀.npu m₀'.npu :=
      hctx.congr hs.before.ctx hs.before.nextCtxId hs'.before.ctx hs'.before.nextCtxId
    obtain ⟨hstep, hcalls⟩ := hctx₀.mertOutcome host hσ
      (hs'.dmaBefore.trans (hdma.trans hs.dmaBefore.symm)) hq fun i hi => by
        rw [hs.before.rtCfg, hs'.before.rtCfg]
        exact (h.cfg i).mpr (hread hacc i hi)
    have hreply := hs.reply
    have hreply' := hs'.reply
    have hafter := hs.after
    have hafter' := hs'.after
    have hcalls₀ := hs.dmaAfter
    have hcalls' := hs'.dmaAfter
    rw [Request.rename_header σ hq] at hreply' hafter' hcalls'
    rw [Request.rename_id, Request.rename_opcode] at hreply'
    refine ⟨?_, ?_, ?_⟩
    · rw [hreply, hreply']
      have hanswers := hstep.reply
      have hshape := @mertOutcome_wellShaped host m₀ q.header (Memory.ofBytes q.payload)
      dsimp only at hanswers
      generalize (mertOutcome host m₀ q.header (Memory.ofBytes q.payload)).2 = a
        at hanswers hshape ⊢
      generalize (mertOutcome host m₀' q.header (Memory.ofBytes (q.rename σ).payload)).2 = a'
        at hanswers ⊢
      cases a with
      | none =>
        rw [Option.map_none, Option.map_eq_none_iff] at hanswers
        rw [hanswers]
        rfl
      | some b =>
        obtain ⟨b', rfl, hb⟩ := Option.map_eq_some_iff.mp hanswers
        have hlen : b.2.length = (respSizeFor q.opcode).1 := (hshape rfl).1
        simp only [Option.map_some, hb, replyFrame_renameReply hlen]
    · exact hstep.contexts.congr hafter.ctx hafter.nextCtxId hafter'.ctx hafter'.nextCtxId
    · rw [hcalls₀, hcalls', hcalls]
  · have hnone := not_not.mp hacc
    have hs := hunsent hnone
    have hs' := hunsent' hnone
    refine ⟨?_, ?_, ?_⟩
    · rw [hs.reply, hs'.reply]
      rfl
    · exact hctx.congr hs.fw.ctx hs.fw.nextCtxId hs'.fw.ctx hs'.fw.nextCtxId
    · rw [hs.dmaWrites, hs'.dmaWrites, hdma]

/-! ## Reload against cold start -/

/-- The renaming that adds `d` to every id. -/
def shift (d : UInt32) : Equiv.Perm UInt32 where
  toFun k := k + d
  invFun k := k - d
  left_inv k := UInt32.add_sub_cancel k d
  right_inv k := UInt32.sub_add_cancel k d

private theorem shift_succ (d k : UInt32) : shift d (k + 1) = shift d k + 1 := by
  change k + 1 + d = k + d + 1
  rw [UInt32.add_assoc, UInt32.add_comm 1 d, ← UInt32.add_assoc]

private theorem Image.Readable.inStep (h : img.Readable host m) (hcons : Consistent m.npu) :
    InStep (mgmtDriver, coldStart host m img) (mgmtDriver, reload host m img) ⟨0, m.npu.rtCfg⟩ ∧
      RenamedContexts (shift (m.npu.nextCtxId - 1)) (coldStart host m img).npu
        (reload host m img).npu ∧
      (reload host m img).dmaWrites = (coldStart host m img).dmaWrites := by
  have hreleased := release_released host m
  have hcold : Loaded (coldReset m) (coldStart host m img) := load_loaded consistent_npuReset h
  have hwarm : Loaded (release host m) (reload host m img) :=
    load_loaded (pspExec_consistent host hcons ..) (h.validate hreleased.dmaReads)
  refine ⟨⟨hcold.idle, hwarm.idle, rfl, rfl, fun i => ?_⟩, ⟨fun s => ?_, fun s hs => ?_, ?_⟩, ?_⟩
  · have hzero : (coldReset m).npu.rtCfg i = 0 := by
      rw [coldReset, npuReset_eq]
      rfl
    dsimp only
    rw [hwarm.rtCfg, hreleased.rtCfg, hcold.rtCfg, hzero]
  · rw [hwarm.ctx, hreleased.ctx, hcold.ctx, coldReset, npuReset_ctx]
  · rw [hcold.ctx, coldReset, npuReset_ctx] at hs
    cases hs
  · have hone : (coldReset m).npu.nextCtxId = 1 := by
      rw [coldReset, npuReset_eq]
    rw [hwarm.nextCtxId, hreleased.nextCtxId, hcold.nextCtxId, hone]
    change m.npu.nextCtxId = 1 + (m.npu.nextCtxId - 1)
    rw [UInt32.add_comm, UInt32.sub_add_cancel]
  · rw [hwarm.dmaWrites, hreleased.dmaWrites, hcold.dmaWrites]
    rfl

/-- Where the replies agree under some renaming, no old entry is read. -/
theorem Image.Readable.guarded (h : img.Readable host m) (hcons : Consistent m.npu)
    {qs : List Request} (hqs : ∀ q ∈ qs, Sendable q.payload) {σ : Equiv.Perm UInt32}
    (hsame : SameReplies host σ (coldStart host m img) (reload host m img) qs) :
    Guarded Leftover.next Leftover.Unread ⟨0, m.npu.rtCfg⟩ qs := by
  unfold SameReplies replySequence at hsame
  refine guarded_of_outputs_eq (R := fun st' st l => InStep st st' l) ?_ (h.inStep hcons).1 hsame
  intro st' st l q hmem hR
  exact hR.step host σ (hqs q hmem)

/-- Where no old entry is read, the replies agree. -/
theorem Image.Readable.sameReplies (h : img.Readable host m) (hcons : Consistent m.npu)
    {qs : List Request} (hqs : ∀ q ∈ qs, Sendable q.payload)
    (hguarded : Guarded Leftover.next Leftover.Unread ⟨0, m.npu.rtCfg⟩ qs) :
    SameReplies host (shift (m.npu.nextCtxId - 1)) (coldStart host m img) (reload host m img)
      qs := by
  obtain ⟨hstep, hctx, hdma⟩ := h.inStep hcons
  unfold SameReplies replySequence
  refine outputs_eq_of_guarded (R := fun st' st l => InStep st st' l ∧
    RenamedContexts (shift (m.npu.nextCtxId - 1)) st.2.npu st'.2.npu ∧
    st'.2.dmaWrites = st.2.dmaWrites) ?_ ⟨hstep, hctx, hdma⟩ hguarded
  rintro st' st l q hmem ⟨hR, hctx, hdma⟩ hread
  obtain ⟨hreply, hctx', hdma'⟩ :=
    hR.renamed host (shift_succ _) hctx hdma (hqs q hmem) hread
  exact ⟨⟨(hR.step host _ (hqs q hmem)).1, hctx', hdma'⟩, hreply⟩

/-- After any history, the requests that follow a reload have the replies that they have after a
cold start, up to a renaming of the contexts, if and only if none reads an entry of the
configuration that was not zero at the reload and that no request has set since. -/
theorem reload_sameReplies_iff (host : Host) (ops : List GuestOp) {img : Image}
    (hread : img.Readable host (guestRun host ops)) {qs : List Request}
    (hqs : ∀ q ∈ qs, Sendable q.payload) :
    (∃ σ, SameReplies host σ (coldStart host (guestRun host ops) img)
      (reload host (guestRun host ops) img) qs) ↔
    Guarded Leftover.next Leftover.Unread ⟨0, (guestRun host ops).npu.rtCfg⟩ qs := by
  have hcons := guestRun_consistent host ops
  constructor
  · rintro ⟨σ, hsame⟩
    exact hread.guarded hcons hqs hsame
  · intro hguarded
    exact ⟨_, hread.sameReplies hcons hqs hguarded⟩

/-- A request to set an entry of the configuration. -/
def configRequest (type : UInt32) (value : UInt64) : Request := ⟨1, 0x10A, le32 type ++ le64 value⟩

/-- A request to read an entry of the configuration. -/
def readRequest (type : UInt32) : Request := ⟨2, 0x10B, le32 type⟩

/-- A boot, and a message that sets the entry 2 of the configuration to 7. -/
def configOps : List GuestOp :=
  validateOps ++
  [.write barReg regPubSecIntr 1 4,
    .writeBuf barSram sramMgmtX2iOff
      ((requestHeader 1 0x10A 12).encode ++ (configRequest 2 7).payload),
    .write barMbox mboxX2iTailOff 28 4]

private theorem readable_configOps :
    Image.Readable ⟨0, 0, 0x100⟩ .accepting (guestRun .accepting configOps) := by
  unfold Image.Readable
  decide +kernel

/-- The entry is set again before it is read. -/
theorem reload_sameReplies_configOps :
    ∃ σ, SameReplies .accepting σ
      (coldStart .accepting (guestRun .accepting configOps) ⟨0, 0, 0x100⟩)
      (reload .accepting (guestRun .accepting configOps) ⟨0, 0, 0x100⟩)
      [configRequest 2 5, readRequest 2] := by
  refine (reload_sameReplies_iff .accepting configOps readable_configOps ?_).mpr ?_
  · intro q hq
    rcases List.mem_cons.mp hq with rfl | hq
    · exact ⟨rfl, List.cons_ne_nil _ _, by decide⟩
    · rw [List.mem_singleton.mp hq]
      exact ⟨rfl, List.cons_ne_nil _ _, by decide⟩
  · decide +kernel

/-- After a reload the reply carries the old value 7, after a cold start 0. -/
theorem not_reload_sameReplies :
    ¬ ∃ σ, SameReplies .accepting σ
      (coldStart .accepting (guestRun .accepting configOps) ⟨0, 0, 0x100⟩)
      (reload .accepting (guestRun .accepting configOps) ⟨0, 0, 0x100⟩) [readRequest 2] := by
  rintro ⟨σ, hsame⟩
  have hqs : ∀ q ∈ [readRequest 2], Sendable q.payload := by
    intro q hq
    rw [List.mem_singleton.mp hq]
    exact ⟨rfl, List.cons_ne_nil _ _, by decide⟩
  have hguarded := readable_configOps.guarded (guestRun_consistent .accepting configOps) hqs hsame
  revert hguarded
  decide +kernel

end Xdna
