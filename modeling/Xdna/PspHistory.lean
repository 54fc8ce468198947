import Xdna.Start

/-!
# The PSP over whole runs

A run is cut into single accesses, as the MMIO functions carry them out, and every kick
of the PSP leaves a record in a history. What the PSP does and what it remembers is a function
of the most recent kicks of a few kinds, whatever else happens in between.
-/

namespace Xdna

open ByteMemory

/-! ## Single accesses -/

/-- What the device sees of a write: one register word, or one block of the SRAM BAR. -/
inductive Access where
  | word (bar : Int) (w : UInt32 × UInt32)
  | sram (off : UInt32) (bytes : List UInt8)
  deriving DecidableEq

/-- What an access does. -/
def accessStep (host : Host) (m : Machine) : Access → Machine
  | .word bar w => regWrite host bar m w
  | .sram off bytes => mmioWriteBuf host m barSram off bytes

/-- The accesses into which `xdna_npu_mmio_write_buf` cuts a block. -/
def blockAccesses (bar : Int) (off : UInt32) (bytes : List UInt8) : List Access :=
  if bar = barSram then [.sram off bytes] else (writeWords off bytes).map (.word bar)

/-- The accesses that an operation of the guest consists of. -/
def GuestOp.accesses : GuestOp → List Access
  | .read .. => []
  | .write bar off val len => blockAccesses bar off ((le64 val).take (min len 8))
  | .readBuf .. => []
  | .writeBuf bar off bytes => blockAccesses bar off bytes

/-- The machine after a sequence of accesses from reset. -/
def accessRun (host : Host) (as : List Access) : Machine := as.foldl (accessStep host) initial

/-- One access more. -/
theorem accessRun_append (host : Host) (as : List Access) (a : Access) :
    accessRun host (as ++ [a]) = accessStep host (accessRun host as) a := by
  rw [accessRun, List.foldl_append, List.foldl_cons, List.foldl_nil, accessRun]

private theorem foldl_blockAccesses (host : Host) (m : Machine) (bar : Int) (off : UInt32)
    (bytes : List UInt8) :
    (blockAccesses bar off bytes).foldl (accessStep host) m =
      mmioWriteBuf host m bar off bytes := by
  unfold blockAccesses
  split
  · rename_i hbar
    rw [List.foldl_cons, List.foldl_nil, accessStep, hbar]
  · rename_i hbar
    rw [mmioWriteBuf, if_neg hbar, List.foldl_map]
    rfl

/-- The run of the guest is the run of its accesses. -/
theorem guestRun_accesses (host : Host) (ops : List GuestOp) :
    guestRun host ops = accessRun host (ops.flatMap GuestOp.accesses) := by
  unfold guestRun accessRun
  generalize initial = m
  induction ops generalizing m with
  | nil => rfl
  | cons op ops ih =>
    have hop : guestStep host m op = op.accesses.foldl (accessStep host) m := by
      cases op with
      | read => rfl
      | readBuf => rfl
      | write => exact (foldl_blockAccesses ..).symm
      | writeBuf => exact (foldl_blockAccesses ..).symm
    rw [List.foldl_cons, List.flatMap_cons, List.foldl_append, ih, hop]

/-! ## Kicks -/

/-- One kick: the command, the image named by the argument registers, and the response. -/
structure Kick where
  cmd : UInt32
  paddr : UInt64
  size : UInt32
  resp : UInt32

namespace Kick

/-- The kick has validated an image. -/
def validates (k : Kick) : Bool := k.cmd = pspCmdValidate ∧ k.resp = 0

/-- The kick has started the firmware. -/
def starts (k : Kick) : Bool := k.cmd = pspCmdStart ∧ k.resp = 0

/-- The kick has taken the firmware down. -/
def releases (k : Kick) : Bool := k.cmd = pspCmdReleaseTmr

private theorem validates_iff {k : Kick} :
    k.validates = true ↔ k.cmd = pspCmdValidate ∧ k.resp = 0 :=
  decide_eq_true_iff

private theorem starts_iff {k : Kick} : k.starts = true ↔ k.cmd = pspCmdStart ∧ k.resp = 0 :=
  decide_eq_true_iff

private theorem releases_iff {k : Kick} : k.releases = true ↔ k.cmd = pspCmdReleaseTmr :=
  decide_eq_true_iff

/-- The kick changes the state of the PSP. -/
def decides (k : Kick) : Bool := k.validates || k.starts || k.releases

/-- The kick starts or stops the firmware. -/
def switches (k : Kick) : Bool := k.starts || k.releases

end Kick

/-- The write that makes the PSP execute a command. -/
def kickAccess : Access := .word barReg (regPubSecIntr, pspNotifyVal)

/-- The record of a kick in the state `m`. -/
def kickOf (host : Host) (m : Machine) : Kick where
  cmd := m.npu.scratch 2
  paddr := pspPaddr m.npu
  size := m.npu.scratch 9 &&& pspArg2Mask
  resp := (accessStep host m kickAccess).npu.scratch 3

/-- The kicks among the accesses that follow on the state `m`. -/
def kicksFrom (host : Host) : Machine → List Access → List Kick
  | _, [] => []
  | m, a :: as =>
    (if a = kickAccess then [kickOf host m] else []) ++ kicksFrom host (accessStep host m a) as

/-- The kicks of a run from reset, the oldest first. -/
def kicks (host : Host) (as : List Access) : List Kick := kicksFrom host initial as

private theorem kicks_append (host : Host) (as : List Access) (a : Access) :
    kicks host (as ++ [a]) =
      kicks host as ++ if a = kickAccess then [kickOf host (accessRun host as)] else [] := by
  unfold kicks accessRun
  generalize initial = m
  induction as generalizing m with
  | nil => rw [List.nil_append, kicksFrom, kicksFrom, kicksFrom, List.append_nil]; rfl
  | cons b as ih => rw [List.cons_append, kicksFrom, kicksFrom, ih, List.append_assoc,
      List.foldl_cons]

/-- The most recent kick of a kind. -/
def mostRecent (p : Kick → Bool) (ks : List Kick) : Option Kick := (ks.filter p).getLast?

private theorem mostRecent_append (p : Kick → Bool) (ks : List Kick) (k : Kick) :
    mostRecent p (ks ++ [k]) = if p k then some k else mostRecent p ks := by
  rw [mostRecent, List.filter_append]
  by_cases hk : p k = true
  · rw [if_pos hk, List.filter_cons_of_pos hk, List.filter_nil, List.getLast?_append_of_ne_nil _
      (List.cons_ne_nil _ _), List.getLast?_singleton]
  · rw [if_neg hk, List.filter_cons_of_neg hk, List.filter_nil, List.append_nil, mostRecent]

/-! ## What a kick does -/

/-- The four ways in which the PSP changes what it remembers, and the commands that leave the
device as it is but for the answer. -/
inductive PspResult (m : Machine) : Machine × UInt32 → Prop
  | failed {m' : Machine} {resp : UInt32} (hresp : resp ≠ 0) (hnpu : m'.npu = m.npu)
      (hstart : m.npu.scratch 2 = pspCmdStart → m.npu.pspState ≠ .validated)
      (hrelease : m.npu.scratch 2 ≠ pspCmdReleaseTmr) : PspResult m (m', resp)
  | cert {m' : Machine} (hcmd : m.npu.scratch 2 = pspCmdValidateCert) (hnpu : m'.npu = m.npu) :
      PspResult m (m', 0)
  | validated {m' : Machine} (hcmd : m.npu.scratch 2 = pspCmdValidate)
      (hnpu : m'.npu = { m.npu with
        fwPaddr := pspPaddr m.npu
        fwSize := m.npu.scratch 9 &&& pspArg2Mask
        pspState := .validated }) : PspResult m (m', 0)
  | started {m' : Machine} (hcmd : m.npu.scratch 2 = pspCmdStart)
      (hstate : m.npu.pspState = .validated)
      (hnpu : m'.npu = fwBoot { m.npu with pspState := .running }) : PspResult m (m', 0)
  | released {m' : Machine} (hcmd : m.npu.scratch 2 = pspCmdReleaseTmr)
      (hnpu : m'.npu = { fwShutdown m.npu with pspState := .cold }) : PspResult m (m', 0)

private theorem pspFetchImage_npu (host : Host) (m : Machine) (paddr : UInt64) (size : UInt32) :
    (pspFetchImage host m paddr size).1.npu = m.npu := by
  unfold pspFetchImage
  dsimp only
  split
  · rfl
  · split <;> rfl

/-- A command of the PSP has one of the results. -/
theorem pspCommand_result (host : Host) (m : Machine) : PspResult m (pspCommand host m) := by
  have hfetch := pspFetchImage_npu host m (pspPaddr m.npu) (m.npu.scratch 9 &&& pspArg2Mask)
  unfold pspCommand
  dsimp only
  generalize pspFetchImage host m (pspPaddr m.npu) (m.npu.scratch 9 &&& pspArg2Mask) = r at hfetch ⊢
  obtain ⟨m', resp⟩ := r
  dsimp only at hfetch
  have hne {v w : UInt32} (h : m.npu.scratch 2 = v) (hvw : v ≠ w) : m.npu.scratch 2 ≠ w := by
    rw [h]
    exact hvw
  split
  · rename_i hcmd
    have hstart := hne hcmd (w := pspCmdStart) (by decide)
    by_cases hresp : resp = 0
    · rw [if_pos hresp]
      subst hresp
      exact .validated hcmd (by rw [Machine.modify_npu, hfetch])
    · rw [if_neg hresp]
      exact .failed hresp hfetch (fun h => absurd h hstart) (hne hcmd (by decide))
  split
  · rename_i hcmd
    have hstart := hne hcmd (w := pspCmdStart) (by decide)
    by_cases hresp : resp = 0
    · subst hresp
      exact .cert hcmd hfetch
    · exact .failed hresp hfetch (fun h => absurd h hstart) (hne hcmd (by decide))
  split
  · rename_i hcmd
    by_cases hstate : m.npu.pspState = .validated
    · rw [if_neg (not_not.mpr hstate)]
      exact .started hcmd hstate rfl
    · rw [if_pos hstate]
      exact .failed (by decide) rfl (fun _ => hstate) (hne hcmd (by decide))
  split
  · exact .released ‹_› rfl
  · exact .failed (by decide) rfl (fun h => absurd h ‹_›) ‹_›

/-- What the PSP remembers from one command to the next. -/
structure SamePsp (npu npu' : Npu) : Prop where
  pspState : npu'.pspState = npu.pspState
  fwAlive : npu'.fwAlive = npu.fwAlive
  fwPaddr : npu'.fwPaddr = npu.fwPaddr
  fwSize : npu'.fwSize = npu.fwSize

/-- What a command that fails leaves as it is. -/
structure Untouched (npu npu' : Npu) : Prop extends SamePsp npu npu' where
  ctx : npu'.ctx = npu.ctx
  chan : npu'.chan = npu.chan
  sram : npu'.sram = npu.sram

/-- The commands by which the PSP changes what it remembers, as the driver sees them: the record
of the kick, and the state behind it. -/
inductive KickResult (npu : Npu) (k : Kick) (npu' : Npu) : Prop
  | failed (hresp : k.resp ≠ 0) (h : Untouched npu npu') (hrelease : k.cmd ≠ pspCmdReleaseTmr)
      (hstart : k.cmd = pspCmdStart → npu.pspState ≠ .validated)
  | cert (hcmd : k.cmd = pspCmdValidateCert) (h : Untouched npu npu')
  | validated (hcmd : k.cmd = pspCmdValidate) (hresp : k.resp = 0)
      (hstate : npu'.pspState = .validated) (halive : npu'.fwAlive = npu.fwAlive)
      (himage : npu'.fwPaddr = k.paddr ∧ npu'.fwSize = k.size)
  | started (hcmd : k.cmd = pspCmdStart) (hresp : k.resp = 0) (hbefore : npu.pspState = .validated)
      (hstate : npu'.pspState = .running) (halive : npu'.fwAlive = true)
      (himage : npu'.fwPaddr = npu.fwPaddr ∧ npu'.fwSize = npu.fwSize)
  | released (hcmd : k.cmd = pspCmdReleaseTmr) (hresp : k.resp = 0)
      (hstate : npu'.pspState = .cold) (halive : npu'.fwAlive = false)
      (himage : npu'.fwPaddr = npu.fwPaddr ∧ npu'.fwSize = npu.fwSize)

private theorem kick_result (host : Host) (m : Machine) :
    KickResult m.npu (kickOf host m) (accessStep host m kickAccess).npu := by
  have hstep : accessStep host m kickAccess =
      pspKick host (m.modify fun npu => { npu with secIntr := pspNotifyVal }) := pspNotify_eq host m
  have hresult := pspCommand_result host
    (countPsp (m.modify fun npu => { npu with secIntr := pspNotifyVal }))
  have hresp : (kickOf host m).resp = (pspCommand host
      (countPsp (m.modify fun npu => { npu with secIntr := pspNotifyVal }))).2 := by
    rw [kickOf, hstep, pspKick_eq, Machine.emit_npu, Machine.modify_npu, (pspComplete_scratch ..).1]
  rw [hstep, pspKick_eq, Machine.emit_npu, Machine.modify_npu]
  generalize pspCommand host
    (countPsp (m.modify fun npu => { npu with secIntr := pspNotifyVal })) = r at hresult hresp ⊢
  cases hresult with
  | failed hne hnpu hstart hrelease =>
    refine .failed (by rw [hresp]; exact hne) ?_ hrelease hstart
    dsimp only
    rw [hnpu]
    exact ⟨⟨rfl, rfl, rfl, rfl⟩, rfl, rfl, rfl⟩
  | cert hcmd hnpu =>
    refine .cert hcmd ?_
    dsimp only
    rw [hnpu]
    exact ⟨⟨rfl, rfl, rfl, rfl⟩, rfl, rfl, rfl⟩
  | validated hcmd hnpu =>
    refine .validated hcmd hresp ?_ ?_ ?_
    all_goals
      dsimp only
      rw [hnpu]
    · rfl
    · rfl
    · exact ⟨rfl, rfl⟩
  | started hcmd hstate hnpu =>
    refine .started hcmd hresp hstate ?_ ?_ ?_
    all_goals
      dsimp only
      rw [hnpu, fwBoot_eq]
    · rfl
    · rfl
    · exact ⟨rfl, rfl⟩
  | released hcmd hnpu =>
    refine .released hcmd hresp ?_ ?_ ?_
    all_goals
      dsimp only
      rw [hnpu, fwShutdown_eq]
    · rfl
    · rfl
    · exact ⟨rfl, rfl⟩

private theorem kick_ready (host : Host) (m : Machine) :
    (accessStep host m kickAccess).npu.scratch 2 = pspStatusReady := by
  have hstep : accessStep host m kickAccess =
      pspKick host (m.modify fun npu => { npu with secIntr := pspNotifyVal }) := pspNotify_eq host m
  rw [hstep, pspKick_eq, Machine.emit_npu, Machine.modify_npu, (pspComplete_scratch ..).2]

/-! ## Everything else leaves the PSP alone -/

/-- Nothing has changed. -/
theorem SamePsp.refl (npu : Npu) : SamePsp npu npu := ⟨rfl, rfl, rfl, rfl⟩

/-- One change after another. -/
theorem SamePsp.trans {npu npu' npu'' : Npu} (h : SamePsp npu npu') (h' : SamePsp npu' npu'') :
    SamePsp npu npu'' :=
  ⟨h'.pspState.trans h.pspState, h'.fwAlive.trans h.fwAlive, h'.fwPaddr.trans h.fwPaddr,
    h'.fwSize.trans h.fwSize⟩

private theorem MsgEffect.samePsp {npu npu' : Npu} {hdr : MsgHeader} {payload : Memory}
    (h : MsgEffect npu hdr payload npu') : SamePsp npu npu' := by
  cases h with
  | none => exact .refl npu
  | runtimeConfig => exact ⟨rfl, rfl, rfl, rfl⟩
  | pasid => exact ⟨rfl, rfl, rfl, rfl⟩
  | suspend => exact ⟨rfl, rfl, rfl, rfl⟩
  | async => exact ⟨rfl, rfl, rfl, rfl⟩
  | create =>
    rw [createContext_eq]
    exact ⟨rfl, rfl, rfl, rfl⟩
  | destroy =>
    rw [destroyContext_eq]
    exact ⟨rfl, rfl, rfl, rfl⟩
  | heap => exact ⟨rfl, rfl, rfl, rfl⟩

private theorem ReplyChange.samePsp {c : ChanIdx} {npu npu' : Npu} (h : ReplyChange c npu npu') :
    SamePsp npu npu' := by
  rw [h.rest]
  exact ⟨rfl, rfl, rfl, rfl⟩

section Mailbox

variable (host : Host)

private theorem mertHandle_samePsp (m : Machine) (c : ChanIdx) (hdr : MsgHeader)
    (payload : Memory) : SamePsp m.npu (mertHandle host m c hdr payload).npu := by
  by_cases halive : m.npu.fwAlive = true
  · rw [mertHandle_eq c hdr payload halive]
    exact (mertOutcome_effect host m hdr payload).samePsp.trans (answerWith_change ..).samePsp
  · rw [mertHandle, if_pos (by simpa using halive)]
    exact .refl _

private theorem mboxPass_samePsp (m : Machine) (c : ChanIdx) :
    SamePsp m.npu (mboxPass host c m).1.npu := by
  unfold mboxPass
  dsimp only
  split
  · exact ⟨rfl, rfl, rfl, rfl⟩
  · exact ⟨rfl, rfl, rfl, rfl⟩
  · exact ⟨rfl, rfl, rfl, rfl⟩
  · rename_i size _
    rw [deliver_eq]
    have htake : SamePsp m.npu
        (takeFrame (m.emit (.ringRead c (m.npu.chan c).headOff 4)) c size).npu :=
      ⟨rfl, rfl, rfl, rfl⟩
    exact htake.trans (mertHandle_samePsp ..)

private theorem mboxLoop_samePsp (c : ChanIdx) (fuel : ℕ) (m : Machine) :
    SamePsp m.npu (mboxLoop host c fuel m).npu := by
  induction fuel generalizing m with
  | zero => exact .refl _
  | succ fuel ih =>
    rw [mboxLoop]
    split
    · exact .refl _
    have hpass := mboxPass_samePsp host m c
    dsimp only
    split
    · exact hpass.trans (ih _)
    · exact hpass

private theorem mboxRegWrite_samePsp (m : Machine) (off val : UInt32) :
    SamePsp m.npu (mboxRegWrite host m off val).npu := by
  unfold mboxRegWrite mboxProcess
  split
  · exact .refl _
  rename_i c reg _
  split
  · dsimp only
    have htail : SamePsp m.npu
        (m.modify fun npu => npu.setChan c { npu.chan c with x2iTail := val }).npu :=
      ⟨rfl, rfl, rfl, rfl⟩
    split
    · split
      · exact htail.trans (mboxLoop_samePsp ..)
      · exact htail
    · exact htail
  · split
    · exact ⟨rfl, rfl, rfl, rfl⟩
    · split
      · exact ⟨rfl, rfl, rfl, rfl⟩
      · exact .refl _

end Mailbox

private theorem RegWrite.samePsp {val : UInt32} {f : Npu → Npu} (h : RegWrite val f) (npu : Npu) :
    SamePsp npu (f npu) := by
  cases h with
  | none => exact .refl npu
  | scratch => exact ⟨rfl, rfl, rfl, rfl⟩
  | pwaitmode => exact ⟨rfl, rfl, rfl, rfl⟩
  | secIntr => exact ⟨rfl, rfl, rfl, rfl⟩
  | pwrmgmtIntr => exact ⟨rfl, rfl, rfl, rfl⟩
  | smu =>
    unfold smuKick
    dsimp only
    repeat' split
    all_goals exact ⟨rfl, rfl, rfl, rfl⟩

private theorem accessStep_samePsp (host : Host) (m : Machine) {a : Access} (h : a ≠ kickAccess) :
    SamePsp m.npu (accessStep host m a).npu := by
  cases a with
  | sram off bytes =>
    rw [accessStep, mmioWriteBuf, if_pos rfl]
    split
    · exact .refl _
    · exact ⟨rfl, rfl, rfl, rfl⟩
  | word bar w =>
    rw [accessStep, regWrite]
    split
    · rename_i hbar
      rcases regBarWrite_cases host m w.1 w.2 with ⟨hoff, hval, _⟩ | ⟨_, f, hf, heq⟩
      · exact absurd (by rw [kickAccess, hbar, ← hoff, ← hval]) h
      · rw [heq]
        exact hf.samePsp m.npu
    · split
      · exact mboxRegWrite_samePsp ..
      · exact .refl _

/-! ## The history determines the state -/

/-- The state of the PSP after these kicks: the last one that decides it counts. -/
def pspStateAfter (ks : List Kick) : PspState :=
  match mostRecent Kick.decides ks with
  | none => .cold
  | some k => if k.validates then .validated else if k.starts then .running else .cold

/-- The image after these kicks: the last one that has validated an image counts. -/
def imageAfter (ks : List Kick) : UInt64 × UInt32 :=
  ((mostRecent Kick.validates ks).map fun k => (k.paddr, k.size)).getD (0, 0)

private theorem pspStateAfter_eq_validated {ks : List Kick} :
    pspStateAfter ks = .validated ↔
      ∃ k, mostRecent Kick.decides ks = some k ∧ k.validates = true := by
  unfold pspStateAfter
  cases mostRecent Kick.decides ks with
  | none => simp
  | some k =>
    cases hv : k.validates <;> cases hs : k.starts <;> simp [hv, hs]

/-- The PSP remembers what its history says. -/
structure PspTracks (npu : Npu) (ks : List Kick) : Prop where
  state : npu.pspState = pspStateAfter ks
  alive : npu.fwAlive = true ↔ ∃ k, mostRecent Kick.switches ks = some k ∧ k.starts = true
  image : (npu.fwPaddr, npu.fwSize) = imageAfter ks

section Step

variable {npu npu' : Npu} {ks : List Kick} {k : Kick}

private theorem PspTracks.congr (h : PspTracks npu ks) (heq : SamePsp npu npu') :
    PspTracks npu' ks where
  state := heq.pspState.trans h.state
  alive := by rw [heq.fwAlive, h.alive]
  image := by rw [heq.fwPaddr, heq.fwSize, h.image]

/-- A kick that is of none of the kinds that count does not show. -/
theorem PspTracks.skip (h : PspTracks npu ks) (hv : ¬ k.validates = true) (hs : ¬ k.starts = true)
    (hr : ¬ k.releases = true) : PspTracks npu (ks ++ [k]) := by
  have hmost {p : Kick → Bool} (hp : ¬ p k = true) :
      mostRecent p (ks ++ [k]) = mostRecent p ks := by
    rw [mostRecent_append, if_neg hp]
  have hd : ¬ k.decides = true := by simp [Kick.decides, hv, hs, hr]
  have hw : ¬ k.switches = true := by simp [Kick.switches, hs, hr]
  obtain ⟨hstate, halive, himage⟩ := h
  refine ⟨?_, ?_, ?_⟩
  · rw [hstate, pspStateAfter, pspStateAfter, hmost hd]
  · rw [halive, hmost hw]
  · rw [himage, imageAfter, imageAfter, hmost hv]

private theorem cmd_ne {v w : UInt32} (h : k.cmd = v) (hne : v ≠ w) : ¬ k.cmd = w := by
  rw [h]
  exact hne

/-- What one kick does to the state, it does to the history. -/
theorem PspTracks.kick (h : PspTracks npu ks) (hk : KickResult npu k npu') :
    PspTracks npu' (ks ++ [k]) := by
  have himage := h.image
  cases hk with
  | failed hresp hsame hrelease _ =>
    apply (h.congr hsame.toSamePsp).skip
    · intro hv
      exact hresp (Kick.validates_iff.mp hv).2
    · intro hs
      exact hresp (Kick.starts_iff.mp hs).2
    · intro hr
      exact hrelease (Kick.releases_iff.mp hr)
  | cert hcmd hsame =>
    apply (h.congr hsame.toSamePsp).skip
    · intro hv
      exact cmd_ne hcmd (by decide) (Kick.validates_iff.mp hv).1
    · intro hs
      exact cmd_ne hcmd (by decide) (Kick.starts_iff.mp hs).1
    · intro hr
      exact cmd_ne hcmd (by decide) (Kick.releases_iff.mp hr)
  | validated hcmd hresp hstate halive himage' =>
    have hv : k.validates = true := Kick.validates_iff.mpr ⟨hcmd, hresp⟩
    have hs : ¬ k.starts = true := fun hs =>
      cmd_ne hcmd (by decide) (Kick.starts_iff.mp hs).1
    have hr : ¬ k.releases = true := fun hr =>
      cmd_ne hcmd (by decide) (Kick.releases_iff.mp hr)
    have hd : k.decides = true := by rw [Kick.decides, hv, Bool.true_or, Bool.true_or]
    have hw : ¬ k.switches = true := by simp [Kick.switches, hs, hr]
    refine ⟨?_, ?_, ?_⟩
    · rw [hstate, pspStateAfter, mostRecent_append, if_pos hd]
      exact (if_pos hv).symm
    · rw [halive, h.alive, mostRecent_append, if_neg hw]
    · rw [himage'.1, himage'.2, imageAfter, mostRecent_append, if_pos hv]
      rfl
  | started hcmd hresp _ hstate halive himage' =>
    have hv : ¬ k.validates = true := fun hv =>
      cmd_ne hcmd (by decide) (Kick.validates_iff.mp hv).1
    have hs : k.starts = true := Kick.starts_iff.mpr ⟨hcmd, hresp⟩
    have hd : k.decides = true := by rw [Kick.decides, hs, Bool.or_true, Bool.true_or]
    have hw : k.switches = true := by rw [Kick.switches, hs, Bool.true_or]
    refine ⟨?_, ?_, ?_⟩
    · rw [hstate, pspStateAfter, mostRecent_append, if_pos hd]
      dsimp only
      rw [if_neg hv, if_pos hs]
    · rw [mostRecent_append, if_pos hw]
      exact ⟨fun _ => ⟨k, rfl, hs⟩, fun _ => halive⟩
    · rw [himage'.1, himage'.2, himage, imageAfter, imageAfter, mostRecent_append, if_neg hv]
  | released hcmd _ hstate halive himage' =>
    have hv : ¬ k.validates = true := fun hv =>
      cmd_ne hcmd (by decide) (Kick.validates_iff.mp hv).1
    have hs : ¬ k.starts = true := fun hs =>
      cmd_ne hcmd (by decide) (Kick.starts_iff.mp hs).1
    have hr : k.releases = true := Kick.releases_iff.mpr hcmd
    have hd : k.decides = true := by rw [Kick.decides, hr, Bool.or_true]
    have hw : k.switches = true := by rw [Kick.switches, hr, Bool.or_true]
    refine ⟨?_, ?_, ?_⟩
    · rw [hstate, pspStateAfter, mostRecent_append, if_pos hd]
      dsimp only
      rw [if_neg hv, if_neg hs]
    · rw [mostRecent_append, if_pos hw, halive]
      refine iff_of_false (by decide) ?_
      rintro ⟨k', hk', hs'⟩
      rw [← Option.some.inj hk'] at hs'
      exact hs hs'
    · rw [himage'.1, himage'.2, himage, imageAfter, imageAfter, mostRecent_append, if_neg hv]

end Step

private theorem pspTracks_npuReset : PspTracks npuReset [] := by
  rw [npuReset_eq]
  exact ⟨rfl, by simp [zeroNpu, mostRecent], rfl⟩

/-- The history of any run of accesses determines what the PSP remembers at its end. -/
theorem accessRun_pspTracks (host : Host) (as : List Access) :
    PspTracks (accessRun host as).npu (kicks host as) := by
  induction as using List.reverseRecOn with
  | nil => exact pspTracks_npuReset
  | append_singleton as a ih =>
    rw [accessRun_append, kicks_append]
    by_cases ha : a = kickAccess
    · rw [if_pos ha, ha]
      exact ih.kick (kick_result host _)
    · rw [if_neg ha, List.append_nil]
      exact ih.congr (accessStep_samePsp host _ ha)

/-- What the PSP has done and will do after the accesses `as`. -/
structure PspLaw (host : Host) (as : List Access) : Prop where
  /-- A START now is answered with 0 just if a validated image waits for it. -/
  start : (accessRun host as).npu.scratch 2 = pspCmdStart →
    ((accessRun host (as ++ [kickAccess])).npu.scratch 3 = 0 ↔
      ∃ k, mostRecent Kick.decides (kicks host as) = some k ∧ k.validates = true)
  alive : (accessRun host as).npu.fwAlive = true ↔
    ∃ k, mostRecent Kick.switches (kicks host as) = some k ∧ k.starts = true
  image : ((accessRun host as).npu.fwPaddr, (accessRun host as).npu.fwSize) =
    imageAfter (kicks host as)
  /-- A kick now, of whatever command, ends with READY. -/
  ready : (accessRun host (as ++ [kickAccess])).npu.scratch 2 = pspStatusReady
  /-- If it fails it has changed nothing. -/
  failed : (accessRun host (as ++ [kickAccess])).npu.scratch 3 ≠ 0 →
    Untouched (accessRun host as).npu (accessRun host (as ++ [kickAccess])).npu

private theorem accessRun_pspLaw (host : Host) (as : List Access) : PspLaw host as := by
  have htracks := accessRun_pspTracks host as
  have hresult := kick_result host (accessRun host as)
  have hstep := accessRun_append host as kickAccess
  have hresp : (accessRun host (as ++ [kickAccess])).npu.scratch 3 =
      (kickOf host (accessRun host as)).resp := by
    rw [hstep, kickOf]
  refine ⟨?_, htracks.alive, htracks.image, ?_, ?_⟩
  · intro hcmd
    rw [hresp, ← pspStateAfter_eq_validated, ← htracks.state]
    have hcmd' : (kickOf host (accessRun host as)).cmd = pspCmdStart := hcmd
    cases hresult with
    | failed hne _ _ hstart => exact iff_of_false hne (hstart hcmd')
    | cert hcert _ => exact absurd (hcert.symm.trans hcmd') (by decide)
    | validated hval _ _ _ _ => exact absurd (hval.symm.trans hcmd') (by decide)
    | started _ hzero hbefore _ _ _ => exact iff_of_true hzero hbefore
    | released hrel _ _ _ _ => exact absurd (hrel.symm.trans hcmd') (by decide)
  · rw [hstep]
    exact kick_ready host _
  · intro hne
    rw [hresp] at hne
    rw [hstep]
    cases hresult with
    | failed _ hsame _ _ => exact hsame
    | cert _ hsame => exact hsame
    | validated _ hzero _ _ _ => exact absurd hzero hne
    | started _ hzero _ _ _ _ => exact absurd hzero hne
    | released _ hzero _ _ _ => exact absurd hzero hne

/-- Whatever the guest does, and however its accesses are cut into words: at each point of the
run the PSP answers and remembers as its history says. -/
theorem guestRun_pspLaw (host : Host) (ops : List GuestOp) :
    guestRun host ops = accessRun host (ops.flatMap GuestOp.accesses) ∧
      ∀ n, PspLaw host ((ops.flatMap GuestOp.accesses).take n) :=
  ⟨guestRun_accesses host ops, fun _ => accessRun_pspLaw host _⟩

end Xdna
