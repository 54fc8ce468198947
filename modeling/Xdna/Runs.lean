import Xdna.Consistency

/-!
# Runs are sequences of steps

A guest access is cut into acts of the device: plain register writes, copies into the
SRAM, PSP commands and passes of the mailbox loop. The loop keeps going after a message
even if the message has destroyed the context whose channel it came from; the reset of that
channel makes its two pointers equal, which ends the loop, so that every pass runs on an
active channel. With that each act is a sequence of steps.
-/

namespace Xdna

open ByteMemory Relation

/-- What a guest access makes the device do, one thing after the other. -/
inductive Act (host : Host) (ok : ChanIdx → UInt32 → Prop) : Machine → Machine → Prop
  | regs (m : Machine) {f : Npu → Npu} (hf : ∀ npu, RegChange npu (f npu)) :
      Act host ok m (m.modify f)
  | sram (m : Machine) (off : ℕ) (bytes : List UInt8) (h : off + bytes.length ≤ barSramSize) :
      Act host ok m (m.modify (·.sramCopy off bytes))
  | guest (m : Machine) (c : ChanIdx) {ch : Channel} (h : GuestWrite (ok c) (m.npu.chan c) ch) :
      Act host ok m (m.modify (·.setChan c ch))
  | psp (m : Machine) : Act host ok m (pspKick host m)
  | pass (m : Machine) (c : ChanIdx) (hactive : (m.npu.chan c).active = true) :
      Act host ok m (mboxPass host c m).1

/-- Any number of acts. -/
abbrev Acts (host : Host) (ok : ChanIdx → UInt32 → Prop) : Machine → Machine → Prop :=
  ReflTransGen (Act host ok)

variable {host : Host} {ok : ChanIdx → UInt32 → Prop} {m m' : Machine}

/-- Every act is a sequence of steps. -/
theorem Act.steps (h : Act host ok m m') (hcons : Consistent m.npu) : Steps host ok m m' := by
  cases h with
  | regs hf => exact .modify hf
  | sram off bytes hin => exact .single (.sram m off bytes hin)
  | guest c hw => exact .single (.guest m c hw)
  | psp => exact pspKick_steps m
  | pass c hactive => exact mboxPass_steps c hactive (hcons.fwAlive_of_active hactive)

/-- A sequence of acts is a sequence of steps. -/
theorem Acts.steps (h : Acts host ok m m') (hcons : Consistent m.npu) : Steps host ok m m' := by
  induction h with
  | refl => exact .refl
  | tail _ hlast ih => exact ih.trans (hlast.steps (ih.consistent hcons))

/-- Acts keep the tables consistent. -/
theorem Acts.consistent (h : Acts host ok m m') (hcons : Consistent m.npu) :
    Consistent m'.npu :=
  (h.steps hcons).consistent hcons

/-- What every act from a consistent state preserves, every sequence of acts preserves. -/
theorem Acts.preserves {P : Machine → Prop} (h : Acts host ok m m') (hcons : Consistent m.npu)
    (hact : ∀ m m', Consistent m.npu → P m → Act host ok m m' → P m') (hm : P m) : P m' := by
  induction h with
  | refl => exact hm
  | tail hfirst hlast ih => exact hact _ _ (Acts.consistent hfirst hcons) ih hlast

/-! ## The loop of a kick -/

/-- A send does not touch the `x2i` side of any channel. -/
theorem ReplyChange.x2i {c : ChanIdx} {npu npu' : Npu} (h : ReplyChange c npu npu')
    (c' : ChanIdx) : (npu'.chan c').active = (npu.chan c').active ∧
      (npu'.chan c').x2iHead = (npu.chan c').x2iHead ∧
      (npu'.chan c').x2iTail = (npu.chan c').x2iTail := by
  obtain ⟨_, ⟨_, _, hchan⟩, _⟩ := h
  rw [hchan]
  by_cases hc : c' = c
  · subst hc
    simp
  · simp [Function.update_of_ne hc]

/-- An answer changes no more than a send. -/
theorem answerWith_change (host : Host) (c : ChanIdx) (hdr : MsgHeader)
    (r : Machine × Option Answer) : ReplyChange c r.1.npu (answerWith host c hdr r).npu := by
  unfold answerWith
  cases r.2 with
  | none => exact .refl ..
  | some a => exact mboxSend_change ..

/-- The channel is live, or the loop of its kick is at its end. -/
def Channel.Pending (ch : Channel) : Prop := ch.active = true ∨ ch.x2iHead = ch.x2iTail

/-- After a pass the channel is still active, or the loop is at its end. -/
theorem mboxPass_pending (hcons : Consistent m.npu) {c : ChanIdx}
    (hactive : (m.npu.chan c).active = true) : ((mboxPass host c m).1.npu.chan c).Pending := by
  cases hpeek : (m.npu.chan c).peek m.npu with
  | ringEnd =>
    rw [mboxPass, hpeek]
    exact .inl (by simpa [Npu.setX2iHead, Npu.setChan] using hactive)
  | tombstone =>
    rw [mboxPass, hpeek]
    exact .inl (by simpa [Npu.setX2iHead, Npu.setChan] using hactive)
  | reject =>
    rw [mboxPass, hpeek]
    exact .inl hactive
  | frame size =>
    rw [mboxPass_deliver (hcons.fwAlive_of_active hactive) hpeek]
    have hshape := takeFrame_sameShape (m.emit (.ringRead c (m.npu.chan c).headOff 4)) c size
    generalize takeFrame (m.emit (.ringRead c (m.npu.chan c).headOff 4)) c size = m₁ at hshape ⊢
    generalize payloadBuffer (headPayload m.npu c size) (host.stack _) = payload
    have hcons' : Consistent m₁.npu := hcons.congr hshape
    have htake : (m₁.npu.chan c).active = true := (hshape.chan c).active.trans hactive
    have heffect := mertOutcome_effect host m₁ (headHeader m.npu c) payload
    obtain ⟨hact, hhead, htail⟩ := (answerWith_change host c (headHeader m.npu c)
      (mertOutcome host m₁ (headHeader m.npu c) payload)).x2i c
    rcases heffect.chan_cases hcons' c with hsame | hreset | ⟨s, _, hnew⟩
    · exact .inl (by rw [hact, hsame, htake])
    · exact .inr (by rw [hhead, htail, hreset, resetChan])
    · exact .inl (by rw [hact, hnew, createdChannel])

private theorem mboxLoop_acts (c : ChanIdx) (fuel : ℕ) (hcons : Consistent m.npu)
    (hpending : (m.npu.chan c).Pending) : Acts host ok m (mboxLoop host c fuel m) := by
  induction fuel generalizing m with
  | zero => exact .refl
  | succ fuel ih =>
    rw [mboxLoop]
    split
    · exact .refl
    · rename_i hne
      have hactive : (m.npu.chan c).active = true := hpending.resolve_right hne
      have hpass : Acts host ok m (mboxPass host c m).1 := .single (.pass m c hactive)
      dsimp only
      split
      · exact hpass.trans (ih (hpass.consistent hcons) (mboxPass_pending hcons hactive))
      · exact hpass

private theorem mboxProcess_acts (chanIdx : ℕ) (hcons : Consistent m.npu) :
    Acts host ok m (mboxProcess host m chanIdx) := by
  unfold mboxProcess
  split
  · split
    · exact mboxLoop_acts _ _ hcons (.inl ‹_›)
    · exact .refl
  · exact .refl

/-! ## Guest accesses -/

/-- The channel and the value of a write to an `i2x` head register. -/
def headWrite? (bar : Int) (w : UInt32 × UInt32) : Option (ChanIdx × UInt32) :=
  if bar = barMbox then
    match chanFromOff w.1 with
    | some (c, reg) => if reg = mboxI2xHeadOff then some (c, w.2) else none
    | none => none
  else none

/-- What an access writes to `i2x` head registers. -/
def GuestOp.headWrites : GuestOp → List (ChanIdx × UInt32)
  | .write bar off val len =>
    (writeWords off ((le64 val).take (min len 8))).filterMap (headWrite? bar)
  | .writeBuf bar off bytes => (writeWords off bytes).filterMap (headWrite? bar)
  | .read .. => []
  | .readBuf .. => []

/-- The values an access writes to `i2x` head registers are among the permitted ones. -/
def GuestOp.HeadsOk (ok : ChanIdx → UInt32 → Prop) (op : GuestOp) : Prop :=
  ∀ w ∈ op.headWrites, ok w.1 w.2

instance {ok : ChanIdx → UInt32 → Prop} [∀ c v, Decidable (ok c v)] (op : GuestOp) :
    Decidable (op.HeadsOk ok) :=
  List.decidableBAll (fun w : ChanIdx × UInt32 => ok w.1 w.2) op.headWrites

/-- A write to the REG BAR that does not kick the PSP is a change of one register, or a command
of the SMU. -/
inductive RegWrite (val : UInt32) : (Npu → Npu) → Prop
  | none : RegWrite val id
  | scratch (i : Fin 10) : RegWrite val (·.setScratch i val)
  | pwaitmode : RegWrite val fun npu => { npu with pwaitmode := val }
  | secIntr : RegWrite val fun npu => { npu with secIntr := val }
  | pwrmgmtIntr : RegWrite val fun npu => { npu with pwrmgmtIntr := val }
  | smu : RegWrite val fun npu => smuKick { npu with pwrmgmtIntr := val }

/-- A write to the REG BAR is a command of the PSP, or changes one register, or is a command of the
SMU. -/
theorem regBarWrite_cases (host : Host) (m : Machine) (off val : UInt32) :
    (off = regPubSecIntr ∧ val = pspNotifyVal ∧ regBarWrite host m off val =
      pspKick host (m.modify fun npu => { npu with secIntr := val })) ∨
    (¬ (off = regPubSecIntr ∧ val = pspNotifyVal) ∧
      ∃ f, RegWrite val f ∧ regBarWrite host m off val = m.modify f) := by
  unfold regBarWrite
  dsimp only
  by_cases hwait : off = regPwaitmode
  · rw [if_pos hwait]
    refine .inr ⟨fun h => absurd (hwait.symm.trans h.1) (by decide), _, .pwaitmode, rfl⟩
  rw [if_neg hwait]
  by_cases hsec : off = regPubSecIntr
  · rw [if_pos hsec]
    by_cases hval : val = pspNotifyVal
    · rw [if_pos hval]
      exact .inl ⟨hsec, hval, rfl⟩
    · rw [if_neg hval]
      exact .inr ⟨fun h => hval h.2, _, .secIntr, rfl⟩
  rw [if_neg hsec]
  refine .inr ⟨fun h => hsec h.1, ?_⟩
  by_cases hpwr : off = regPubPwrmgmtIr
  · rw [if_pos hpwr]
    by_cases hval : val = 1
    · rw [if_pos hval]
      exact ⟨_, .smu, rfl⟩
    · rw [if_neg hval]
      exact ⟨_, .pwrmgmtIntr, rfl⟩
  rw [if_neg hpwr]
  have hscratch {p : Prop} [Decidable p] (i : Fin 10) {m' : Machine}
      (h : ∃ f, RegWrite val f ∧ m' = m.modify f) :
      ∃ f, RegWrite val f ∧ (if p then m.modify (·.setScratch i val) else m') = m.modify f := by
    by_cases hp : p
    · exact ⟨_, .scratch i, if_pos hp⟩
    · rwa [if_neg hp]
  iterate 7 apply hscratch
  exact ⟨_, .none, rfl⟩

/-- Register writes do not touch rings, channels and contexts. -/
theorem RegWrite.regChange {val : UInt32} {f : Npu → Npu} (h : RegWrite val f) (npu : Npu) :
    RegChange npu (f npu) := by
  cases h with
  | none => exact .refl npu
  | scratch i => exact regChange_setScratch npu i val
  | pwaitmode => constructor <;> rfl
  | secIntr => constructor <;> rfl
  | pwrmgmtIntr => constructor <;> rfl
  | smu =>
    have hintr : RegChange npu { npu with pwrmgmtIntr := val } := by constructor <;> rfl
    exact hintr.trans (regChange_smuKick _)

private theorem regBarWrite_acts (m : Machine) (off val : UInt32) :
    Acts host ok m (regBarWrite host m off val) := by
  rcases regBarWrite_cases host m off val with ⟨_, _, heq⟩ | ⟨_, f, hf, heq⟩
  · rw [heq]
    have hintr : Acts host ok m (m.modify fun npu => { npu with secIntr := val }) :=
      .single (.regs m RegWrite.secIntr.regChange)
    exact hintr.tail (.psp _)
  · rw [heq]
    exact .single (.regs m hf.regChange)

private theorem mboxRegWrite_acts {off val : UInt32} (hcons : Consistent m.npu)
    (hok : ∀ c v, headWrite? barMbox (off, val) = some (c, v) → ok c v) :
    Acts host ok m (mboxRegWrite host m off val) := by
  unfold mboxRegWrite
  cases hoff : chanFromOff off with
  | none => exact .refl
  | some p =>
    obtain ⟨c, reg⟩ := p
    dsimp only
    split
    · have htail : Acts host ok m (m.modify fun npu =>
          npu.setChan c { npu.chan c with x2iTail := val }) :=
        .single (.guest m c (.x2iTail val))
      exact htail.trans (mboxProcess_acts _ (htail.consistent hcons))
    · split
      · rename_i hreg
        exact .single (.guest m c (.i2xHead val (hok c val (by simp [headWrite?, hoff, hreg]))))
      · split
        · exact .single (.guest m c (.intr val))
        · exact .refl

/-- A register access is a sequence of acts. -/
theorem regWrite_acts {bar : Int} {w : UInt32 × UInt32} (hcons : Consistent m.npu)
    (hok : ∀ p, headWrite? bar w = some p → ok p.1 p.2) :
    Acts host ok m (regWrite host bar m w) := by
  unfold regWrite
  split
  · exact regBarWrite_acts ..
  · split
    · rename_i hbar
      subst hbar
      exact mboxRegWrite_acts hcons fun c v h => hok (c, v) h
    · exact .refl

private theorem foldl_regWrite_acts {bar : Int} {ws : List (UInt32 × UInt32)}
    (hcons : Consistent m.npu) (hok : ∀ p ∈ ws.filterMap (headWrite? bar), ok p.1 p.2) :
    Acts host ok m (ws.foldl (regWrite host bar) m) := by
  induction ws generalizing m with
  | nil => exact .refl
  | cons w ws ih =>
    have hw : Acts host ok m (regWrite host bar m w) :=
      regWrite_acts hcons fun p hp => hok p (List.mem_filterMap.mpr ⟨w, by simp, hp⟩)
    exact hw.trans (ih (hw.consistent hcons) fun p hp => by
      obtain ⟨w', hw', heq⟩ := List.mem_filterMap.mp hp
      exact hok p (List.mem_filterMap.mpr ⟨w', by simp [hw'], heq⟩))

private theorem mmioWriteBuf_acts {bar : Int} {off : UInt32} {bytes : List UInt8}
    (hcons : Consistent m.npu)
    (hok : ∀ p ∈ (writeWords off bytes).filterMap (headWrite? bar), ok p.1 p.2) :
    Acts host ok m (mmioWriteBuf host m bar off bytes) := by
  unfold mmioWriteBuf
  split
  · split
    · exact .refl
    · exact .single (.sram m _ _ (by omega))
  · exact foldl_regWrite_acts hcons hok

/-- A guest access is a sequence of acts. -/
theorem guestStep_acts {op : GuestOp} (hcons : Consistent m.npu) (hok : op.HeadsOk ok) :
    Acts host ok m (guestStep host m op) := by
  cases op with
  | read _ _ _ => exact .refl
  | readBuf _ _ _ => exact .refl
  | write bar off val len => exact mmioWriteBuf_acts hcons hok
  | writeBuf bar off bytes => exact mmioWriteBuf_acts hcons hok

private theorem foldl_guestStep_acts {ops : List GuestOp} (hcons : Consistent m.npu)
    (hok : ∀ op ∈ ops, op.HeadsOk ok) : Acts host ok m (ops.foldl (guestStep host) m) := by
  induction ops generalizing m with
  | nil => exact .refl
  | cons op ops ih =>
    have hop : Acts host ok m (guestStep host m op) := guestStep_acts hcons (hok op (by simp))
    exact hop.trans (ih (hop.consistent hcons) fun op' h => hok op' (by simp [h]))

/-- So is a run from reset. -/
theorem guestRun_acts {ops : List GuestOp} (hok : ∀ op ∈ ops, op.HeadsOk ok) :
    Acts host ok initial (guestRun host ops) :=
  foldl_guestStep_acts consistent_npuReset hok

/-- A run is a sequence of steps. -/
theorem guestRun_steps {ops : List GuestOp} (hok : ∀ op ∈ ops, op.HeadsOk ok) :
    Steps host ok initial (guestRun host ops) :=
  (guestRun_acts hok).steps consistent_npuReset

/-- A run in which the guest may store any value. -/
theorem guestRun_steps_any (host : Host) (ops : List GuestOp) :
    Steps host (fun _ _ => True) initial (guestRun host ops) :=
  guestRun_steps fun _ _ _ _ => trivial

/-- The table of contexts and channels is consistent in every reachable state. -/
theorem guestRun_consistent (host : Host) (ops : List GuestOp) :
    Consistent (guestRun host ops).npu :=
  (guestRun_steps_any host ops).consistent consistent_npuReset

/-! ## Reachable states -/

/-- The states between single accesses of the guest. An access of many bytes is a sequence of
register accesses, or one copy into the SRAM. -/
inductive Reachable (host : Host) : Machine → Prop
  | reset : Reachable host initial
  | word {m : Machine} (bar : Int) (w : UInt32 × UInt32) (h : Reachable host m) :
      Reachable host (regWrite host bar m w)
  | sram {m : Machine} (off : ℕ) (bytes : List UInt8) (hin : off + bytes.length ≤ barSramSize)
      (h : Reachable host m) : Reachable host (m.modify (·.sramCopy off bytes))

/-- The last access of a run. -/
theorem guestRun_snoc (host : Host) (ops : List GuestOp) (op : GuestOp) :
    guestRun host (ops ++ [op]) = guestStep host (guestRun host ops) op := by
  rw [guestRun, List.foldl_append]
  rfl

namespace Reachable

private theorem words (h : Reachable host m) (bar : Int) (ws : List (UInt32 × UInt32)) :
    Reachable host (ws.foldl (regWrite host bar) m) := by
  induction ws generalizing m with
  | nil => exact h
  | cons w ws ih => exact ih (.word bar w h)

/-- A block write leads from a reachable state to another one. -/
theorem writeBuf (h : Reachable host m) (bar : Int) (off : UInt32) (bytes : List UInt8) :
    Reachable host (mmioWriteBuf host m bar off bytes) := by
  unfold mmioWriteBuf
  split
  · split
    · exact h
    · exact .sram _ _ (by omega) h
  · exact h.words bar _

private theorem guestStep (h : Reachable host m) (op : GuestOp) :
    Reachable host (guestStep host m op) := by
  cases op with
  | read _ _ _ => exact h
  | readBuf _ _ _ => exact h
  | write bar off val len => exact h.writeBuf ..
  | writeBuf bar off bytes => exact h.writeBuf ..

/-- The states after whole accesses are reachable. -/
theorem guestRun (host : Host) (ops : List GuestOp) : Reachable host (guestRun host ops) := by
  have hfold (ops : List GuestOp) {m : Machine} (h : Reachable host m) :
      Reachable host (ops.foldl (Xdna.guestStep host) m) := by
    induction ops generalizing m with
    | nil => exact h
    | cons op ops ih => exact ih (h.guestStep op)
  exact hfold ops .reset

private theorem acts (h : Reachable host m) : Acts host (fun _ _ => True) initial m := by
  induction h with
  | reset => exact .refl
  | word bar w _ ih =>
    exact ih.trans (regWrite_acts (ih.consistent consistent_npuReset) fun _ _ => trivial)
  | sram off bytes hin _ ih => exact ih.tail (.sram _ off bytes hin)

/-- A reachable state is reached by steps. -/
theorem steps (h : Reachable host m) : Steps host (fun _ _ => True) initial m :=
  h.acts.steps consistent_npuReset

/-- The tables of a reachable state are consistent. -/
theorem consistent (h : Reachable host m) : Consistent m.npu :=
  h.steps.consistent consistent_npuReset

end Reachable

end Xdna
