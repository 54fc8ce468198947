import Xdna.Published
import Xdna.Rules

/-!
# No interrupt is lost

The receiver of the management channel acknowledges the interrupt, drains the ring, and looks at
the interrupt register before it leaves. Other accesses come between any two acknowledgements or
passes, but not into the middle of a pass. If it has found the ring empty since it last
acknowledged, then a reply that waits for it shows in the register, and the host has been called
about it.
-/

namespace Xdna

open ByteMemory

/-! ## What the device does behind the receiver's back -/

/-- A reply that was put into the ring of channel `c`. -/
def Event.IsReplyOn (c : ChanIdx) : Event → Prop
  | .send c' _ _ _ sent => c' = c ∧ sent = true
  | _ => False

instance (c : ChanIdx) : DecidablePred (Event.IsReplyOn c) := fun e => by
  cases e <;> unfold Event.IsReplyOn <;> infer_instance

/-- What the events do to the interrupt register of channel `c`. A reply sets it, and the host is
called if it takes calls. -/
inductive Shown (host : Host) (c : ChanIdx) (ws : List Event) (intr : UInt32) : UInt32 → Prop
  | quiet (h : ∀ e ∈ ws, ¬ e.IsReplyOn c) : Shown host c ws intr intr
  | replied (h : ∃ e ∈ ws, e.IsReplyOn c)
      (hirq : host.raiseIrq = true → ∃ npu, .raiseIrq c.val npu ∈ ws) : Shown host c ws intr 1

private theorem Shown.append {host : Host} {c : ChanIdx} {ws ws' : List Event} {a b b' : UInt32}
    (h : Shown host c ws a b) (h' : Shown host c ws' b b') : Shown host c (ws ++ ws') a b' := by
  cases h' with
  | replied h' hirq' =>
    refine .replied ?_ fun hraise => ?_
    · obtain ⟨e, he, hreply⟩ := h'
      exact ⟨e, List.mem_append_right _ he, hreply⟩
    · obtain ⟨npu, hmem⟩ := hirq' hraise
      exact ⟨npu, List.mem_append_right _ hmem⟩
  | quiet h' =>
    cases h with
    | quiet h =>
      refine .quiet fun e he => ?_
      rcases List.mem_append.mp he with he | he
      · exact h e he
      · exact h' e he
    | replied h hirq =>
      refine .replied ?_ fun hraise => ?_
      · obtain ⟨e, he, hreply⟩ := h
        exact ⟨e, List.mem_append_left _ he, hreply⟩
      · obtain ⟨npu, hmem⟩ := hirq hraise
        exact ⟨npu, List.mem_append_left _ hmem⟩

private theorem Shown.eq {host : Host} {c : ChanIdx} {ws : List Event} {a b : UInt32}
    (h : Shown host c ws a b) : b = if ∃ e ∈ ws, e.IsReplyOn c then 1 else a := by
  cases h with
  | quiet hquiet => exact (if_neg fun ⟨e, he, hreply⟩ => hquiet e he hreply).symm
  | replied hreply _ => exact (if_pos hreply).symm

private theorem Shown.called {host : Host} {c : ChanIdx} {ws : List Event} {a b : UInt32}
    (h : Shown host c ws a b) (hreply : ∃ e ∈ ws, e.IsReplyOn c) (hraise : host.raiseIrq = true) :
    ∃ npu, .raiseIrq c.val npu ∈ ws := by
  cases h with
  | quiet hquiet =>
    obtain ⟨e, he, hreply⟩ := hreply
    exact absurd hreply (hquiet e he)
  | replied _ hirq => exact hirq hraise

/-- Between the two states replies may have been sent on channel `c`, and nothing else has been
done to its ring and its interrupt register. -/
structure Signalled (host : Host) (c : ChanIdx) (m m' : Machine) : Prop where
  head : (m'.npu.chan c).i2xHead = (m.npu.chan c).i2xHead
  shown : ∃ ws, m'.trace = m.trace ++ ws ∧
    Shown host c ws (m.npu.chan c).intr (m'.npu.chan c).intr ∧
    ((∀ e ∈ ws, ¬ e.IsReplyOn c) → (m'.npu.chan c).i2xTail = (m.npu.chan c).i2xTail)

namespace Signalled

variable {host : Host} {c : ChanIdx} {m m' m'' : Machine}

private theorem of_registers (h : m.Extends (¬ ·.IsReplyOn c) m')
    (hhead : (m'.npu.chan c).i2xHead = (m.npu.chan c).i2xHead)
    (htail : (m'.npu.chan c).i2xTail = (m.npu.chan c).i2xTail)
    (hintr : (m'.npu.chan c).intr = (m.npu.chan c).intr) : Signalled host c m m' := by
  obtain ⟨ws, htrace, hws⟩ := h
  exact ⟨hhead, ws, htrace, by rw [hintr]; exact .quiet hws, fun _ => htail⟩

private theorem of_chan (h : m.Extends (¬ ·.IsReplyOn c) m')
    (hchan : m'.npu.chan c = m.npu.chan c) : Signalled host c m m' :=
  .of_registers h (by rw [hchan]) (by rw [hchan]) (by rw [hchan])

/-- Nothing has happened. -/
theorem refl (m : Machine) : Signalled host c m m := .of_chan (.refl m) rfl

private theorem trans (h : Signalled host c m m') (h' : Signalled host c m' m'') :
    Signalled host c m m'' := by
  obtain ⟨hhead, ws, htrace, hshown, htail⟩ := h
  obtain ⟨hhead', ws', htrace', hshown', htail'⟩ := h'
  refine ⟨hhead'.trans hhead, ws ++ ws', by rw [htrace', htrace, List.append_assoc],
    hshown.append hshown', fun hquiet => ?_⟩
  rw [htail' fun e he => hquiet e (List.mem_append_right _ he),
    htail fun e he => hquiet e (List.mem_append_left _ he)]

end Signalled

section Device

variable {host : Host} {c : ChanIdx} {m : Machine}

private theorem SendEvent.not_isReplyOn {c' : ChanIdx} {npu : Npu} {e : Event}
    (h : SendEvent c' npu e) : ¬ e.IsReplyOn c := by
  cases h <;> exact id

private theorem Event.IsSearch.not_isReplyOn {e : Event} (h : e.IsSearch) : ¬ e.IsReplyOn c := by
  cases e <;> first | exact id | exact h.elim

private theorem Event.IsDmaWrite.not_isReplyOn {e : Event} (h : e.IsDmaWrite) :
    ¬ e.IsReplyOn c := by
  cases e <;> first | exact id | exact h.elim

private theorem extends_sentMachine (m : Machine) (c : ChanIdx) (id opcode : UInt32)
    (payload : List UInt8) :
    m.Extends (SendEvent c m.npu) (sentMachine m c id opcode payload) :=
  (extends_sendMark ..).trans ((extends_sendCopy ..).trans (.modify _))

/-- A send that is not refused: the register is set, the host is called, and the call returns. -/
theorem Signalled.sent (hcons : Consistent m.npu) (id opcode : UInt32) (payload : List UInt8) :
    Signalled host c m (((sentMachine m c id opcode payload).raiseIrq host c).emit
      (.send c id opcode payload true)) := by
  have hchange := replyChange_sentMachine m c id opcode payload
  obtain ⟨ws, htrace, _⟩ := extends_sentMachine m c id opcode payload
  have hhead := hchange.i2xHead c
  have hindex := (hcons.congr hchange.sameShape).index c
  have hintr : ((sentMachine m c id opcode payload).npu.chan c).intr = 1 := by
    simp [sentMachine, Npu.postFrame, Npu.setChan]
  generalize sentMachine m c id opcode payload = m₁ at htrace hhead hindex hintr ⊢
  unfold Machine.raiseIrq
  have hreply : (Event.send c id opcode payload true).IsReplyOn c := ⟨rfl, rfl⟩
  split
  · refine ⟨hhead, ws ++ [.raiseIrq (m₁.npu.chan c).index m₁.npu, .send c id opcode payload true],
      ?_, ?_, fun hquiet => absurd hreply (hquiet _ (by simp))⟩
    · rw [Machine.emit_trace, Machine.modify_trace, Machine.emit_trace, htrace, List.append_assoc,
        List.append_assoc]
      rfl
    · rw [Machine.emit_npu, Machine.modify_npu, Machine.emit_npu, hintr]
      exact .replied ⟨_, by simp, hreply⟩ fun _ => ⟨m₁.npu, by simp [hindex]⟩
  · refine ⟨hhead, ws ++ [.send c id opcode payload true], ?_, ?_,
      fun hquiet => absurd hreply (hquiet _ (by simp))⟩
    · rw [Machine.emit_trace, htrace, List.append_assoc]
    · rw [Machine.emit_npu, hintr]
      exact .replied ⟨_, by simp, hreply⟩ fun hraise => absurd hraise ‹_›

private theorem Signalled.send (hcons : Consistent m.npu) (c' : ChanIdx) (id opcode : UInt32)
    (payload : List UInt8) : Signalled host c m (mboxSend host m c' id opcode payload).1 := by
  by_cases hc : c = c'
  · subst hc
    have hres := mboxSendBody_result host m c id opcode payload
    have hrefused : ¬ (Event.send c id opcode payload false).IsReplyOn c := fun h => by cases h.2
    unfold mboxSend
    generalize mboxSendBody host m c id opcode payload = r at hres ⊢
    cases hres with
    | refused _ => exact .of_chan (.emit hrefused) rfl
    | full _ _ _ =>
      have hmark := (extends_sendMark m c (pkgSize payload) m.npu).mono
        fun e he => he.not_isReplyOn (c := c)
      exact .of_chan (hmark.trans (.emit hrefused)) (by rw [Machine.emit_npu, sendMark_chan])
    | sent _ _ _ => exact .sent hcons id opcode payload
  · obtain ⟨m₁, hext, htrace⟩ := mboxSend_trace host m c' id opcode payload
    obtain ⟨_, _, hchan⟩ := (mboxSend_change host m c' id opcode payload).chan
    refine .of_chan ((hext.mono fun e he => he.not_isReplyOn).trans
      (.of_trace_eq htrace fun h => hc h.1.symm)) ?_
    rw [hchan, Function.update_of_ne hc]

/-- No message touches the management channel, and an answer to it is sent. -/
theorem Signalled.message (hcons : Consistent m.npu) (halive : m.npu.fwAlive = true)
    (c' : ChanIdx) (size : UInt32) :
    Signalled host 0 m (answerWith host c' (headHeader m.npu c') (headOutcome host m c' size)) := by
  have hsearch : Signalled host 0 m (takenFrame m c' size) := by
    obtain ⟨ws, hws, htrace⟩ := takenFrame_trace m c' size
    have hevents : m.Extends (¬ ·.IsReplyOn 0) (takenFrame m c' size) := by
      refine ⟨_, htrace, fun e he => ?_⟩
      rcases List.mem_append.mp he with he | he
      · exact (hws e he).not_isReplyOn
      · rw [List.mem_singleton.mp he]
        exact id
    refine .of_registers hevents ?_ ?_ ?_ <;> rw [takenFrame_npu] <;>
      by_cases hc : (0 : ChanIdx) = c' <;> simp [Npu.consume, Npu.setX2iHead, Npu.setChan, hc]
  have hcons' : Consistent (takenFrame m c' size).npu :=
    hcons.congr (takeFrame_sameShape (m.emit (.ringRead c' (m.npu.chan c').headOff 4)) c' size)
  have hmgmt : Signalled host 0 (takenFrame m c' size) (headOutcome host m c' size).1 ∧
      Consistent (headOutcome host m c' size).1.npu := by
    rw [headOutcome]
    have halive' : (takenFrame m c' size).npu.fwAlive = true := halive
    generalize takenFrame m c' size = m₁ at hcons' halive' ⊢
    have heffect := mertOutcome_effect host m₁ (headHeader m.npu c')
      (Memory.ofBytes (headPayload m.npu c' size))
    exact ⟨.of_chan ((mertOutcome_trace ..).2.mono fun e he => he.not_isReplyOn)
      (heffect.mgmt hcons').1, (heffect.tableChange halive').consistent hcons'⟩
  obtain ⟨hmgmt, hcons''⟩ := hmgmt
  refine (hsearch.trans hmgmt).trans ?_
  generalize headOutcome host m c' size = r at hcons'' ⊢
  unfold answerWith
  cases r.2 with
  | none => exact .refl _
  | some a => exact .send hcons'' ..

private theorem signalled_keptByPass (host : Host) (ok : ChanIdx → UInt32 → Prop) :
    KeptByPass host ok (Signalled host 0) where
  refl := .refl
  trans := .trans
  pass {m c} hm hactive := by
    have hform := mboxPass_form host hm.consistent hm.headsOk hactive
    generalize (mboxPass host c m).1 = m' at hform ⊢
    cases hform with
    | search htrace hnpu _ =>
      have hevents := htrace.mono fun e he => he.not_isReplyOn (c := 0)
      rcases hnpu with hnpu | hnpu
      · exact .of_chan hevents (by rw [hnpu])
      · refine .of_registers hevents ?_ ?_ ?_ <;> rw [hnpu] <;>
          by_cases hc : (0 : ChanIdx) = c <;> simp [Npu.setX2iHead, Npu.setChan, hc]
    | message size _ => exact .message hm.consistent (hm.fwAlive hactive) c size

end Device

/-! ## Other accesses -/

/-- The access is not one of the receiver's own, and does not command the PSP. -/
def Access.Spares : Access → Prop
  | .word bar w => .word bar w ≠ kickAccess ∧ (bar = barMbox →
      chanFromOff w.1 ≠ some (0, mboxI2xHeadOff) ∧ chanFromOff w.1 ≠ some (0, mboxIntrOff))
  | .sram .. => True

instance : DecidablePred Access.Spares := fun a =>
  match a with
  | .word bar w => inferInstanceAs (Decidable (.word bar w ≠ kickAccess ∧ (bar = barMbox →
      chanFromOff w.1 ≠ some (0, mboxI2xHeadOff) ∧ chanFromOff w.1 ≠ some (0, mboxIntrOff))))
  | .sram .. => isTrue trivial

private theorem mboxRegWrite_signalled {host : Host} {ok : ChanIdx → UInt32 → Prop} {m : Machine}
    (hm : Visited host ok m) {off val : UInt32}
    (hhead : chanFromOff off ≠ some (0, mboxI2xHeadOff))
    (hintr : chanFromOff off ≠ some (0, mboxIntrOff)) :
    Signalled host 0 m (mboxRegWrite host m off val) := by
  unfold mboxRegWrite
  cases hoff : chanFromOff off with
  | none => exact .refl m
  | some p =>
    obtain ⟨c, reg⟩ := p
    rw [hoff] at hhead hintr
    dsimp only
    split
    · have hw : GuestWrite (ok c) (m.npu.chan c) { m.npu.chan c with x2iTail := val } :=
        .x2iTail val
      have htail : Signalled host 0 m
          (m.modify (·.setChan c { m.npu.chan c with x2iTail := val })) := by
        refine .of_registers (.modify _) ?_ ?_ ?_ <;>
          rw [Machine.modify_npu] <;> by_cases hc : (0 : ChanIdx) = c <;> simp [Npu.setChan, hc]
      exact htail.trans
        ((signalled_keptByPass host ok).mboxProcess (hm.tail (.guest m c hw)) _)
    · have hother (ch : Channel) (hc : c ≠ 0) : Signalled host 0 m (m.modify (·.setChan c ch)) :=
        .of_chan (.modify _) (Function.update_of_ne hc.symm ..)
      split
      · rename_i hreg
        exact hother _ fun hc => hhead (by rw [hc, hreg])
      · split
        · rename_i hreg
          exact hother _ fun hc => hintr (by rw [hc, hreg])
        · exact .refl m

/-- What others do. -/
theorem Access.Spares.signalled {host : Host} {ok : ChanIdx → UInt32 → Prop} {m : Machine}
    (hm : Visited host ok m) {a : Access} (h : a.Spares) :
    Signalled host 0 m (accessStep host m a) := by
  cases a with
  | sram off bytes =>
    rw [accessStep, mmioWriteBuf, if_pos rfl]
    split
    · exact .refl m
    · exact .of_chan (.modify _) rfl
  | word bar w =>
    obtain ⟨hkick, hmbox⟩ := h
    rw [accessStep, regWrite]
    split
    · rename_i hbar
      rcases regBarWrite_cases host m w.1 w.2 with ⟨hoff, hval, _⟩ | ⟨_, f, hf, heq⟩
      · exact absurd (by rw [hbar, kickAccess, ← hoff, ← hval]) hkick
      · rw [heq]
        exact .of_chan (.modify _) (by
          rw [Machine.modify_npu, (hf.regChange m.npu).chan])
    · split
      · exact mboxRegWrite_signalled hm (hmbox ‹_›).1 (hmbox ‹_›).2
      · exact .refl m

/-! ## The receiver -/

/-- The driver knows where its registers are, and where it reads. -/
structure Drv.Listens (d : Drv) (npu : Npu) (c : ChanIdx) : Prop where
  headReg : d.i2x.headReg = mboxChanBase c.val + mboxI2xHeadOff
  tailReg : d.i2x.tailReg = mboxChanBase c.val + mboxI2xTailOff
  intrReg : d.intrReg = mboxChanBase c.val + mboxI2xHeadOff + 4
  head : d.i2xHead = (npu.chan c).i2xHead

/-- An access of the receiver, which is the write to the interrupt register in `mbox_recv` or a
pass of its loop, or an access of somebody else. -/
inductive ReceiverOp where
  | ack
  | pass
  | other (a : Access)

/-- The machine, the driver, whether it has found the ring empty since it last acknowledged the
interrupt, and the number of events at that time. -/
structure Receiver where
  machine : Machine
  drv : Drv
  drained : Bool
  since : ℕ

/-- The receiver has just acknowledged the interrupt. -/
def Receiver.acked (host : Host) (m : Machine) (d : Drv) : Receiver :=
  ⟨wr32 host m barMbox d.intrReg 0, d, false, m.trace.length⟩

/-- What a receiver does. -/
def receiverStep (host : Host) (st : Receiver) : ReceiverOp → Receiver
  | .ack => .acked host st.machine st.drv
  | .pass =>
    let r := recvPass host st.drv st.machine
    { st with
      machine := r.2.1
      drv := r.1
      drained := match r.2.2 with
        | .empty => true
        | _ => st.drained }
  | .other a => { st with machine := accessStep host st.machine a }

/-- What a receiver does, one operation after the other. -/
def receiverRun (host : Host) (st : Receiver) (ops : List ReceiverOp) : Receiver :=
  ops.foldl (receiverStep host) st

/-- The events since the last acknowledgement. -/
def Receiver.news (st : Receiver) : List Event := st.machine.trace.drop st.since

/-- What comes in between leaves the receiver's registers alone. -/
def ReceiverOp.Spares : ReceiverOp → Prop
  | .other a => a.Spares
  | _ => True

instance : DecidablePred ReceiverOp.Spares := fun op =>
  match op with
  | .ack => isTrue trivial
  | .pass => isTrue trivial
  | .other a => inferInstanceAs (Decidable a.Spares)

private theorem mboxRegRead_intr (npu : Npu) (c : ChanIdx) :
    mboxRegRead npu (mboxChanBase c.val + mboxI2xHeadOff + 4) = (npu.chan c).intr := by
  rw [mboxRegRead, (chanFromOff_base c).2.2.2.1]
  rfl

/-- A pass finds the ring empty, or moves the head of driver and device alike. -/
theorem recvPass_cases (host : Host) {d : Drv} {m : Machine} {c : ChanIdx}
    (h : d.Listens m.npu c) :
    ((m.npu.chan c).i2xHead = (m.npu.chan c).i2xTail ∧ recvPass host d m = (d, m, .empty)) ∨
    (m.npu.chan c).i2xHead ≠ (m.npu.chan c).i2xTail ∧ ∃ v r, r ≠ .empty ∧
      recvPass host d m = ({ d with i2xHead := v }, publishHead m c v, r) := by
  have htail : rd32 m barMbox d.i2x.tailReg = (m.npu.chan c).i2xTail := by
    rw [rd32_mbox, h.tailReg, mboxRegRead_i2xTail]
  have hpublish (v : UInt32) : wr32 host m barMbox d.i2x.headReg v = publishHead m c v := by
    rw [wr32_mbox, h.headReg, mboxRegWrite_i2xHead]
  unfold recvPass
  dsimp only
  simp only [htail, h.head, hpublish]
  by_cases hempty : (m.npu.chan c).i2xHead = (m.npu.chan c).i2xTail
  · rw [if_pos hempty]
    exact .inl ⟨hempty, rfl⟩
  · rw [if_neg hempty]
    generalize (if (m.npu.chan c).i2xHead = d.i2x.rbSize then 0 else (m.npu.chan c).i2xHead) = head
    refine .inr ⟨hempty, ?_⟩
    split
    · exact ⟨_, _, by simp, rfl⟩
    · exact ⟨_, _, by simp, rfl⟩

/-- What carries the argument: a reply sent since the last acknowledgement shows, and one that
waits after the ring was found empty was sent since. -/
structure Watching (host : Host) (st : Receiver) : Prop where
  visited : Visited host (fun _ _ => True) st.machine
  listens : st.drv.Listens st.machine.npu 0
  since_le : st.since ≤ st.machine.trace.length
  shown : Shown host 0 st.news 0 (st.machine.npu.chan 0).intr
  waits : st.drained = true →
    (st.machine.npu.chan 0).i2xHead ≠ (st.machine.npu.chan 0).i2xTail →
    ∃ e ∈ st.news, e.IsReplyOn 0

private theorem Watching.acked {host : Host} {m : Machine} {d : Drv}
    (hm : Visited host (fun _ _ => True) m) (hd : d.Listens m.npu 0) :
    Watching host (.acked host m d) := by
  have hack : wr32 host m barMbox d.intrReg 0 = ackIntr m 0 := by
    rw [wr32_mbox, hd.intrReg, mboxRegWrite_intr]
  have hhead := hd.head
  have hnews : (Receiver.acked host m d).news = [] := by
    rw [Receiver.news, Receiver.acked, hack]
    exact List.drop_length
  constructor
  case visited =>
    rw [Receiver.acked, hack]
    exact hm.tail (.guest m 0 (.intr 0))
  case listens =>
    rw [Receiver.acked, hack]
    exact ⟨hd.headReg, hd.tailReg, hd.intrReg, by simpa [ackIntr, Npu.setChan] using hhead⟩
  case since_le =>
    rw [Receiver.acked, hack]
    exact le_refl _
  case shown =>
    have hintr : ((ackIntr m 0).npu.chan 0).intr = 0 := by simp [ackIntr, Npu.setChan]
    rw [hnews, Receiver.acked, hack, hintr]
    exact .quiet (by simp)
  case waits => exact fun hdrained => by cases hdrained

namespace Watching

variable {host : Host} {st : Receiver}

private theorem pass (h : Watching host st) : Watching host (receiverStep host st .pass) := by
  obtain ⟨m, d, drained, since⟩ := st
  rw [receiverStep]
  dsimp only
  rcases recvPass_cases host h.listens with ⟨hempty, heq⟩ | ⟨hwaits, v, r, hr, heq⟩
  · rw [heq]
    exact ⟨h.visited, h.listens, h.since_le, h.shown, fun _ hwaits => absurd hempty hwaits⟩
  · rw [heq]
    have hintr : ((publishHead m 0 v).npu.chan 0).intr = (m.npu.chan 0).intr := by
      simp [publishHead, Npu.setChan]
    refine ⟨h.visited.tail (.guest m 0 (.i2xHead v trivial)), ⟨h.listens.headReg,
      h.listens.tailReg, h.listens.intrReg, ?_⟩, h.since_le, ?_, fun hdrained _ => ?_⟩
    · simp [publishHead, Npu.setChan]
    · rw [hintr]
      exact h.shown
    · -- The ring was not empty before the pass either.
      have hbefore : drained = true := by
        cases r with
        | empty => exact absurd rfl hr
        | tombstone => exact hdrained
        | frame _ => exact hdrained
      exact h.waits hbefore hwaits

private theorem other (h : Watching host st) {a : Access} (ha : a.Spares) :
    Watching host (receiverStep host st (.other a)) := by
  obtain ⟨m, d, drained, since⟩ := st
  obtain ⟨hhead, ws, htrace, hshown, htail⟩ := ha.signalled h.visited
  have hvisited : Visited host (fun _ _ => True) (accessStep host m a) :=
    h.visited.trans (accessStep_acts h.visited.consistent a.headOk_true)
  have hsince := h.since_le
  have hnews : (receiverStep host ⟨m, d, drained, since⟩ (.other a)).news =
      (Receiver.mk m d drained since).news ++ ws := by
    rw [Receiver.news, receiverStep, htrace]
    exact List.drop_append_of_le_length hsince
  constructor
  case visited => exact hvisited
  case listens =>
    exact ⟨h.listens.headReg, h.listens.tailReg, h.listens.intrReg,
      h.listens.head.trans hhead.symm⟩
  case since_le =>
    rw [receiverStep, htrace, List.length_append]
    exact Nat.le_add_right_of_le hsince
  case shown =>
    rw [hnews]
    exact h.shown.append hshown
  case waits =>
    intro hdrained hwaits
    rw [hnews]
    by_cases hquiet : ∀ e ∈ ws, ¬ e.IsReplyOn 0
    · rw [receiverStep, hhead, htail hquiet] at hwaits
      obtain ⟨e, he, hreply⟩ := h.waits hdrained hwaits
      exact ⟨e, List.mem_append_left _ he, hreply⟩
    · push Not at hquiet
      obtain ⟨e, he, hreply⟩ := hquiet
      exact ⟨e, List.mem_append_right _ he, hreply⟩

private theorem step (h : Watching host st) {op : ReceiverOp} (hop : op.Spares) :
    Watching host (receiverStep host st op) := by
  cases op with
  | ack => exact .acked h.visited h.listens
  | pass => exact h.pass
  | other a => exact h.other hop

private theorem run (h : Watching host st) {ops : List ReceiverOp} (hops : ∀ op ∈ ops, op.Spares) :
    Watching host (receiverRun host st ops) := by
  induction ops generalizing st with
  | nil => exact h
  | cons op ops ih =>
    exact ih (h.step (hops op (by simp))) fun op' hop' => hops op' (by simp [hop'])

end Watching

/-- What the receiver can rely on. -/
structure NoneLost (host : Host) (st : Receiver) : Prop where
  /-- The interrupt register tells whether a reply has been sent since the acknowledgement. -/
  register : rd32 st.machine barMbox st.drv.intrReg =
    if ∃ e ∈ st.news, e.IsReplyOn 0 then 1 else 0
  /-- If so, the host has been called, with the vector of the channel. -/
  called : (∃ e ∈ st.news, e.IsReplyOn 0) → host.raiseIrq = true →
    ∃ npu, .raiseIrq 0 npu ∈ st.news
  /-- A receiver that leaves with the register clear leaves nothing behind. -/
  asleep : st.drained = true → rd32 st.machine barMbox st.drv.intrReg = 0 →
    recvPass host st.drv st.machine = (st.drv, st.machine, .empty)

private theorem Watching.noneLost {host : Host} {st : Receiver} (h : Watching host st) :
    NoneLost host st := by
  have hread : rd32 st.machine barMbox st.drv.intrReg = (st.machine.npu.chan 0).intr := by
    rw [rd32_mbox, h.listens.intrReg, mboxRegRead_intr]
  have hregister := hread.trans h.shown.eq
  refine ⟨hregister, h.shown.called, fun hdrained hzero => ?_⟩
  rcases recvPass_cases host h.listens with ⟨_, heq⟩ | ⟨hwaits, _⟩
  · exact heq
  · -- The reply that waits was sent since, so the register would show it.
    rw [if_pos (h.waits hdrained hwaits), hzero] at hregister
    exact absurd hregister (by decide)

/-- After any history, and whatever comes between the accesses of the receiver. -/
theorem receiver_loses_none (host : Host) (past : List GuestOp) {d : Drv} {ops : List ReceiverOp}
    (hd : d.Listens (guestRun host past).npu 0) (hops : ∀ op ∈ ops, op.Spares) :
    NoneLost host (receiverRun host (.acked host (guestRun host past) d) ops) := by
  have hvisited : Visited host (fun _ _ => True) (guestRun host past) := by
    rw [guestRun_accesses]
    exact accessRun_visited_true host _
  exact ((Watching.acked hvisited hd).run hops).noneLost

/-- The driver of the management channel that lies where the info block says. -/
def mgmtDrv : Drv := Drv.ofInfo mgmtInfo

/-- The ring is found empty, a request is kicked, and the register is looked at. -/
def wokenOps : List ReceiverOp :=
  [.pass, .other (.word barMbox (mboxChanBase 0 + mboxX2iTailOff, 20))]

/-- A receiver that is woken by a reply. -/
theorem receiver_loses_none_woken :
    NoneLost .accepting
      (receiverRun .accepting (.acked .accepting (guestRun .accepting oneFrameOps) mgmtDrv)
        wokenOps) :=
  receiver_loses_none .accepting oneFrameOps
    ⟨by decide, by decide, by decide, by decide +kernel⟩ (by decide)

end Xdna
