import Xdna.Batch
import Xdna.Rules

/-!
# Replies past the end of the ring

A batch of requests on the management channel moves the tail of the reply ring by the sizes of
its replies. With a stored head that is no offset of the ring, nothing stops the tail at the end
of the ring. As long as no reply meets such a head where it does not fit, it stays inside.
-/

namespace Xdna

open ByteMemory RingLog

/-! ## The tail after a batch -/

/-- The tail of the reply ring after the replies to the requests `fs`. -/
def repliesTail (ch : Channel) : List Frame → UInt32
  | [] => ch.i2xTail
  | f :: fs => repliesTail { ch with i2xTail := ch.replyTail f.hdr } fs

/-- The replies do not depend on the pointers of the other ring. -/
theorem repliesTail_x2i (ch : Channel) (head tail : UInt32) (fs : List Frame) :
    repliesTail { ch with x2iHead := head, x2iTail := tail } fs = repliesTail ch fs := by
  induction fs generalizing ch with
  | nil => rfl
  | cons f fs ih => exact ih { ch with i2xTail := ch.replyTail f.hdr }

/-- A batch that is drained and spares its channel moves the tail by the replies to its requests. -/
theorem Batch.tail {c : ChanIdx} {npu : Npu} {fs : List Frame} (h : Batch c npu fs) (fuel : ℕ)
    (hactive : ((requestLoop c fuel npu).2.chan c).active = true)
    (hle : batchPasses c npu fs ≤ fuel) :
    ((requestLoop c fuel npu).2.chan c).i2xTail = repliesTail (npu.chan c) fs := by
  induction fuel generalizing npu fs with
  | zero =>
    have hnil : fs.length = 0 := (Nat.add_eq_zero_iff.mp (Nat.le_zero.mp hle)).1
    rw [List.length_eq_zero_iff.mp hnil]
    rfl
  | succ fuel ih =>
    by_cases heq : (npu.chan c).x2iHead = (npu.chan c).x2iTail
    · have hnil : fs.length = 0 := (Nat.add_eq_zero_iff.mp (h.eq_iff.mp heq)).1
      rw [requestLoop_of_eq _ heq, List.length_eq_zero_iff.mp hnil]
      rfl
    · rcases h.pass heq with ⟨hpass, hbatch, hcount⟩ |
        ⟨f, rest, rfl, hpass, -, -, ⟨hbatch, hchan, hcount⟩ | ⟨-, hend, hdead⟩⟩
      · rw [requestLoop_some fuel hpass] at hactive ⊢
        have htail := ih hbatch hactive (by omega)
        rw [Npu.setX2iHead_self] at htail
        exact htail.trans (repliesTail_x2i (npu.chan c) 0 (npu.chan c).x2iTail fs)
      · rw [requestLoop_some fuel hpass] at hactive ⊢
        have htail := ih hbatch hactive (by omega)
        rw [hchan] at htail
        exact htail.trans (repliesTail_x2i
          { npu.chan c with i2xTail := (npu.chan c).replyTail f.hdr } _ (npu.chan c).x2iTail rest)
      · rw [requestLoop_some fuel hpass, requestLoop_of_eq fuel hend] at hactive
        dsimp only at hactive
        rw [hdead] at hactive
        cases hactive

/-- The tail after a kick that drains a batch. -/
theorem kick_tail (host : Host) {m : Machine} {c : ChanIdx} {v : UInt32} {fs : List Frame}
    (hcons : Consistent m.npu) (hheads : HeadsOk m.npu) (hactive : (m.npu.chan c).active = true)
    (hroom : (m.npu.chan c).i2xBuf.toNat + (m.npu.chan c).i2xTail.toNat ≤ barSramSize)
    (hholds : HoldsRequests (tailWritten m c v).npu c fs) (hfs : ∀ f ∈ fs, f.IsRequest)
    (hkeep : ((kickChan host m c v).npu.chan c).active = true)
    (hle : fs.length + marks (m.npu.chan c).x2iHead.toNat v.toNat ≤ mboxMaxMsgPerKick) :
    ((kickChan host m c v).npu.chan c).i2xTail = repliesTail (m.npu.chan c) fs := by
  obtain ⟨hbatch, hpasses⟩ := Batch.kick hcons hheads hactive hholds hfs
  obtain ⟨-, intr, hchan⟩ := @kick_requestLoop host c v m hcons hheads hactive hroom
  have hwritten : (tailWritten m c v).npu.chan c = { m.npu.chan c with x2iTail := v } :=
    Npu.setChan_self ..
  rw [← hpasses] at hle
  rw [hchan] at hkeep ⊢
  have htail := hbatch.tail mboxMaxMsgPerKick hkeep hle
  rw [hwritten] at htail
  exact htail.trans (repliesTail_x2i (m.npu.chan c) (m.npu.chan c).x2iHead v fs)

/-! ## The bound -/

/-- A message that is answered at once is not handed to the handler in a state in which its reply
goes past the end of the ring. -/
def Event.StaysInRing : Event → Prop
  | .handle c hdr _ npu =>
    ¬ hdr.AnsweredLater → ¬ (npu.chan c).Overruns (16 + (respSizeFor hdr.opcode).1)
  | _ => True

instance : DecidablePred Event.StaysInRing
  | .handle .. => inferInstanceAs (Decidable (_ → _))
  | .ringRead .. | .reject .. | .ringWrite .. | .raiseIrq .. | .send .. | .dmaRead .. | .dmaWrite ..
  | .pspDone .. => inferInstanceAs (Decidable True)

/-- The tail of every active channel is in order. -/
abbrev RoomsOk : Npu → Prop := OnActive RoomOk

/-- If no reply goes past the end of its ring, the tails stay in order and the writes lie in the
rings. -/
structure StaysWithin (m m' : Machine) : Prop where
  extends_trace : m.Extends (fun _ => True) m'
  written : (∀ e ∈ m'.trace, e.StaysInRing) → RoomsOk m.npu →
    RoomsOk m'.npu ∧ m.Extends Event.WrittenWithin m'

section Act

variable {host : Host} {m m' : Machine}

private theorem StaysWithin.of_extends (hext : m.Extends Event.WrittenWithin m')
    (h : RoomsOk m.npu → RoomsOk m'.npu) : StaysWithin m m' :=
  ⟨hext.mono fun _ _ => trivial, fun _ hrooms => ⟨h hrooms, hext⟩⟩

/-- The pointers of the other ring do not matter. -/
theorem RoomsOk.setX2iHead (h : RoomsOk m.npu) {c : ChanIdx}
    (hactive : (m.npu.chan c).active = true) (v : UInt32) : RoomsOk (m.npu.setX2iHead c v) :=
  h.update rfl fun _ => (h c hactive).congr (.pointers ..) rfl

/-- A START sets up the management channel with a tail at zero. -/
theorem RoomsOk.pspKick (h : RoomsOk m.npu) : RoomsOk (pspKick host m).npu := by
  have hresult := pspCommand_result host (countPsp m)
  rw [pspKick_eq, Machine.emit_npu, Machine.modify_npu]
  generalize pspCommand host (countPsp m) = r at hresult ⊢
  cases hresult with
  | failed _ hnpu _ _ | cert _ hnpu | validated _ hnpu =>
    dsimp only
    rw [hnpu]
    exact h
  | started _ _ hnpu =>
    dsimp only
    rw [hnpu]
    exact h.update (fwBoot_chan _) fun _ => roomOk_of_zero mgmtChannel_hasRing rfl
  | released _ hnpu =>
    dsimp only
    rw [hnpu]
    exact h.congr fun c hc => by simp [pspComplete, Npu.setScratch, resetChan] at hc

/-- What a message does to contexts and channels sets up tails at zero. -/
theorem RoomsOk.message (h : RoomsOk m.npu) (hcons : Consistent m.npu) (hdr : MsgHeader)
    (payload : Memory) : RoomsOk (mertOutcome host m hdr payload).1.npu := by
  refine h.congr fun c hc => ?_
  rcases (mertOutcome_effect host m hdr payload).chan_cases hcons c with heq | heq | ⟨s, rfl, heq⟩
  · exact .inl heq
  · rw [heq] at hc
    cases hc
  · rw [heq]
    exact .inr (roomOk_of_zero (createdChannel_hasRing s) rfl)

/-- A send that does not overrun its ring, or finds the channel down. -/
theorem RoomsOk.send (host : Host) (h : RoomsOk m.npu) (c : ChanIdx) (id : UInt32)
    {opcode : UInt32} {payload : List UInt8} (hsize : payload.length = (respSizeFor opcode).1)
    (hover : (m.npu.chan c).active = true → ¬ (m.npu.chan c).Overruns (16 + payload.length)) :
    RoomsOk (mboxSend host m c id opcode payload).1.npu ∧
      m.Extends Event.WrittenWithin (mboxSend host m c id opcode payload).1 := by
  have hchange := mboxSend_change host m c id opcode payload
  by_cases hactive : (m.npu.chan c).active = true
  · have hsend : RoomOk c ((mboxSend host m c id opcode payload).1.npu.chan c) ∧
        m.Extends Event.WrittenWithin (mboxSend host m c id opcode payload).1 :=
      (h c hactive).send hactive hsize (hover hactive)
    refine ⟨h.congr fun c' _ => ?_, hsend.2⟩
    by_cases hc : c' = c
    · rw [hc]
      exact .inr hsend.1
    · exact .inl (hchange.chan_of_ne hc)
  · rw [mboxSend_inactive _ _ _ _ _ _ (by simpa using hactive)]
    exact ⟨h, .emit trivial⟩

/-- A message and its reply. The event of the message carries the head that the reply meets,
unless the message has set up the channel anew. -/
theorem staysWithin_answer {c : ChanIdx} (hcons : Consistent m.npu)
    (hactive : (m.npu.chan c).active = true) (size : UInt32) :
    StaysWithin m (answerWith host c (headHeader m.npu c) (headOutcome host m c size)) := by
  obtain ⟨ws, hws, htrace⟩ := takenFrame_trace m c size
  have hcons' : Consistent (takenFrame m c size).npu := hcons.congr (takeFrame_sameShape _ c size)
  have hlater := mertOutcome_eq_none host (takenFrame m c size) (headHeader m.npu c)
    (Memory.ofBytes (headPayload m.npu c size))
  have hchan := (mertOutcome_effect host (takenFrame m c size) (headHeader m.npu c)
    (Memory.ofBytes (headPayload m.npu c size))).chan_cases hcons' c
  have hmessage (h : RoomsOk m.npu) : RoomsOk (headOutcome host m c size).1.npu :=
    RoomsOk.message (m := takenFrame m c size) (h.setX2iHead hactive _) hcons' _ _
  have hext : (takenFrame m c size).Extends Event.WrittenWithin (headOutcome host m c size).1 :=
    (mertOutcome_trace ..).2.mono fun e he => by cases e <;> trivial
  rw [← headOutcome] at hlater hchan
  have hmem : .handle c (headHeader m.npu c) (headPayload m.npu c size) (takenFrame m c size).npu ∈
      (headOutcome host m c size).1.trace := hext.mem_trace (by rw [htrace]; simp)
  have htaken : m.Extends Event.WrittenWithin (takenFrame m c size) := by
    refine ⟨_, htrace, fun e he => ?_⟩
    rcases List.mem_append.mp he with he | he
    · have hsearch := hws e he
      cases e <;> trivial
    · rw [List.mem_singleton.mp he]
      trivial
  unfold answerWith
  cases hanswer : (headOutcome host m c size).2 with
  | none => exact .of_extends (htaken.trans hext) hmessage
  | some a =>
    have hsize := (mertOutcome_wellShaped hanswer).1
    obtain ⟨m₁, hsending, hsent⟩ := mboxSend_trace host (headOutcome host m c size).1 c
      (headHeader m.npu c).id (headHeader m.npu c).opcode a.2
    have hany := (hsending.mono fun _ _ => trivial).trans (.of_trace_eq hsent trivial)
    refine ⟨((htaken.trans hext).mono fun _ _ => trivial).trans hany, fun hstays h => ?_⟩
    have hnow : ¬ (headHeader m.npu c).AnsweredLater := fun hl => by
      rw [hlater.mpr hl] at hanswer
      cases hanswer
    have hsend := (hmessage h).send host c (headHeader m.npu c).id hsize fun hlive => by
      rw [hsize]
      rcases hchan with heq | heq | ⟨s, rfl, heq⟩
      · rw [heq]
        exact hstays _ (hany.mem_trace hmem) hnow
      · rw [heq] at hlive
        cases hlive
      · rw [heq]
        exact Channel.not_overruns (Nat.zero_le _) _
    exact ⟨hsend.1, (htaken.trans hext).trans hsend.2⟩

private theorem Act.staysWithin {ok : ChanIdx → UInt32 → Prop} (hact : Act host ok m m')
    (hcons : Consistent m.npu) (hheads : HeadsOk m.npu) : StaysWithin m m' := by
  cases hact with
  | regs hf =>
    exact .of_extends (.modify _) fun h =>
      h.congr fun c _ => .inl (congrFun (hf m.npu).chan c)
  | sram off bytes _ => exact .of_extends (.modify _) id
  | guest c hw =>
    refine .of_extends (.modify _) fun h => h.update rfl fun hactive => ?_
    have hroom := h c (hw.sameShape.active ▸ hactive)
    exact hroom.congr hw.sameShape (by cases hw <;> rfl)
  | psp =>
    obtain ⟨ws, hws, htrace⟩ := pspKick_trace host m
    refine .of_extends ⟨_, htrace, fun e he => ?_⟩ RoomsOk.pspKick
    rcases List.mem_append.mp he with he | he
    · have hread := hws.isDmaRead e he
      cases e <;> trivial
    · rw [List.mem_singleton.mp he]
      trivial
  | pass c hactive =>
    have hform := mboxPass_form host hcons hheads hactive
    generalize (mboxPass host c m).1 = m' at hform ⊢
    cases hform with
    | search hext hnpu _ =>
      refine .of_extends (hext.mono fun e he => by cases e <;> trivial) fun h => ?_
      rcases hnpu with hnpu | hnpu
      · rw [hnpu]
        exact h
      · rw [hnpu]
        exact h.setX2iHead hactive 0
    | message size _ => exact staysWithin_answer hcons hactive size

end Act

private theorem guestRun_roomsOk (host : Host) (ops : List GuestOp)
    (h : ∀ e ∈ (guestRun host ops).trace, e.StaysInRing) :
    RoomsOk (guestRun host ops).npu ∧ ∀ e ∈ (guestRun host ops).trace, e.WrittenWithin := by
  have hacts : Acts host (fun _ _ => True) initial (guestRun host ops) :=
    guestRun_acts fun _ _ _ _ => trivial
  have hinv := hacts.preserves
    (P := fun m => HeadsOk m.npu ∧ ((∀ e ∈ m.trace, e.StaysInRing) →
      RoomsOk m.npu ∧ ∀ e ∈ m.trace, e.WrittenWithin)) consistent_npuReset
    (fun m m' hcons hm hact => ⟨(hact.steps hcons).headsOk hcons hm.1, fun hstays => by
      have hwithin := hact.staysWithin hcons hm.1
      have hbefore := hm.2 fun e he => hstays e (hwithin.extends_trace.mem_trace he)
      obtain ⟨hrooms, hext⟩ := hwithin.written hstays hbefore.1
      exact ⟨hrooms, hext.forall_trace hbefore.2⟩⟩)
    ⟨headsOk_npuReset, fun _ =>
      ⟨fun c hc => by simp [initial, resetChan] at hc, fun _ he => nomatch he⟩⟩
  exact hinv.2 h

/-- In every run in which no reply meets a head that lets it go past the end of its ring, every
reply is written inside the ring of its channel, so that no other part of the shared memory is
touched, and the tail stays inside the ring. -/
theorem guestRun_repliesWithin (host : Host) (ops : List GuestOp)
    (h : ∀ e ∈ (guestRun host ops).trace, e.StaysInRing) :
    (∀ c, ((guestRun host ops).npu.chan c).active = true →
      ((guestRun host ops).npu.chan c).i2xTail ≤ ((guestRun host ops).npu.chan c).i2xSize) ∧
    ∀ c off len, Event.ringWrite c off len ∈ (guestRun host ops).trace →
      i2xBase c ≤ off ∧ off + len ≤ i2xBase c + ringSize c ∧ off + len ≤ barSramSize ∧
      ∀ r : Region, r ≠ .i2x c → off + len ≤ r.base ∨ r.base + r.len ≤ off := by
  obtain ⟨htails, htrace⟩ := guestRun_roomsOk host ops h
  refine ⟨fun c hactive => ?_, fun c off len hmem => ?_⟩
  · have htail := htails c hactive
    have hroom := htail.room
    rw [UInt32.le_iff_toNat_le, htail.ring.i2xSize]
    omega
  · obtain ⟨hlo, hhi⟩ := htrace _ hmem
    have hsram := (replyRing_bounds c).2.2
    refine ⟨hlo, hhi, by omega, fun r hr => ?_⟩
    have hdisj := Region.disjoint hr
    rw [show (Region.i2x c).base = i2xBase c from rfl,
      show (Region.i2x c).len = ringSize c from rfl] at hdisj
    omega

private theorem Step.staysInRing {host : Host} {ok : ChanIdx → UInt32 → Prop} {m m' : Machine}
    (hstep : Step host ok m m') (h : TailsOk m.npu) : m.Extends Event.StaysInRing m' := by
  cases hstep with
  | regs _ htrace => exact htrace.mono fun e he => by cases e <;> trivial
  | sram _ _ _ => exact .modify _
  | guest _ _ => exact .modify _
  | boot => exact .modify _
  | shutdown => exact .modify _
  | wrap _ _ => exact .modify _
  | examine _ _ _ => exact .emit trivial
  | reject _ _ _ => exact .emit trivial
  | take c size hactive _ =>
    refine ⟨_, takeFrame_trace m c size, fun e he => ?_⟩
    simp only [List.mem_cons, List.not_mem_nil, or_false] at he
    rcases he with rfl | rfl | rfl
    · trivial
    · trivial
    · have htaken : TailOk c ((takeFrame m c size).npu.chan c) :=
        (h c hactive).congr ((takeFrame_sameShape m c size).chan c)
          (by simp [takeFrame, Npu.consume, Npu.setX2iHead, Npu.setChan])
          (by simp [takeFrame, Npu.consume, Npu.setX2iHead, Npu.setChan])
      exact fun _ => htaken.not_overruns _
  | message _ _ _ => exact (mertOutcome_trace ..).2.mono fun e he => by cases e <;> trivial
  | send c id opcode payload _ =>
    obtain ⟨m₁, hsending, hsent⟩ := mboxSend_trace host m c id opcode payload
    exact (hsending.mono fun e he => by cases he <;> trivial).trans (.of_trace_eq hsent trivial)

/-- A driver that stores only offsets of the ring in the `i2x` head registers never makes a reply
go past the end. -/
theorem guestRun_staysInRing (host : Host) {ops : List GuestOp}
    (h : ∀ op ∈ ops, op.HeadsOk WithinRing) :
    ∀ e ∈ (guestRun host ops).trace, e.StaysInRing := by
  have hsteps : Steps host WithinRing initial (guestRun host ops) := guestRun_steps h
  have hrun := hsteps.preserves
    (P := fun m => Steps host WithinRing initial m ∧ ∀ e ∈ m.trace, e.StaysInRing)
    (fun m m' hm hstep => ⟨hm.1.tail hstep,
      (hstep.staysInRing (tailsOk_of_steps hm.1).2).forall_trace hm.2⟩)
    ⟨.refl, fun _ he => nomatch he⟩
  exact hrun.2

/-- The firmware runs, and the driver has stored a head that is no offset of the ring. -/
def wildHeadOps : List GuestOp :=
  validateOps ++
  [.write barReg regPubSecIntr 1 4, .write barMbox mboxI2xHeadOff 0xFFFFFFFF 4]

/-- A context is created all the same. -/
def wildCreateOps : List GuestOp :=
  wildHeadOps ++
  [.writeBuf barSram sramMgmtX2iOff
      ((requestHeader 1 0x2 28).encode ++ [0, 0, 0, 0, 0, 1] ++ List.replicate 22 0),
    .write barMbox mboxX2iTailOff 44 4]

/-- The reply fits behind the tail, whatever the head. -/
theorem guestRun_repliesWithin_wildCreateOps :
    let m := guestRun .accepting wildCreateOps
    (∀ c, (m.npu.chan c).active = true → (m.npu.chan c).i2xTail ≤ (m.npu.chan c).i2xSize) ∧
    ∀ c off len, Event.ringWrite c off len ∈ m.trace →
      i2xBase c ≤ off ∧ off + len ≤ i2xBase c + ringSize c ∧ off + len ≤ barSramSize ∧
      ∀ r : Region, r ≠ .i2x c → off + len ≤ r.base ∨ r.base + r.len ≤ off :=
  guestRun_repliesWithin .accepting wildCreateOps (by decide +kernel)

/-- The same, and in the management ring lie 45 requests of 20 bytes, each of which is answered with
92 bytes. -/
def overrunOps : List GuestOp :=
  wildHeadOps ++
  [.writeBuf barSram sramMgmtX2iOff (image Frame.encode (List.replicate 45 (shortFrame 0x2)))]

/-- After the kick the tail has passed the end of the ring. -/
theorem replies_overrun :
    let m := guestRun .accepting (overrunOps ++ [.write barMbox mboxX2iTailOff 900 4])
    (m.npu.chan 0).active = true ∧ ¬ (m.npu.chan 0).i2xTail ≤ (m.npu.chan 0).i2xSize := by
  have hrequests := shortFrame_isRequest 45 0x2
  have hchan : ((guestRun .accepting wildHeadOps).npu.chan 0).active = true ∧
      ((guestRun .accepting wildHeadOps).npu.chan 0).x2iHead = 0 ∧
      ((guestRun .accepting wildHeadOps).npu.chan 0).i2xBuf.toNat +
        ((guestRun .accepting wildHeadOps).npu.chan 0).i2xTail.toNat ≤ barSramSize ∧
      repliesTail ((guestRun .accepting wildHeadOps).npu.chan 0)
        (List.replicate 45 (shortFrame 0x2)) = 4140 := by decide +kernel
  have hm : guestRun .accepting overrunOps = mmioWriteBuf .accepting
      (guestRun .accepting wildHeadOps) barSram sramMgmtX2iOff
        (image Frame.encode (List.replicate 45 (shortFrame 0x2))) := guestRun_snoc ..
  have hholds := @holdsRequests_written .accepting (guestRun .accepting wildHeadOps) 0
    sramMgmtX2iOff 900 (List.replicate 45 (shortFrame 0x2)) (by rw [hchan.2.1]; decide)
    (by rw [hchan.2.1, image_shortFrame_length]; decide) (by decide)
  have hcons := guestRun_consistent .accepting overrunOps
  have hheads := guestRun_headsOk .accepting overrunOps
  rw [← mmioWriteBuf_sram_chan .accepting (guestRun .accepting wildHeadOps) sramMgmtX2iOff
    (image Frame.encode (List.replicate 45 (shortFrame 0x2))), ← hm] at hchan
  rw [← hm] at hholds
  have hkick : guestRun .accepting (overrunOps ++ [.write barMbox mboxX2iTailOff 900 4]) =
      kickChan .accepting (guestRun .accepting overrunOps) 0 900 := by
    rw [guestRun_snoc, guestStep, mmioWrite_word _ _ _ _ (by decide)]
    rfl
  have hcons' := guestRun_consistent .accepting
    (overrunOps ++ [.write barMbox mboxX2iTailOff 900 4])
  rw [hkick] at hcons' ⊢
  generalize guestRun .accepting overrunOps = m at *
  obtain ⟨hactive, hhead, hroom, htail⟩ := hchan
  have hkeep := kick_keeps .accepting hcons hheads hactive hroom hholds hrequests
    (shortFrame_spares 45 (by decide) _ 0)
  have hsize := (hcons'.ring 0 hkeep).i2xSize
  have hmoved := kick_tail .accepting hcons hheads hactive hroom hholds hrequests hkeep (by
    rw [hhead, List.length_replicate]
    decide)
  refine ⟨hkeep, fun hle => ?_⟩
  rw [UInt32.le_iff_toNat_le, hmoved, htail, hsize] at hle
  exact absurd hle (by decide)

end Xdna
