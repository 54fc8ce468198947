import Xdna.Runs

/-!
# The request parser

The tail, the ring contents and every size word are the guest's. The parser
keeps its own head at a multiple of four within the ring, and takes a frame only if
the frame lies entirely between the head and the end of the ring, also when the size
word is so large that the sum with the header wraps around.
-/

namespace Xdna

open ByteMemory Relation

/-! ## Acceptance -/

/-- The size word of the frame at the head of the `x2i` ring. -/
def sizeWord (npu : Npu) (c : ChanIdx) : UInt32 := npu.sram.word32 (npu.chan c).headOff

/-- The frame at the head is one that can be delivered. -/
def Deliverable (npu : Npu) (c : ChanIdx) : Prop :=
  sizeWord npu c ≠ 0 ∧ (sizeWord npu c).toNat % 4 = 0 ∧ sizeWord npu c ≠ mboxTombstone ∧
    (npu.chan c).x2iHead.toNat + (16 + (sizeWord npu c).toNat) ≤ (npu.chan c).x2iSize.toNat

/-- The head of the `x2i` ring is a multiple of four within the ring. -/
structure HeadOk (c : ChanIdx) (ch : Channel) : Prop where
  ring : HasRing c ch
  aligned : ch.x2iHead.toNat % 4 = 0
  le : ch.x2iHead.toNat ≤ ringSize c

/-- The `x2i` rings consist of words and lie in the SRAM. -/
theorem ringSize_bounds (c : ChanIdx) :
    ringSize c % 4 = 0 ∧ ringSize c ≤ 0x2000 ∧ x2iBase c + ringSize c ≤ barSramSize := by
  have hall : ∀ c : ChanIdx,
      ringSize c % 4 = 0 ∧ ringSize c ≤ 0x2000 ∧ x2iBase c + ringSize c ≤ barSramSize := by decide
  exact hall c

section Head

variable {c : ChanIdx} {npu : Npu} (h : HeadOk c (npu.chan c))

include h

/-- Inside the ring the bounds check of `xdna_sram_read32` never fails. -/
theorem HeadOk.sramRead32 (hin : (npu.chan c).x2iHead.toNat < ringSize c) :
    npu.sramRead32 ((npu.chan c).x2iBuf + (npu.chan c).x2iHead) = sizeWord npu c := by
  obtain ⟨hmod, hle, hsram⟩ := ringSize_bounds c
  have halign := h.aligned
  have hbuf := h.ring.x2iBuf
  have hoff : ((npu.chan c).x2iBuf + (npu.chan c).x2iHead).toNat = (npu.chan c).headOff := by
    rw [UInt32.toNat_add, Channel.headOff]
    unfold barSramSize at hsram
    omega
  have hlim : ¬ barSramSize < ((npu.chan c).x2iBuf + (npu.chan c).x2iHead + 4).toNat := by
    rw [UInt32.toNat_add, hoff, Channel.headOff]
    unfold barSramSize at *
    simp only [UInt32.reduceToNat]
    omega
  rw [Npu.sramRead32, if_neg hlim, hoff, sizeWord]

/-- The three tests of the source on size words reject exactly the frames that do not end
inside the ring: where `16 + size` wraps, the bound on the payload catches it. -/
theorem HeadOk.peek_frame_iff {size : UInt32} :
    (npu.chan c).peek npu = .frame size ↔
      (npu.chan c).x2iHead.toNat < ringSize c ∧ size = sizeWord npu c ∧ Deliverable npu c := by
  obtain ⟨hmod, hle, hsram⟩ := ringSize_bounds c
  have halign := h.aligned
  have hsize := h.ring.x2iSize
  unfold Channel.peek
  dsimp only
  by_cases hend : (npu.chan c).x2iSize ≤ (npu.chan c).x2iHead
  · rw [if_pos hend]
    rw [UInt32.le_iff_toNat_le, hsize] at hend
    simp only [reduceCtorEq, false_iff]
    omega
  · rw [if_neg hend]
    rw [UInt32.le_iff_toNat_le, hsize] at hend
    rw [h.sramRead32 (by omega)]
    have hrest : ((npu.chan c).x2iSize - (npu.chan c).x2iHead).toNat =
        ringSize c - (npu.chan c).x2iHead.toNat := by
      rw [UInt32.toNat_sub_of_le _ _ (by rw [UInt32.le_iff_toNat_le]; omega), hsize]
    have hmask : sizeWord npu c &&& 3 ≠ 0 ↔ (sizeWord npu c).toNat % 4 ≠ 0 := by
      rw [ne_eq, ← UInt32.toNat_inj, UInt32.toNat_and]
      exact not_congr (by rw [← Nat.and_two_pow_sub_one_eq_mod _ 2]; rfl)
    unfold Deliverable
    generalize hw : sizeWord npu c = w at *
    have hlt := w.toNat_lt
    by_cases htomb : w = mboxTombstone
    · simp [htomb]
    · rw [if_neg htomb]
      by_cases hbad : w = 0 ∨ w &&& 3 ≠ 0
      · rw [if_pos hbad]
        rw [hmask] at hbad
        simp only [reduceCtorEq, false_iff]
        tauto
      · rw [if_neg hbad]
        rw [hmask] at hbad
        push Not at hbad
        have hsum : (msgHeaderSize + w).toNat = (16 + w.toNat) % 2 ^ 32 := UInt32.toNat_add ..
        have hshort : (npu.chan c).x2iSize - (npu.chan c).x2iHead < msgHeaderSize + w ↔
            ringSize c - (npu.chan c).x2iHead.toNat < (16 + w.toNat) % 2 ^ 32 := by
          rw [UInt32.lt_iff_toNat_lt, hrest, hsum]
        have hlong : payloadSize < w ↔ 0x2000 < w.toNat := UInt32.lt_iff_toNat_lt
        split
        · rename_i hreject
          rw [hshort] at hreject
          simp only [reduceCtorEq, false_iff]
          omega
        · rename_i hfit
          rw [hshort] at hfit
          split
          · rename_i hreject
            rw [hlong] at hreject
            simp only [reduceCtorEq, false_iff]
            omega
          · rename_i hfit'
            rw [hlong] at hfit'
            simp only [Peek.frame.injEq]
            constructor
            · rintro rfl
              exact ⟨by omega, rfl, hbad.1, hbad.2, htomb, by omega⟩
            · rintro ⟨_, rfl, _⟩
              rfl

/-- The header of a frame that is taken gives the length of its payload. -/
theorem HeadOk.totalSize {size : UInt32} (hpeek : (npu.chan c).peek npu = .frame size) :
    (headHeader npu c).totalSize.toNat = (headPayload npu c size).length := by
  rw [headPayload, Memory.read_length, (h.peek_frame_iff.mp hpeek).2.1]
  rfl

/-- When the parser goes back to the start of the ring because of a tombstone. -/
theorem HeadOk.peek_tombstone_iff :
    (npu.chan c).peek npu = .tombstone ↔
      (npu.chan c).x2iHead.toNat < ringSize c ∧ sizeWord npu c = mboxTombstone := by
  have hsize := h.ring.x2iSize
  unfold Channel.peek
  dsimp only
  by_cases hend : (npu.chan c).x2iSize ≤ (npu.chan c).x2iHead
  · rw [if_pos hend]
    rw [UInt32.le_iff_toNat_le, hsize] at hend
    simp only [reduceCtorEq, false_iff]
    omega
  · rw [if_neg hend]
    rw [UInt32.le_iff_toNat_le, hsize] at hend
    rw [h.sramRead32 (by omega)]
    repeat' split
    all_goals simp_all

end Head

/-! ## The invariant of the head -/

/-- The head of every active channel is in order. -/
abbrev HeadsOk : Npu → Prop := OnActive HeadOk

/-- The parser's invariant is about the place of the ring and the head. -/
theorem HeadOk.congr {c : ChanIdx} {ch ch' : Channel} (h : HeadOk c ch) (heq : ch.SameShape ch')
    (hhead : ch'.x2iHead = ch.x2iHead) : HeadOk c ch' :=
  ⟨h.ring.congr heq, hhead ▸ h.aligned, hhead ▸ h.le⟩

/-- A head at zero is in order. -/
theorem headOk_of_zero {c : ChanIdx} {ch : Channel} (hring : HasRing c ch) (h : ch.x2iHead = 0) :
    HeadOk c ch :=
  ⟨hring, by rw [h]; rfl, by rw [h]; exact Nat.zero_le _⟩

/-- The guest cannot move the head of the device. -/
theorem GuestWrite.x2iHead {ok : UInt32 → Prop} {ch ch' : Channel} (h : GuestWrite ok ch ch') :
    ch'.x2iHead = ch.x2iHead := by
  cases h <;> rfl

/-- Taking a frame moves the head to the end of the frame. -/
theorem HeadOk.take {m : Machine} {c : ChanIdx} {size : UInt32} (h : HeadOk c (m.npu.chan c))
    (hpeek : (m.npu.chan c).peek m.npu = .frame size) :
    ((takeFrame m c size).npu.chan c).x2iHead.toNat =
        (m.npu.chan c).x2iHead.toNat + (16 + size.toNat) ∧
      HeadOk c ((takeFrame m c size).npu.chan c) := by
  obtain ⟨hlt, hw, _, hmod, _, hend⟩ := h.peek_frame_iff.mp hpeek
  obtain ⟨_, hle, _⟩ := ringSize_bounds c
  rw [← hw, h.ring.x2iSize] at hend
  rw [← hw] at hmod
  have halign := h.aligned
  have hhead : ((takeFrame m c size).npu.chan c).x2iHead.toNat =
      (m.npu.chan c).x2iHead.toNat + (16 + size.toNat) := by
    have heq : ((takeFrame m c size).npu.chan c).x2iHead =
        (m.npu.chan c).x2iHead + (msgHeaderSize + size) := by
      simp [takeFrame, Npu.consume, Npu.setX2iHead, Npu.setChan]
    rw [heq, UInt32.toNat_add, UInt32.toNat_add, show msgHeaderSize.toNat = 16 from rfl]
    omega
  exact ⟨hhead, h.ring.congr ((takeFrame_sameShape m c size).chan c), by omega, by omega⟩

/-- No step moves the head of an active channel out of place. -/
theorem Step.headsOk {host : Host} {ok : ChanIdx → UInt32 → Prop} {m m' : Machine}
    (hstep : Step host ok m m') (hcons : Consistent m.npu) (h : HeadsOk m.npu) :
    HeadsOk m'.npu := by
  refine hstep.onActive hcons h (headOk_of_zero mgmtChannel_hasRing rfl)
    (fun s => headOk_of_zero (createdChannel_hasRing s) rfl) ?_ ?_ ?_ ?_
  · exact fun c ch hch hw => hch.congr hw.sameShape hw.x2iHead
  · exact fun c hch => headOk_of_zero (hch.ring.congr (.pointers ..)) rfl
  · exact fun c size hch hpeek => (hch.take hpeek).2
  · intro c id opcode payload _ c' _ hch
    have hchange := mboxSend_change host m c id opcode payload
    exact hch.congr (hchange.sameShape.chan c') (hchange.x2i c').2.1

/-- The heads stay in order. -/
theorem Steps.headsOk {host : Host} {ok : ChanIdx → UInt32 → Prop} {m m' : Machine}
    (hsteps : Steps host ok m m') (hcons : Consistent m.npu) (h : HeadsOk m.npu) :
    HeadsOk m'.npu :=
  (hsteps.preserves (P := fun m => Consistent m.npu ∧ HeadsOk m.npu)
    (fun _ _ hm hstep => ⟨hstep.tableChange.consistent hm.1, hstep.headsOk hm.1 hm.2⟩)
    ⟨hcons, h⟩).2

/-- No channel is active after a reset. -/
theorem headsOk_npuReset : HeadsOk npuReset := fun c hc => by simp [resetChan] at hc

/-- The heads are in order at the end of every run. -/
theorem guestRun_headsOk (host : Host) (ops : List GuestOp) : HeadsOk (guestRun host ops).npu :=
  (guestRun_steps_any host ops).headsOk consistent_npuReset headsOk_npuReset

/-! ## What is read and what is delivered -/

/-- A read of the parser lies in the `x2i` ring of the channel, and a delivered header gives
the number of payload bytes that were copied. -/
def Event.ParsedWithin : Event → Prop
  | .ringRead c off len =>
    x2iBase c ≤ off ∧ off + len ≤ x2iBase c + ringSize c ∧ off + len ≤ barSramSize
  | .handle _ hdr payload _ => hdr.totalSize.toNat = payload.length ∧ payload.length ≤ 0x2000
  | _ => True

private theorem Step.parsedWithin {host : Host} {ok : ChanIdx → UInt32 → Prop} {m m' : Machine}
    (hstep : Step host ok m m') (h : HeadsOk m.npu) : m.Extends Event.ParsedWithin m' := by
  cases hstep with
  | regs _ htrace => exact htrace.mono fun e he => by cases e <;> trivial
  | sram _ _ _ => exact .modify _
  | guest _ _ => exact .modify _
  | boot => exact .modify _
  | shutdown => exact .modify _
  | wrap _ _ => exact .modify _
  | examine c hactive hin =>
    obtain ⟨hmod, _, hsram⟩ := ringSize_bounds c
    have hhead := h c hactive
    have halign := hhead.aligned
    have hbuf := hhead.ring.x2iBuf
    rw [UInt32.le_iff_toNat_le, hhead.ring.x2iSize] at hin
    refine .emit ⟨?_, ?_, ?_⟩ <;> rw [Channel.headOff, hbuf] <;> omega
  | reject _ _ _ => exact .emit trivial
  | take c size hactive hpeek =>
    obtain ⟨_, hle, hsram⟩ := ringSize_bounds c
    have hhead := h c hactive
    have hbuf := hhead.ring.x2iBuf
    obtain ⟨hlt, hw, _, _, _, hend⟩ := hhead.peek_frame_iff.mp hpeek
    rw [← hw, hhead.ring.x2iSize] at hend
    have hoff : (m.npu.chan c).headOff = x2iBase c + (m.npu.chan c).x2iHead.toNat := by
      rw [Channel.headOff, hbuf]
    have hmsg : msgHeaderSize.toNat = 16 := rfl
    have hreads : m.Extends Event.ParsedWithin
        ((m.emit (.ringRead c (m.npu.chan c).headOff msgHeaderSize.toNat)).emit
          (.ringRead c ((m.npu.chan c).headOff + msgHeaderSize.toNat) size.toNat)) := by
      refine (Machine.Extends.emit ⟨?_, ?_, ?_⟩).trans (.emit ⟨?_, ?_, ?_⟩) <;>
        omega
    refine (hreads.trans (.modify (·.consume c size))).trans (.emit ⟨?_, ?_⟩)
    · rw [headPayload, Memory.read_length, headHeader, hw]
      rfl
    · rw [headPayload, Memory.read_length]
      omega
  | message _ _ _ => exact (mertOutcome_trace ..).2.mono fun e he => by cases e <;> trivial
  | send c id opcode payload _ =>
    obtain ⟨m₁, hext, htrace⟩ := mboxSend_trace host m c id opcode payload
    exact (hext.mono fun e he => by cases he <;> trivial).trans (.of_trace_eq htrace trivial)

private theorem guestRun_parsedWithin (host : Host) (ops : List GuestOp) :
    ∀ e ∈ (guestRun host ops).trace, e.ParsedWithin := by
  have h := (guestRun_steps_any host ops).preserves
    (P := fun m => (Consistent m.npu ∧ HeadsOk m.npu) ∧ ∀ e ∈ m.trace, e.ParsedWithin)
    (fun m m' hm hstep => ⟨⟨hstep.tableChange.consistent hm.1.1, hstep.headsOk hm.1.1 hm.1.2⟩,
      (hstep.parsedWithin hm.1.2).forall_trace hm.2⟩)
    ⟨⟨consistent_npuReset, headsOk_npuReset⟩, fun _ he => nomatch he⟩
  exact h.2

/-! ## The passes of a kick -/

/-- The machine in which pass `n` of a kick begins, if the kick gets so far. -/
def passStart (host : Host) (c : ChanIdx) : ℕ → Machine → Option Machine
  | 0, m => some m
  | n + 1, m =>
    if (m.npu.chan c).x2iHead = (m.npu.chan c).x2iTail then none
    else
      let r := mboxPass host c m
      if r.2 then passStart host c n r.1 else none

/-- The state in which the kick of a tail write starts. -/
def tailWritten (m : Machine) (c : ChanIdx) (val : UInt32) : Machine :=
  m.modify fun npu => npu.setChan c { npu.chan c with x2iTail := val }

variable {host : Host} {m m' : Machine} {c : ChanIdx} {n : ℕ}

private theorem mboxLoop_passStart (fuel : ℕ) (h : passStart host c n m = some m') :
    mboxLoop host c (n + fuel) m = mboxLoop host c fuel m' := by
  induction n generalizing m with
  | zero =>
    rw [passStart, Option.some.injEq] at h
    rw [h, Nat.zero_add]
  | succ n ih =>
    rw [passStart] at h
    rw [show n + 1 + fuel = n + fuel + 1 by omega, mboxLoop]
    split at h
    · cases h
    · rename_i hne
      dsimp only at h ⊢
      split at h
      · rename_i hgo
        rw [if_neg hne, if_pos hgo]
        exact ih h
      · cases h

private theorem passStart_steps {ok : ChanIdx → UInt32 → Prop} (hcons : Consistent m.npu)
    (hpending : (m.npu.chan c).Pending) (h : passStart host c n m = some m') :
    Steps host ok m m' ∧ (m'.npu.chan c).Pending := by
  induction n generalizing m with
  | zero =>
    rw [passStart, Option.some.injEq] at h
    subst h
    exact ⟨.refl, hpending⟩
  | succ n ih =>
    rw [passStart] at h
    split at h
    · cases h
    · rename_i hne
      have hactive : (m.npu.chan c).active = true := hpending.resolve_right hne
      have hpass : Steps host ok m (mboxPass host c m).1 :=
        mboxPass_steps c hactive (hcons.fwAlive_of_active hactive)
      dsimp only at h
      split at h
      · obtain ⟨hsteps, hpending'⟩ := ih (hpass.consistent hcons) (mboxPass_pending hcons hactive) h
        exact ⟨hpass.trans hsteps, hpending'⟩
      · cases h

/-- A tail write on an active channel runs the loop of that channel. -/
theorem mboxRegWrite_tail {off val : UInt32} (hoff : chanFromOff off = some (c, mboxX2iTailOff))
    (hcons : Consistent m.npu) (hactive : (m.npu.chan c).active = true) :
    mboxRegWrite host m off val = mboxLoop host c mboxMaxMsgPerKick (tailWritten m c val) := by
  have hindex : ((tailWritten m c val).npu.chan c).index = c.val := by
    simp [tailWritten, Npu.setChan, hcons.index]
  have hactive' : ((tailWritten m c val).npu.chan c).active = true := by
    simpa [tailWritten, Npu.setChan] using hactive
  unfold mboxRegWrite
  rw [hoff]
  dsimp only
  rw [if_pos rfl, ← tailWritten, hindex, mboxProcess, dif_pos c.isLt, if_pos hactive']

/-- A pass that rejects reads the size word and stops. -/
theorem mboxPass_reject (hpeek : (m.npu.chan c).peek m.npu = .reject) :
    mboxPass host c m =
      ({ m with trace := m.trace ++ [.ringRead c (m.npu.chan c).headOff 4, .reject c m.npu] },
        false) := by
  unfold mboxPass
  dsimp only
  rw [hpeek]
  simp [Machine.emit]

/-- A pass that finds a tombstone goes back to the start. -/
theorem mboxPass_tombstone (hpeek : (m.npu.chan c).peek m.npu = .tombstone) :
    mboxPass host c m =
      ((m.emit (.ringRead c (m.npu.chan c).headOff 4)).modify (·.setX2iHead c 0), true) := by
  unfold mboxPass
  dsimp only
  rw [hpeek]

private theorem Machine.Extends.mem_drop {P : Event → Prop} (h : m.Extends P m') {k : ℕ} {e : Event}
    (he : e ∈ m.trace.drop k) (hk : k ≤ m.trace.length) : e ∈ m'.trace.drop k := by
  obtain ⟨ws, htrace, _⟩ := h
  rw [htrace, List.drop_append_of_le_length hk]
  exact List.mem_append_left _ he

/-- A frame is handed to the handler with the header and the payload that lie in the ring. -/
theorem mboxPass_frame {size : UInt32} (hpeek : (m.npu.chan c).peek m.npu = .frame size)
    (halive : m.npu.fwAlive = true) :
    ∃ npu, Event.handle c (headHeader m.npu c) (headPayload m.npu c size) npu ∈
      (mboxPass host c m).1.trace.drop m.trace.length := by
  rw [mboxPass_deliver halive hpeek]
  generalize hm₁ : m.emit (.ringRead c (m.npu.chan c).headOff 4) = m₁
  have hnpu : m₁.npu = m.npu := by rw [← hm₁]; rfl
  have htrace : m₁.trace = m.trace ++ [.ringRead c (m.npu.chan c).headOff 4] := by rw [← hm₁]; rfl
  generalize payloadBuffer (headPayload m.npu c size) (host.stack _) = payload
  have htake := takeFrame_trace m₁ c size
  rw [htrace, List.append_assoc, hnpu] at htake
  have hmem : Event.handle c (headHeader m.npu c) (headPayload m.npu c size)
      (takeFrame m₁ c size).npu ∈ (takeFrame m₁ c size).trace.drop m.trace.length := by
    rw [htake, List.drop_left]
    simp
  refine ⟨(takeFrame m₁ c size).npu, ?_⟩
  have hlen : m.trace.length ≤ (takeFrame m₁ c size).trace.length := by
    rw [htake, List.length_append]
    omega
  have hext := (mertOutcome_trace host (takeFrame m₁ c size) (headHeader m.npu c) payload).2
  generalize mertOutcome host (takeFrame m₁ c size) (headHeader m.npu c) payload = r at hext ⊢
  have hlen' : m.trace.length ≤ r.1.trace.length := by
    obtain ⟨ws, hws, _⟩ := hext
    rw [hws, List.length_append]
    omega
  have hmem' := hext.mem_drop hmem hlen
  unfold answerWith
  cases r.2 with
  | none => exact hmem'
  | some a =>
    obtain ⟨m₂, hext₂, htrace₂⟩ := mboxSend_trace host r.1 c (headHeader m.npu c).id
      (headHeader m.npu c).opcode a.2
    have hlen₂ : m.trace.length ≤ m₂.trace.length := by
      obtain ⟨ws, hws, _⟩ := hext₂
      rw [hws, List.length_append]
      omega
    exact (Machine.Extends.of_trace_eq (P := fun _ => True) htrace₂ trivial).mem_drop
      (hext₂.mem_drop hmem' hlen') hlen₂

/-- The parser stays inside its ring for every guest: its head is in order in every reachable
state, the guest cannot move it, everything it reads is inside, and in every pass of every kick
it delivers exactly the frames that end inside the ring. A frame it does not deliver ends the
kick and leaves everything as it is. -/
theorem guestRun_parsing (host : Host) (ops : List GuestOp) (c : ChanIdx) :
    let m := guestRun host ops
    ((m.npu.chan c).active = true → HeadOk c (m.npu.chan c)) ∧
    (∀ off val, chanFromOff off = some (c, mboxX2iHeadOff) ∨
      chanFromOff off = some (c, mboxI2xTailOff) → mboxRegWrite host m off val = m) ∧
    (∀ e ∈ m.trace, e.ParsedWithin) ∧
    ∀ off val n m', chanFromOff off = some (c, mboxX2iTailOff) →
      (m.npu.chan c).active = true → n < mboxMaxMsgPerKick →
      passStart host c n (tailWritten m c val) = some m' →
      (m'.npu.chan c).x2iHead ≠ (m'.npu.chan c).x2iTail →
      (m'.npu.chan c).x2iHead < (m'.npu.chan c).x2iSize →
      let news := (mboxPass host c m').1.trace.drop m'.trace.length
      (Deliverable m'.npu c → ∃ npu, Event.handle c (headHeader m'.npu c)
        (headPayload m'.npu c (sizeWord m'.npu c)) npu ∈ news) ∧
      ((∃ hdr payload npu, Event.handle c hdr payload npu ∈ news) → Deliverable m'.npu c) ∧
      (¬ Deliverable m'.npu c → sizeWord m'.npu c ≠ mboxTombstone →
        mboxRegWrite host m off val = { m' with
          trace := m'.trace ++ [.ringRead c (m'.npu.chan c).headOff 4, .reject c m'.npu] }) := by
  intro m
  have hcons : Consistent m.npu := guestRun_consistent host ops
  have hheads : HeadsOk m.npu := guestRun_headsOk host ops
  refine ⟨hheads c, fun off val hoff => ?_, guestRun_parsedWithin host ops, ?_⟩
  · unfold mboxRegWrite
    rcases hoff with hoff | hoff <;> rw [hoff] <;> rfl
  intro off val n m' hoff hactive hn hstart hne hlt
  have htail : Steps host (fun _ _ => True) m (tailWritten m c val) :=
    .single (.guest m c (.x2iTail val))
  have hpending : ((tailWritten m c val).npu.chan c).Pending :=
    .inl (by simpa [tailWritten, Npu.setChan] using hactive)
  obtain ⟨hsteps, hpending'⟩ := passStart_steps (htail.consistent hcons) hpending hstart
  have hall : Steps host (fun _ _ => True) m m' := htail.trans hsteps
  have hcons' := hall.consistent hcons
  have hheads' := hall.headsOk hcons hheads
  have hactive' : (m'.npu.chan c).active = true := hpending'.resolve_right hne
  have hhead := hheads' c hactive'
  rw [UInt32.lt_iff_toNat_lt, hhead.ring.x2iSize] at hlt
  have hframe : (m'.npu.chan c).peek m'.npu = .frame (sizeWord m'.npu c) ↔
      Deliverable m'.npu c := by
    rw [hhead.peek_frame_iff]
    exact ⟨fun h => h.2.2, fun h => ⟨hlt, rfl, h⟩⟩
  refine ⟨fun hdel => mboxPass_frame (hframe.mpr hdel) (hcons'.fwAlive_of_active hactive'), ?_, ?_⟩
  · rintro ⟨hdr, payload, npu, hmem⟩
    cases hpeek : (m'.npu.chan c).peek m'.npu with
    | ringEnd =>
      rw [peek_ringEnd_iff, UInt32.le_iff_toNat_le, hhead.ring.x2iSize] at hpeek
      omega
    | tombstone =>
      rw [mboxPass_tombstone hpeek] at hmem
      simp at hmem
    | reject =>
      rw [mboxPass_reject hpeek] at hmem
      simp at hmem
    | frame size => exact (hhead.peek_frame_iff.mp hpeek).2.2
  · intro hnot htomb
    have hpeek : (m'.npu.chan c).peek m'.npu = .reject := by
      cases hpeek : (m'.npu.chan c).peek m'.npu with
      | ringEnd =>
        rw [peek_ringEnd_iff, UInt32.le_iff_toNat_le, hhead.ring.x2iSize] at hpeek
        omega
      | tombstone => exact absurd (hhead.peek_tombstone_iff.mp hpeek).2 htomb
      | reject => rfl
      | frame size => exact absurd (hhead.peek_frame_iff.mp hpeek).2.2 hnot
    obtain ⟨fuel, hfuel⟩ := Nat.exists_eq_add_of_lt hn
    rw [mboxRegWrite_tail hoff hcons hactive, hfuel, Nat.add_assoc,
      mboxLoop_passStart (fuel + 1) hstart, mboxLoop, if_neg hne, mboxPass_reject hpeek]
    rfl

end Xdna
