import Xdna.DriverSemantics
import Xdna.General.GuardedRun

/-!
# No reply is lost in the ring

The `i2x` ring under any interleaving of sends and reads. A send puts its frame where
the abstract ring of `General/RingLog` allows it, with one exception: with the head at zero
a frame that does not fit behind the tail is written over the unread frames at the start of
the ring, because the test for a full ring takes equal offsets for an empty ring. Away from
that case the frames the driver reads are those that were sent, in order.
-/

namespace Xdna

open ByteMemory RingLog GuardedRun

/-! ## A send on a ring that holds frames -/

private theorem markedSram_window (npu : Npu) (c : ChanIdx) (base size n : ℕ) :
    (markedSram npu c base size n).window base =
      marked tombstoneBytes (npu.sram.window base) (size - 4) (npu.chan c).i2xHead.toNat
        (npu.chan c).i2xTail.toNat n := by
  unfold markedSram RingLog.marked
  split
  · exact Memory.window_write ..
  · rfl

/-- What a send of a frame that is not longer than the ring does to the ring. -/
inductive RingSend (m : Machine) (c : ChanIdx) (f : Frame) (unread : List Frame)
    (r : Machine × Bool) : Prop
  | placed (s : ℕ)
      (hplace : place (ringSize c - 4) (m.npu.chan c).i2xHead.toNat (m.npu.chan c).i2xTail.toNat
        (16 + f.payload.length) = some s)
      (hsent : r.2 = true) (htail : (r.1.npu.chan c).i2xTail.toNat = s + (16 + f.payload.length))
      (hholds : HoldsReplies r.1.npu c (unread ++ [f]))
  | dropped
      (hplace : place (ringSize c - 4) (m.npu.chan c).i2xHead.toNat (m.npu.chan c).i2xTail.toNat
        (16 + f.payload.length) = none)
      (hhead : (m.npu.chan c).i2xHead ≠ 0) (hsent : r.2 = false)
      (htail : (r.1.npu.chan c).i2xTail = (m.npu.chan c).i2xTail)
      (hholds : HoldsReplies r.1.npu c unread)
  | overwritten
      (hplace : place (ringSize c - 4) (m.npu.chan c).i2xHead.toNat (m.npu.chan c).i2xTail.toNat
        (16 + f.payload.length) = none)
      (hhead : (m.npu.chan c).i2xHead = 0) (hsent : r.2 = true)
      (htail : (r.1.npu.chan c).i2xTail.toNat = 16 + f.payload.length)

section Send

variable (host : Host) {m : Machine} {c : ChanIdx} {unread : List Frame} (id opcode : UInt32)
  {payload : List UInt8}

/-- Behind the last unread frame there is room for a tombstone. -/
theorem HoldsReplies.room (h : HoldsReplies m.npu c unread) :
    (m.npu.chan c).i2xTail.toNat + 4 ≤ ringSize c := by
  have := h.bounds.2
  have := (i2xBase_bounds c).1
  omega

/-- A send puts its frame behind the unread ones, or drops it, or writes over them. -/
theorem mboxSend_ring (hring : HasRing c (m.npu.chan c)) (hactive : (m.npu.chan c).active = true)
    (hholds : HoldsReplies m.npu c unread) (hlen : 16 + payload.length ≤ ringSize c - 4) :
    RingSend m c (replyFrame id opcode payload) unread (mboxSend host m c id opcode payload) := by
  obtain ⟨hlarge, _, hsram⟩ := i2xBase_bounds c
  obtain ⟨hheadle, htaille⟩ := hholds.bounds
  have hreply : ReplyRing (m.npu.chan c) (i2xBase c) (ringSize c) :=
    ⟨hactive, hring.i2xBuf, hring.i2xSize, hsram, by omega⟩
  have hstart := hreply.sendStart_toNat hlen
  have hplace := place_eq hheadle (m.npu.chan c).i2xTail.toNat (16 + payload.length)
  have hfulliff := hreply.sendFull_iff hlen
  have hzero : (m.npu.chan c).i2xHead = 0 ↔ (m.npu.chan c).i2xHead.toNat = 0 := by
    rw [← UInt32.toNat_inj]
    rfl
  cases hfull : (m.npu.chan c).sendFull (pkgSize payload) with
  | true =>
    rw [hfull] at hfulliff
    have hfull' := hfulliff.mp rfl
    rw [mboxSend_full host id opcode hreply hlen hfull]
    refine .dropped ?_ ?_ rfl rfl ?_
    · rw [show (replyFrame id opcode payload).payload = payload from rfl, hplace]
      by_cases hw : Wraps (ringSize c - 4) (m.npu.chan c).i2xHead.toNat
          (m.npu.chan c).i2xTail.toNat (16 + payload.length)
      · rw [if_pos hw] at hstart ⊢
        rw [if_pos (by omega)]
      · rw [if_neg hw] at hstart ⊢
        rw [if_pos (by omega)]
    · rw [ne_eq, hzero]
      omega
    · unfold HoldsReplies
      dsimp only
      rw [markedSram_window]
      exact hholds.marked _
  | false =>
    rw [hfull] at hfulliff
    have hnot : ¬ _ := fun h => Bool.false_ne_true (hfulliff.mpr h)
    have hend : ((m.npu.chan c).sendStart (pkgSize payload)).toNat + (16 + payload.length) ≤
        ringSize c := by
      by_cases hw : Wraps (ringSize c - 4) (m.npu.chan c).i2xHead.toNat
          (m.npu.chan c).i2xTail.toNat (16 + payload.length)
      · rw [if_pos hw] at hstart
        omega
      · rw [if_neg hw] at hstart
        unfold Wraps at hw
        omega
    have htail := hreply.start_add hlen
    rw [mboxSend_sent host id opcode hreply hlen hfull hend]
    by_cases hover : Wraps (ringSize c - 4) (m.npu.chan c).i2xHead.toNat
        (m.npu.chan c).i2xTail.toNat (16 + payload.length) ∧ (m.npu.chan c).i2xHead.toNat = 0
    · obtain ⟨hw, hhead⟩ := hover
      rw [if_pos hw] at hstart
      refine .overwritten ?_ (hzero.mpr hhead) rfl ?_
      · rw [show (replyFrame id opcode payload).payload = payload from rfl, hplace, if_pos hw,
          if_neg (by omega), if_pos hhead]
      · dsimp only
        rw [countIrq_chan, sentNpu]
        dsimp only
        rw [Function.update_self]
        dsimp only
        rw [htail, hstart, Nat.zero_add]
        rfl
    · have hsome : place (ringSize c - 4) (m.npu.chan c).i2xHead.toNat
          (m.npu.chan c).i2xTail.toNat (16 + payload.length) =
          some ((m.npu.chan c).sendStart (pkgSize payload)).toNat := by
        rw [hplace, hstart]
        by_cases hw : Wraps (ringSize c - 4) (m.npu.chan c).i2xHead.toNat
            (m.npu.chan c).i2xTail.toNat (16 + payload.length)
        · rw [if_pos hw] at hstart
          rw [if_pos hw, if_pos hw, if_neg (by omega), if_neg fun h => hover ⟨hw, h⟩]
        · rw [if_neg hw] at hstart
          rw [if_neg hw, if_neg hw, if_neg (by omega)]
      refine .placed _ hsome rfl ?_ ?_
      · dsimp only
        rw [countIrq_chan, sentNpu]
        dsimp only
        rw [Function.update_self]
        dsimp only
        rw [htail]
        rfl
      · unfold HoldsReplies
        dsimp only
        rw [countIrq_chan, countIrq_sram, sentNpu]
        dsimp only
        rw [Function.update_self]
        dsimp only
        rw [htail, Memory.window_write, markedSram_window]
        have hput := hholds.put (f := replyFrame id opcode payload)
          (by rw [Frame.encode_length]; exact hsome)
        rw [Frame.encode_length] at hput
        exact hput

end Send

/-! ## Any interleaving of sends and reads -/

/-- The two ends of the `i2x` ring of a channel, with the frames sent and read so far. -/
structure Link where
  machine : Machine
  drv : Drv
  sent : List Frame
  got : List Frame

/-- A channel that has just been set up, and its driver. -/
def Link.start (m : Machine) (c : ChanIdx) : Link := ⟨m, Drv.ofChannel c (m.npu.chan c), [], []⟩

/-- The device sends, or the driver makes one pass of `mbox_recv`. -/
inductive LinkOp where
  | send (id opcode : UInt32) (payload : List UInt8)
  | recv

/-- Sent frames are those for which `xdna_mbox_send` has returned 0. -/
def linkStep (host : Host) (c : ChanIdx) (st : Link) : LinkOp → Link
  | .send id opcode payload =>
    let r := mboxSend host st.machine c id opcode payload
    { st with
      machine := r.1
      sent := if r.2 then st.sent ++ [replyFrame id opcode payload] else st.sent }
  | .recv =>
    let r := recvPass host st.drv st.machine
    { st with
      drv := r.1
      machine := r.2.1
      got := match r.2.2 with
        | .frame f => st.got ++ [f]
        | _ => st.got }

/-- The driver has read a prefix of the frames sent, and the others are in the ring. -/
def Link.Intact (c : ChanIdx) (st : Link) : Prop :=
  ∃ unread, st.sent = st.got ++ unread ∧ HoldsReplies st.machine.npu c unread

/-- The frame does not go over unread ones at the start of the ring: if the head is at zero, a
frame that is not refused for its size fits behind the tail. -/
def SendOk (c : ChanIdx) (st : Link) : LinkOp → Prop
  | .send _ _ payload =>
    let ch := st.machine.npu.chan c
    ¬ (ch.i2xHead = 0 ∧ 16 + payload.length + 4 ≤ ch.i2xSize.toNat ∧
      ch.i2xSize.toNat < ch.i2xTail.toNat + (16 + payload.length) + 4)
  | .recv => True

instance (c : ChanIdx) : DecidableRel (SendOk c)
  | _, .send .. => inferInstanceAs (Decidable (¬ _))
  | _, .recv => inferInstanceAs (Decidable True)

/-- The length of the frame is a 32-bit number. -/
def LinkOp.Short : LinkOp → Prop
  | .send _ _ payload => 16 + payload.length < 2 ^ 32
  | .recv => True

instance : DecidablePred LinkOp.Short
  | .send .. => inferInstanceAs (Decidable (_ < _))
  | .recv => inferInstanceAs (Decidable True)

/-- What does not change while the two ends work on the ring. -/
structure Link.Live (c : ChanIdx) (st : Link) : Prop where
  active : (st.machine.npu.chan c).active = true
  sync : st.drv.InSync st.machine.npu c
  wellFormed : ∀ f ∈ st.sent, f.WellFormed

private theorem Drv.InSync.congr {d : Drv} {npu npu' : Npu} {c : ChanIdx} (h : d.InSync npu c)
    (hshape : (npu.chan c).SameShape (npu'.chan c))
    (hhead : (npu'.chan c).i2xHead = (npu.chan c).i2xHead) : d.InSync npu' c where
  ring := h.ring.congr hshape
  i2x := by
    rw [h.i2x]
    simp only [Drv.ofChannel, hshape.i2xBuf, hshape.i2xSize]
  head := by rw [h.head, hhead]

variable (host : Host) {c : ChanIdx} {st : Link}

/-- After a send the driver still knows the ring. -/
theorem Link.Live.send (h : st.Live c) (id opcode : UInt32) {payload : List UInt8}
    (hlen : 16 + payload.length < 2 ^ 32) :
    (linkStep host c st (.send id opcode payload)).Live c where
  active := by
    have hshape := (mboxSend_change host st.machine c id opcode payload).sameShape.chan c
    exact hshape.active.trans h.active
  sync :=
    have hchange := mboxSend_change host st.machine c id opcode payload
    h.sync.congr (hchange.sameShape.chan c) (hchange.i2xHead c)
  wellFormed f hf := by
    dsimp only [linkStep] at hf
    split at hf
    · rcases List.mem_append.mp hf with hf | hf
      · exact h.wellFormed f hf
      · rw [List.mem_singleton.mp hf]
        exact replyFrame_wellFormed id opcode (by omega)
    · exact h.wellFormed f hf

/-- A send keeps the link intact exactly when it does not write over unread frames. -/
theorem Link.Live.send_intact_iff (h : st.Live c) (hintact : st.Intact c) (id opcode : UInt32)
    {payload : List UInt8} (hlen : 16 + payload.length < 2 ^ 32) :
    (linkStep host c st (.send id opcode payload)).Intact c ↔
      SendOk c st (.send id opcode payload) := by
  obtain ⟨unread, hsplit, hholds⟩ := hintact
  obtain ⟨hlarge, _, hsram⟩ := i2xBase_bounds c
  have hsize := h.sync.ring.i2xSize
  have hroom := hholds.room
  unfold SendOk
  dsimp only [linkStep]
  rw [hsize]
  by_cases hfits : 16 + payload.length ≤ ringSize c - 4
  · cases mboxSend_ring host id opcode h.sync.ring h.active hholds hfits with
    | placed s hplace hsent htail hholds' =>
      refine iff_of_true ⟨unread ++ [replyFrame id opcode payload], ?_, hholds'⟩ ?_
      · rw [if_pos hsent, hsplit, List.append_assoc]
      · rintro ⟨hhead, _, hwrap⟩
        rw [hhead, UInt32.toNat_zero, place_head_zero, if_neg (by dsimp only [replyFrame]; omega)]
          at hplace
        cases hplace
    | dropped hplace hhead hsent htail hholds' =>
      refine iff_of_true ⟨unread, ?_, hholds'⟩ fun hover => hhead hover.1
      rw [if_neg (by simp [hsent]), hsplit]
    | overwritten hplace hhead hsent htail =>
      have hwrap : ringSize c - 4 <
          (st.machine.npu.chan c).i2xTail.toNat + (16 + payload.length) := by
        by_contra hnot
        rw [hhead, UInt32.toNat_zero, place_head_zero, if_pos (by dsimp only [replyFrame]; omega)]
          at hplace
        cases hplace
      refine iff_of_false ?_ fun hnot => hnot ⟨hhead, by omega, by omega⟩
      rintro ⟨unread', hsplit', hholds'⟩
      -- The new tail counts the new frame only, but the ring must hold the old ones as well.
      rw [if_pos hsent, hsplit, List.append_assoc] at hsplit'
      have hunread : unread' = unread ++ [replyFrame id opcode payload] :=
        (List.append_cancel_left hsplit').symm
      have hhead' := (mboxSend_change host st.machine c id opcode payload).i2xHead c
      rw [hhead] at hhead'
      unfold HoldsReplies at hholds hholds'
      rw [hhead', hunread] at hholds'
      rw [hhead] at hholds
      have hnew := hholds'.length_of_head_zero
      have hold := hholds.length_of_head_zero
      rw [htail, image_append, List.length_append, hold] at hnew
      simp only [image_cons, image_nil, List.append_nil, Frame.encode_length] at hnew
      omega
  · have hrefused : mboxSend host st.machine c id opcode payload =
        (st.machine.emit (.send c id opcode payload false), false) := by
      have hreply : ReplyRing (st.machine.npu.chan c) (i2xBase c) (ringSize c) :=
        ⟨h.active, h.sync.ring.i2xBuf, hsize, hsram, hroom⟩
      have husable : (st.machine.npu.chan c).usable < pkgSize payload :=
        (hreply.usable_lt_iff hlen).mpr (by omega)
      rw [pkgSize] at husable
      simp [mboxSend, mboxSendBody, h.active, husable]
    rw [hrefused]
    refine iff_of_true ⟨unread, by simpa using hsplit, hholds⟩ ?_
    rintro ⟨_, hle, _⟩
    omega

/-- A pass of the driver takes at most the first unread frame. -/
theorem Link.Live.recv (h : st.Live c) (hintact : st.Intact c) :
    (linkStep host c st .recv).Live c ∧ (linkStep host c st .recv).Intact c := by
  obtain ⟨unread, hsplit, hholds⟩ := hintact
  have hwf : ∀ f ∈ unread, f.WellFormed := fun f hf => h.wellFormed f (by simp [hsplit, hf])
  have hpublish (v : UInt32) : Drv.InSync { st.drv with i2xHead := v }
      (publishHead st.machine c v).npu c := by
    have hshape : (st.machine.npu.chan c).SameShape ((publishHead st.machine c v).npu.chan c) := by
      simp only [publishHead, Machine.modify_npu, Npu.setChan, Function.update_self]
      exact .pointers ..
    refine ⟨h.sync.ring.congr hshape, ?_, ?_⟩
    · have := h.sync.i2x
      simp only [Drv.ofChannel, hshape.i2xBuf, hshape.i2xSize] at this ⊢
      exact this
    · simp [publishHead, Npu.setChan]
  have hactive (v : UInt32) : ((publishHead st.machine c v).npu.chan c).active = true := by
    simpa [publishHead, Npu.setChan] using h.active
  unfold linkStep
  dsimp only
  rcases recvPass_holds host h.sync hwf hholds with ⟨_, _, heq⟩ | ⟨_, heq, hholds'⟩ |
    ⟨f, rest, v, rfl, heq, hholds'⟩
  · rw [heq]
    exact ⟨h, unread, hsplit, hholds⟩
  · rw [heq]
    exact ⟨⟨hactive 0, hpublish 0, h.wellFormed⟩, unread, hsplit, hholds'⟩
  · rw [heq]
    refine ⟨⟨hactive v, hpublish v, h.wellFormed⟩, rest, ?_, hholds'⟩
    rw [hsplit, List.append_assoc, List.singleton_append]

/-- A channel that has just been set up: an empty ring in its place. -/
structure SetUp (npu : Npu) (c : ChanIdx) : Prop where
  active : (npu.chan c).active = true
  ring : HasRing c (npu.chan c)
  i2xHead : (npu.chan c).i2xHead = 0
  i2xTail : (npu.chan c).i2xTail = 0

/-- A channel that has just been set up is live. -/
theorem SetUp.live {m : Machine} (h : SetUp m.npu c) : (Link.start m c).Live c :=
  ⟨h.active, ⟨h.ring, rfl, h.i2xHead.symm⟩, fun _ hf => nomatch hf⟩

private theorem SetUp.intact {m : Machine} (h : SetUp m.npu c) : (Link.start m c).Intact c := by
  refine ⟨[], rfl, ?_⟩
  unfold HoldsReplies Link.start
  dsimp only
  rw [h.i2xHead, h.i2xTail]
  exact .empty (Nat.zero_le _)

/-- Throughout a run from a channel that has just been set up, the driver reads the frames
that were sent, in order and unchanged, if and only if no send finds the head at zero and too
little room behind the tail. -/
theorem link_intact_iff (host : Host) {m : Machine} {c : ChanIdx} {ops : List LinkOp}
    (hsetUp : SetUp m.npu c) (hops : ∀ op ∈ ops, op.Short) :
    Always (linkStep host c) (Link.Intact c) (Link.start m c) ops ↔
      Guarded (linkStep host c) (SendOk c) (Link.start m c) ops := by
  refine always_iff_guarded (I := Link.Live c) ?_ hsetUp.live hsetUp.intact
  intro st op hop hlive hintact
  cases op with
  | send id opcode payload =>
    exact ⟨hlive.send_intact_iff host hintact id opcode (hops _ hop),
      fun _ => hlive.send host id opcode (hops _ hop)⟩
  | recv =>
    obtain ⟨hlive', hintact'⟩ := hlive.recv host hintact
    exact ⟨iff_of_true hintact' trivial, fun _ => hlive'⟩

/-- The device after a boot. -/
def booted : Machine := ⟨fwBoot npuReset, 0, 0, []⟩

private theorem booted_setUp : SetUp booted.npu 0 := by
  have hchan : booted.npu.chan 0 = mgmtChannel := by simp [booted]
  refine ⟨?_, ?_, ?_, ?_⟩ <;> rw [hchan]
  · rfl
  · exact mgmtChannel_hasRing
  · rfl
  · rfl

/-- The payload of a frame that takes up half of the management ring. -/
def halfRing : List UInt8 := List.replicate 2032 0

private theorem halfRing_length : halfRing.length = 2032 := List.length_replicate

/-- The payload of a frame that takes up an eighth of the management ring. -/
def eighthRing : List UInt8 := List.replicate 496 0

/-- Ten sends with four passes of the driver in between, and then eight more passes. The eighth
frame goes behind a tombstone to the start of the ring, and the tenth one is refused because the
head is at 1536. -/
def wrapOps : List LinkOp :=
  List.replicate 7 (.send 1 2 eighthRing) ++ List.replicate 3 .recv ++
    List.replicate 3 (.send 2 2 eighthRing) ++ List.replicate 8 .recv

/-- A run in which the ring wraps, with nine frames read in the order of their sending. -/
theorem link_intact_wrapOps :
    Always (linkStep .accepting 0) (Link.Intact 0) (Link.start booted 0) wrapOps ∧
      (wrapOps.foldl (linkStep .accepting 0) (Link.start booted 0)).got.length = 9 :=
  ⟨(link_intact_iff .accepting booted_setUp (by decide +kernel)).mpr (by decide +kernel),
    by decide +kernel⟩

/-- Two unread frames of half the ring each: the second one is written over the first. -/
theorem link_not_intact_two_sends :
    ¬ Always (linkStep .accepting 0) (Link.Intact 0) (Link.start booted 0)
      [.send 1 2 halfRing, .send 2 2 halfRing] := by
  rintro ⟨_, hone, htwo⟩
  have hlen : 16 + halfRing.length < 2 ^ 32 := by
    rw [halfRing_length]
    decide
  have hlive := booted_setUp.live.send .accepting 1 2 hlen
  have hok := (hlive.send_intact_iff .accepting hone 2 2 hlen).mp htwo
  have hchan : booted.npu.chan 0 = mgmtChannel := by simp [booted]
  have hhead := (mboxSend_change .accepting booted 0 1 2 halfRing).i2xHead 0
  have hsize := hlive.sync.ring.i2xSize
  dsimp only [linkStep, Link.start, SendOk] at hok hsize
  rw [hhead, hchan, hsize, halfRing_length] at hok
  refine hok ⟨rfl, ?_, ?_⟩
  · decide
  · obtain ⟨_, _, hholds⟩ := booted_setUp.intact
    have hlen' : (replyFrame 1 2 halfRing).payload.length = 2032 := halfRing_length
    have hring := mboxSend_ring .accepting 1 2 booted_setUp.ring booted_setUp.active hholds
      (show 16 + halfRing.length ≤ ringSize 0 - 4 by rw [halfRing_length]; decide)
    cases hring with
    | placed s _ _ htail _ =>
      rw [hlen'] at htail
      rw [htail, show ringSize 0 = 0x1000 from rfl]
      omega
    | dropped _ hne _ _ _ =>
      rw [hchan] at hne
      exact absurd rfl hne
    | overwritten hplace _ _ _ =>
      rw [hchan, hlen'] at hplace
      rw [place, if_neg (by decide), if_pos (by decide)] at hplace
      cases hplace

end Xdna
