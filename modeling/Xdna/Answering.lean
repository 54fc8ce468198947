import Xdna.Batch
import Xdna.ReplyRing

/-!
# Requests without a reply

The handler has consumed a request and changed the tables before `xdna_mbox_send` looks for room,
and what it returns is not used. So every request of a kick has its reply in the ring exactly
when the ring has room for the replies to all of them, one after the other; the first reply
without a place is dropped or, with the head at zero, put over the unread replies.
-/

namespace Xdna

open ByteMemory RingLog

/-! ## The ring as a list of frames -/

/-- Frames whose size word is right tell where they end, and do not begin like a tombstone. -/
theorem Frame.selfDelimiting (mem : Memory) {limit : ℕ} (hlimit : limit < 0xDEADFACE) :
    SelfDelimiting Frame.encode tombstoneBytes mem limit Frame.WellFormed where
  pos f := by simp
  unique := by
    intro a f g hf hg hread hread'
    obtain ⟨-, hhdr, hpay⟩ := Frame.read_parts hread
    obtain ⟨-, hhdr', hpay'⟩ := Frame.read_parts hread'
    have hhdr_eq : f.hdr = g.hdr :=
      (MsgHeader.decode_of_read hhdr).symm.trans (MsgHeader.decode_of_read hhdr')
    have hlen : f.payload.length = g.payload.length := by
      rw [← hf, ← hg, hhdr_eq]
    have hpay_eq : f.payload = g.payload := by
      rw [← hpay, ← hpay', hlen]
    obtain ⟨hdr, payload⟩ := f
    obtain ⟨hdr', payload'⟩ := g
    dsimp only at hhdr_eq hpay_eq
    rw [hhdr_eq, hpay_eq]
  unmarked := by
    intro a f hf hend hread hmark
    obtain ⟨hword, -, -⟩ := Frame.read_parts hread
    rw [tombstoneBytes_length] at hmark
    have htomb : f.hdr.totalSize = mboxTombstone :=
      (Memory.word32_of_read hword).symm.trans (Memory.word32_of_read hmark)
    have hlen : f.hdr.totalSize.toNat = f.payload.length := hf
    rw [htomb, show mboxTombstone.toNat = 0xDEADFACE from rfl] at hlen
    rw [Frame.encode_length] at hend
    omega

section Send

variable (host : Host) {m : Machine} {c : ChanIdx} {unread : List Frame} (id opcode : UInt32)
  {payload : List UInt8}

/-- With the head at zero, a frame that does not fit behind the tail is all that the ring holds
afterwards. -/
theorem mboxSend_overwrites (hring : HasRing c (m.npu.chan c))
    (hactive : (m.npu.chan c).active = true) (hholds : HoldsReplies m.npu c unread)
    (hlen : 16 + payload.length ≤ ringSize c - 4)
    (hplace : place (ringSize c - 4) (m.npu.chan c).i2xHead.toNat (m.npu.chan c).i2xTail.toNat
      (16 + payload.length) = none)
    (hhead : (m.npu.chan c).i2xHead = 0)
    (hsent : (mboxSend host m c id opcode payload).2 = true)
    (htail : ((mboxSend host m c id opcode payload).1.npu.chan c).i2xTail.toNat =
      16 + payload.length) :
    HoldsReplies (mboxSend host m c id opcode payload).1.npu c [replyFrame id opcode payload] := by
  obtain ⟨hlarge, _, hsram⟩ := i2xBase_bounds c
  have hroom := hholds.room
  have hreply : ReplyRing (m.npu.chan c) (i2xBase c) (ringSize c) :=
    ⟨hactive, hring.i2xBuf, hring.i2xSize, hsram, hroom⟩
  have hwraps : Wraps (ringSize c - 4) (m.npu.chan c).i2xHead.toNat
      (m.npu.chan c).i2xTail.toNat (16 + payload.length) := by
    rw [hhead, UInt32.toNat_zero, place_head_zero] at hplace
    rw [hhead]
    refine ⟨Nat.zero_le _, Nat.lt_of_not_le fun hfits => ?_⟩
    rw [if_pos hfits] at hplace
    cases hplace
  have hstart := hreply.sendStart_toNat hlen
  rw [if_pos hwraps] at hstart
  have hbuf := hring.i2xBuf
  have hstored := mboxSend_stored host id opcode hsent (by omega)
  have hhead' := (mboxSend_change host m c id opcode payload).i2xHead c
  rw [hbuf, hstart] at hstored
  unfold HoldsReplies
  rw [hhead', hhead, htail]
  refine .straight hlen ⟨?_, ?_⟩
  · rw [image_cons, image_nil, List.append_nil, Frame.encode_length]
    exact (Nat.zero_add _).symm
  · rw [image_cons, image_nil, List.append_nil, Frame.encode_length, Memory.window_read]
    exact hstored

/-- A send either puts its frame behind the unread ones, or leaves no more frames in the ring than
there were before it. -/
theorem mboxSend_outcome (hring : HasRing c (m.npu.chan c))
    (hactive : (m.npu.chan c).active = true) (hholds : HoldsReplies m.npu c unread)
    (hwf : ∀ f ∈ unread, f.WellFormed) (hlen : 16 + payload.length ≤ ringSize c - 4) :
    let m' := (mboxSend host m c id opcode payload).1
    ∃ unread', HoldsReplies m'.npu c unread' ∧ (∀ f ∈ unread', f.WellFormed) ∧
      match place (ringSize c - 4) (m.npu.chan c).i2xHead.toNat (m.npu.chan c).i2xTail.toNat
        (16 + payload.length) with
      | some s => unread' = unread ++ [replyFrame id opcode payload] ∧
          (m'.npu.chan c).i2xTail.toNat = s + (16 + payload.length)
      | none => unread'.length ≤ unread.length := by
  intro m'
  obtain ⟨hlarge, hsmall, _⟩ := i2xBase_bounds c
  have hframe : (replyFrame id opcode payload).WellFormed :=
    replyFrame_wellFormed id opcode (by omega)
  have hsize : (replyFrame id opcode payload).payload = payload := rfl
  cases mboxSend_ring host id opcode hring hactive hholds hlen with
  | placed s hplace hsent htail hholds' =>
    refine ⟨unread ++ [replyFrame id opcode payload], hholds', fun f hf => ?_, ?_⟩
    · rcases List.mem_append.mp hf with hf | hf
      · exact hwf f hf
      · rw [List.mem_singleton.mp hf]
        exact hframe
    · rw [hsize] at hplace
      rw [hplace]
      exact ⟨rfl, htail⟩
  | dropped hplace hhead hsent htail hholds' =>
    refine ⟨unread, hholds', hwf, ?_⟩
    rw [hsize] at hplace
    rw [hplace]
  | overwritten hplace hhead hsent htail =>
    have hholds' := mboxSend_overwrites host id opcode hring hactive hholds hlen hplace hhead hsent
      htail
    refine ⟨[replyFrame id opcode payload], hholds', fun f hf => ?_, ?_⟩
    · rw [List.mem_singleton.mp hf]
      exact hframe
    · rw [hsize] at hplace
      rw [hplace]
      -- The tail is behind the room for a frame, so there are unread ones.
      cases unread with
      | cons f rest => exact Nat.le_add_left 1 rest.length
      | nil =>
        unfold HoldsReplies at hholds
        rw [hhead] at hholds hplace
        have hempty := hholds.length_of_head_zero
        rw [image_nil, List.length_nil] at hempty
        rw [← hempty, UInt32.toNat_zero, place_head_zero, Nat.zero_add, if_pos hlen] at hplace
        cases hplace

end Send

/-! ## A pass of the management channel -/

/-- The length of the reply to a request, with its header. -/
def replyLen (f : Frame) : ℕ := 16 + (respSizeFor f.hdr.opcode).1

/-- The reply carries the id and the opcode of the request, and is not cut off. -/
structure RepliesTo (f reply : Frame) : Prop where
  id : reply.hdr.id = f.hdr.id
  opcode : reply.hdr.opcode = f.hdr.opcode
  wellFormed : reply.WellFormed

/-- The request of a pass, if it has one that is to be answered at once. -/
def needsReply (x : Option (ℕ × Frame)) : Option Frame :=
  x.bind fun y => if y.2.hdr.AnsweredLater then none else some y.2

section Pass

variable {host : Host} {m : Machine} {unread : List Frame}

/-- Messages leave the replies in the management ring alone. -/
theorem HoldsReplies.congr {npu npu' : Npu} {tail : ℕ}
    (h : Holds Frame.encode tombstoneBytes (npu.sram.window (i2xBase 0)) (ringSize 0 - 4)
      (npu.chan 0).i2xHead.toNat tail unread)
    (hsram : ∀ a < mgmtEnd, npu'.sram a = npu.sram a) :
    Holds Frame.encode tombstoneBytes (npu'.sram.window (i2xBase 0)) (ringSize 0 - 4)
      (npu.chan 0).i2xHead.toNat tail unread := by
  apply Holds.congr h
  intro i hi
  have hend : i2xBase 0 + ringSize 0 ≤ mgmtEnd ∧ 4 ≤ ringSize 0 := by decide
  rw [tombstoneBytes_length] at hi
  exact (hsram _ (by omega)).symm

/-- The pass that takes a request, up to the send of its reply. -/
theorem mboxPass_replies {size : UInt32} (hcons : Consistent m.npu) (halive : m.npu.fwAlive = true)
    (hpeek : (m.npu.chan 0).peek m.npu = .frame size) (hholds : HoldsReplies m.npu 0 unread) :
    let hdr := headHeader m.npu 0
    ∃ m₁, HoldsReplies m₁.npu 0 unread ∧ Consistent m₁.npu ∧
      m₁.npu.chan 0 = { m.npu.chan 0 with x2iHead := (m₁.npu.chan 0).x2iHead } ∧
      if hdr.AnsweredLater then (mboxPass host 0 m).1 = m₁
      else ∃ payload, payload.length = (respSizeFor hdr.opcode).1 ∧
        (mboxPass host 0 m).1 = (mboxSend host m₁ 0 hdr.id hdr.opcode payload).1 := by
  dsimp only
  obtain ⟨m', stack, htaken, -, hpass⟩ := mboxPass_taken host hcons halive hpeek
  rw [hpass]
  generalize headHeader m.npu 0 = hdr at *
  have halive' : m'.npu.fwAlive = true := htaken.fw.fwAlive.trans halive
  generalize payloadBuffer (headPayload m.npu 0 size) stack = payload at *
  have heffect := mertOutcome_effect host m' hdr payload
  have hnone := mertOutcome_eq_none host m' hdr payload
  have hshape (a : Answer) (ha : (mertOutcome host m' hdr payload).2 = some a) :=
    mertOutcome_wellShaped ha
  obtain ⟨hchan, -, hsram⟩ := heffect.mgmt htaken.consistent
  have hcons' := (heffect.tableChange halive').consistent htaken.consistent
  clear hpass
  generalize mertOutcome host m' hdr payload = r at *
  have hwindow : HoldsReplies r.1.npu 0 unread := by
    unfold HoldsReplies
    rw [hchan, htaken.chan]
    exact HoldsReplies.congr hholds fun a ha => by rw [hsram a ha, htaken.sram]
  refine ⟨r.1, hwindow, hcons', ?_, ?_⟩
  · rw [hchan]
    exact htaken.chan
  · unfold answerWith
    cases hanswer : r.2 with
    | none =>
      rw [if_pos (hnone.mp hanswer)]
    | some a =>
      rw [if_neg fun hlater => by rw [hnone.mpr hlater] at hanswer; cases hanswer]
      exact ⟨a.2, (hshape a hanswer).1, rfl⟩

/-- What is in the reply ring after a pass: the reply to a request is behind the unread ones if
there is a place for it, and otherwise the ring holds no more than before. -/
theorem Follows.pass_outcome {fuel : ℕ} {npu npu' : Npu} {x : Option (ℕ × Frame)}
    (h : Follows 0 (fuel + 1) npu m) (hpass : npu.requestPass 0 = some (x, npu'))
    (hholds : HoldsReplies m.npu 0 unread) (hwf : ∀ f ∈ unread, f.WellFormed) :
    let m' := (mboxPass host 0 m).1
    (m'.npu.chan 0).i2xHead = (m.npu.chan 0).i2xHead ∧
      ∃ unread', HoldsReplies m'.npu 0 unread' ∧ (∀ f ∈ unread', f.WellFormed) ∧
      match needsReply x with
      | none => unread' = unread ∧ (m'.npu.chan 0).i2xTail = (m.npu.chan 0).i2xTail
      | some f =>
        match place (ringSize 0 - 4) (m.npu.chan 0).i2xHead.toNat (m.npu.chan 0).i2xTail.toNat
          (replyLen f) with
        | some s => (∃ reply, RepliesTo f reply ∧ unread' = unread ++ [reply]) ∧
            (m'.npu.chan 0).i2xTail.toNat = s + replyLen f
        | none => unread'.length ≤ unread.length := by
  obtain ⟨hne, hfound⟩ := requestPass_cases hpass
  have hactive := h.active hne
  have halive := h.consistent.fwAlive_of_active hactive
  have hhead := h.answered.headOk (h.heads 0 hactive)
  rcases hfound with ⟨hpeek, rfl, rfl⟩ | ⟨size, hpeek, rfl, rfl⟩
  · -- The pass over a tombstone or the end of the ring changes the head of the other ring only.
    have hnpu : (mboxPass host 0 m).1.npu = m.npu.setX2iHead 0 0 := by
      rw [← h.answered.peek hhead] at hpeek
      rcases hpeek with hpeek | hpeek
      · rw [mboxPass, hpeek]
        rfl
      · rw [mboxPass_tombstone hpeek]
        rfl
    dsimp only
    rw [hnpu, Npu.setX2iHead_self]
    refine ⟨rfl, unread, ?_, hwf, rfl, rfl⟩
    unfold HoldsReplies
    rw [Npu.setX2iHead_self]
    exact hholds
  · obtain ⟨hhdr, hpay⟩ := h.answered.head hhead hpeek
    rw [← h.answered.peek hhead] at hpeek
    have hreplies := @mboxPass_replies host m unread size h.consistent halive hpeek hholds
    rw [hhdr] at hreplies
    obtain ⟨m₁, hholds₁, hcons₁, hchan, hafter⟩ := hreplies
    generalize headHeader npu 0 = hdr at *
    generalize headPayload npu 0 size = bytes at *
    have hactive₁ : (m₁.npu.chan 0).active = true := by
      rw [hchan]
      exact hactive
    by_cases hlater : hdr.AnsweredLater
    · rw [if_pos hlater] at hafter
      dsimp only
      rw [hafter, hchan]
      rw [show needsReply (some ((npu.chan 0).x2iHead.toNat, ⟨hdr, bytes⟩)) = none from
        if_pos hlater]
      exact ⟨rfl, unread, hholds₁, hwf, rfl, rfl⟩
    · rw [if_neg hlater] at hafter
      obtain ⟨payload, hlen, hsend⟩ := hafter
      obtain ⟨hring, hsmall⟩ : 0x1000 ≤ ringSize 0 ∧ (respSizeFor hdr.opcode).1 ≤ 76 :=
        ⟨(replyRing_bounds 0).2.1, (respSizeFor_bounds hdr.opcode).2⟩
      obtain ⟨unread', hholds', hwf', hplaced⟩ := @mboxSend_outcome host m₁ 0 unread hdr.id
        hdr.opcode payload (hcons₁.ring 0 hactive₁) hactive₁ hholds₁ hwf (by omega)
      have hhead' := (mboxSend_change host m₁ 0 hdr.id hdr.opcode payload).i2xHead 0
      rw [hchan] at hhead' hplaced
      dsimp only at hhead' hplaced ⊢
      rw [hsend, show needsReply (some ((npu.chan 0).x2iHead.toNat, ⟨hdr, bytes⟩)) =
        some ⟨hdr, bytes⟩ from if_neg hlater]
      refine ⟨hhead', unread', hholds', hwf', ?_⟩
      dsimp only
      rw [replyLen, ← hlen]
      split at hplaced
      · obtain ⟨hunread, htail⟩ := hplaced
        refine ⟨⟨replyFrame hdr.id hdr.opcode payload, ⟨rfl, rfl, ?_⟩, hunread⟩, htail⟩
        exact replyFrame_wellFormed hdr.id hdr.opcode (by omega)
      · exact hplaced

end Pass

/-! ## A kick of the management channel -/

/-- The requests that a loop takes and that are to be answered at once. -/
def loopRequests (fuel : ℕ) (npu : Npu) : List Frame :=
  (requestLoop 0 fuel npu).1.filterMap needsReply

section Kick

variable {host : Host} {m : Machine} {unread : List Frame}

/-- The replies of a loop. If there is a place for each, they are in the ring behind the unread
ones; otherwise frames are missing. -/
theorem Follows.replies {fuel : ℕ} {npu : Npu} (h : Follows 0 fuel npu m)
    (hholds : HoldsReplies m.npu 0 unread) (hwf : ∀ f ∈ unread, f.WellFormed) :
    let placed := placeAll (ringSize 0 - 4) (m.npu.chan 0).i2xHead.toNat
      (m.npu.chan 0).i2xTail.toNat ((loopRequests fuel npu).map replyLen)
    ∃ unread', HoldsReplies (mboxLoop host 0 fuel m).npu 0 unread' ∧
      (∀ f ∈ unread', f.WellFormed) ∧
      (placed.isSome = true →
        ∃ new, unread' = unread ++ new ∧ List.Forall₂ RepliesTo (loopRequests fuel npu) new) ∧
      (placed = none → unread'.length < unread.length + (loopRequests fuel npu).length) ∧
      unread'.length ≤ unread.length + (loopRequests fuel npu).length := by
  induction fuel generalizing npu m unread with
  | zero =>
    refine ⟨unread, hholds, hwf, fun _ => ⟨[], (List.append_nil _).symm, .nil⟩, ?_, Nat.le_refl _⟩
    intro hnone
    cases hnone
  | succ fuel ih =>
    cases hpass : npu.requestPass 0 with
    | none =>
      obtain ⟨hnpu, -, -⟩ := @Follows.stop host _ _ _ _ h hpass
      rw [hnpu, loopRequests, requestLoop_none fuel hpass]
      refine ⟨unread, hholds, hwf, fun _ => ⟨[], (List.append_nil _).symm, .nil⟩, ?_,
        Nat.le_refl _⟩
      intro hnone
      cases hnone
    | some r =>
      obtain ⟨x, npu'⟩ := r
      obtain ⟨hne, hgo, hnext, -⟩ := @Follows.pass host _ _ _ _ _ _ h hpass
      obtain ⟨hhead, unread₁, hholds₁, hwf₁, hplaced⟩ :=
        @Follows.pass_outcome host m unread _ _ _ _ h hpass hholds hwf
      have hloop : mboxLoop host 0 (fuel + 1) m = mboxLoop host 0 fuel (mboxPass host 0 m).1 := by
        rw [mboxLoop, if_neg hne]
        dsimp only
        rw [if_pos hgo]
      have hrequests : loopRequests (fuel + 1) npu =
          (needsReply x).toList ++ loopRequests fuel npu' := by
        rw [loopRequests, requestLoop_some fuel hpass, List.filterMap_cons]
        cases needsReply x <;> rfl
      obtain ⟨unread', hholds', hwf', hall, hsome, hle⟩ := ih hnext hholds₁ hwf₁
      rw [hhead] at hall hsome
      rw [hloop, hrequests]
      refine ⟨unread', hholds', hwf', ?_⟩
      cases hneeds : needsReply x with
      | none =>
        rw [hneeds] at hplaced
        obtain ⟨rfl, htail⟩ := hplaced
        rw [htail] at hall hsome
        exact ⟨hall, hsome, hle⟩
      | some f =>
        rw [hneeds] at hplaced
        dsimp only at hplaced
        rw [Option.toList_some, List.singleton_append, List.map_cons, placeAll, List.length_cons]
        cases hplace : place (ringSize 0 - 4) (m.npu.chan 0).i2xHead.toNat
            (m.npu.chan 0).i2xTail.toNat (replyLen f) with
        | none =>
          rw [hplace] at hplaced
          dsimp only at hplaced ⊢
          refine ⟨fun hplaced => absurd hplaced Bool.false_ne_true, fun _ => ?_, ?_⟩ <;> omega
        | some s =>
          rw [hplace] at hplaced
          obtain ⟨⟨reply, hreply, rfl⟩, htail⟩ := hplaced
          rw [htail] at hall hsome
          rw [List.length_append, List.length_singleton] at hsome hle
          dsimp only
          refine ⟨fun hroom => ?_, fun hnone => ?_, by omega⟩
          · obtain ⟨new, hnew, hreplies⟩ := hall hroom
            refine ⟨reply :: new, ?_, .cons hreply hreplies⟩
            rw [hnew, List.append_assoc, List.singleton_append]
          · have := hsome hnone
            omega

/-- The requests that a kick takes and that are to be answered at once, followed on the ring as it
is before the kick. -/
def kickRequests (m : Machine) (v : UInt32) : List Frame :=
  loopRequests mboxMaxMsgPerKick (tailWritten m 0 v).npu

/-- Every request that the kick has handed over and that is not answered later has its reply in the
ring, in order and behind the unread ones. -/
def AllReplied (host : Host) (m : Machine) (v : UInt32) (unread : List Frame) : Prop :=
  ∃ new, HoldsReplies (kickChan host m 0 v).npu 0 (unread ++ new) ∧
    List.Forall₂ RepliesTo
      (((kickFrames host m 0 v).map Prod.snd).filter fun f => ¬ f.hdr.AnsweredLater) new

/-- There is a place for each reply of the kick, one after the other. -/
def HasRoom (m : Machine) (v : UInt32) : Prop :=
  (placeAll (ringSize 0 - 4) (m.npu.chan 0).i2xHead.toNat (m.npu.chan 0).i2xTail.toNat
    ((kickRequests m v).map replyLen)).isSome = true

private theorem filterMap_needsReply (xs : List (Option (ℕ × Frame))) :
    xs.filterMap needsReply =
      ((xs.filterMap id).map Prod.snd).filter fun f => ¬ f.hdr.AnsweredLater := by
  induction xs with
  | nil => rfl
  | cons x xs ih =>
    cases x with
    | none => exact ih
    | some y =>
      rw [List.filterMap_cons, ih]
      change _ = (y.2 :: (xs.filterMap id).map Prod.snd).filter _
      by_cases hlater : y.2.hdr.AnsweredLater
      · rw [List.filter_cons_of_neg (by simpa using hlater),
          show needsReply (some y) = none from if_pos hlater]
      · rw [List.filter_cons_of_pos (by simpa using hlater),
          show needsReply (some y) = some y.2 from if_neg hlater]

/-- The requests of a kick are those that it hands over. -/
theorem kickFrames_requests {v : UInt32} (hcons : Consistent m.npu) (hheads : HeadsOk m.npu)
    (hactive : (m.npu.chan 0).active = true)
    (hroom : (m.npu.chan 0).i2xBuf.toNat + (m.npu.chan 0).i2xTail.toNat ≤ barSramSize) :
    (((kickFrames host m 0 v).map Prod.snd).filter fun f => ¬ f.hdr.AnsweredLater) =
      kickRequests m v := by
  rw [(kick_requestLoop host hcons hheads hactive hroom).1, kickRequests, loopRequests,
    filterMap_needsReply, List.map_map]
  congr 1
  exact List.map_id' _

private theorem HoldsReplies.le_barSramSize (h : HoldsReplies m.npu 0 unread)
    (hring : HasRing 0 (m.npu.chan 0)) :
    (m.npu.chan 0).i2xBuf.toNat + (m.npu.chan 0).i2xTail.toNat ≤ barSramSize := by
  have hroom := h.room
  have hend := (replyRing_bounds 0).2.2
  rw [hring.i2xBuf]
  omega

private theorem wellFormed_of_repliesTo {fs new : List Frame} (h : List.Forall₂ RepliesTo fs new) :
    ∀ f ∈ new, f.WellFormed := by
  induction h with
  | nil => exact fun _ hf => nomatch hf
  | cons hreply _ ih =>
    intro f hf
    rcases List.mem_cons.mp hf with rfl | hf
    · exact hreply.wellFormed
    · exact ih f hf

private theorem allReplied_iff {v : UInt32} (hcons : Consistent m.npu) (hheads : HeadsOk m.npu)
    (hactive : (m.npu.chan 0).active = true) (hholds : HoldsReplies m.npu 0 unread)
    (hwf : ∀ f ∈ unread, f.WellFormed) : AllReplied host m v unread ↔ HasRoom m v := by
  have hroom := hholds.le_barSramSize (hcons.ring 0 hactive)
  have hchan : (tailWritten m 0 v).npu.chan 0 = { m.npu.chan 0 with x2iTail := v } :=
    Npu.setChan_self ..
  have hholds' : HoldsReplies (tailWritten m 0 v).npu 0 unread := by
    unfold HoldsReplies
    rw [hchan]
    exact hholds
  obtain ⟨unread', hunread', hwf', hall, hsome, -⟩ :=
    @Follows.replies host _ _ _ _ (Follows.kick v hcons hheads hactive hroom) hholds' hwf
  rw [← kickChan_eq host v hcons hactive] at hunread'
  rw [hchan] at hall hsome
  unfold AllReplied HasRoom
  rw [kickFrames_requests hcons hheads hactive hroom]
  constructor
  · rintro ⟨new, hnew, hreplies⟩
    by_contra hnone
    have hmissing := hsome (by simpa [kickRequests] using hnone)
    have hself := Frame.selfDelimiting
      ((kickChan host m 0 v).npu.sram.window (i2xBase 0)) (show ringSize 0 - 4 < _ by decide)
    have hsame : unread' = unread ++ new := by
      refine hunread'.unique hself hnew hwf' fun f hf => ?_
      rcases List.mem_append.mp hf with hf | hf
      · exact hwf f hf
      · exact wellFormed_of_repliesTo hreplies f hf
    have hlen := hreplies.length_eq
    rw [hsame, List.length_append, ← hlen] at hmissing
    exact absurd hmissing (Nat.lt_irrefl _)
  · intro hplaced
    obtain ⟨new, hnew, hreplies⟩ := hall hplaced
    rw [hnew] at hunread'
    exact ⟨new, hunread', hreplies⟩

/-- The requests of a batch that the kick drains. -/
theorem kickRequests_of_batch {v : UInt32} {fs : List Frame} (hcons : Consistent m.npu)
    (hheads : HeadsOk m.npu) (hactive : (m.npu.chan 0).active = true)
    (hholds : HoldsRequests (tailWritten m 0 v).npu 0 fs) (hfs : ∀ f ∈ fs, f.IsRequest)
    (hle : fs.length + marks (m.npu.chan 0).x2iHead.toNat v.toNat ≤ mboxMaxMsgPerKick) :
    kickRequests m v = fs.filter fun f => ¬ f.hdr.AnsweredLater := by
  obtain ⟨hbatch, hpasses⟩ := Batch.kick hcons hheads hactive hholds hfs
  have hkeep := hbatch.keeps (fun f _ s hs => absurd hs (slotChan_ne_zero s).symm) mboxMaxMsgPerKick
  rw [kickRequests, loopRequests, filterMap_needsReply,
    ((hbatch.loop mboxMaxMsgPerKick hkeep).1 (hpasses.trans_le hle)).1]

end Kick

/-! ## Replies that are lost -/

/-- The firmware runs and has one context, the driver has taken the reply, and `n` requests of 20
bytes, which are answered with 92 bytes each, lie in the management ring. -/
def createOps (n : ℕ) : List GuestOp :=
  oneContextOps ++
  [.writeBuf barSram (sramMgmtX2iOff + 44)
    (image Frame.encode (List.replicate n (shortFrame 0x2)))]

private theorem createOps_holds {n : ℕ} {v : UInt32} (hv : v.toNat = 44 + 20 * n) (hn : n ≤ 202) :
    let m := guestRun .accepting (createOps n)
    (m.npu.chan 0).active = true ∧ HoldsReplies m.npu 0 [] ∧
      (HasRoom m v ↔ (placeAll 4092 92 92 (List.replicate n 92)).isSome = true) := by
  intro m
  have hlen := image_shortFrame_length n 0x2
  have hoff : (sramMgmtX2iOff + 44).toNat = x2iBase 0 + 44 ∧ 44 + 20 * 202 ≤ ringSize 0 - 4 ∧
      ringSize 0 - 4 = 4092 := by decide
  have hchan : ((guestRun .accepting oneContextOps).npu.chan 0).active = true ∧
      ((guestRun .accepting oneContextOps).npu.chan 0).x2iHead.toNat = 44 ∧
      ((guestRun .accepting oneContextOps).npu.chan 0).i2xHead.toNat = 92 ∧
      ((guestRun .accepting oneContextOps).npu.chan 0).i2xTail.toNat = 92 := by decide +kernel
  have hm : m = mmioWriteBuf .accepting (guestRun .accepting oneContextOps) barSram
      (sramMgmtX2iOff + 44) (image Frame.encode (List.replicate n (shortFrame 0x2))) :=
    guestRun_snoc ..
  have hholds := @holdsRequests_written .accepting (guestRun .accepting oneContextOps) 0
    (sramMgmtX2iOff + 44) v (List.replicate n (shortFrame 0x2)) (by rw [hchan.2.1, hoff.1])
    (by rw [hchan.2.1, hlen, hv]) (by omega)
  have hcons := guestRun_consistent .accepting (createOps n)
  have hheads := guestRun_headsOk .accepting (createOps n)
  rw [← mmioWriteBuf_sram_chan .accepting (guestRun .accepting oneContextOps) (sramMgmtX2iOff + 44)
    (image Frame.encode (List.replicate n (shortFrame 0x2))), ← hm] at hchan
  rw [← hm] at hholds
  change Consistent m.npu at hcons
  change HeadsOk m.npu at hheads
  clear_value m
  obtain ⟨hactive, hx2i, hhead, htail⟩ := hchan
  have hrequests := kickRequests_of_batch hcons hheads hactive hholds (shortFrame_isRequest n 0x2)
    (by
      rw [hx2i, hv, List.length_replicate, marks, if_neg (by omega)]
      exact Nat.le_trans hn (by decide))
  have hkick : (kickRequests m v).map replyLen = List.replicate n 92 := by
    rw [hrequests, List.filter_eq_self.mpr, List.map_replicate]
    · rfl
    · intro f hf
      rw [List.eq_of_mem_replicate hf]
      decide
  refine ⟨hactive, ?_, ?_⟩
  · unfold HoldsReplies
    rw [hhead, htail]
    exact .empty (by omega)
  · rw [HasRoom, hkick, hhead, htail, hoff.2.2]

/-- In every reachable state in which the driver has left the frames `unread` in the management
ring: every request of a kick that is not answered later has its reply in the ring, and no unread
reply is lost, exactly when there is a place for all replies, one after the other. -/
theorem kick_allReplied_iff (host : Host) (ops : List GuestOp) (v : UInt32) (unread : List Frame) :
    let m := guestRun host ops
    HoldsReplies m.npu 0 unread → (∀ f ∈ unread, f.WellFormed) →
    (AllReplied host m v unread ↔ ((m.npu.chan 0).active = true → HasRoom m v)) := by
  intro m hholds hwf
  have hcons : Consistent m.npu := guestRun_consistent host ops
  cases hactive : (m.npu.chan 0).active with
  | true =>
    rw [allReplied_iff hcons (guestRun_headsOk host ops) hactive hholds hwf]
    exact ⟨fun h _ => h, fun h => h rfl⟩
  | false =>
    -- A kick of an inactive channel takes nothing, and leaves the ring alone.
    have hkick := kickChan_inactive host v hcons hactive
    have hchan : (tailWritten m 0 v).npu.chan 0 = { m.npu.chan 0 with x2iTail := v } :=
      Npu.setChan_self ..
    refine ⟨fun _ h => (nomatch h), fun _ => ⟨[], ?_, ?_⟩⟩
    · rw [List.append_nil, hkick]
      unfold HoldsReplies
      rw [hchan]
      exact hholds
    · have hnone : kickFrames host m 0 v = [] := by
        rw [kickFrames, hkick, show (tailWritten m 0 v).trace = m.trace from rfl, List.drop_length]
        rfl
      rw [hnone]
      exact .nil

/-- As many creations as there is room for replies. -/
theorem kick_allReplied_iff_createOps :
    let m := guestRun .accepting (createOps 43)
    AllReplied .accepting m 904 [] ↔ ((m.npu.chan 0).active = true → HasRoom m 904) :=
  kick_allReplied_iff .accepting (createOps 43) 904 []
    (createOps_holds (show (904 : UInt32).toNat = 44 + 20 * 43 by decide) (by decide)).2.1
    (fun _ hf => nomatch hf)

/-- The reply to the last of 44 requests is lost, although the driver has left nothing unread. -/
theorem kick_not_allReplied :
    let m := guestRun .accepting (createOps 44)
    (m.npu.chan 0).active = true ∧ HoldsReplies m.npu 0 [] ∧ ¬ AllReplied .accepting m 924 [] := by
  have hv : (924 : UInt32).toNat = 44 + 20 * 44 := by decide
  obtain ⟨hactive, hholds, hroom⟩ := createOps_holds hv (by decide)
  refine ⟨hactive, hholds, ?_⟩
  rw [allReplied_iff (guestRun_consistent .accepting (createOps 44))
    (guestRun_headsOk .accepting (createOps 44)) hactive hholds (fun _ hf => nomatch hf), hroom]
  decide

end Xdna
