import Xdna.General.RingWalk
import Xdna.RequestLoop
import Xdna.CleanBoot

/-!
# What a kick takes off the ring

The loop compares head and tail for equality only, and bounds a frame by the end of the ring.
A kick therefore is a walk over the ring in the sense of `RingWalk`: it stays in what the
driver has published, and takes nothing twice, exactly when no frame on its way reaches over
the tail and no wrap in front of the tail leads to a frame at offset 0.
-/

namespace Xdna

open ByteMemory RingWalk

/-- What the parser finds with the head of the ring at offset `h`. -/
def ringLook (npu : Npu) (c : ChanIdx) (h : ℕ) : Look :=
  if (npu.chan c).x2iSize.toNat ≤ h then .wrap
  else match ({ npu.chan c with x2iHead := UInt32.ofNat h } : Channel).peek npu with
  | .ringEnd => .wrap
  | .tombstone => .wrap
  | .reject => .stop
  | .frame size => .record (16 + size.toNat)

/-- Offset and length of a frame with its header. -/
def extent (x : ℕ × Frame) : ℕ × ℕ := (x.1, 16 + x.2.payload.length)

/-- Where the frames lay in their rings that were handed to the message handler. -/
def takenExtents (tr : List Event) : List (ℕ × ℕ) := (taken tr).map fun x => extent x.2

/-- The tests of the parser bound a frame by the end of the ring, wherever the head is. -/
theorem peek_frame_bound {ch : Channel} {npu : Npu} {size : UInt32}
    (hpeek : ch.peek npu = .frame size) :
    ch.x2iHead.toNat + (16 + size.toNat) ≤ ch.x2iSize.toNat := by
  unfold Channel.peek at hpeek
  dsimp only at hpeek
  split_ifs at hpeek with hend htomb hbad hshort hlong
  cases hpeek
  generalize npu.sramRead32 (ch.x2iBuf + ch.x2iHead) = size at *
  rw [UInt32.le_iff_toNat_le] at hend
  rw [UInt32.lt_iff_toNat_lt, UInt32.toNat_sub_of_le _ _ (by rw [UInt32.le_iff_toNat_le]; omega),
    UInt32.toNat_add, show msgHeaderSize.toNat = 16 from rfl] at hshort
  rw [UInt32.lt_iff_toNat_lt, show payloadSize.toNat = 0x2000 from rfl] at hlong
  omega

/-- A frame that is found ends inside the ring. -/
theorem ringLook_record {npu : Npu} {c : ChanIdx} {h n : ℕ}
    (hlook : ringLook npu c h = .record n) : 0 < n ∧ h + n ≤ (npu.chan c).x2iSize.toNat := by
  unfold ringLook at hlook
  split at hlook
  · cases hlook
  · rename_i hlt
    have hsize := (npu.chan c).x2iSize.toNat_lt
    have hh : (UInt32.ofNat h).toNat = h := UInt32.toNat_ofNat_of_lt' (show h < 2 ^ 32 by omega)
    cases hpeek : ({ npu.chan c with x2iHead := UInt32.ofNat h } : Channel).peek npu with
    | ringEnd => rw [hpeek] at hlook; cases hlook
    | tombstone => rw [hpeek] at hlook; cases hlook
    | reject => rw [hpeek] at hlook; cases hlook
    | frame size =>
      rw [hpeek] at hlook
      cases hlook
      have hbound := peek_frame_bound hpeek
      dsimp only at hbound
      omega

/-- At the head it finds what it finds. -/
theorem ringLook_head (npu : Npu) (c : ChanIdx) :
    ringLook npu c (npu.chan c).x2iHead.toNat =
      match (npu.chan c).peek npu with
      | .ringEnd => .wrap
      | .tombstone => .wrap
      | .reject => .stop
      | .frame size => .record (16 + size.toNat) := by
  unfold ringLook
  split
  · rename_i hend
    rw [(peek_ringEnd_iff npu).mpr (UInt32.le_iff_toNat_le.mpr hend)]
  · rw [UInt32.ofNat_toNat]

/-- What the parser finds at an aligned offset depends on the ring and on where it is. -/
theorem ringLook_congr {npu npu' : Npu} {c : ChanIdx} (hring : HasRing c (npu.chan c))
    (hring' : HasRing c (npu'.chan c))
    (hsram : ∀ a, x2iBase c ≤ a → a < i2xBase c → npu'.sram a = npu.sram a) {h : ℕ}
    (halign : h % 4 = 0) : ringLook npu' c h = ringLook npu c h := by
  have hbuf : (npu'.chan c).x2iBuf = (npu.chan c).x2iBuf :=
    UInt32.toNat_inj.mp (hring'.x2iBuf.trans hring.x2iBuf.symm)
  have hsize : (npu'.chan c).x2iSize = (npu.chan c).x2iSize :=
    UInt32.toNat_inj.mp (hring'.x2iSize.trans hring.x2iSize.symm)
  obtain ⟨hmod, hle, hin⟩ := ringSize_bounds c
  unfold ringLook
  rw [hsize]
  by_cases hend : (npu.chan c).x2iSize.toNat ≤ h
  · rw [if_pos hend, if_pos hend]
  · rw [if_neg hend, if_neg hend]
    rw [hring.x2iSize] at hend
    have hword : npu'.sramRead32 ((npu.chan c).x2iBuf + UInt32.ofNat h) =
        npu.sramRead32 ((npu.chan c).x2iBuf + UInt32.ofNat h) := by
      have hbase : i2xBase c = x2iBase c + ringSize c := rfl
      have hoff : ((npu.chan c).x2iBuf + UInt32.ofNat h).toNat = x2iBase c + h := by
        unfold barSramSize at hin
        rw [UInt32.toNat_add, hring.x2iBuf, UInt32.toNat_ofNat_of_lt' (show h < 2 ^ 32 by omega)]
        omega
      rw [Npu.sramRead32, Npu.sramRead32, Memory.word32, Memory.word32, Memory.read_congr]
      intro a hlo hhi
      exact hsram a (by omega) (by omega)
    unfold Channel.peek
    dsimp only
    rw [hbuf, hsize, hword]

/-- The passes of a loop are a walk over the ring. -/
theorem Follows.walk {c : ChanIdx} {fuel : ℕ} {npu : Npu} {m : Machine} {look : ℕ → Look} {tail : ℕ}
    (h : Follows c fuel npu m) (htail : (npu.chan c).x2iTail.toNat = tail)
    (hlook : ∀ a, a % 4 = 0 → ringLook npu c a = look a) :
    ((requestLoop c fuel npu).1.filterMap id).map extent =
      RingWalk.walk look tail (requestLoop c fuel npu).1.length (npu.chan c).x2iHead.toNat := by
  induction fuel generalizing npu m with
  | zero => rfl
  | succ fuel ih =>
    cases hpass : npu.requestPass c with
    | none =>
      rw [requestLoop_none fuel hpass]
      rfl
    | some r =>
      obtain ⟨x, npu'⟩ := r
      obtain ⟨-, -, hnext, -⟩ := @Follows.pass .accepting _ _ _ _ _ _ h hpass
      obtain ⟨hne, hfound⟩ := requestPass_cases hpass
      obtain ⟨hcons, hactive, hok⟩ := h.live hne
      have hne' : (npu.chan c).x2iHead.toNat ≠ tail := by
        rw [← htail]
        exact fun heq => hne (UInt32.toNat_inj.mp heq)
      have hhead := ringLook_head npu c
      rw [hlook _ hok.aligned] at hhead
      rw [requestLoop_some fuel hpass, List.length_cons]
      rcases hfound with ⟨hpeek, rfl, rfl⟩ | ⟨size, hpeek, rfl, rfl⟩
      · have hwrap : look (npu.chan c).x2iHead.toNat = .wrap := by
          rcases hpeek with hpeek | hpeek <;> rw [hhead, hpeek]
        have hchan : (npu.setX2iHead c 0).chan c = { npu.chan c with x2iHead := 0 } :=
          Npu.setX2iHead_self ..
        have hring : HasRing c ((npu.setX2iHead c 0).chan c) := by
          rw [hchan]
          exact hok.ring.congr (.pointers ..)
        have hrest := ih hnext (by rw [hchan]; exact htail) fun a ha => by
          rw [← hlook a ha, ringLook_congr hok.ring hring (fun _ _ _ => rfl) ha]
        rw [walk_wrap hne' hwrap]
        rw [hchan] at hrest
        exact hrest
      · have hrecord : look (npu.chan c).x2iHead.toNat = .record (16 + size.toNat) := by
          rw [hhead, hpeek]
        have hlen : (headPayload npu c size).length = size.toNat := Memory.read_length ..
        have hextent : extent ((npu.chan c).x2iHead.toNat,
            ⟨headHeader npu c, headPayload npu c size⟩) =
              ((npu.chan c).x2iHead.toNat, 16 + size.toNat) := by
          rw [extent, hlen]
        rw [walk_record hne' hrecord, ← hextent]
        apply congrArg (_ :: ·)
        rcases takeMessage_cases hcons hactive hok hpeek with
          ⟨hchan, hmoved, hsram⟩ | ⟨_, hend, _⟩
        · have hring : HasRing c ((npu.takeMessage c size).chan c) := by
            rw [hchan]
            exact hok.ring.congr (.pointers ..)
          rw [← hmoved]
          refine ih hnext (by rw [hchan]; exact htail) fun a ha => ?_
          rw [← hlook a ha,
            ringLook_congr hok.ring hring (fun a hlo hhi => hsram a hlo (by omega)) ha]
        · rw [requestLoop_of_eq fuel hend]
          rfl

/-- How often the loop moves on in the kick that writes `v` to the tail of channel `c`. -/
def kickPasses (m : Machine) (c : ChanIdx) (v : UInt32) : ℕ :=
  (requestLoop c mboxMaxMsgPerKick (tailWritten m c v).npu).1.length

/-- Where the frames lay that the kick hands to the message handler. -/
def kickExtents (host : Host) (m : Machine) (c : ChanIdx) (v : UInt32) : List (ℕ × ℕ) :=
  (takenExtents (kickChan host m c v).trace).drop (takenExtents m.trace).length

/-- A kick of an inactive channel stores the tail. -/
theorem kickChan_inactive (host : Host) {m : Machine} {c : ChanIdx} (v : UInt32)
    (hcons : Consistent m.npu) (hactive : (m.npu.chan c).active = false) :
    kickChan host m c v = tailWritten m c v := by
  have hchan : (tailWritten m c v).npu.chan c = { m.npu.chan c with x2iTail := v } :=
    Npu.setChan_self ..
  rw [kickChan, regWrite, if_neg (by decide), if_pos rfl, mboxRegWrite, (chanFromOff_base c).2.1]
  dsimp only
  rw [if_pos rfl]
  change mboxProcess host (tailWritten m c v) ((tailWritten m c v).npu.chan c).index = _
  rw [hchan, mboxProcess]
  dsimp only
  rw [hcons.index c, dif_pos c.isLt, if_neg (by rw [Fin.eta, hchan]; simp [hactive])]

/-- The frames of a kick are a walk over the ring as it was before. -/
theorem kickExtents_eq (host : Host) {m : Machine} {c : ChanIdx} (v : UInt32)
    (hcons : Consistent m.npu) (hheads : HeadsOk m.npu) (hactive : (m.npu.chan c).active = true)
    (hroom : (m.npu.chan c).i2xBuf.toNat + (m.npu.chan c).i2xTail.toNat ≤ barSramSize) :
    kickExtents host m c v =
      walk (ringLook m.npu c) v.toNat (kickPasses m c v) (m.npu.chan c).x2iHead.toNat := by
  have hchan : (tailWritten m c v).npu.chan c = { m.npu.chan c with x2iTail := v } :=
    Npu.setChan_self ..
  have hfollows := Follows.kick v hcons hheads hactive hroom
  have htaken := (@Follows.loop host _ _ _ _ hfollows).2
  rw [← kickChan_eq host v hcons hactive] at htaken
  have hlook : ∀ a, a % 4 = 0 → ringLook (tailWritten m c v).npu c a = ringLook m.npu c a := by
    have hring := (hheads c hactive).ring
    intro a ha
    refine @ringLook_congr m.npu (tailWritten m c v).npu c hring ?_ (fun _ _ _ => rfl) a ha
    rw [hchan]
    exact hring.congr (.pointers ..)
  have hwalk := hfollows.walk (by rw [hchan]) hlook
  rw [hchan] at hwalk
  have hextents : takenExtents (kickChan host m c v).trace = takenExtents m.trace ++
      ((requestLoop c mboxMaxMsgPerKick (tailWritten m c v).npu).1.filterMap id).map extent := by
    rw [takenExtents, htaken, List.map_append, List.map_map]
    rfl
  rw [kickExtents, hextents, List.drop_left]
  exact hwalk

/-- In every reachable state, as long as no reply has ended behind the SRAM: what a kick hands to
the message handler lies in what the driver has published, and no byte of it twice, exactly when the
way of the loop over the ring is clear. A kick of an inactive channel hands over nothing. -/
theorem kick_published_iff (host : Host) (ops : List GuestOp) (c : ChanIdx) (v : UInt32) :
    let m := guestRun host ops
    (m.npu.chan c).i2xBuf.toNat + (m.npu.chan c).i2xTail.toNat ≤ barSramSize →
      (Published (m.npu.chan c).x2iHead.toNat v.toNat (m.npu.chan c).x2iSize.toNat
          (kickExtents host m c v) ↔
        ((m.npu.chan c).active = true →
          Clear (ringLook m.npu c) v.toNat (kickPasses m c v) (m.npu.chan c).x2iHead.toNat)) := by
  intro m hroom
  have hcons : Consistent m.npu := guestRun_consistent host ops
  cases hactive : (m.npu.chan c).active with
  | false =>
    have hnone : kickExtents host m c v = [] := by
      rw [kickExtents, kickChan_inactive host v hcons hactive]
      exact List.drop_length
    rw [hnone]
    exact ⟨fun _ h => (nomatch h), fun _ => ⟨fun _ h => (nomatch h), .nil⟩⟩
  | true =>
    rw [kickExtents_eq host v hcons (guestRun_headsOk host ops) hactive hroom]
    have hiff := @published_iff _ v.toNat _ (fun h n => @ringLook_record m.npu c h n)
      (kickPasses m c v) (m.npu.chan c).x2iHead.toNat
    exact ⟨fun h _ => hiff.mp h, fun h => hiff.mpr (h rfl)⟩

/-- The firmware has been started, and a frame of 20 bytes lies at the start of the ring. -/
def oneFrameOps : List GuestOp :=
  validateOps ++
  [.write barReg regPubSecIntr 1 4,
    .writeBuf barSram sramMgmtX2iOff ((requestHeader 1 0x3 4).encode ++ [0, 0, 0, 0])]

/-- One frame whose last byte is published. -/
theorem kick_published_iff_oneFrameOps :
    let m := guestRun .accepting oneFrameOps
    Published (m.npu.chan 0).x2iHead.toNat 20 (m.npu.chan 0).x2iSize.toNat
        (kickExtents .accepting m 0 20) ↔
      ((m.npu.chan 0).active = true →
        Clear (ringLook m.npu 0) 20 (kickPasses m 0 20) (m.npu.chan 0).x2iHead.toNat) :=
  kick_published_iff .accepting oneFrameOps 0 20 (by decide +kernel)

/-- With the tail in the middle of the frame, the frame is handed over all the same. -/
theorem kick_not_published :
    let m := guestRun .accepting oneFrameOps
    ¬ Published (m.npu.chan 0).x2iHead.toNat 10 (m.npu.chan 0).x2iSize.toNat
      (kickExtents .accepting m 0 10) := by
  intro m h
  have hhead : (m.npu.chan 0).x2iHead.toNat = 0 := by decide +kernel
  have hextents : kickExtents .accepting m 0 10 = [(0, 20)] := by decide +kernel
  rw [hhead, hextents] at h
  have hin := h.inside (0, 20) (List.mem_singleton_self _)
  rw [if_pos (by decide)] at hin
  exact absurd hin.2 (by decide)

end Xdna
