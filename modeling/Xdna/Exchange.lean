import Xdna.Management
import Xdna.ReplyBounds
import Xdna.ReplyRing

/-!
# Request and response on the management channel

The driver of `tests/test_boot.c` sends one request at a time and waits for the reply, so
that between two requests both rings are empty, with both pointers at some offset of the
ring. From there a request that the driver's own test for a full ring accepts is held by one
ring, its reply by the other, whatever the offset.
-/

namespace Xdna

open ByteMemory RingLog

/-! ## Between two requests -/

/-- Both rings of the management channel are empty, and the driver `d` knows where. -/
structure Idle (d : Drv) (m : Machine) : Prop where
  consistent : Consistent m.npu
  alive : m.npu.fwAlive = true
  head : HeadOk 0 (m.npu.chan 0)
  tail : TailOk 0 (m.npu.chan 0)
  x2iEmpty : (m.npu.chan 0).x2iHead = (m.npu.chan 0).x2iTail
  i2xEmpty : (m.npu.chan 0).i2xHead = (m.npu.chan 0).i2xTail
  x2iRoom : (m.npu.chan 0).x2iTail.toNat + 4 ≤ ringSize 0
  drv : d = { Drv.ofChannel 0 mgmtChannel with
    x2iTail := (m.npu.chan 0).x2iTail, i2xHead := (m.npu.chan 0).i2xHead }

/-- A payload that fits the management ring, and that the parser delivers. -/
structure Sendable (req : List UInt8) : Prop where
  words : req.length % 4 = 0
  nonempty : req ≠ []
  fits : 16 + req.length ≤ ringSize 0 - 4

/-- The frame that the driver writes for a request. -/
def requestFrame (id opcode : UInt32) (req : List UInt8) : Frame :=
  ⟨requestHeader id opcode (UInt32.ofNat req.length), req⟩

private theorem Sendable.length_lt {req : List UInt8} (h : Sendable req) : req.length < 2 ^ 32 := by
  have := h.fits
  have : ringSize 0 = 0x1000 := rfl
  omega

private theorem Sendable.isRequest {req : List UInt8} (h : Sendable req) (id opcode : UInt32) :
    (requestFrame id opcode req).IsRequest :=
  ⟨UInt32.toNat_ofNat_of_lt' h.length_lt, h.words, h.nonempty⟩

/-- Where an empty ring of the management channel goes with a frame of `n` bytes: the offset of
the frame, if there is room for it. -/
abbrev emptyPlace (t n : ℕ) : Option ℕ := place (ringSize 0 - 4) t t n

/-- A frame of less than half the ring always fits the empty ring. -/
theorem emptyPlace_ne_none {t n : ℕ} (hn : n ≤ 2046) : emptyPlace t n ≠ none := by
  have hsize : ringSize 0 = 0x1000 := rfl
  unfold emptyPlace place
  split_ifs <;> first | exact Option.some_ne_none _ | omega

/-! ## The request -/

/-- The machine with another content of the SRAM. -/
def Machine.withSram (m : Machine) (sram : Memory) : Machine :=
  { m with npu := { m.npu with sram := sram } }

/-- What the driver's writes before the kick do: nothing outside the `x2i` ring, and in the
ring the request lies between the head and the new tail. -/
inductive Posted (host : Host) (d : Drv) (m : Machine) (id opcode : UInt32) (req : List UInt8) :
    Drv × Machine × Bool → Prop
  | refused (sram : Memory)
      (hsram : ∀ a, a < x2iBase 0 ∨ x2iBase 0 + ringSize 0 ≤ a → sram a = m.npu.sram a)
      (hplace : emptyPlace (m.npu.chan 0).x2iTail.toNat (16 + req.length) = none) :
      Posted host d m id opcode req (d, m.withSram sram, false)
  | accepted (s : ℕ) (tail : UInt32) (sram : Memory)
      (hsram : ∀ a, a < x2iBase 0 ∨ x2iBase 0 + ringSize 0 ≤ a → sram a = m.npu.sram a)
      (hplace : emptyPlace (m.npu.chan 0).x2iTail.toNat (16 + req.length) = some s)
      (htail : tail.toNat = s + (16 + req.length))
      (hholds : HoldsRequests (tailWritten (m.withSram sram) 0 tail).npu 0
        [requestFrame id opcode req]) :
      Posted host d m id opcode req ({ d with x2iTail := tail },
        mboxLoop host 0 mboxMaxMsgPerKick (tailWritten (m.withSram sram) 0 tail), true)

private theorem Idle.x2i {d : Drv} {m : Machine} (h : Idle d m) :
    d.x2i = (Drv.ofChannel 0 mgmtChannel).x2i := by
  rw [h.drv]

/-- A block write inside the SRAM changes the SRAM only. -/
theorem mmioWriteBuf_withSram (host : Host) {m : Machine} {off : UInt32} {bytes : List UInt8}
    (h : off.toNat + bytes.length ≤ barSramSize) :
    mmioWriteBuf host m barSram off bytes = m.withSram (m.npu.sram.write off.toNat bytes) :=
  mmioWriteBuf_sram h

section Post

variable (host : Host) {d : Drv} {m : Machine} {id opcode : UInt32} {req : List UInt8}

/-- The length of a payload that can be sent is a 32-bit number. -/
theorem Sendable.length_toNat (h : Sendable req) :
    (UInt32.ofNat req.length).toNat = req.length := UInt32.toNat_ofNat_of_lt' h.length_lt

/-- So is the length of its frame. -/
theorem Sendable.pkgSize_toNat (h : Sendable req) :
    (msgHeaderSize + UInt32.ofNat req.length).toNat = 16 + req.length :=
  Xdna.pkgSize_toNat (by
    have := h.fits
    have : ringSize 0 = 0x1000 := rfl
    omega)

/-- The driver's copies of an offset in the ring and of the base of the ring add up. -/
theorem Idle.x2iOff (h : Idle d m) {v : UInt32} (hv : v.toNat ≤ ringSize 0) :
    (d.x2i.rbStart + v).toNat = x2iBase 0 + v.toNat := by
  have hstart : d.x2i.rbStart.toNat = x2iBase 0 := by rw [h.x2i]; rfl
  have hbase : x2iBase 0 = 0x21000 := rfl
  have hsize : ringSize 0 = 0x1000 := rfl
  rw [UInt32.toNat_add, hstart]
  omega

/-- The ring with the tombstone that the driver writes when it goes back to zero. -/
def requestMarked (npu : Npu) (n : ℕ) : Memory :=
  if Wraps (ringSize 0 - 4) (npu.chan 0).x2iTail.toNat (npu.chan 0).x2iTail.toNat n then
    npu.sram.write (x2iBase 0 + (npu.chan 0).x2iTail.toNat) tombstoneBytes
  else npu.sram

private theorem requestMarked_window (npu : Npu) (n : ℕ) :
    (requestMarked npu n).window (x2iBase 0) =
      marked tombstoneBytes (npu.sram.window (x2iBase 0)) (ringSize 0 - 4)
        (npu.chan 0).x2iTail.toNat (npu.chan 0).x2iTail.toNat n := by
  unfold requestMarked RingLog.marked
  split
  · exact Memory.window_write ..
  · rfl

private theorem Idle.requestMarked_outside (h : Idle d m) (n : ℕ) {a : ℕ}
    (ha : a < x2iBase 0 ∨ x2iBase 0 + ringSize 0 ≤ a) :
    requestMarked m.npu n a = m.npu.sram a := by
  have := h.x2iRoom
  unfold requestMarked
  split
  · exact Memory.write_of_outside (by rw [tombstoneBytes_length]; omega)
  · rfl

/-- On an empty ring the driver goes back to zero when the frame does not fit behind the tail. -/
theorem Idle.wraps_iff (h : Idle d m) (hreq : Sendable req) :
    ((m.npu.chan 0).x2iTail ≤ d.x2iTail && d.x2i.rbSize - 4 < d.x2iTail +
        (msgHeaderSize + UInt32.ofNat req.length) : Bool) = true ↔
      Wraps (ringSize 0 - 4) (m.npu.chan 0).x2iTail.toNat (m.npu.chan 0).x2iTail.toNat
        (16 + req.length) := by
  have hroom := h.x2iRoom
  have hfits := hreq.fits
  have hsize : ringSize 0 = 0x1000 := rfl
  have husable : (d.x2i.rbSize - 4).toNat = ringSize 0 - 4 := by rw [h.x2i]; rfl
  have htail : d.x2iTail = (m.npu.chan 0).x2iTail := by rw [h.drv]
  rw [htail, Bool.and_eq_true, decide_eq_true_eq, decide_eq_true_eq, UInt32.le_iff_toNat_le,
    UInt32.lt_iff_toNat_lt, husable, UInt32.toNat_add, hreq.pkgSize_toNat,
    Nat.mod_eq_of_lt (by omega), Wraps]

/-- The tombstone store of the driver. -/
theorem Idle.mark_eq (h : Idle d m) (n : ℕ) {wraps : Bool}
    (hwraps : wraps = true ↔
      Wraps (ringSize 0 - 4) (m.npu.chan 0).x2iTail.toNat (m.npu.chan 0).x2iTail.toNat n) :
    (if wraps then mmioWriteBuf host m barSram (d.x2i.rbStart + d.x2iTail) (le32 mboxTombstone)
      else m) = m.withSram (requestMarked m.npu n) := by
  have hroom := h.x2iRoom
  have hsram := (ringSize_bounds 0).2.2
  have htail : d.x2iTail = (m.npu.chan 0).x2iTail := by rw [h.drv]
  have hoff := h.x2iOff (v := (m.npu.chan 0).x2iTail) (by omega)
  unfold requestMarked
  by_cases hw : wraps = true
  · rw [if_pos hw, if_pos (hwraps.mp hw), htail,
      mmioWriteBuf_withSram host (by rw [hoff, le32_length]; omega), hoff]
    rfl
  · rw [if_neg hw, if_neg fun h' => hw (hwraps.mpr h')]
    rfl

/-- The copies of header and payload to offset `s` of the ring. -/
theorem Idle.copy_eq (h : Idle d m) {v : UInt32} (hdr : MsgHeader)
    (sram : Memory) (hv : v.toNat + (16 + req.length) + 4 ≤ ringSize 0) :
    mmioWriteBuf host (mmioWriteBuf host (m.withSram sram) barSram (d.x2i.rbStart + v) hdr.encode)
        barSram (d.x2i.rbStart + v + msgHeaderSize) req =
      m.withSram (sram.write (x2iBase 0 + v.toNat) (Frame.encode ⟨hdr, req⟩)) := by
  have hsram := (ringSize_bounds 0).2.2
  have hlarge : barSramSize = 0x40000 := rfl
  have hoff := h.x2iOff (v := v) (by omega)
  have hoff' : (d.x2i.rbStart + v + msgHeaderSize).toNat = x2iBase 0 + v.toNat + 16 := by
    rw [UInt32.toNat_add, hoff, show msgHeaderSize.toNat = 16 from rfl]
    omega
  have happ := Memory.write_append sram (x2iBase 0 + v.toNat) hdr.encode req
  rw [MsgHeader.encode_length] at happ
  rw [mmioWriteBuf_withSram host (by rw [hoff']; omega), hoff',
    mmioWriteBuf_withSram host (by rw [hoff, MsgHeader.encode_length]; omega), hoff]
  simp only [Machine.withSram, happ, Frame.encode]

/-- The driver's test for a full ring, on an empty ring. -/
theorem Idle.refused_iff (h : Idle d m) (hreq : Sendable req) {start : UInt32}
    (hstart : start.toNat = if Wraps (ringSize 0 - 4) (m.npu.chan 0).x2iTail.toNat
      (m.npu.chan 0).x2iTail.toNat (16 + req.length) then 0 else (m.npu.chan 0).x2iTail.toNat) :
    (start < (m.npu.chan 0).x2iTail ∧
        (m.npu.chan 0).x2iTail ≤ start + (msgHeaderSize + UInt32.ofNat req.length) ↔
      emptyPlace (m.npu.chan 0).x2iTail.toNat (16 + req.length) = none) ∧
    ∀ s, emptyPlace (m.npu.chan 0).x2iTail.toNat (16 + req.length) = some s → s = start.toNat := by
  have hroom := h.x2iRoom
  have hfits := hreq.fits
  have hsize : ringSize 0 = 0x1000 := rfl
  have hsum : (start + (msgHeaderSize + UInt32.ofNat req.length)).toNat =
      start.toNat + (16 + req.length) := by
    have hle : start.toNat ≤ (m.npu.chan 0).x2iTail.toNat := by
      rw [hstart]
      split <;> omega
    rw [UInt32.toNat_add, hreq.pkgSize_toNat, Nat.mod_eq_of_lt (by omega)]
  rw [UInt32.lt_iff_toNat_lt, UInt32.le_iff_toNat_le, hsum, emptyPlace, place_eq (by omega)]
  by_cases hw : Wraps (ringSize 0 - 4) (m.npu.chan 0).x2iTail.toNat (m.npu.chan 0).x2iTail.toNat
      (16 + req.length)
  · rw [if_pos hw] at hstart
    rw [if_pos hw]
    unfold Wraps at hw
    refine ⟨?_, fun s hs => ?_⟩
    · split_ifs <;> simp <;> omega
    · split_ifs at hs
      rw [← Option.some.inj hs, hstart]
  · rw [if_neg hw] at hstart
    rw [if_neg hw]
    refine ⟨?_, fun s hs => ?_⟩
    · split_ifs <;> simp <;> omega
    · split_ifs at hs
      rw [← Option.some.inj hs, hstart]

/-- A request that the driver does not refuse lies in the ring when the kick starts. -/
theorem Idle.mboxPost_posted (h : Idle d m) (hreq : Sendable req) :
    Posted host d m id opcode req (mboxPost host d m id opcode req) := by
  have hroom := h.x2iRoom
  have hfits := hreq.fits
  have hsize : ringSize 0 = 0x1000 := rfl
  have hhead : rd32 m barMbox d.x2i.headReg = (m.npu.chan 0).x2iTail := by
    rw [rd32_mbox, h.x2i, ← h.x2iEmpty]
    exact mboxRegRead_x2iHead m.npu 0
  have hpayload : UInt32.ofNat req.length ≠ 0 := by
    intro hzero
    have hlen := hreq.length_toNat
    rw [hzero] at hlen
    exact hreq.nonempty (List.length_eq_zero_iff.mp hlen.symm)
  have hwraps := h.wraps_iff hreq
  unfold mboxPost
  dsimp only
  rw [hhead, if_neg hpayload]
  generalize (decide ((m.npu.chan 0).x2iTail ≤ d.x2iTail) && decide (d.x2i.rbSize - 4 < d.x2iTail +
    (msgHeaderSize + UInt32.ofNat req.length)) : Bool) = wraps at hwraps ⊢
  rw [h.mark_eq host (16 + req.length) hwraps]
  generalize hstart : (if wraps = true then (0 : UInt32) else d.x2iTail) = start
  have hstart' : start.toNat = if Wraps (ringSize 0 - 4) (m.npu.chan 0).x2iTail.toNat
      (m.npu.chan 0).x2iTail.toNat (16 + req.length) then 0 else (m.npu.chan 0).x2iTail.toNat := by
    rw [← hstart]
    by_cases hw : wraps = true
    · rw [if_pos hw, if_pos (hwraps.mp hw)]
      rfl
    · rw [if_neg hw, if_neg fun h' => hw (hwraps.mpr h'), h.drv]
  obtain ⟨hrefused, hplace⟩ := h.refused_iff hreq hstart'
  split
  · rename_i hfull
    exact .refused _ (fun a ha => h.requestMarked_outside _ ha) (hrefused.mp hfull)
  · rename_i hfull
    obtain ⟨s, hs⟩ := Option.ne_none_iff_exists'.mp fun hnone => hfull (hrefused.mpr hnone)
    obtain rfl := hplace s hs
    have hend : start.toNat + (16 + req.length) ≤ ringSize 0 - 4 := place_fits hs (by omega)
    have htail : (start + (msgHeaderSize + UInt32.ofNat req.length)).toNat =
        start.toNat + (16 + req.length) := by
      rw [UInt32.toNat_add, hreq.pkgSize_toNat, Nat.mod_eq_of_lt (by omega)]
    generalize hsram : (requestMarked m.npu (16 + req.length)).write (x2iBase 0 + start.toNat)
      (requestFrame id opcode req).encode = sram
    have hkick : wr32 host (m.withSram sram) barMbox d.x2i.tailReg
          (start + (msgHeaderSize + UInt32.ofNat req.length)) =
        mboxLoop host 0 mboxMaxMsgPerKick (tailWritten (m.withSram sram) 0
          (start + (msgHeaderSize + UInt32.ofNat req.length))) := by
      rw [wr32_mbox, h.x2i]
      exact mboxRegWrite_tail (chanFromOff_base 0).2.1 (h.consistent.congr (.of_eq rfl rfl rfl rfl))
        (show (m.npu.chan 0).active = true by rw [h.consistent.mgmt, h.alive])
    rw [h.copy_eq host _ _ (by omega), ← requestFrame, hsram, hkick]
    refine .accepted start.toNat _ sram (fun a ha => ?_) hs htail ?_
    · rw [← hsram, Memory.write_of_outside, h.requestMarked_outside _ ha]
      rw [Frame.encode_length, requestFrame]
      dsimp only
      omega
    · have hempty : Holds Frame.encode tombstoneBytes (m.npu.sram.window (x2iBase 0))
          (ringSize 0 - 4) (m.npu.chan 0).x2iTail.toNat (m.npu.chan 0).x2iTail.toNat [] :=
        .empty (by omega)
      have hput := hempty.put (f := requestFrame id opcode req) (s := start.toNat)
        (by rw [Frame.encode_length]; exact hs)
      rw [Frame.encode_length, List.nil_append] at hput
      simp only [HoldsRequests, tailWritten, Machine.withSram, Machine.modify_npu, Npu.setChan,
        Function.update_self]
      rw [← hsram, Memory.window_write, requestMarked_window, h.x2iEmpty, htail]
      exact hput

end Post

/-! ## The reply -/

/-- A frame `f` has been sent from `m` into the empty `i2x` ring of the management channel. -/
structure Replied (host : Host) (m : Machine) (f : Frame) (m' : Machine) : Prop where
  change : ReplyChange 0 m.npu m'.npu
  holds : HoldsReplies m'.npu 0 [f]
  place : ∃ s, emptyPlace (m.npu.chan 0).i2xTail.toNat (16 + f.payload.length) = some s ∧
    (m'.npu.chan 0).i2xTail.toNat = s + (16 + f.payload.length)
  intr : (m'.npu.chan 0).intr = 1
  dmaWrites : m'.dmaWrites = m.dmaWrites
  trace : ∃ ws, m'.trace = m.trace ++ ws ++ [.send 0 f.hdr.id f.hdr.opcode f.payload true] ∧
    (∀ e ∈ ws, (∃ off len, e = Event.ringWrite 0 off len) ∨ ∃ v npu, e = Event.raiseIrq v npu) ∧
    (host.raiseIrq = true → ∃ npu, Event.raiseIrq 0 npu ∈ ws ∧ npu.chan = m'.npu.chan)

/-- A reply always fits the empty ring: replies are so short that there is room on one side. -/
theorem mboxSend_empty (host : Host) {m : Machine} (id : UInt32) {opcode : UInt32}
    {payload : List UInt8} (hindex : (m.npu.chan 0).index = 0)
    (hactive : (m.npu.chan 0).active = true) (htail : TailOk 0 (m.npu.chan 0))
    (hempty : (m.npu.chan 0).i2xHead = (m.npu.chan 0).i2xTail)
    (hsize : payload.length = (respSizeFor opcode).1) :
    ∃ m', mboxSend host m 0 id opcode payload = (m', true) ∧
      Replied host m (replyFrame id opcode payload) m' := by
  obtain ⟨hmod, hle⟩ := respSizeFor_bounds opcode
  rw [← hsize] at hmod hle
  have hroom := htail.room
  have hring : ringSize 0 = 0x1000 := rfl
  have hreply := htail.ring.replyRing hactive hroom
  have hlen : 16 + payload.length ≤ ringSize 0 - 4 := by omega
  have hholds : HoldsReplies m.npu 0 [] := by
    unfold HoldsReplies
    rw [hempty]
    exact .empty (by omega)
  have hsome : emptyPlace (m.npu.chan 0).i2xTail.toNat (16 + payload.length) ≠ none := by
    unfold emptyPlace place
    split_ifs <;> first | exact Option.some_ne_none _ | omega
  have hchange := mboxSend_change host m 0 id opcode payload
  have hlength : (replyFrame id opcode payload).payload.length = payload.length := rfl
  have hstored := mboxSend_ring host id opcode htail.ring hactive hholds hlen
  cases hfull : (m.npu.chan 0).sendFull (pkgSize payload) with
  | true =>
    rw [mboxSend_full host id opcode hreply hlen hfull] at hstored
    cases hstored with
    | placed _ _ hsent _ _ => cases hsent
    | dropped hplace _ _ _ _ =>
      rw [hempty] at hplace
      exact absurd hplace hsome
    | overwritten _ _ hsent _ => cases hsent
  | false =>
    obtain ⟨_, hend⟩ :=
      hreply.start_fits hlen (htail.not_overruns _) (by omega) htail.aligned hmod hfull
    have hsend := mboxSend_sent host id opcode hreply hlen hfull (by omega)
    rw [hsend] at hstored hchange
    rw [hsend]
    refine ⟨_, rfl, hchange, ?_, ?_, ?_, rfl, ?_⟩
    · cases hstored with
      | placed _ _ _ _ hholds' => exact hholds'
      | dropped _ _ hsent _ _ => cases hsent
      | overwritten hplace _ _ _ =>
        rw [hempty] at hplace
        exact absurd hplace hsome
    · cases hstored with
      | placed s hplace _ htail' _ =>
        rw [hempty] at hplace
        exact ⟨s, hplace, htail'⟩
      | dropped _ _ hsent _ _ => cases hsent
      | overwritten hplace _ _ _ =>
        rw [hempty] at hplace
        exact absurd hplace hsome
    · dsimp only
      rw [countIrq_chan, sentNpu]
      dsimp only
      rw [Function.update_self]
    · refine ⟨markEvents m.npu 0 (i2xBase 0) (ringSize 0) (16 + payload.length) ++
        copyEvents 0 (i2xBase 0 + ((m.npu.chan 0).sendStart (pkgSize payload)).toNat) payload ++
        irqEvents host 0 (sentNpu m.npu 0 (i2xBase 0) (ringSize 0) id opcode payload), ?_, ?_, ?_⟩
      · simp only [sentEvents, List.append_assoc]
        rfl
      · intro e he
        simp only [List.mem_append, markEvents, copyEvents, irqEvents] at he
        rcases he with (he | he) | he
        · split at he
          · exact .inl ⟨_, _, List.mem_singleton.mp he⟩
          · cases he
        · rcases List.mem_cons.mp he with rfl | he
          · exact .inl ⟨_, _, rfl⟩
          · split at he
            · cases he
            · exact .inl ⟨_, _, List.mem_singleton.mp he⟩
        · split at he
          · exact .inr ⟨_, _, List.mem_singleton.mp he⟩
          · cases he
      · intro hirq
        refine ⟨sentNpu m.npu 0 (i2xBase 0) (ringSize 0) id opcode payload, ?_, ?_⟩
        · have hindex' : ((sentNpu m.npu 0 (i2xBase 0) (ringSize 0) id opcode payload).chan 0).index
              = 0 := by
            rw [sentNpu]
            dsimp only
            rw [Function.update_self]
            exact hindex
          simp [irqEvents, hirq, hindex']
        · dsimp only
          rw [countIrq_chan]

/-- The device after the driver has taken everything out of the `i2x` ring. -/
def drained (m : Machine) : Machine :=
  m.modify fun npu => npu.setChan 0 { npu.chan 0 with intr := 0, i2xHead := (npu.chan 0).i2xTail }

private theorem publishHead_ackIntr (m : Machine) {v : UInt32} (hv : v = (m.npu.chan 0).i2xTail) :
    publishHead (ackIntr m 0) 0 v = drained m := by
  simp [publishHead, ackIntr, drained, Machine.modify, Npu.setChan, hv]

private theorem publishHead_publishHead (m : Machine) (v w : UInt32) :
    publishHead (publishHead m 0 v) 0 w = publishHead m 0 w := by
  simp [publishHead, Machine.modify, Npu.setChan]

/-- The management driver knows the reply ring. -/
theorem Drv.inSync_mgmt {d : Drv} {npu : Npu} (hring : HasRing 0 (npu.chan 0))
    (hd : d.i2x = (Drv.ofChannel 0 mgmtChannel).i2x) (hhead : d.i2xHead = (npu.chan 0).i2xHead) :
    d.InSync npu 0 := by
  have hbuf : (npu.chan 0).i2xBuf = mgmtChannel.i2xBuf := UInt32.toNat_inj.mp hring.i2xBuf
  have hsize : (npu.chan 0).i2xSize = mgmtChannel.i2xSize := UInt32.toNat_inj.mp hring.i2xSize
  refine ⟨hring, ?_, hhead⟩
  rw [hd]
  simp only [Drv.ofChannel, hbuf, hsize]

section Recv

variable (host : Host) {d : Drv} {m : Machine}

private theorem wr32_intr (hd : d.intrReg = (Drv.ofChannel 0 mgmtChannel).intrReg) :
    wr32 host m barMbox d.intrReg 0 = ackIntr m 0 := by
  rw [wr32_mbox, hd]
  exact mboxRegWrite_intr host m 0

/-- `mbox_recv` on an empty ring. -/
theorem mboxRecv_empty (hd : d.i2x = (Drv.ofChannel 0 mgmtChannel).i2x)
    (hintr : d.intrReg = (Drv.ofChannel 0 mgmtChannel).intrReg)
    (hhead : d.i2xHead = (m.npu.chan 0).i2xHead)
    (hempty : (m.npu.chan 0).i2xHead = (m.npu.chan 0).i2xTail) :
    mboxRecv host d m = (d, ackIntr m 0, none) := by
  have htail : rd32 (ackIntr m 0) barMbox d.i2x.tailReg = (m.npu.chan 0).i2xTail := by
    rw [rd32_mbox, hd]
    refine (mboxRegRead_i2xTail (ackIntr m 0).npu 0).trans ?_
    simp [ackIntr, Npu.setChan]
  rw [mboxRecv, wr32_intr host hintr, recvLoop, recvPass]
  dsimp only
  rw [htail, if_pos (hhead.trans hempty)]

/-- `mbox_recv` on a ring that holds one frame reads this frame and leaves the ring empty. -/
theorem mboxRecv_one {f : Frame} (hring : HasRing 0 (m.npu.chan 0))
    (hd : d.i2x = (Drv.ofChannel 0 mgmtChannel).i2x)
    (hintr : d.intrReg = (Drv.ofChannel 0 mgmtChannel).intrReg)
    (hhead : d.i2xHead = (m.npu.chan 0).i2xHead) (hf : f.WellFormed)
    (hholds : HoldsReplies m.npu 0 [f]) (hpos : 0 < (m.npu.chan 0).i2xTail.toNat) :
    mboxRecv host d m = ({ d with i2xHead := (m.npu.chan 0).i2xTail }, drained m, some f) := by
  have hwf : ∀ g ∈ [f], g.WellFormed := fun g hg => List.mem_singleton.mp hg ▸ hf
  -- After the frame the head is at the tail.
  have hlast {m₁ : Machine} {v : UInt32} (htail : (m₁.npu.chan 0).i2xTail = (m.npu.chan 0).i2xTail)
      (h : HoldsReplies (publishHead m₁ 0 v).npu 0 []) : v = (m.npu.chan 0).i2xTail := by
    have heq := Holds.eq_of_nil h (by simpa [publishHead, Npu.setChan, htail] using hpos)
    simpa [publishHead, Npu.setChan, htail, UInt32.toNat_inj] using heq
  have hack : (ackIntr m 0).npu.chan 0 = { m.npu.chan 0 with intr := 0 } := by
    simp [ackIntr, Npu.setChan]
  have hsync : d.InSync (ackIntr m 0).npu 0 :=
    Drv.inSync_mgmt (by rw [hack]; exact hring.congr (.pointers ..)) hd
      (by rw [hack, hhead])
  have hholds₁ : HoldsReplies (ackIntr m 0).npu 0 [f] := by
    unfold HoldsReplies
    rw [hack]
    exact hholds
  rw [mboxRecv, wr32_intr host hintr, recvLoop]
  rcases recvPass_holds host hsync hwf hholds₁ with ⟨hnil, _⟩ | ⟨_, hpass, hholds₂⟩ |
    ⟨g, rest, v, hcons, hpass, hrest⟩
  · cases hnil
  · -- A tombstone; the frame is at the start of the ring.
    have hback : (publishHead (ackIntr m 0) 0 0).npu.chan 0 =
        { (ackIntr m 0).npu.chan 0 with i2xHead := 0 } := by
      simp [publishHead, Npu.setChan]
    have hsync₂ : Drv.InSync { d with i2xHead := 0 } (publishHead (ackIntr m 0) 0 0).npu 0 :=
      Drv.inSync_mgmt (by rw [hback]; exact hsync.ring.congr (.pointers ..)) hd
        (by rw [hback])
    rw [hpass]
    dsimp only
    rw [recvLoop]
    rcases recvPass_holds host hsync₂ hwf hholds₂ with ⟨hnil, _⟩ | ⟨hpos', _⟩ |
      ⟨g, rest, v, hcons, hpass₂, hrest⟩
    · cases hnil
    · rw [hback] at hpos'
      exact absurd hpos' (Nat.lt_irrefl 0)
    · obtain ⟨rfl, rfl⟩ := List.cons.inj hcons
      have hv := hlast (by rw [hback, hack]) hrest
      rw [hpass₂]
      dsimp only
      rw [publishHead_publishHead, publishHead_ackIntr m hv, hv]
  · obtain ⟨rfl, rfl⟩ := List.cons.inj hcons
    have hv := hlast (by rw [hack]) hrest
    rw [hpass]
    dsimp only
    rw [publishHead_ackIntr m hv, hv]

end Recv

/-! ## The whole exchange -/

/-- The machine `m₀` in which the handler is called with the request, after the kick of a driver
that found the machine `m`. Both pointers of the `x2i` ring are behind the request. -/
structure Kicked (m : Machine) (id opcode : UInt32) (req : List UInt8) (m₀ : Machine)
    (tail : UInt32) : Prop where
  fw : SameFw m.npu m₀.npu
  consistent : Consistent m₀.npu
  chan : m₀.npu.chan 0 = { m.npu.chan 0 with x2iHead := tail, x2iTail := tail }
  dmaWrites : m₀.dmaWrites = m.dmaWrites
  trace : ∃ ws, m₀.trace =
      m.trace ++ ws ++ [.handle 0 (requestFrame id opcode req).hdr req m₀.npu] ∧
    ∀ e ∈ ws, ∃ off len, e = Event.ringRead 0 off len
  place : ∃ s, emptyPlace (m.npu.chan 0).x2iTail.toNat (16 + req.length) = some s ∧
    tail.toNat = s + (16 + req.length)

section Exchange

variable (host : Host) {d : Drv} {m m₀ m₁ : Machine} {id opcode tail : UInt32} {req : List UInt8}
  {payload : Memory} {a : Answer}

private theorem sameFw_tailWritten (m : Machine) (sram : Memory) (v : UInt32) :
    SameFw m.npu (tailWritten (m.withSram sram) 0 v).npu := ⟨rfl, rfl, rfl, rfl, rfl, rfl, rfl⟩

/-- An accepted request is delivered. -/
theorem Idle.kicked (h : Idle d m) (hreq : Sendable req)
    (hacc : (mboxPost host d m id opcode req).2.2 = true) :
    ∃ m₀ tail, Kicked m id opcode req m₀ tail ∧ mboxPost host d m id opcode req =
      ({ d with x2iTail := tail }, answerWith host 0 (requestFrame id opcode req).hdr
        (mertOutcome host m₀ (requestFrame id opcode req).hdr (Memory.ofBytes req)), true) := by
  have hposted : Posted host d m id opcode req (mboxPost host d m id opcode req) :=
    h.mboxPost_posted host hreq
  generalize mboxPost host d m id opcode req = p at hposted hacc ⊢
  cases hposted with
  | refused _ _ _ => cases hacc
  | accepted s tail sram hsram hplace htail hholds =>
    have hchan : (tailWritten (m.withSram sram) 0 tail).npu.chan 0 =
        { m.npu.chan 0 with x2iTail := tail } := by
      simp [tailWritten, Machine.withSram, Npu.setChan]
    have hcons : Consistent (tailWritten (m.withSram sram) 0 tail).npu :=
      h.consistent.congr (.of_update rfl (.pointers ..) rfl rfl rfl)
    obtain ⟨m₀, stack, htaken, hcaught, hloop⟩ := mboxLoop_request host 253 hcons h.alive
      (by rw [hchan]; exact h.head.congr (.pointers ..) rfl)
      (hreq.isRequest id opcode) (by rw [hchan, htail]; omega) hholds
    have hpayload : mertOutcome host m₀ (requestFrame id opcode req).hdr (payloadBuffer req stack) =
        mertOutcome host m₀ (requestFrame id opcode req).hdr (Memory.ofBytes req) :=
      mertOutcome_congr host m₀ _ (Nat.min_le_left ..) fun i hi => payloadBuffer_of_lt stack (by
        rwa [show (requestFrame id opcode req).hdr.totalSize.toNat = req.length from
          hreq.length_toNat] at hi)
    refine ⟨m₀, tail, ⟨(sameFw_tailWritten m sram tail).trans htaken.fw, htaken.consistent,
      ?_, htaken.dmaWrites, htaken.trace, s, hplace, htail⟩, ?_⟩
    · rw [htaken.chan, hcaught, hchan]
    · rw [show mboxMaxMsgPerKick = 253 + 3 from rfl, hloop, ← hpayload]
      rfl

namespace Kicked

variable (hk : Kicked m id opcode req m₀ tail)

include hk

/-- The pointers of the `x2i` ring are in order after the request. -/
theorem pointers (h : Idle d m) (hreq : Sendable req) :
    tail.toNat % 4 = 0 ∧ tail.toNat + 4 ≤ ringSize 0 := by
  have hroom := h.x2iRoom
  have halign := h.head.aligned
  have hsize : ringSize 0 = 0x1000 := rfl
  have hwords := hreq.words
  rw [h.x2iEmpty] at halign
  obtain ⟨s, hplace, htail⟩ := hk.place
  have hend := place_fits hplace (by omega)
  have hs : s = (m.npu.chan 0).x2iTail.toNat ∨ s = 0 := by
    unfold emptyPlace RingLog.place at hplace
    split_ifs at hplace <;> have := Option.some.inj hplace <;> omega
  omega

/-- What holds when the handler has changed the state and the reply, if any, is still to come. -/
theorem outcome (h : Idle d m) (payload : Memory) :
    let m₁ := (mertOutcome host m₀ (requestFrame id opcode req).hdr payload).1
    m₁.npu.chan 0 = { m.npu.chan 0 with x2iHead := tail, x2iTail := tail } ∧
      Consistent m₁.npu ∧ m₁.npu.fwAlive = true := by
  have heffect := mertOutcome_effect host m₀ (requestFrame id opcode req).hdr payload
  have halive : m₀.npu.fwAlive = true := by rw [hk.fw.fwAlive, h.alive]
  obtain ⟨hchan, hfw, _⟩ := heffect.mgmt hk.consistent
  exact ⟨by rw [hchan, hk.chan], (heffect.tableChange halive).consistent hk.consistent,
    by rw [hfw, halive]⟩

/-- The reply of a delivered request is sent, and the driver reads it. -/
theorem answered (h : Idle d m) (hreq : Sendable req)
    (hout : mertOutcome host m₀ (requestFrame id opcode req).hdr payload = (m₁, some a)) :
    ∃ m', mertReply host m₁ 0 (requestFrame id opcode req).hdr a.2 = m' ∧
      Replied host m₁ (replyFrame id opcode a.2) m' ∧
      Idle { d with x2iTail := tail, i2xHead := (m'.npu.chan 0).i2xTail } (drained m') ∧
      mboxRecv host { d with x2iTail := tail } m' =
        ({ d with x2iTail := tail, i2xHead := (m'.npu.chan 0).i2xTail }, drained m',
          some (replyFrame id opcode a.2)) := by
  obtain ⟨hchan, hcons, halive⟩ := hk.outcome host h payload
  have hsize : a.2.length = (respSizeFor opcode).1 :=
    (mertOutcome_wellShaped (congrArg Prod.snd hout)).1
  rw [hout] at hchan hcons halive
  have hactive : (m₁.npu.chan 0).active = true := by rw [hcons.mgmt, halive]
  have htail : TailOk 0 (m₁.npu.chan 0) := by
    rw [hchan]
    exact h.tail.congr (.pointers ..) rfl rfl
  obtain ⟨m', hsend, hreplied⟩ := mboxSend_empty host id (hcons.index 0) hactive htail
    (by rw [hchan]; exact h.i2xEmpty) hsize
  have htail' : TailOk 0 (m'.npu.chan 0) := by
    have hsent : TailOk 0 ((mboxSend host m₁ 0 id opcode a.2).1.npu.chan 0) :=
      htail.send hactive hsize
    rwa [hsend] at hsent
  have hx2i := hreplied.change.x2i 0
  have hi2x := hreplied.change.i2xHead 0
  have hcons' := hcons.congr hreplied.change.sameShape
  have hdrained : (drained m').npu.chan 0 =
      { m'.npu.chan 0 with intr := 0, i2xHead := (m'.npu.chan 0).i2xTail } := by
    simp [drained, Npu.setChan]
  obtain ⟨halign, hroom⟩ := hk.pointers h hreq
  refine ⟨m', congrArg Prod.fst hsend, hreplied, ?_, ?_⟩
  · refine ⟨?_, ?_, ?_, ?_, ?_, ?_, ?_, ?_⟩
    · exact hcons'.congr (.of_update rfl (.pointers ..) rfl rfl rfl)
    · have hrest := hreplied.change.rest
      rw [drained, Machine.modify_npu, Npu.setChan, hrest]
      exact halive
    · rw [hdrained]
      refine ⟨htail'.ring.congr (.pointers ..), ?_, ?_⟩ <;>
        rw [hx2i.2.1, hchan] <;> dsimp only <;> omega
    · rw [hdrained]
      have := htail'.room
      exact ⟨⟨htail'.ring.congr (.pointers ..), htail'.aligned, htail'.room⟩,
        by dsimp only; omega⟩
    · rw [hdrained]
      dsimp only
      rw [hx2i.2.1, hx2i.2.2, hchan]
    · rw [hdrained]
    · rw [hdrained]
      dsimp only
      rw [hx2i.2.2, hchan]
      exact hroom
    · rw [hdrained]
      dsimp only
      rw [hx2i.2.2, hchan, h.drv]
  · obtain ⟨s, _, hpos⟩ := hreplied.place
    refine mboxRecv_one host htail'.ring (by rw [h.drv]) (by rw [h.drv]) ?_
      (replyFrame_wellFormed id opcode ?_) hreplied.holds (by omega)
    · rw [hi2x, hchan, h.drv]
    · have := respSizeFor_le opcode
      omega

/-- A request that is answered later leaves the reply ring as it is. -/
theorem later (h : Idle d m) (hreq : Sendable req)
    (hout : mertOutcome host m₀ (requestFrame id opcode req).hdr payload = (m₁, none)) :
    Idle { d with x2iTail := tail } (ackIntr m₁ 0) ∧
      mboxRecv host { d with x2iTail := tail } m₁ =
        ({ d with x2iTail := tail }, ackIntr m₁ 0, none) := by
  obtain ⟨hchan, hcons, halive⟩ := hk.outcome host h payload
  rw [hout] at hchan hcons halive
  dsimp only at hchan
  have hack : (ackIntr m₁ 0).npu.chan 0 =
      { m.npu.chan 0 with x2iHead := tail, x2iTail := tail, intr := 0 } := by
    simp [ackIntr, Npu.setChan, hchan]
  obtain ⟨halign, hroom⟩ := hk.pointers h hreq
  refine ⟨⟨?_, halive, ?_, ?_, ?_, ?_, ?_, ?_⟩, ?_⟩
  · exact hcons.congr (.of_update rfl (.pointers ..) rfl rfl rfl)
  · rw [hack]
    exact ⟨h.head.ring.congr (.pointers ..), halign, by dsimp only; omega⟩
  · rw [hack]
    exact h.tail.congr (.pointers ..) rfl rfl
  · rw [hack]
  · rw [hack]
    exact h.i2xEmpty
  · rw [hack]
    exact hroom
  · rw [hack, h.drv]
  · refine mboxRecv_empty host (by rw [h.drv]) (by rw [h.drv]) ?_ ?_
    · rw [hchan, h.drv]
    · rw [hchan]
      exact h.i2xEmpty

end Kicked

/-! ### Transactions -/

/-- The pointer of an empty ring after a frame of `n` bytes has gone through it. -/
def emptyNext (v : UInt32) (n : ℕ) : UInt32 := UInt32.ofNat ((emptyPlace v.toNat n).getD 0 + n)

private theorem eq_emptyNext {v w : UInt32} {n s : ℕ} (hplace : emptyPlace v.toNat n = some s)
    (h : w.toNat = s + n) : w = emptyNext v n := by
  rw [emptyNext, hplace, Option.getD_some, ← h, UInt32.ofNat_toNat]

/-- The driver after a request of `n` bytes and its reply. -/
def Drv.next (d : Drv) (n : ℕ) (reply : Option Frame) : Drv :=
  { d with
    x2iTail := emptyNext d.x2iTail (16 + n)
    i2xHead := match reply with
      | none => d.i2xHead
      | some f => emptyNext d.i2xHead (16 + f.payload.length) }

/-- A request, seen from the driver: the message handler has been called once with it, on a
machine `m₀` with the firmware state of `m`, and has left its own firmware state. -/
inductive Transaction (host : Host) (d : Drv) (m : Machine) (id opcode : UInt32)
    (req : List UInt8) : Drv × Machine × Option Frame → Prop
  | refused (m' : Machine) (hplace : emptyPlace d.x2iTail.toNat (16 + req.length) = none)
      (hfw : SameFw m.npu m'.npu) (hdma : m'.dmaWrites = m.dmaWrites) :
      Transaction host d m id opcode req (d, m', none)
  | served (m₀ m' : Machine) (reply : Option Frame)
      (hplace : emptyPlace d.x2iTail.toNat (16 + req.length) ≠ none)
      (hcons : Consistent m₀.npu) (hfw : SameFw m.npu m₀.npu) (hdma : m₀.dmaWrites = m.dmaWrites)
      (hreply : reply = ((mertOutcome host m₀ (requestFrame id opcode req).hdr
        (Memory.ofBytes req)).2.map fun a => replyFrame id opcode a.2))
      (hfw' : SameFw (mertOutcome host m₀ (requestFrame id opcode req).hdr
        (Memory.ofBytes req)).1.npu m'.npu)
      (hdma' : m'.dmaWrites = (mertOutcome host m₀ (requestFrame id opcode req).hdr
        (Memory.ofBytes req)).1.dmaWrites) :
      Transaction host d m id opcode req (d.next req.length reply, m', reply)

/-- On idle rings every request of the driver is a transaction, and leaves the rings idle. -/
theorem Idle.transaction (h : Idle d m) (hreq : Sendable req) :
    Transaction host d m id opcode req (mboxSendRecv host d m id opcode req) ∧
      Idle (mboxSendRecv host d m id opcode req).1 (mboxSendRecv host d m id opcode req).2.1 := by
  have hposted : Posted host d m id opcode req (mboxPost host d m id opcode req) :=
    h.mboxPost_posted host hreq
  have htail : d.x2iTail = (m.npu.chan 0).x2iTail := by rw [h.drv]
  have hhead : d.i2xHead = (m.npu.chan 0).i2xTail := by rw [h.drv, ← h.i2xEmpty]
  rw [mboxSendRecv]
  by_cases hacc : (mboxPost host d m id opcode req).2.2 = true
  · obtain ⟨m₀, tail, hk, hpost⟩ := h.kicked host hreq hacc
    obtain ⟨s, hplace, hs⟩ := hk.place
    rw [← htail] at hplace
    have hnext := eq_emptyNext hplace hs
    rw [hpost]
    cases hout : mertOutcome host m₀ (requestFrame id opcode req).hdr (Memory.ofBytes req) with
    | mk m₁ answer =>
      cases answer with
      | none =>
        obtain ⟨hidle, hrecv⟩ := hk.later host h hreq hout
        rw [if_pos rfl]
        unfold answerWith
        dsimp only
        rw [hrecv]
        refine ⟨?_, hidle⟩
        rw [show { d with x2iTail := tail } = d.next req.length none by rw [hnext]; rfl]
        refine .served m₀ _ none (by rw [hplace]; simp) hk.consistent hk.fw hk.dmaWrites
          ?_ ?_ ?_ <;>
          rw [hout]
        · rfl
        · exact ⟨rfl, rfl, rfl, rfl, rfl, rfl, rfl⟩
        · rfl
      | some a =>
        obtain ⟨m', hreply, hreplied, hidle, hrecv⟩ := hk.answered host h hreq hout
        rw [if_pos rfl]
        unfold answerWith
        dsimp only
        rw [hreply, hrecv]
        refine ⟨?_, hidle⟩
        obtain ⟨s', hplace', hs'⟩ := hreplied.place
        have hchan := (hk.outcome host h (Memory.ofBytes req)).1
        rw [hout] at hchan
        dsimp only at hchan
        rw [hchan, ← hhead] at hplace'
        have hnext' := eq_emptyNext hplace' hs'
        rw [show { d with x2iTail := tail, i2xHead := (m'.npu.chan 0).i2xTail } =
          d.next req.length (some (replyFrame id opcode a.2)) by rw [hnext, hnext']; rfl]
        refine .served m₀ _ _ (by rw [hplace]; simp) hk.consistent hk.fw hk.dmaWrites ?_ ?_ ?_ <;>
          rw [hout]
        · rfl
        · exact hreplied.change.sameFw.trans ⟨rfl, rfl, rfl, rfl, rfl, rfl, rfl⟩
        · exact hreplied.dmaWrites
  · rw [if_neg hacc]
    generalize mboxPost host d m id opcode req = p at hposted hacc ⊢
    cases hposted with
    | refused sram hsram hplace =>
      refine ⟨.refused _ (by rw [htail, hplace]) ⟨rfl, rfl, rfl, rfl, rfl, rfl, rfl⟩ rfl, ?_⟩
      exact ⟨h.consistent.congr (.of_eq rfl rfl rfl rfl), h.alive, h.head, h.tail, h.x2iEmpty,
        h.i2xEmpty, h.x2iRoom, h.drv⟩
    | accepted _ _ _ _ _ _ _ => exact absurd rfl hacc

end Exchange

end Xdna
