import Xdna.Exchange
import Xdna.Start

/-!
# The round trip of a request

After a successful START the driver may send any number of requests, one after the
other. Each one that it does not itself refuse is delivered as it was written, answered once,
and its reply is read; then both rings are empty again, at whatever offset, and the
next request finds the same situation.
-/

namespace Xdna

open ByteMemory RingLog GuardedRun

/-! ## After a START -/

/-- The driver after it has read the info block of the firmware. -/
def mgmtDriver : Drv := Drv.ofInfo mgmtInfo

/-- Both rings are empty after a boot, whatever was in them before. -/
theorem idle_of_boot {npu : Npu} {m : Machine} (hregs : RegChange (fwBoot npu) m.npu)
    (hcons : Consistent m.npu) : Idle mgmtDriver m := by
  have hchan : m.npu.chan 0 = mgmtChannel := by
    rw [hregs.chan, fwBoot_chan, Function.update_self]
  refine ⟨hcons, by rw [hregs.fwAlive, fwBoot_fwAlive], ?_, ?_, ?_, ?_, ?_, ?_⟩
  · exact hchan ▸ headOk_of_zero mgmtChannel_hasRing rfl
  · exact hchan ▸ tailOk_of_zero mgmtChannel_hasRing rfl rfl
  · rw [hchan]
    rfl
  · rw [hchan]
    rfl
  · rw [hchan]
    decide
  · rw [hchan]
    exact Drv.ofInfo_mgmtInfo

/-- After a START that is answered with 0 the driver and the device agree on empty rings. -/
theorem Starts.idle {host : Host} {m : Machine} (h : Starts host m) :
    Idle mgmtDriver (pspNotify host m) := by
  have hreach := h.reachable.word barReg (regPubSecIntr, pspNotifyVal)
  apply idle_of_boot h.booted.1
  exact hreach.consistent

/-! ## Runs of requests -/

/-- A request of the driver. -/
structure Request where
  id : UInt32
  opcode : UInt32
  payload : List UInt8

/-- The header of a request in the ring. -/
def Request.header (q : Request) : MsgHeader :=
  requestHeader q.id q.opcode (UInt32.ofNat q.payload.length)

/-- The driver and the device. -/
abbrev Pair := Drv × Machine

/-- The driver sends a request up to the kick; the last component is its test for a full ring. -/
def Pair.post (host : Host) (st : Pair) (q : Request) : Drv × Machine × Bool :=
  mboxPost host st.1 st.2 q.id q.opcode q.payload

/-- The whole of `mbox_send_recv`. -/
def Pair.sendRecv (host : Host) (st : Pair) (q : Request) : Drv × Machine × Option Frame :=
  mboxSendRecv host st.1 st.2 q.id q.opcode q.payload

/-- One transaction. -/
def transact (host : Host) (st : Pair) (q : Request) : Pair :=
  ((st.sendRecv host q).1, (st.sendRecv host q).2.1)

/-- The messages given to the handler. -/
def Event.handled? : Event → Option (ChanIdx × MsgHeader × List UInt8)
  | .handle c hdr payload _ => some (c, hdr, payload)
  | _ => none

/-- The channel, the frame and the success of a send. -/
def Event.sent? : Event → Option (ChanIdx × Frame × Bool)
  | .send c id opcode payload sent => some (c, replyFrame id opcode payload, sent)
  | _ => none

/-- The request `q` that the driver sends in state `st` makes the round trip. -/
structure RoundTrip (host : Host) (st : Pair) (q : Request) : Prop where
  /-- What the kick does: one message is handled, one reply is sent, and vector 0 is raised when
  the new tail and the interrupt register can be read. -/
  kick : ∃ ws reply, (st.post host q).2.1.trace = st.2.trace ++ ws ∧
    ws.filterMap Event.handled? = [(0, q.header, q.payload)] ∧
    ws.filterMap Event.sent? = [(0, reply, true)] ∧
    (∃ npu, Event.raiseIrq 0 npu ∈ ws ∧ npu.chan = (st.post host q).2.1.npu.chan) ∧
    ((st.post host q).2.1.npu.chan 0).intr = 1 ∧
    ((st.post host q).2.1.npu.chan 0).i2xTail ≠ (st.2.npu.chan 0).i2xTail ∧
    (st.sendRecv host q).2.2 = some reply ∧ reply.hdr.id = q.id ∧ reply.hdr.opcode = q.opcode
  /-- Both rings are empty afterwards, and the driver knows it. -/
  empty :
    ((transact host st q).2.npu.chan 0).x2iHead = ((transact host st q).2.npu.chan 0).x2iTail ∧
    ((transact host st q).2.npu.chan 0).i2xHead = ((transact host st q).2.npu.chan 0).i2xTail ∧
    (transact host st q).1.x2iTail = ((transact host st q).2.npu.chan 0).x2iTail ∧
    (transact host st q).1.i2xHead = ((transact host st q).2.npu.chan 0).i2xHead

variable (host : Host) {st : Pair} {q : Request}

/-- On idle rings a request is a transaction, and leaves the rings idle. -/
theorem Idle.sendRecv (h : Idle st.1 st.2) (hq : Sendable q.payload) :
    Transaction host st.1 st.2 q.id q.opcode q.payload (st.sendRecv host q) ∧
      Idle (transact host st q).1 (transact host st q).2 := by
  rw [Xdna.transact, Pair.sendRecv]
  exact h.transaction host hq

/-- Of the events of a kick only one is the delivery of a message, and one a send. -/
theorem filterMap_kick (hdr : MsgHeader) (payload : List UInt8) (npu : Npu) (f : Frame)
    {ws₀ ws₁ ws₂ : List Event} (hreads : ∀ e ∈ ws₀, ∃ off len, e = Event.ringRead 0 off len)
    (hdma : ∀ e ∈ ws₁, e.IsDmaWrite)
    (hwrites : ∀ e ∈ ws₂, (∃ off len, e = Event.ringWrite 0 off len) ∨
      ∃ v npu, e = Event.raiseIrq v npu) :
    let ws := ws₀ ++ [Event.handle 0 hdr payload npu] ++ (ws₁ ++ (ws₂ ++
      [.send 0 f.hdr.id f.hdr.opcode f.payload true]))
    ws.filterMap Event.handled? = [(0, hdr, payload)] ∧
      ws.filterMap Event.sent? = [(0, replyFrame f.hdr.id f.hdr.opcode f.payload, true)] := by
  have h₀ : ws₀.filterMap Event.handled? = [] ∧ ws₀.filterMap Event.sent? = [] := by
    constructor <;> rw [List.filterMap_eq_nil_iff] <;> intro e he <;>
      obtain ⟨_, _, rfl⟩ := hreads e he <;> rfl
  have h₁ : ws₁.filterMap Event.handled? = [] ∧ ws₁.filterMap Event.sent? = [] := by
    constructor <;> rw [List.filterMap_eq_nil_iff] <;> intro e he <;>
      have := hdma e he <;> cases e <;> first | rfl | exact this.elim
  have h₂ : ws₂.filterMap Event.handled? = [] ∧ ws₂.filterMap Event.sent? = [] := by
    constructor <;> rw [List.filterMap_eq_nil_iff] <;> intro e he <;>
      rcases hwrites e he with ⟨_, _, rfl⟩ | ⟨_, _, rfl⟩ <;> rfl
  simp [List.filterMap_append, List.filterMap_cons, h₀, h₁, h₂, Event.handled?, Event.sent?]

/-- The pointer of an empty ring moves with every frame. -/
theorem emptyPlace_moves {t n s : ℕ} (h : emptyPlace t n = some s) (hpos : 0 < n) : s + n ≠ t := by
  unfold emptyPlace place at h
  split_ifs at h <;> have := Option.some.inj h <;> omega

/-- An accepted request makes the round trip. -/
theorem Idle.roundTrip (hirq : host.raiseIrq = true) (h : Idle st.1 st.2) (hq : Sendable q.payload)
    (hlater : ¬ q.header.AnsweredLater) (hacc : (st.post host q).2.2 = true) :
    RoundTrip host st q ∧ Idle (transact host st q).1 (transact host st q).2 := by
  obtain ⟨m₀, tail, hk, hpost⟩ := h.kicked host hq hacc
  have hsome := (mertOutcome_eq_none host m₀ q.header (Memory.ofBytes q.payload)).not.mpr hlater
  obtain ⟨a, ha⟩ := Option.ne_none_iff_exists'.mp hsome
  generalize hm₁ : (mertOutcome host m₀ q.header (Memory.ofBytes q.payload)).1 = m₁
  have hout : mertOutcome host m₀ q.header (Memory.ofBytes q.payload) = (m₁, some a) :=
    Prod.ext hm₁ ha
  obtain ⟨m', hreply, hreplied, hidle, hrecv⟩ := hk.answered host h hq hout
  have hpost' : st.post host q = ({ st.1 with x2iTail := tail }, m', true) := by
    rw [Pair.post, hpost]
    unfold answerWith
    rw [show (requestFrame q.id q.opcode q.payload).hdr = q.header from rfl, hout]
    dsimp only
    rw [← hreply]
    rfl
  have hsendRecv : st.sendRecv host q = ({ st.1 with
      x2iTail := tail, i2xHead := (m'.npu.chan 0).i2xTail }, drained m',
        some (replyFrame q.id q.opcode a.2)) := by
    rw [Pair.sendRecv, mboxSendRecv, ← Pair.post, hpost']
    exact hrecv
  have hidle' : Idle (transact host st q).1 (transact host st q).2 := by
    rw [transact, hsendRecv]
    exact hidle
  refine ⟨⟨?_, ?_⟩, hidle'⟩
  · obtain ⟨ws₀, htrace₀, hreads⟩ := hk.trace
    obtain ⟨ws₁, htrace₁, hdma⟩ := (mertOutcome_trace host m₀ q.header
      (Memory.ofBytes q.payload)).2
    obtain ⟨ws₂, htrace₂, hwrites, hraise⟩ := hreplied.trace
    rw [hm₁] at htrace₁
    obtain ⟨hhandled, hsent⟩ := filterMap_kick q.header q.payload m₀.npu
      (replyFrame q.id q.opcode a.2) hreads hdma hwrites
    refine ⟨_, replyFrame q.id q.opcode a.2, ?_, hhandled, hsent, ?_, ?_, ?_, ?_, rfl, rfl⟩
    · rw [hpost']
      dsimp only
      rw [htrace₂, htrace₁, htrace₀]
      simp only [List.append_assoc]
      rfl
    · obtain ⟨npu, hmem, hchan⟩ := hraise hirq
      refine ⟨npu, ?_, by rw [hpost', hchan]⟩
      simp [hmem]
    · rw [hpost']
      exact hreplied.intr
    · rw [hpost']
      obtain ⟨s, hplace, htail⟩ := hreplied.place
      have hmoves := emptyPlace_moves hplace (by omega)
      have hchan := (hk.outcome host h (Memory.ofBytes q.payload)).1
      rw [show (requestFrame q.id q.opcode q.payload).hdr = q.header from rfl, hm₁] at hchan
      dsimp only
      rw [ne_eq, ← UInt32.toNat_inj, htail]
      rw [hchan] at hmoves
      exact hmoves
    · rw [hsendRecv]
  · have hdrv := hidle'.drv
    exact ⟨hidle'.x2iEmpty, hidle'.i2xEmpty, by rw [hdrv], by rw [hdrv]⟩

/-- A request that has a reply at once, for a channel that its driver has found empty. -/
structure Request.Synchronous (q : Request) : Prop where
  sendable : Sendable q.payload
  answered : ¬ (q.opcode = 0x10C ∧ 12 ≤ q.payload.length)

/-- A synchronous request is answered at once. -/
theorem Request.Synchronous.not_answeredLater (h : q.Synchronous) : ¬ q.header.AnsweredLater := by
  rintro ⟨hop, hlen⟩
  refine h.answered ⟨hop, ?_⟩
  rw [UInt32.le_iff_toNat_le] at hlen
  have hsize : (Request.header q).totalSize.toNat = q.payload.length := h.sendable.length_toNat
  rw [hsize] at hlen
  exact hlen

/-- Whatever has happened before a successful START: from then on, in every sequence of requests
each one that the driver itself does not refuse is delivered, answered and read back, and leaves
both rings empty. -/
theorem transact_roundTrip (hirq : host.raiseIrq = true) {m : Machine} (hstart : Starts host m)
    {qs : List Request} (hqs : ∀ q ∈ qs, q.Synchronous) :
    Guarded (transact host)
      (fun st q => (st.post host q).2.2 = true → RoundTrip host st q)
      (mgmtDriver, pspNotify host m) qs := by
  have hrun (st : Pair) (h : Idle st.1 st.2) : Guarded (transact host)
      (fun st q => (st.post host q).2.2 = true → RoundTrip host st q) st qs := by
    induction qs generalizing st with
    | nil => trivial
    | cons q qs ih =>
      have hq := hqs q (by simp)
      by_cases hacc : (st.post host q).2.2 = true
      · obtain ⟨htrip, hidle⟩ := h.roundTrip host hirq hq.sendable hq.not_answeredLater hacc
        exact ⟨fun _ => htrip, ih (fun q' hq' => hqs q' (by simp [hq'])) _ hidle⟩
      · exact ⟨fun h' => absurd h' hacc, ih (fun q' hq' => hqs q' (by simp [hq'])) _
          (h.sendRecv host hq.sendable).2⟩
  exact hrun _ hstart.idle

/-! ## Where the rings go -/

/-- Where the driver stands in the two rings. -/
def Pair.positions (st : Pair) : UInt32 × UInt32 := (st.1.x2iTail, st.1.i2xHead)

/-- Where it goes with a request and its reply. -/
def Request.positions (p : UInt32 × UInt32) (q : Request) : UInt32 × UInt32 :=
  (emptyNext p.1 (16 + q.payload.length), emptyNext p.2 (16 + (respSizeFor q.opcode).1))

/-- A request that takes less than half the ring is never refused, and the driver moves on by its
frame and by the frame of the reply. -/
theorem Idle.accepts (h : Idle st.1 st.2) (hq : q.Synchronous) (hshort : q.payload.length ≤ 2030) :
    (st.post host q).2.2 = true ∧ (transact host st q).positions = q.positions st.positions := by
  have hplace (t : ℕ) : emptyPlace t (16 + q.payload.length) ≠ none :=
    emptyPlace_ne_none (by omega)
  constructor
  · have hposted : Posted host st.1 st.2 q.id q.opcode q.payload (st.post host q) :=
      h.mboxPost_posted host hq.sendable
    generalize st.post host q = r at hposted ⊢
    cases hposted with
    | refused _ _ hnone => exact absurd hnone (hplace _)
    | accepted => rfl
  · have htrans := (h.sendRecv host hq.sendable).1
    unfold transact
    generalize st.sendRecv host q = r at htrans ⊢
    cases htrans with
    | refused _ hnone _ _ => exact absurd hnone (hplace _)
    | served m₀ m' reply _ _ _ _ hreply _ _ =>
      have hsome :=
        (mertOutcome_eq_none host m₀ q.header (Memory.ofBytes q.payload)).not.mpr
          hq.not_answeredLater
      obtain ⟨a, ha⟩ := Option.ne_none_iff_exists'.mp hsome
      have hlen : a.2.length = (respSizeFor q.opcode).1 := (mertOutcome_wellShaped ha).1
      rw [show (requestFrame q.id q.opcode q.payload).hdr = q.header from rfl, ha] at hreply
      rw [hreply, Request.positions, ← hlen]
      rfl

/-- After a sequence of such requests the driver stands where their sizes and those of the
replies have taken it. -/
theorem Idle.run_positions {qs : List Request} (h : Idle st.1 st.2)
    (hqs : ∀ q ∈ qs, q.Synchronous ∧ q.payload.length ≤ 2030) :
    Guarded (transact host) (fun st q => (st.post host q).2.2 = true) st qs ∧
      (qs.foldl (transact host) st).positions = qs.foldl Request.positions st.positions := by
  induction qs generalizing st with
  | nil => exact ⟨trivial, rfl⟩
  | cons q qs ih =>
    obtain ⟨hsync, hshort⟩ := hqs q (by simp)
    obtain ⟨hacc, hpos⟩ := h.accepts host hsync hshort
    obtain ⟨hrest, hlast⟩ :=
      ih (h.sendRecv host hsync.sendable).2 fun q' hq' => hqs q' (by simp [hq'])
    exact ⟨⟨hacc, hrest⟩, by rw [List.foldl_cons, hlast, hpos]; rfl⟩

/-- Requests for the protocol version, with the ids 0, 1, 2 and so on. -/
def versionRequests (n : ℕ) : List Request :=
  (List.range n).map fun id => ⟨UInt32.ofNat id, 0x301, [0, 0, 0, 0]⟩

private theorem versionRequests_synchronous {n : ℕ} :
    ∀ q ∈ versionRequests n, q.Synchronous ∧ q.payload.length ≤ 2030 := by
  intro q hq
  obtain ⟨id, _, rfl⟩ := List.mem_map.mp hq
  have hsend : Sendable [0, 0, 0, 0] := ⟨rfl, List.cons_ne_nil _ _, by decide⟩
  have hop : (0x301 : UInt32) ≠ 0x10C := by decide
  exact ⟨⟨hsend, fun h => hop h.1⟩, Nat.le_of_ble_eq_true rfl⟩

/-- Of 300 requests for the protocol version after a boot from reset each one is accepted and makes
the round trip. The 205th request and the replies to the 147th and the 293rd go back to the start
of their rings. -/
theorem transact_roundTrip_wraps :
    Guarded (transact .accepting)
      (fun st q => (st.post .accepting q).2.2 = true ∧ RoundTrip .accepting st q)
      (mgmtDriver, pspNotify .accepting (guestRun .accepting validateOps))
      (versionRequests 300) ∧
    [146, 147, 204, 205, 292, 293].map (fun n => ((versionRequests n).foldl (transact .accepting)
        (mgmtDriver, pspNotify .accepting (guestRun .accepting validateOps))).positions) =
      [(2920, 4088), (2940, 28), (4080, 1624), (20, 1652), (1760, 4088), (1780, 28)] := by
  have hpos (n : ℕ) := @Idle.run_positions .accepting
    (mgmtDriver, pspNotify .accepting (guestRun .accepting validateOps)) (versionRequests n)
    starts_validateOps.idle versionRequests_synchronous
  have htrip := transact_roundTrip .accepting rfl starts_validateOps
    fun q hq => (versionRequests_synchronous (n := 300) q hq).1
  refine ⟨((hpos 300).1.and htrip).imp (I := fun _ => True)
    (fun _ _ _ h => ⟨⟨h.1, h.2 h.1⟩, trivial⟩) trivial, ?_⟩
  simp only [List.map_cons, List.map_nil, (hpos _).2]
  decide +kernel

end Xdna
