import Xdna.Books
import Xdna.ColumnDump
import Xdna.General.BlockLog

/-!
# The conversation with the firmware

Whatever the guest does, the trace is made of blocks: searches of the rings, commands of the PSP,
and messages, each with the writes to the memory of the host and the answer that the message
asks for. Who is answered, in which order and with what, and which memory of the host is
touched, is read off the blocks.
-/

namespace Xdna

open ByteMemory EventSourcing BlockLog

/-! ## Calls of `dma_write` -/

instance : DecidablePred Event.IsDmaWrite
  | .dmaWrite .. => isTrue trivial
  | .dmaRead .. | .raiseIrq .. | .ringRead .. | .ringWrite .. | .reject .. | .handle .. | .send ..
  | .pspDone .. => isFalse id

/-- The number of calls of `dma_write` in a trace. -/
def dmaCalls (tr : List Event) : ℕ := tr.countP fun e => e.IsDmaWrite

/-- The host answers a call of `dma_write` by the number of calls before it, and these are the
calls in the trace. -/
def Counted (m : Machine) : Prop := m.dmaWrites = dmaCalls m.trace

/-- Events that are no calls of `dma_write` are not counted. -/
theorem dmaCalls_append_of_not {tr es : List Event} (h : ∀ e ∈ es, ¬ e.IsDmaWrite) :
    dmaCalls (tr ++ es) = dmaCalls tr := by
  have hzero : es.countP (fun e => e.IsDmaWrite) = 0 :=
    List.countP_eq_zero.mpr fun e he => by simpa using h e he
  rw [dmaCalls, List.countP_append, hzero, Nat.add_zero, dmaCalls]

/-- A search of a ring calls nothing. -/
theorem Event.IsSearch.not_isDmaWrite {e : Event} (h : e.IsSearch) : ¬ e.IsDmaWrite := by
  cases e <;> first | exact id | exact h.elim

/-- The events of `xdna_mbox_send` are no calls of `dma_write`. -/
theorem SendEvent.not_isDmaWrite {c : ChanIdx} {npu : Npu} {e : Event} (h : SendEvent c npu e) :
    ¬ e.IsDmaWrite := by
  cases h <;> exact id

namespace Counted

variable {m m' : Machine}

/-- Whatever calls nothing keeps the count. -/
theorem of_extends {P : Event → Prop} (h : Counted m) (hext : m.Extends P m')
    (hP : ∀ e, P e → ¬ e.IsDmaWrite) (hdma : m'.dmaWrites = m.dmaWrites) : Counted m' := by
  obtain ⟨es, htrace, hes⟩ := hext
  rw [Counted, hdma, h, htrace, dmaCalls_append_of_not fun e he => hP e (hes e he)]

/-- Every chunk of a dump is counted once. -/
theorem colStatusLoop (dmaWrite : ℕ → UInt64 → List UInt8 → Bool) (addr : UInt64) (size : UInt32)
    (done : UInt32) (h : Counted m) :
    Counted (Xdna.colStatusLoop dmaWrite addr size m done).1 := by
  have hcall {m : Machine} (h : Counted m) (a : UInt64) (n : UInt32) (ok : Bool) :
      Counted { m.emit (.dmaWrite a n ok) with dmaWrites := m.dmaWrites + 1 } := by
    rw [Counted] at h ⊢
    dsimp only
    rw [h, Machine.emit_trace, dmaCalls, dmaCalls, List.countP_append]
    rfl
  fun_induction Xdna.colStatusLoop with
  | case1 m done hlt n ok m₁ hok ih => exact ih (hcall h ..)
  | case2 m done hlt n ok m₁ hok => exact hcall h ..
  | case3 m done hnot => exact h

/-- The handler of a message counts the calls it makes. -/
theorem mertOutcome (host : Host) (hdr : MsgHeader) (p : Memory) (h : Counted m) :
    Counted (Xdna.mertOutcome host m hdr p).1 := by
  unfold Xdna.mertOutcome
  split
  · split
    · exact h
    · dsimp only
      unfold queryColStatus
      split
      · exact h
      · split
        · exact h
        · exact h.colStatusLoop ..
  · exact h

/-- A reply calls nothing. -/
theorem mboxSend (host : Host) (c : ChanIdx) (id opcode : UInt32) (payload : List UInt8)
    (h : Counted m) : Counted (Xdna.mboxSend host m c id opcode payload).1 := by
  obtain ⟨m₁, ⟨ws, hws, hsend⟩, htrace⟩ := mboxSend_trace host m c id opcode payload
  have hext : m.Extends (¬ ·.IsDmaWrite) (Xdna.mboxSend host m c id opcode payload).1 := by
    refine ⟨ws ++ [.send c id opcode payload (Xdna.mboxSend host m c id opcode payload).2],
      by rw [htrace, hws, List.append_assoc], fun e he => ?_⟩
    rcases List.mem_append.mp he with he | he
    · exact (hsend e he).not_isDmaWrite
    · rw [List.mem_singleton.mp he]
      exact fun h => h
  exact h.of_extends hext (fun e he => he) (mboxSend_dmaWrites ..)

end Counted

/-! ## Blocks -/

/-- What the firmware does about a message in the state `npu`, after `k` calls of `dma_write`: its
own calls, and the payload of the answer if there is one. -/
inductive Reaction (host : Host) (k : ℕ) (npu : Npu) (hdr : MsgHeader) (p : Memory) :
    List Event → Option (List UInt8) → Prop
  | step (hop : MsgOpcode.ofCode? hdr.opcode ≠ some .queryColStatus) :
      Reaction host k npu hdr p []
        ((mertStep npu hdr p (MsgOpcode.ofCode? hdr.opcode)).2.map Prod.snd)
  | short (hop : MsgOpcode.ofCode? hdr.opcode = some .queryColStatus)
      (hlen : hdr.totalSize < ColumnInfoReq.size) :
      Reaction host k npu hdr p [] (some (statusReply hdr.opcode .invalidInputBuffer))
  /-- A buffer without an address or a size. -/
  | nowhere (hop : MsgOpcode.ofCode? hdr.opcode = some .queryColStatus)
      (hlen : ColumnInfoReq.size ≤ hdr.totalSize)
      (hzero : (ColumnInfoReq.decode p).dumpBuffAddr = 0 ∨
        (ColumnInfoReq.decode p).dumpBuffSize = 0) :
      Reaction host k npu hdr p [] (some (ColumnInfoResp.encode ⟨.invalidParam, 0⟩))
  /-- A host without the callback. -/
  | refused (hop : MsgOpcode.ofCode? hdr.opcode = some .queryColStatus)
      (hlen : ColumnInfoReq.size ≤ hdr.totalSize)
      (haddr : (ColumnInfoReq.decode p).dumpBuffAddr ≠ 0)
      (hsize : (ColumnInfoReq.decode p).dumpBuffSize ≠ 0) (hdma : host.dmaWrite = none) :
      Reaction host k npu hdr p [] (some (ColumnInfoResp.encode ⟨.aieDmaError, 0⟩))
  | dump (hop : MsgOpcode.ofCode? hdr.opcode = some .queryColStatus)
      (hlen : ColumnInfoReq.size ≤ hdr.totalSize)
      (haddr : (ColumnInfoReq.decode p).dumpBuffAddr ≠ 0)
      (hsize : (ColumnInfoReq.decode p).dumpBuffSize ≠ 0)
      {dmaWrite : ℕ → UInt64 → List UInt8 → Bool} {written : List ℕ} {failed : Option ℕ}
      (hdma : host.dmaWrite = some dmaWrite)
      (h : Dump dmaWrite (ColumnInfoReq.decode p).dumpBuffAddr k 0
        (ColumnInfoReq.decode p).dumpBuffSize.toNat written failed) :
      Reaction host k npu hdr p
        (dumpEvents (ColumnInfoReq.decode p).dumpBuffAddr 0 (dumpChunks written failed))
        (some (ColumnInfoResp.encode
          ⟨if failed = none then .success else .aieDmaError, UInt32.ofNat written.sum⟩))

/-- What follows a call of the handler, up to the next search of a ring, if there have been `k`
calls of `dma_write` before. -/
inductive Followed (host : Host) (k : ℕ) (c : ChanIdx) (hdr : MsgHeader) (payload : List UInt8)
    (npu : Npu) : List Event → Prop
  | answered {npu' : Npu} {a : List UInt8} {dump ws : List Event} {sent : Bool}
      (hnow : ¬ hdr.AnsweredLater)
      (h : Reaction host k npu hdr (Memory.ofBytes payload) dump (some a))
      (hws : ∀ e ∈ ws, SendEvent c npu' e) :
      Followed host k c hdr payload npu (dump ++ (ws ++ [.send c hdr.id hdr.opcode a sent]))
  | silent {dump : List Event} (hlater : hdr.AnsweredLater)
      (h : Reaction host k npu hdr (Memory.ofBytes payload) dump none) :
      Followed host k c hdr payload npu dump

/-- What the device does at a time, after the trace `tr`. -/
inductive Block (host : Host) (tr : List Event) : List Event → Prop
  | search {e : Event} (h : e.IsSearch) : Block host tr [e]
  | command {cmd resp : UInt32} {ws : List Event} (h : PspReads cmd resp ws) :
      Block host tr (ws ++ [.pspDone cmd resp])
  | message {c : ChanIdx} {hdr : MsgHeader} {payload : List UInt8} {npu : Npu} {es : List Event}
      (h : Followed host (dmaCalls tr) c hdr payload npu es) :
      Block host tr (.handle c hdr payload npu :: es)

section Outcome

variable (host : Host) (m : Machine)

private theorem mertOutcome_reaction (hdr : MsgHeader) (p : Memory) :
    ∃ dump, (mertOutcome host m hdr p).1.trace = m.trace ++ dump ∧
      Reaction host m.dmaWrites m.npu hdr p dump ((mertOutcome host m hdr p).2.map Prod.snd) := by
  by_cases hop : MsgOpcode.ofCode? hdr.opcode = some .queryColStatus
  · rw [mertOutcome, if_pos hop]
    by_cases hlen : hdr.totalSize < ColumnInfoReq.size
    · rw [if_pos hlen]
      exact ⟨[], (List.append_nil _).symm, .short hop hlen⟩
    rw [if_neg hlen]
    dsimp only
    generalize hreq : ColumnInfoReq.decode p = req
    have hle := UInt32.not_lt.mp hlen
    by_cases hzero : req.dumpBuffAddr = 0 ∨ req.dumpBuffSize = 0
    · rw [queryColStatus, if_pos hzero]
      subst hreq
      exact ⟨[], (List.append_nil _).symm, .nowhere hop hle hzero⟩
    obtain ⟨haddr, hsize⟩ := not_or.mp hzero
    cases hdma : host.dmaWrite with
    | none =>
      rw [queryColStatus, if_neg hzero, hdma]
      subst hreq
      exact ⟨[], (List.append_nil _).symm, .refused hop hle haddr hsize hdma⟩
    | some dmaWrite =>
      obtain ⟨written, failed, hdump, htrace, hresp, _⟩ :=
        queryColStatus_dump host m hdma haddr hsize
      refine ⟨_, htrace, ?_⟩
      rw [hresp]
      subst hreq
      exact .dump hop hle haddr hsize hdma hdump
  · rw [mertOutcome, if_neg hop]
    exact ⟨[], (List.append_nil _).symm, .step hop⟩

private theorem answerWith_followed {c : ChanIdx} {hdr : MsgHeader} {payload : List UInt8}
    {npu : Npu} {dump : List Event} (r : Machine × Option Answer)
    (hlater : r.2 = none ↔ hdr.AnsweredLater)
    (h : Reaction host k npu hdr (Memory.ofBytes payload) dump (r.2.map Prod.snd)) :
    ∃ es, (answerWith host c hdr r).trace = r.1.trace ++ es ∧
      Followed host k c hdr payload npu (dump ++ es) := by
  obtain ⟨m, answer⟩ := r
  cases answer with
  | none =>
    refine ⟨[], (List.append_nil _).symm, ?_⟩
    rw [List.append_nil]
    exact .silent (hlater.mp rfl) h
  | some a =>
    obtain ⟨m₁, ⟨ws, hws, hsend⟩, hlast⟩ := mboxSend_trace host m c hdr.id hdr.opcode a.2
    refine ⟨ws ++ [.send c hdr.id hdr.opcode a.2 (mboxSend host m c hdr.id hdr.opcode a.2).2], ?_,
      .answered (fun hl => by cases hlater.mpr hl) h hsend⟩
    refine hlast.trans ?_
    rw [hws, List.append_assoc]

end Outcome

/-- Between the two states the trace has grown by whole blocks, and every call of `dma_write` has
been counted. -/
def Conversed (host : Host) (m m' : Machine) : Prop :=
  Counted m → Counted m' ∧ ∃ es, m'.trace = m.trace ++ es ∧ Factors (Block host) m.trace es

namespace Conversed

variable {host : Host} {m m' m'' : Machine}

/-- Nothing is seen from outside. -/
theorem of_eq (h : m'.trace = m.trace) (hdma : m'.dmaWrites = m.dmaWrites) :
    Conversed host m m' := by
  intro hcounted
  rw [Counted, h, hdma]
  exact ⟨hcounted, [], (List.append_nil _).symm, .nil⟩

private theorem trans (h : Conversed host m m') (h' : Conversed host m' m'') :
    Conversed host m m'' := by
  intro hcounted
  obtain ⟨hcounted', es, htrace, hes⟩ := h hcounted
  obtain ⟨hcounted'', es', htrace', hes'⟩ := h' hcounted'
  rw [htrace] at hes'
  exact ⟨hcounted'', es ++ es', by rw [htrace', htrace, List.append_assoc], hes.append hes'⟩

/-- Searches are blocks of their own. -/
theorem of_search (h : m.Extends Event.IsSearch m') (hdma : m'.dmaWrites = m.dmaWrites) :
    Conversed host m m' := by
  intro hcounted
  obtain ⟨ws, htrace, hws⟩ := h
  exact ⟨hcounted.of_extends ⟨ws, htrace, hws⟩ (fun e he => he.not_isDmaWrite) hdma, ws, htrace,
    .of_forall fun l e he => .search (hws e he)⟩

end Conversed

/-- A message that is taken off a ring and answered. -/
theorem headOutcome_conversed (host : Host) (m : Machine) (c : ChanIdx) (size : UInt32) :
    Conversed host m (answerWith host c (headHeader m.npu c) (headOutcome host m c size)) := by
  intro hcounted
  obtain ⟨ws, hws, htaken⟩ := takenFrame_trace m c size
  have hdma : (takenFrame m c size).dmaWrites = m.dmaWrites := rfl
  -- The calls before the message are those before its ring was searched.
  have hcalls : m.dmaWrites = dmaCalls (m.trace ++ ws) := by
    rw [dmaCalls_append_of_not fun e he => (hws e he).not_isDmaWrite, hcounted]
  have hcounted' : Counted (takenFrame m c size) := by
    rw [Counted, htaken, ← List.append_assoc, dmaCalls_append_of_not, hdma, hcalls]
    intro e he
    rw [List.mem_singleton.mp he]
    exact id
  obtain ⟨dump, hdump, hreaction⟩ := mertOutcome_reaction host (takenFrame m c size)
    (headHeader m.npu c) (Memory.ofBytes (headPayload m.npu c size))
  obtain ⟨es, htrace, hfollowed⟩ :=
    answerWith_followed host (c := c) (headOutcome host m c size) (mertOutcome_eq_none ..) hreaction
  rw [hdma, hcalls] at hfollowed
  refine ⟨?_, ws ++ (.handle c (headHeader m.npu c) (headPayload m.npu c size)
    (takenFrame m c size).npu :: (dump ++ es)), ?_,
    Factors.append (.of_forall fun l e he => .search (hws e he)) (.single (.message hfollowed))⟩
  · have houtcome : Counted (headOutcome host m c size).1 := hcounted'.mertOutcome ..
    unfold answerWith
    cases (headOutcome host m c size).2 with
    | none => exact houtcome
    | some a => exact houtcome.mboxSend ..
  · rw [htrace, headOutcome, hdump, htaken]
    simp only [List.append_assoc, List.cons_append, List.nil_append]

/-- Every access is a conversation. -/
theorem conversed_kept (host : Host) (ok : ChanIdx → UInt32 → Prop) :
    Kept host ok (Conversed host) where
  refl _ := .of_eq rfl rfl
  trans := .trans
  reg _ := .of_eq rfl rfl
  guest _ := .of_eq rfl rfl
  kick {m} _ := by
    intro hcounted
    obtain ⟨ws, hws, htrace⟩ := pspKick_trace host m
    refine ⟨hcounted.of_extends (P := fun e => ¬ e.IsDmaWrite) ⟨_, htrace, fun e he => ?_⟩
      (fun e he => he) (pspKick_dmaWrites host m), _, htrace, .single (.command hws)⟩
    rcases List.mem_append.mp he with he | he
    · have hread := hws.isDmaRead e he
      cases e <;> first | exact id | exact hread.elim
    · rw [List.mem_singleton.mp he]
      exact id
  pass {m c} hm hactive := by
    have hform := mboxPass_form host hm.consistent hm.headsOk hactive
    generalize (mboxPass host c m).1 = m' at hform ⊢
    cases hform with
    | search htrace _ hdma => exact .of_search htrace hdma
    | message size _ => exact headOutcome_conversed host m c size

/-- The trace of every run is made of blocks. -/
theorem guestRun_blocks (host : Host) (ops : List GuestOp) :
    Factors (Block host) [] (guestRun host ops).trace := by
  have hrun : Conversed host initial (guestRun host ops) :=
    (conversed_kept host fun _ _ => True).guestRun (fun _ => .of_eq rfl rfl)
      fun op _ => op.headsOk_true
  obtain ⟨-, es, htrace, hes⟩ := hrun rfl
  rwa [htrace]

/-! ## Where an event stands in its block -/

section Positions

variable {host : Host} {k : ℕ} {c : ChanIdx} {hdr : MsgHeader} {payload : List UInt8}
  {npu npu' : Npu} {p : Memory} {tr pre post dump ws : List Event} {e : Event}

/-- An event of a dump is the call for one of its chunks. -/
theorem dumpEvents_eq_append {addr : UInt64} {done : ℕ} {chs : List Chunk}
    (h : dumpEvents addr done chs = pre ++ e :: post) :
    ∃ before ch after, chs = before ++ ch :: after ∧ before.length = pre.length ∧
      e = .dmaWrite (addr + UInt64.ofNat (done + (before.map Chunk.len).sum))
        (UInt32.ofNat ch.len) ch.ok := by
  induction chs generalizing done pre with
  | nil => simp [dumpEvents] at h
  | cons ch chs ih =>
    cases pre with
    | nil =>
      obtain ⟨rfl, -⟩ := List.cons.inj h
      exact ⟨[], ch, chs, rfl, rfl, rfl⟩
    | cons e' pre =>
      obtain ⟨-, h⟩ := List.cons.inj h
      obtain ⟨before, ch', after, rfl, hlen, rfl⟩ := ih h
      refine ⟨ch :: before, ch', after, rfl, congrArg (· + 1) hlen, ?_⟩
      rw [List.map_cons, List.sum_cons, Nat.add_assoc]

private theorem Reaction.isDmaWrite {a : Option (List UInt8)}
    (h : Reaction host k npu hdr p dump a) : ∀ e ∈ dump, e.IsDmaWrite := by
  intro e he
  cases h with
  | step | short | nowhere | refused => cases he
  | dump =>
    obtain ⟨_, _, heq⟩ := List.append_of_mem he
    obtain ⟨_, _, _, _, _, rfl⟩ := dumpEvents_eq_append heq
    trivial

private theorem Reaction.eq_step {a : Option (List UInt8)} (h : Reaction host k npu hdr p dump a)
    (hop : MsgOpcode.ofCode? hdr.opcode ≠ some .queryColStatus) :
    dump = [] ∧ a = (mertStep npu hdr p (MsgOpcode.ofCode? hdr.opcode)).2.map Prod.snd := by
  cases h with
  | step => exact ⟨rfl, rfl⟩
  | short hcol | nowhere hcol | refused hcol | dump hcol => exact absurd hcol hop

private theorem Followed.not_handle (h : Followed host k c hdr payload npu post) :
    ∀ e ∈ post, e.isHandle = false := by
  intro e he
  cases h with
  | answered _ h hws =>
    rcases List.mem_append.mp he with he | he
    · have hdma := h.isDmaWrite e he
      cases e <;> first | rfl | exact hdma.elim
    · rcases List.mem_append.mp he with he | he
      · cases hws e he <;> rfl
      · rw [List.mem_singleton.mp he]
        rfl
  | silent _ h =>
    have hdma := h.isDmaWrite e he
    cases e <;> first | rfl | exact hdma.elim

/-- A call of the handler is the first event of its block. -/
theorem Block.of_handle (h : Block host tr (pre ++ .handle c hdr payload npu :: post)) :
    pre = [] ∧ Followed host (dmaCalls tr) c hdr payload npu post := by
  generalize hb : pre ++ .handle c hdr payload npu :: post = b at h
  have hmem : Event.handle c hdr payload npu ∈ b := by simp [← hb]
  cases h with
  | search h =>
    rw [← List.mem_singleton.mp hmem] at h
    exact h.elim
  | command h =>
    rcases List.mem_append.mp hmem with hmem | hmem
    · exact (h.isDmaRead _ hmem).elim
    · simp at hmem
  | message h =>
    cases pre with
    | nil =>
      obtain ⟨hx, rfl⟩ := List.cons.inj hb
      cases hx
      exact ⟨rfl, h⟩
    | cons y pre =>
      obtain ⟨_, heq⟩ := List.cons.inj hb
      have hfalse := h.not_handle (.handle c hdr payload npu) (by simp [← heq])
      cases hfalse

/-- What precedes a call of `dma_write` in its block are the call of the handler and the calls
before. -/
theorem Block.of_dmaWrite {a : UInt64} {len : UInt32} {ok : Bool}
    (h : Block host tr (pre ++ .dmaWrite a len ok :: post)) :
    ∃ c hdr payload npu before after answer, pre = .handle c hdr payload npu :: before ∧
      Reaction host (dmaCalls tr) npu hdr (Memory.ofBytes payload)
        (before ++ .dmaWrite a len ok :: after) answer := by
  generalize hb : pre ++ .dmaWrite a len ok :: post = b at h
  have hmem : Event.dmaWrite a len ok ∈ b := by simp [← hb]
  cases h with
  | search h =>
    rw [← List.mem_singleton.mp hmem] at h
    exact h.elim
  | command h =>
    rcases List.mem_append.mp hmem with hmem | hmem
    · exact (h.isDmaRead _ hmem).elim
    · simp at hmem
  | message h =>
    cases pre with
    | nil => cases (List.cons.inj hb).1
    | cons x pre =>
      obtain ⟨rfl, heq⟩ := List.cons.inj hb
      cases h with
      | answered _ h hws =>
        obtain ⟨after, rfl⟩ := eq_append_of_notMem heq (by
          intro hmem
          rcases List.mem_append.mp hmem with hmem | hmem
          · cases hws _ hmem
          · simp at hmem)
        exact ⟨_, _, _, _, pre, after, _, rfl, h⟩
      | silent _ h =>
        cases heq
        exact ⟨_, _, _, _, pre, post, _, rfl, h⟩

end Positions

/-! ## Replies in order -/

/-- The channel, id and opcode of a message that is answered at once. -/
def Event.asks? : Event → Option (ChanIdx × UInt32 × UInt32)
  | .handle c hdr _ _ => if hdr.AnsweredLater then none else some (c, hdr.id, hdr.opcode)
  | _ => none

/-- The channel, id and opcode of a reply, sent or refused for want of room. -/
def Event.sends? : Event → Option (ChanIdx × UInt32 × UInt32)
  | .send c id opcode _ _ => some (c, id, opcode)
  | _ => none

private theorem Block.reply_eq {host : Host} {tr b : List Event} (h : Block host tr b) :
    b.filterMap Event.asks? = b.filterMap Event.sends? := by
  have hneither {es : List Event} (h : ∀ e ∈ es, e.asks? = none ∧ e.sends? = none) :
      es.filterMap Event.asks? = [] ∧ es.filterMap Event.sends? = [] :=
    ⟨List.filterMap_eq_nil_iff.mpr fun e he => (h e he).1,
      List.filterMap_eq_nil_iff.mpr fun e he => (h e he).2⟩
  have hdump {es : List Event} (h : ∀ e ∈ es, e.IsDmaWrite) := hneither fun e he => by
    have hdma := h e he
    cases e <;> first | exact ⟨rfl, rfl⟩ | exact hdma.elim
  cases h with
  | @search e h => cases e <;> first | rfl | exact h.elim
  | command h =>
    cases h with
    | none => rfl
    | image => rfl
  | @message c hdr payload npu es h =>
    cases h with
    | answered hnow h hws =>
      obtain ⟨hq, hr⟩ := hdump h.isDmaWrite
      obtain ⟨hq', hr'⟩ := hneither fun e he => by
        have hsend := hws e he
        cases hsend <;> exact ⟨rfl, rfl⟩
      have hasks : (Event.handle c hdr payload npu).asks? = some (c, hdr.id, hdr.opcode) :=
        if_neg hnow
      rw [List.filterMap_cons_some hasks, List.filterMap_cons_none rfl, List.filterMap_append,
        List.filterMap_append, List.filterMap_append, List.filterMap_append, hq, hq', hr, hr']
      rfl
    | silent hlater h =>
      obtain ⟨hq, hr⟩ := hdump h.isDmaWrite
      have hasks : (Event.handle c hdr payload npu).asks? = none := if_pos hlater
      rw [List.filterMap_cons_none hasks, List.filterMap_cons_none rfl, hq, hr]

/-- What is seen of the messages of a run. -/
structure Conversation (host : Host) (tr : List Event) : Prop where
  /-- The replies are those to the messages, one for each, in their order, on their channels. -/
  order : tr.filterMap Event.asks? = tr.filterMap Event.sends?
  /-- Each is given at once, with the payload that the message asks for in the state it met, and
  from the host as it answers after the calls of `dma_write` so far. -/
  followed : ∀ {es c hdr payload npu es'}, tr = es ++ .handle c hdr payload npu :: es' →
    ∃ reply rest, es' = reply ++ rest ∧ Followed host (dmaCalls es) c hdr payload npu reply

private theorem conversation_of_blocks {host : Host} {tr : List Event}
    (hblocks : Factors (Block host) [] tr) : Conversation host tr := by
  refine ⟨hblocks.filterMap_eq fun _ b => Block.reply_eq, ?_⟩
  intro es c hdr payload npu es' heq
  rw [heq] at hblocks
  obtain ⟨l, pre, post, rest, hblock, hes, hrest⟩ := hblocks.split
  obtain ⟨rfl, hfollowed⟩ := hblock.of_handle
  rw [List.append_nil] at hes
  exact ⟨post, rest, hrest, hes ▸ hfollowed⟩

/-- Every run is a conversation: each message that is answered at once has its one reply, in the
order of the messages, with what it asks for. -/
theorem guestRun_conversation (host : Host) (ops : List GuestOp) :
    Conversation host (guestRun host ops).trace :=
  conversation_of_blocks (guestRun_blocks host ops)

/-! ## Runtime configuration -/

/-- The value to which a message sets an entry of the runtime configuration. -/
def Event.configures? (type : Fin 64) : Event → Option UInt64
  | .handle _ hdr payload _ =>
    let req := SetRuntimeCfgReq.decode (Memory.ofBytes payload)
    if hdr.opcode = MsgOpcode.setRuntimeConfig.code ∧ ¬ hdr.totalSize < SetRuntimeCfgReq.size ∧
      req.type.toNat = type.val then some req.value else none
  | _ => none

/-- Only one message sets the runtime configuration. -/
theorem Settings.message_rtCfg_of_ne (st : Settings) {hdr : MsgHeader} (p : Memory)
    (h : hdr.opcode ≠ MsgOpcode.setRuntimeConfig.code) : (st.message hdr p).rtCfg = st.rtCfg := by
  rw [Settings.message]
  cases hop : MsgOpcode.ofCode? hdr.opcode with
  | none => rfl
  | some o =>
    cases o
    case setRuntimeConfig => exact absurd (MsgOpcode.ofCode?_eq_some.mp hop).symm h
    case assignMgmtPasid | registerAsyncEventMsg =>
      dsimp only
      split <;> rfl
    all_goals rfl

private theorem Settings.message_rtCfg (st : Settings) (c : ChanIdx) (hdr : MsgHeader)
    (payload : List UInt8) (npu : Npu) (type : Fin 64) :
    (st.message hdr (Memory.ofBytes payload)).rtCfg type =
      ((Event.handle c hdr payload npu).configures? type).getD (st.rtCfg type) := by
  by_cases hset : hdr.opcode = MsgOpcode.setRuntimeConfig.code
  · rw [Event.configures?, Settings.message, MsgOpcode.ofCode?_eq_some.mpr hset.symm]
    dsimp only
    by_cases hlen : hdr.totalSize < SetRuntimeCfgReq.size
    · rw [if_pos hlen, if_neg fun h => h.2.1 hlen]
      rfl
    rw [if_neg hlen, Settings.setRuntimeConfig]
    by_cases htype : (SetRuntimeCfgReq.decode (Memory.ofBytes payload)).type.toNat = type.val
    · have hlt := type.isLt
      rw [dif_pos (by omega), if_pos ⟨hset, hlen, htype⟩]
      simp [htype]
    · rw [if_neg fun h => htype h.2.2]
      split
      · exact Function.update_of_ne (fun h => htype (by rw [h])) ..
      · rfl
  · have hnone : (Event.handle c hdr payload npu).configures? type = none :=
      if_neg fun h => hset h.1
    rw [hnone, st.message_rtCfg_of_ne _ hset]
    rfl

private theorem Settings.apply_rtCfg (st : Settings) (e : Event) (type : Fin 64) :
    (st.apply e).rtCfg type = (e.configures? type).getD (st.rtCfg type) := by
  cases e with
  | handle c hdr payload npu => exact st.message_rtCfg c hdr payload npu type
  | pspDone cmd resp =>
    rw [Settings.apply, Settings.command]
    split
    · rfl
    · split <;> rfl
  | _ => rfl

/-- `GET_RUNTIME_CONFIG` is answered with the value of the last message that has set the entry,
through every restart of the firmware. -/
def RecallsConfig (tr : List Event) : Prop :=
  ∀ {es c hdr payload npu es'} {type : Fin 64}, tr = es ++ .handle c hdr payload npu :: es' →
    hdr.opcode = MsgOpcode.getRuntimeConfig.code → GetRuntimeCfgReq.size ≤ hdr.totalSize →
    (GetRuntimeCfgReq.decode (Memory.ofBytes payload)).type.toNat = type.val →
    ∃ ws sent rest, (∀ e ∈ ws, Event.sends? e = none) ∧ es' = ws ++ .send c hdr.id hdr.opcode
      (GetRuntimeCfgResp.encode ⟨.success, (lastOf (Event.configures? type) es).getD 0⟩) sent ::
        rest

/-- In every run a message that reads the runtime configuration is answered with the value that was
set last. -/
theorem guestRun_recallsConfig (host : Host) (ops : List GuestOp) :
    RecallsConfig (guestRun host ops).trace := by
  intro es c hdr payload npu es' type heq hop hlen htype
  have hmoves : settingsSource.Moves initial (guestRun host ops) :=
    (settings_kept host fun _ _ => True).guestRun (fun _ => .of_eq rfl rfl)
      fun op _ => op.headsOk_true
  have hwit := hmoves.witnessed rfl
  rw [show settingsSource.log (guestRun host ops) = es ++ .handle c hdr payload npu :: es'
    from heq] at hwit
  -- The state the message met, as the events before it say.
  have hcfg : npu.rtCfg type = (lastOf (Event.configures? type) es).getD 0 := by
    have hsettings : npu.settings = es.foldl Settings.apply initial.npu.settings :=
      hwit.recorded_eq rfl
    refine (congrArg (fun st : Settings => st.rtCfg type) hsettings).trans ?_
    have happly (st : Settings) (e : Event) := st.apply_rtCfg e type
    exact @foldl_eq_lastOf _ Settings _ (Event.configures? type) (·.rtCfg type) _ happly es _
  have hconv := conversation_of_blocks (guestRun_blocks host ops)
  obtain ⟨reply, rest, rfl, hfollowed⟩ := hconv.followed heq
  have hget : MsgOpcode.ofCode? hdr.opcode = some .getRuntimeConfig :=
    MsgOpcode.ofCode?_eq_some.mpr hop.symm
  have hanswer : (mertStep npu hdr (Memory.ofBytes payload)
      (MsgOpcode.ofCode? hdr.opcode)).2.map Prod.snd =
        some (GetRuntimeCfgResp.encode ⟨.success, npu.rtCfg type⟩) := by
    have hlt := type.isLt
    rw [hget, mertStep, getRuntimeConfigStep, if_neg (UInt32.not_lt.mpr hlen), runtimeConfigResp,
      dif_pos (by omega)]
    simp [htype]
  have hne : MsgOpcode.ofCode? hdr.opcode ≠ some .queryColStatus := by
    rw [hget]
    decide
  cases hfollowed with
  | @answered npu' a dump ws sent _ h hws =>
    obtain ⟨rfl, ha⟩ := h.eq_step hne
    rw [hanswer, Option.some.injEq, hcfg] at ha
    refine ⟨ws, sent, rest, ?_, ?_⟩
    · intro e he
      cases hws e he <;> rfl
    · rw [ha]
      simp only [List.nil_append, List.append_assoc, List.cons_append]
  | silent _ h =>
    have ha := (h.eq_step hne).2
    rw [hanswer] at ha
    cases ha

/-! ## The memory of the host -/

/-- A call of `dma_write`, the `k`-th, that a message may make: zeros into the buffer it has
named. -/
structure DumpWrite (host : Host) (k : ℕ) (hdr : MsgHeader) (req : ColumnInfoReq) (a : UInt64)
    (len : UInt32) (ok : Bool) : Prop where
  opcode : hdr.opcode = MsgOpcode.queryColStatus.code
  totalSize : ColumnInfoReq.size ≤ hdr.totalSize
  len_le : 1 ≤ len.toNat ∧ len.toNat ≤ 256
  inside : ∃ done, a = req.dumpBuffAddr + UInt64.ofNat done ∧
    done + len.toNat ≤ req.dumpBuffSize.toNat
  zeros : ∃ dmaWrite, host.dmaWrite = some dmaWrite ∧
    dmaWrite k a (List.replicate len.toNat 0) = ok

/-- What the host answers for one of the chunks. -/
theorem Outcomes.eq_append {dmaWrite : ℕ → UInt64 → List UInt8 → Bool} {addr : UInt64}
    {k done : ℕ} {before after : List Chunk} {ch : Chunk}
    (h : Outcomes dmaWrite addr k done (before ++ ch :: after)) :
    dmaWrite (k + before.length) (addr + UInt64.ofNat (done + (before.map Chunk.len).sum))
      (List.replicate ch.len 0) = ch.ok := by
  induction before generalizing k done with
  | nil => exact h.1
  | cons ch' before ih =>
    have hlater := ih h.2
    rw [Nat.add_right_comm, Nat.add_assoc done] at hlater
    exact hlater

private theorem Dump.sum_le {dmaWrite : ℕ → UInt64 → List UInt8 → Bool} {addr : UInt64} {k size : ℕ}
    {written : List ℕ} {failed : Option ℕ} (h : Dump dmaWrite addr k 0 size written failed) :
    ((dumpChunks written failed).map Chunk.len).sum ≤ size := by
  have hsum : ((dumpChunks written failed).map Chunk.len).sum =
      written.sum + failed.toList.sum := by
    simp [dumpChunks, List.map_map, Function.comp_def]
  rw [hsum]
  cases failed with
  | none =>
    have := h.complete rfl
    rw [Option.toList_none, List.sum_nil]
    omega
  | some n =>
    have := h.inside n rfl
    rw [Option.toList_some, List.sum_singleton]
    omega

private theorem Dump.len_mem {dmaWrite : ℕ → UInt64 → List UInt8 → Bool} {addr : UInt64}
    {k size : ℕ} {written : List ℕ} {failed : Option ℕ}
    (h : Dump dmaWrite addr k 0 size written failed) {ch : Chunk}
    (hch : ch ∈ dumpChunks written failed) : 1 ≤ ch.len ∧ ch.len ≤ 256 := by
  refine h.lens ch.len ?_
  rcases List.mem_append.mp hch with hch | hch
  · obtain ⟨n, hn, rfl⟩ := List.mem_map.mp hch
    exact List.mem_append_left _ hn
  · obtain ⟨n, hn, rfl⟩ := List.mem_map.mp hch
    exact List.mem_append_right _ hn

/-- A call in a reaction, with its number. -/
theorem Reaction.dumpWrite {host : Host} {k : ℕ} {npu : Npu} {hdr : MsgHeader} {p : Memory}
    {before after : List Event} {answer : Option (List UInt8)} {a : UInt64} {len : UInt32}
    {ok : Bool}
    (h : Reaction host k npu hdr p (before ++ .dmaWrite a len ok :: after) answer) :
    DumpWrite host (k + before.length) hdr (ColumnInfoReq.decode p) a len ok := by
  generalize hdump : before ++ .dmaWrite a len ok :: after = dump at h
  cases h with
  | step | short | nowhere | refused => simp at hdump
  | dump hop hlen _ _ hdma h =>
    obtain ⟨chs, ch, chs', hchunks, hcount, heq⟩ := dumpEvents_eq_append hdump.symm
    obtain ⟨rfl, rfl, rfl⟩ := Event.dmaWrite.inj heq
    have hbound := @Dump.len_mem _ _ _ _ _ _ h ch (by simp [hchunks])
    have hsum := h.sum_le
    have houtcomes := h.outcomes
    rw [hchunks] at hsum houtcomes
    rw [List.map_append, List.map_cons, List.sum_append, List.sum_cons] at hsum
    have hlen' : (UInt32.ofNat ch.len).toNat = ch.len := by
      rw [UInt32.toNat_ofNat', Nat.mod_eq_of_lt (by omega)]
    refine ⟨(MsgOpcode.ofCode?_eq_some.mp hop).symm, hlen, ?_, ?_, _, hdma, ?_⟩
    · rwa [hlen']
    · exact ⟨_, rfl, by rw [hlen']; omega⟩
    · rw [hlen', ← hcount]
      exact houtcomes.eq_append

/-- What the device does to the memory of the host. -/
structure HostSafe (host : Host) (tr : List Event) : Prop where
  /-- Writes are zeros, into the buffer of the message that is being handled. -/
  writes : ∀ {es a len ok es'}, tr = es ++ .dmaWrite a len ok :: es' →
    ∃ es₀ c hdr payload npu before, es = es₀ ++ .handle c hdr payload npu :: before ∧
      (∀ e ∈ before, e.IsDmaWrite) ∧
      DumpWrite host (dmaCalls es) hdr (ColumnInfoReq.decode (Memory.ofBytes payload)) a len ok
  /-- Reads are short, and belong to a command that validates an image and answers with what
  came of it. -/
  reads : ∀ {es a len ok es'}, tr = es ++ .dmaRead a len ok :: es' →
    len ≤ pspPeekBytes ∧ ∃ cmd rest, (cmd = pspCmdValidate ∨ cmd = pspCmdValidateCert) ∧
      es' = .pspDone cmd (if ok then 0 else pspErrorCancel) :: rest

private theorem Block.of_dmaRead {host : Host} {tr pre post : List Event} {a : UInt64}
    {len : UInt32} {ok : Bool} (h : Block host tr (pre ++ .dmaRead a len ok :: post)) :
    len ≤ pspPeekBytes ∧ ∃ cmd, (cmd = pspCmdValidate ∨ cmd = pspCmdValidateCert) ∧
      post = [.pspDone cmd (if ok then 0 else pspErrorCancel)] := by
  generalize hb : pre ++ .dmaRead a len ok :: post = b at h
  have hmem : Event.dmaRead a len ok ∈ b := by simp [← hb]
  cases h with
  | search h =>
    rw [← List.mem_singleton.mp hmem] at h
    exact h.elim
  | message h =>
    rcases List.mem_cons.mp hmem with hmem | hmem
    · cases hmem
    cases h with
    | answered _ h hws =>
      rcases List.mem_append.mp hmem with hmem | hmem
      · exact (h.isDmaWrite _ hmem).elim
      · rcases List.mem_append.mp hmem with hmem | hmem
        · cases hws _ hmem
        · simp at hmem
    | silent _ h => exact (h.isDmaWrite _ hmem).elim
  | command h =>
    cases h with
    | none => simp at hmem
    | image paddr len' ok' hcmd hlen hresp =>
      cases pre with
      | nil =>
        obtain ⟨hx, rfl⟩ := List.cons.inj hb
        cases hx
        rw [hresp]
        exact ⟨hlen, _, hcmd, rfl⟩
      | cons x pre =>
        obtain ⟨_, heq⟩ := List.cons.inj hb
        have hmem' : Event.dmaRead a len ok ∈ pre.append (.dmaRead a len ok :: post) := by simp
        rw [heq] at hmem'
        simp at hmem'

/-- In every run each access to the memory of the host belongs to a message or command that asks for
it, and keeps to the buffer that it names. -/
theorem guestRun_hostSafe (host : Host) (ops : List GuestOp) :
    HostSafe host (guestRun host ops).trace := by
  have hblocks := guestRun_blocks host ops
  constructor
  · intro es a len ok es' heq
    rw [heq] at hblocks
    obtain ⟨es₀, pre, post, rest, hblock, rfl, _⟩ := hblocks.split
    obtain ⟨c, hdr, payload, npu, before, after, answer, rfl, h⟩ := hblock.of_dmaWrite
    have hbefore : ∀ e ∈ before, e.IsDmaWrite := fun e he => h.isDmaWrite e (by simp [he])
    have hcalls : dmaCalls (es₀ ++ .handle c hdr payload npu :: before) =
        dmaCalls es₀ + before.length := by
      have hall : before.countP (fun e => e.IsDmaWrite) = before.length :=
        List.countP_eq_length.mpr fun e he => by simpa using hbefore e he
      rw [dmaCalls, List.countP_append, List.countP_cons, hall]
      rfl
    refine ⟨es₀, c, hdr, payload, npu, before, rfl, hbefore, ?_⟩
    rw [hcalls]
    exact h.dumpWrite
  · intro es a len ok es' heq
    rw [heq] at hblocks
    obtain ⟨_, pre, post, rest, hblock, _, rfl⟩ := hblocks.split
    obtain ⟨hlen, cmd, hcmd, rfl⟩ := hblock.of_dmaRead
    exact ⟨hlen, cmd, rest, hcmd, rfl⟩

end Xdna
