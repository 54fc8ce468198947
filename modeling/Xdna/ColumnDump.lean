import Xdna.MertSemantics
import Xdna.SendSemantics
import Xdna.ReplyRing
import Mathlib.Algebra.BigOperators.Group.List.Basic

/-!
# The column status dump

QUERY_COL_STATUS writes zeros to the host in chunks. Whatever the callback answers, the chunks
that were written lie one behind the other from the start of the buffer, at most one more
has failed, and the reply counts exactly the bytes that were written.
-/

namespace Xdna

open ByteMemory

/-- A call of `dma_write` for `len` bytes. -/
structure Chunk where
  len : ℕ
  ok : Bool

/-- The calls of a dump: chunks that were written, and possibly one that was not. -/
def dumpChunks (written : List ℕ) (failed : Option ℕ) : List Chunk :=
  written.map (⟨·, true⟩) ++ failed.toList.map (⟨·, false⟩)

/-- The calls as events, with `done` bytes written before; addresses are modulo `2^64`. -/
def dumpEvents (addr : UInt64) : ℕ → List Chunk → List Event
  | _, [] => []
  | done, ch :: chs =>
    .dmaWrite (addr + UInt64.ofNat done) (UInt32.ofNat ch.len) ch.ok ::
      dumpEvents addr (done + ch.len) chs

/-- Each call, from the `k`-th on, hands over zeros and has the outcome that the host gave. -/
def Outcomes (dmaWrite : ℕ → UInt64 → List UInt8 → Bool) (addr : UInt64) :
    ℕ → ℕ → List Chunk → Prop
  | _, _, [] => True
  | k, done, ch :: chs =>
    dmaWrite k (addr + UInt64.ofNat done) (List.replicate ch.len 0) = ch.ok ∧
      Outcomes dmaWrite addr (k + 1) (done + ch.len) chs

/-- A dump of the bytes from `done` up to `size`. -/
structure Dump (dmaWrite : ℕ → UInt64 → List UInt8 → Bool) (addr : UInt64) (k done size : ℕ)
    (written : List ℕ) (failed : Option ℕ) : Prop where
  lens : ∀ n ∈ written ++ failed.toList, 1 ≤ n ∧ n ≤ 256
  outcomes : Outcomes dmaWrite addr k done (dumpChunks written failed)
  complete : failed = none → done + written.sum = size
  inside : ∀ n, failed = some n → done + written.sum + n ≤ size

variable {dmaWrite : ℕ → UInt64 → List UInt8 → Bool} {addr : UInt64} {k done size n : ℕ}
  {written : List ℕ} {failed : Option ℕ}

/-- One more chunk at the front. -/
theorem Dump.cons (h : Dump dmaWrite addr (k + 1) (done + n) size written failed)
    (hn : 1 ≤ n ∧ n ≤ 256)
    (hok : dmaWrite k (addr + UInt64.ofNat done) (List.replicate n 0) = true) :
    Dump dmaWrite addr k done size (n :: written) failed := by
  obtain ⟨hlens, houtcomes, hcomplete, hinside⟩ := h
  refine ⟨?_, ⟨hok, houtcomes⟩, ?_, ?_⟩
  · intro n' hn'
    rcases List.mem_cons.mp hn' with rfl | hn'
    · exact hn
    · exact hlens n' hn'
  · intro hnone
    have := hcomplete hnone
    rw [List.sum_cons]
    omega
  · intro n' hsome
    have := hinside n' hsome
    rw [List.sum_cons]
    omega

/-- The dump is over: nothing was left. -/
theorem Dump.nil : Dump dmaWrite addr k size size [] none := by
  refine ⟨?_, trivial, fun _ => rfl, ?_⟩
  · intro n hn
    cases hn
  · intro n hn
    cases hn

/-- The dump is over: the next chunk failed. -/
theorem Dump.fail (hn : 1 ≤ n ∧ n ≤ 256) (hin : done + n ≤ size)
    (hno : dmaWrite k (addr + UInt64.ofNat done) (List.replicate n 0) = false) :
    Dump dmaWrite addr k done size [] (some n) := by
  refine ⟨?_, ⟨hno, trivial⟩, ?_, ?_⟩
  · intro n' hn'
    rw [List.mem_singleton.mp hn']
    exact hn
  · intro hnone
    cases hnone
  · intro n' hsome
    rw [← Option.some.inj hsome]
    exact hin

/-- A 32-bit number as one of 64 bits. -/
theorem toUInt64_eq (v : UInt32) : v.toUInt64 = UInt64.ofNat v.toNat := by
  apply UInt64.toNat_inj.mp
  have := v.toNat_lt
  rw [UInt32.toNat_toUInt64, UInt64.toNat_ofNat', Nat.mod_eq_of_lt (by omega)]

/-- The size of the next chunk: the rest of the buffer, but not more than 256 bytes. -/
theorem chunk_toNat {size done : UInt32} (hlt : done < size) :
    (if 256 < size - done then 256 else size - done : UInt32).toNat =
      min 256 (size.toNat - done.toNat) := by
  rw [UInt32.lt_iff_toNat_lt] at hlt
  have hsub := UInt32.toNat_sub_of_le size done (UInt32.le_iff_toNat_le.mpr hlt.le)
  split
  · rename_i hbig
    rw [UInt32.lt_iff_toNat_lt, hsub] at hbig
    simp only [UInt32.reduceToNat] at hbig ⊢
    omega
  · rename_i hsmall
    rw [UInt32.lt_iff_toNat_lt, hsub] at hsmall
    simp only [UInt32.reduceToNat] at hsmall
    omega

/-- The loop makes a dump, and returns the number of bytes written and whether a call failed. -/
theorem colStatusLoop_dump (dmaWrite : ℕ → UInt64 → List UInt8 → Bool) (addr : UInt64)
    (size : UInt32) (m : Machine) (done : UInt32) (hdone : done ≤ size) :
    ∃ written failed, Dump dmaWrite addr m.dmaWrites done.toNat size.toNat written failed ∧
      (colStatusLoop dmaWrite addr size m done).1.trace =
        m.trace ++ dumpEvents addr done.toNat (dumpChunks written failed) ∧
      (colStatusLoop dmaWrite addr size m done).2.1.toNat = done.toNat + written.sum ∧
      (colStatusLoop dmaWrite addr size m done).2.2 = failed.isSome := by
  fun_induction colStatusLoop with
  | case1 m done hlt n ok m₁ hok ih =>
    have hn : n.toNat = min 256 (size.toNat - done.toNat) := chunk_toNat hlt
    rw [UInt32.lt_iff_toNat_lt] at hlt
    have hsize := size.toNat_lt
    have hnext : (done + n).toNat = done.toNat + n.toNat := by
      rw [UInt32.toNat_add, Nat.mod_eq_of_lt (by omega)]
    obtain ⟨written, failed, hdump, htrace, hcount, hfailed⟩ :=
      ih (UInt32.le_iff_toNat_le.mpr (by omega))
    rw [hnext] at hdump htrace hcount
    refine ⟨n.toNat :: written, failed, hdump.cons (by omega) ?_, ?_, ?_, hfailed⟩
    · rw [← toUInt64_eq]
      exact hok
    · rw [htrace, Machine.emit_trace, List.append_assoc, toUInt64_eq, hok]
      simp [dumpChunks, dumpEvents]
    · rw [hcount, List.sum_cons]
      omega
  | case2 m done hlt n ok m₁ hok =>
    have hn : n.toNat = min 256 (size.toNat - done.toNat) := chunk_toNat hlt
    rw [UInt32.lt_iff_toNat_lt] at hlt
    have hno : ok = false := by simpa using hok
    refine ⟨[], some n.toNat, .fail (by omega) (by omega) ?_, ?_, by simp, rfl⟩
    · rw [← toUInt64_eq]
      exact hno
    · rw [Machine.emit_trace, toUInt64_eq, hno]
      simp [dumpChunks, dumpEvents]
  | case3 m done hnot =>
    have heq : done.toNat = size.toNat := by
      rw [UInt32.lt_iff_toNat_lt] at hnot
      rw [UInt32.le_iff_toNat_le] at hdone
      omega
    rw [heq]
    exact ⟨[], none, .nil, by simp [dumpChunks, dumpEvents], by simp, rfl⟩

/-! ## The request -/

/-- What is seen of a dump of `size` bytes from `addr`, answered on channel `c` with `id`. -/
structure DumpReported (c : ChanIdx) (id : UInt32) (addr : UInt64) (size : UInt32)
    (written : List ℕ) (failed : Option ℕ) (events : List Event) : Prop where
  /-- The counter has not wrapped. -/
  le : written.sum ≤ size.toNat
  trace : ∃ ws status sent,
    events = dumpEvents addr 0 (dumpChunks written failed) ++ ws ++
      [.send c id MsgOpcode.queryColStatus.code
        (ColumnInfoResp.encode ⟨status, UInt32.ofNat written.sum⟩) sent] ∧
    (∀ e ∈ ws, ¬ e.IsDmaWrite) ∧
    status = if failed = none then .success else .aieDmaError

/-- A column dump with a buffer, on a host that takes DMA writes: its writes, its status and the
number of bytes it reports. -/
theorem queryColStatus_dump (host : Host) (m : Machine) {req : ColumnInfoReq}
    (hdma : host.dmaWrite = some dmaWrite) (haddr : req.dumpBuffAddr ≠ 0)
    (hsize : req.dumpBuffSize ≠ 0) :
    ∃ written failed,
      Dump dmaWrite req.dumpBuffAddr m.dmaWrites 0 req.dumpBuffSize.toNat written failed ∧
      (queryColStatus host m req).1.trace =
        m.trace ++ dumpEvents req.dumpBuffAddr 0 (dumpChunks written failed) ∧
      (queryColStatus host m req).2 =
        ⟨if failed = none then .success else .aieDmaError, UInt32.ofNat written.sum⟩ ∧
      written.sum ≤ req.dumpBuffSize.toNat := by
  obtain ⟨written, failed, hdump, htrace, hcount, hfailed⟩ :=
    colStatusLoop_dump dmaWrite req.dumpBuffAddr req.dumpBuffSize m 0 UInt32.zero_le
  rw [show (0 : UInt32).toNat = 0 from rfl] at hdump htrace hcount
  rw [Nat.zero_add] at hcount
  refine ⟨written, failed, hdump, ?_, ?_, ?_⟩
  · rw [queryColStatus, if_neg (not_or.mpr ⟨haddr, hsize⟩), hdma]
    exact htrace
  · have hsum : (colStatusLoop dmaWrite req.dumpBuffAddr req.dumpBuffSize m 0).2.1 =
        UInt32.ofNat written.sum := by
      rw [← hcount, UInt32.ofNat_toNat]
    rw [queryColStatus, if_neg (not_or.mpr ⟨haddr, hsize⟩), hdma]
    dsimp only
    rw [hsum, hfailed]
    rw [hsum] at hcount
    congr 1
    cases failed with
    | none =>
      have hall := hdump.complete rfl
      rw [Nat.zero_add] at hall
      rw [if_pos rfl, if_pos]
      apply UInt32.toNat_inj.mp
      rw [hcount, hall]
    | some n =>
      have hpos := (hdump.lens n (by simp)).1
      have hin := hdump.inside n rfl
      rw [if_neg]
      · simp
      · intro heq
        rw [heq] at hcount
        omega
  · cases failed with
    | none =>
      have := hdump.complete rfl
      omega
    | some n =>
      have := hdump.inside n rfl
      omega

/-- A complete request for a dump with nonzero address and size: the calls of `dma_write` are a
dump of zeros, cut off at the first failure, and the reply gives the number of bytes written and
success exactly if no call failed. -/
theorem mertHandle_dump {host : Host} {m : Machine} (c : ChanIdx) {hdr : MsgHeader}
    {payload : Memory} (req : ColumnInfoReq) (hdma : host.dmaWrite = some dmaWrite)
    (halive : m.npu.fwAlive = true) (hop : hdr.opcode = MsgOpcode.queryColStatus.code)
    (hlen : ColumnInfoReq.size ≤ hdr.totalSize) (hreq : ColumnInfoReq.decode payload = req)
    (haddr : req.dumpBuffAddr ≠ 0) (hsize : req.dumpBuffSize ≠ 0) :
    ∃ written failed events,
      Dump dmaWrite req.dumpBuffAddr m.dmaWrites 0 req.dumpBuffSize.toNat written failed ∧
      (mertHandle host m c hdr payload).trace = m.trace ++ events ∧
      DumpReported c hdr.id req.dumpBuffAddr req.dumpBuffSize written failed events := by
  obtain ⟨written, failed, hdump, htrace, hresp, hle⟩ :=
    queryColStatus_dump host m hdma haddr hsize
  have hof : MsgOpcode.ofCode? hdr.opcode = some .queryColStatus :=
    MsgOpcode.ofCode?_eq_some.mpr hop.symm
  have hanswer : mertHandle host m c hdr payload =
      (mboxSend host (queryColStatus host m req).1 c hdr.id hdr.opcode
        (queryColStatus host m req).2.encode).1 := by
    rw [mertHandle_eq c hdr payload halive, mertOutcome, hof, if_pos rfl,
      if_neg (UInt32.not_lt.mpr hlen), hreq]
    simp only [answerWith, mertReply]
  obtain ⟨m₁, ⟨ws, hws, hsend⟩, hlast⟩ := mboxSend_trace host (queryColStatus host m req).1 c
    hdr.id hdr.opcode (queryColStatus host m req).2.encode
  generalize (mboxSend host (queryColStatus host m req).1 c hdr.id hdr.opcode
    (queryColStatus host m req).2.encode).2 = sent at hlast
  rw [← hanswer, hws, htrace, hresp, hop, List.append_assoc, List.append_assoc] at hlast
  refine ⟨written, failed, _, hdump, hlast, hle, ws, _, sent, (List.append_assoc ..).symm, ?_, rfl⟩
  intro e he hdmaWrite
  cases hsend e he <;> exact hdmaWrite

/-- A dump of 300 bytes: a full chunk and a short one. -/
theorem mertHandle_dump_300 :
    ∃ written failed events,
      Dump (fun _ _ _ => true) 0x1000 booted.dmaWrites 0 (300 : UInt32).toNat written failed ∧
      (mertHandle .accepting booted 0 ⟨20, 0, 7, 0xD⟩
        (Memory.ofBytes (le64 0x1000 ++ le32 300 ++ le32 5 ++ le32 0x1F))).trace =
          booted.trace ++ events ∧
      DumpReported 0 7 0x1000 300 written failed events := by
  have hreq : ColumnInfoReq.decode
      (Memory.ofBytes (le64 0x1000 ++ le32 300 ++ le32 5 ++ le32 0x1F)) =
        ⟨0x1000, 300, 5, 0x1F⟩ := rfl
  have hlen : ColumnInfoReq.size ≤ (⟨20, 0, 7, 0xD⟩ : MsgHeader).totalSize := by decide
  exact mertHandle_dump 0 _ rfl (fwBoot_fwAlive npuReset) rfl hlen hreq (by decide) (by decide)

end Xdna
