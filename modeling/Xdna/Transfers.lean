import Xdna.DriverSemantics

/-!
# Transfers of any width

The guest moves a block with one call or with several, wide or narrow. However it is cut up, what
arrives and what the device does about it are the same, as long as the registers are accessed in
whole words and no block goes over the end of the SRAM.
-/

namespace Xdna

open ByteMemory

/-! ## Cutting a block in two -/

private theorem wordCount_add {n : ℕ} (h : 4 ∣ n) (k : ℕ) :
    wordCount (n + k) = n / 4 + wordCount k := by
  unfold wordCount
  omega

private theorem wordOff_add (off : UInt32) {n : ℕ} (h : 4 ∣ n) (i : ℕ) :
    off + UInt32.ofNat (4 * (n / 4 + i)) = off + UInt32.ofNat n + UInt32.ofNat (4 * i) := by
  rw [Nat.mul_add, Nat.mul_div_cancel' h, UInt32.ofNat_add, UInt32.add_assoc]

private theorem offset_toNat {off : UInt32} {n k : ℕ} (h : off.toNat + (n + k) ≤ barSramSize) :
    (off + UInt32.ofNat n).toNat = off.toNat + n := by
  have hsize : barSramSize < 2 ^ 32 := by decide
  rw [UInt32.toNat_add, UInt32.toNat_ofNat']
  omega

/-- The first part may be cut off after a word; in the SRAM, after any byte. -/
def CutsAt (bar : Int) (n : ℕ) : Prop := bar ≠ barSram → 4 ∣ n

/-- A block inside the BAR, if this is the SRAM BAR. -/
def InBar (bar : Int) (off : UInt32) (len : ℕ) : Prop :=
  bar = barSram → off.toNat + len ≤ barSramSize

private theorem mmioReadBuf_add (npu : Npu) {bar : Int} {off : UInt32} {n k : ℕ}
    (hcut : CutsAt bar n) (hin : InBar bar off (n + k)) :
    mmioReadBuf npu bar off (n + k) =
      mmioReadBuf npu bar off n ++ mmioReadBuf npu bar (off + UInt32.ofNat n) k := by
  by_cases hbar : bar = barSram
  · have hsram := hin hbar
    have hoff := offset_toNat hsram
    subst hbar
    rw [mmioReadBuf_sram hsram, mmioReadBuf_sram (by omega), mmioReadBuf_sram (by omega), hoff,
      Memory.read_add]
  · have hdvd := hcut hbar
    simp only [mmioReadBuf, if_neg hbar, wordCount_add hdvd, List.range_add, List.flatMap_append,
      List.flatMap_map]
    congr 1
    · have hcount : wordCount n = n / 4 := by
        unfold wordCount
        omega
      rw [hcount]
      refine List.flatMap_congr fun i hi => ?_
      have hi := List.mem_range.mp hi
      rw [List.take_of_length_le (by rw [le32_length]; omega),
        List.take_of_length_le (by rw [le32_length]; omega)]
    · refine List.flatMap_congr fun i _ => ?_
      rw [wordOff_add off hdvd, show n + k - 4 * (n / 4 + i) = k - 4 * i by omega]

private theorem writeWords_append {off : UInt32} {xs ys : List UInt8} (h : 4 ∣ xs.length) :
    writeWords off (xs ++ ys) =
      writeWords off xs ++ writeWords (off + UInt32.ofNat xs.length) ys := by
  have hcount : wordCount xs.length = xs.length / 4 := by
    unfold wordCount
    omega
  unfold writeWords
  rw [List.length_append, wordCount_add h, List.range_add, List.map_append, List.map_map, hcount]
  congr 1
  · refine List.map_congr_left fun i hi => ?_
    have hi := List.mem_range.mp hi
    rw [List.drop_append_of_le_length (by omega),
      List.take_append_of_le_length (by rw [List.length_drop]; omega)]
  · refine List.map_congr_left fun i _ => ?_
    rw [Function.comp_apply, wordOff_add off h, List.drop_append,
      List.drop_eq_nil_of_le (by omega), List.nil_append,
      show 4 * (xs.length / 4 + i) - xs.length = 4 * i by omega]

private theorem mmioWriteBuf_append (host : Host) (m : Machine) {bar : Int} {off : UInt32}
    {xs ys : List UInt8} (hcut : CutsAt bar xs.length) (hin : InBar bar off (xs ++ ys).length) :
    mmioWriteBuf host m bar off (xs ++ ys) =
      mmioWriteBuf host (mmioWriteBuf host m bar off xs) bar (off + UInt32.ofNat xs.length) ys := by
  by_cases hbar : bar = barSram
  · have hsram := hin hbar
    have hlen : (xs ++ ys).length = xs.length + ys.length := List.length_append
    have hoff := offset_toNat (hlen ▸ hsram)
    subst hbar
    rw [mmioWriteBuf_sram hsram, mmioWriteBuf_sram (by omega), mmioWriteBuf_sram (by omega), hoff,
      Memory.write_append]
  · rw [mmioWriteBuf, if_neg hbar, writeWords_append (hcut hbar), List.foldl_append, mmioWriteBuf,
      if_neg hbar, mmioWriteBuf, if_neg hbar]

/-! ## Runs that carry out transfers -/

/-- What the guest wants: a block of bytes moved. -/
inductive Transfer where
  | read (bar : Int) (off : UInt32) (len : ℕ)
  | write (bar : Int) (off : UInt32) (bytes : List UInt8)

/-- The transfer as one call. -/
def Transfer.block : Transfer → GuestOp
  | read bar off len => .readBuf bar off len
  | write bar off bytes => .writeBuf bar off bytes

/-- The transfer lies in its BAR. -/
def Transfer.InBar : Transfer → Prop
  | read bar off len => Xdna.InBar bar off len
  | write bar off bytes => Xdna.InBar bar off bytes.length

instance (bar : Int) (off : UInt32) (len : ℕ) : Decidable (Xdna.InBar bar off len) :=
  inferInstanceAs (Decidable (bar = barSram → off.toNat + len ≤ barSramSize))

instance : DecidablePred Transfer.InBar := fun t =>
  match t with
  | .read bar off len => inferInstanceAs (Decidable (Xdna.InBar bar off len))
  | .write bar off bytes => inferInstanceAs (Decidable (Xdna.InBar bar off bytes.length))

/-- The accesses carry out the transfer: one call for the block, one access of up to 8 bytes, or
accesses for a first part and then for the rest. -/
inductive CarryOut : Transfer → List GuestOp → Prop
  | block (t : Transfer) : CarryOut t [t.block]
  | read (bar : Int) (off : UInt32) {len : ℕ} (h : len ≤ 8) :
      CarryOut (.read bar off len) [.read bar off len]
  | write (bar : Int) (off : UInt32) {bytes : List UInt8} (h : bytes.length ≤ 8) :
      CarryOut (.write bar off bytes)
        [.write bar off (UInt64.ofNat (leValue bytes)) bytes.length]
  | reads {bar : Int} {off : UInt32} {n k : ℕ} {ops ops' : List GuestOp} (hcut : CutsAt bar n)
      (h : CarryOut (.read bar off n) ops)
      (h' : CarryOut (.read bar (off + UInt32.ofNat n) k) ops') :
      CarryOut (.read bar off (n + k)) (ops ++ ops')
  | writes {bar : Int} {off : UInt32} {xs ys : List UInt8} {ops ops' : List GuestOp}
      (hcut : CutsAt bar xs.length) (h : CarryOut (.write bar off xs) ops)
      (h' : CarryOut (.write bar (off + UInt32.ofNat xs.length) ys) ops') :
      CarryOut (.write bar off (xs ++ ys)) (ops ++ ops')

/-- The bytes that an access returns. -/
def GuestOp.bytesRead (npu : Npu) : GuestOp → List UInt8
  | .read bar off len => (le64 (mmioRead npu bar off len)).take (min len 8)
  | .readBuf bar off len => mmioReadBuf npu bar off len
  | .write .. => []
  | .writeBuf .. => []

/-- The bytes that a run returns. -/
def bytesRead (host : Host) : Machine → List GuestOp → List UInt8
  | _, [] => []
  | m, op :: ops => op.bytesRead m.npu ++ bytesRead host (guestStep host m op) ops

private theorem bytesRead_append (host : Host) (m : Machine) (ops ops' : List GuestOp) :
    bytesRead host m (ops ++ ops') =
      bytesRead host m ops ++ bytesRead host (ops.foldl (guestStep host) m) ops' := by
  induction ops generalizing m with
  | nil => rfl
  | cons op ops ih => rw [List.cons_append, bytesRead, bytesRead, ih, List.foldl_cons,
      List.append_assoc]

private theorem take_le64_leValue {bs : List UInt8} {n : ℕ} (hlen : bs.length = n) (h : n ≤ 8) :
    (le64 (UInt64.ofNat (leValue bs))).take n = bs := by
  have hlt := leValue_lt bs
  have hpow : (256 : ℕ) ^ bs.length ≤ 256 ^ 8 := Nat.pow_le_pow_right (by decide) (by omega)
  rw [le64, UInt64.toNat_ofNat', Nat.mod_eq_of_lt (by omega), take_leBytes h, ← hlen,
    leBytes_leValue]

private theorem mmioReadBuf_length (npu : Npu) (bar : Int) (off : UInt32) (len : ℕ) :
    (mmioReadBuf npu bar off len).length = len := by
  unfold mmioReadBuf
  split
  · split <;> simp
  · have hword (n : ℕ) (hn : 4 * n < len + 4) : ((List.range n).flatMap fun i =>
        (le32 (regRead npu bar (off + UInt32.ofNat (4 * i)))).take (len - 4 * i)).length =
        min (4 * n) len := by
      induction n with
      | zero => simp
      | succ n ih =>
        rw [List.range_succ, List.flatMap_append, List.length_append, ih (by omega)]
        simp only [List.flatMap_cons, List.flatMap_nil, List.append_nil, List.length_take,
          le32_length]
        omega
    have hcount : 4 * wordCount len < len + 4 ∧ len ≤ 4 * wordCount len := by
      unfold wordCount
      omega
    rw [hword _ hcount.1]
    omega

private theorem GuestOp.bytesRead_read (npu : Npu) (bar : Int) (off : UInt32) {len : ℕ}
    (h : len ≤ 8) : (GuestOp.read bar off len).bytesRead npu = mmioReadBuf npu bar off len := by
  rw [bytesRead, mmioRead, Nat.min_eq_left h, take_le64_leValue (mmioReadBuf_length ..) h]

private theorem guestStep_write (host : Host) (m : Machine) (bar : Int) (off : UInt32)
    {bytes : List UInt8} (h : bytes.length ≤ 8) :
    guestStep host m (.write bar off (UInt64.ofNat (leValue bytes)) bytes.length) =
      mmioWriteBuf host m bar off bytes := by
  rw [guestStep, mmioWrite, Nat.min_eq_left h, take_le64_leValue rfl h]

private theorem InBar.parts {bar : Int} {off : UInt32} {n k : ℕ} (h : InBar bar off (n + k)) :
    InBar bar off n ∧ InBar bar (off + UInt32.ofNat n) k := by
  constructor
  · intro hbar
    have := h hbar
    omega
  · intro hbar
    rw [offset_toNat (h hbar)]
    have := h hbar
    omega

/-- However the transfer is carried out, it does what one call for the block does. -/
theorem CarryOut.spec {host : Host} {t : Transfer} {ops : List GuestOp} (h : CarryOut t ops)
    (hin : t.InBar) (m : Machine) :
    ops.foldl (guestStep host) m = guestStep host m t.block ∧
      bytesRead host m ops = t.block.bytesRead m.npu := by
  induction h generalizing m with
  | block t => exact ⟨rfl, List.append_nil _⟩
  | read bar off h =>
    refine ⟨rfl, ?_⟩
    rw [bytesRead, bytesRead, List.append_nil, GuestOp.bytesRead_read _ _ _ h]
    rfl
  | write bar off h => exact ⟨guestStep_write host m bar off h, rfl⟩
  | @reads bar off n k ops ops' hcut _ _ ih ih' =>
    obtain ⟨hin₁, hin₂⟩ := InBar.parts hin
    obtain ⟨hrun, hread⟩ := ih hin₁ m
    obtain ⟨hrun', hread'⟩ := ih' hin₂ m
    have hsame : ops.foldl (guestStep host) m = m := hrun
    rw [List.foldl_append, bytesRead_append, hsame, hrun', hread, hread']
    exact ⟨rfl, (mmioReadBuf_add m.npu hcut hin).symm⟩
  | @writes bar off xs ys ops ops' hcut _ _ ih ih' =>
    have hlen : (xs ++ ys).length = xs.length + ys.length := List.length_append
    obtain ⟨hin₁, hin₂⟩ := InBar.parts (hlen ▸ hin : InBar bar off (xs.length + ys.length))
    obtain ⟨hrun, hread⟩ := ih hin₁ m
    obtain ⟨hrun', hread'⟩ := ih' hin₂ (guestStep host m (.writeBuf bar off xs))
    rw [List.foldl_append, bytesRead_append, hread]
    have hrun : ops.foldl (guestStep host) m = guestStep host m (.writeBuf bar off xs) := hrun
    rw [hrun, hrun', hread']
    exact ⟨(mmioWriteBuf_append host m hcut hin).symm, rfl⟩

/-- The transfers of a run may be cut up in any way, each in its own: the run ends in the same
machine, with the same trace, and has returned the same bytes. -/
theorem guestRun_carryOut (host : Host) {ts : List Transfer} {opss : List (List GuestOp)}
    (hin : ∀ t ∈ ts, t.InBar) (h : List.Forall₂ CarryOut ts opss) :
    guestRun host opss.flatten = guestRun host (ts.map Transfer.block) ∧
      bytesRead host initial opss.flatten = bytesRead host initial (ts.map Transfer.block) := by
  unfold guestRun
  generalize initial = m
  induction h generalizing m with
  | nil => exact ⟨rfl, rfl⟩
  | @cons t ops ts opss hop hops ih =>
    obtain ⟨hrun, hread⟩ := @CarryOut.spec host _ _ hop (hin t (by simp)) m
    obtain ⟨hrun', hread'⟩ := ih (fun t ht => hin t (by simp [ht])) (guestStep host m t.block)
    rw [List.flatten_cons, List.foldl_append, bytesRead_append, hrun, hread, hrun', hread']
    exact ⟨rfl, rfl⟩

/-- Five bytes for the SRAM, and two registers written and read back. -/
def wideTransfers : List Transfer :=
  [.write barSram 0x100 ([1, 2, 3] ++ [4, 5]), .write barReg regScratch3 (le32 6 ++ le32 7),
    .read barReg regScratch3 (4 + 4)]

/-- The same in parts. -/
def narrowOps : List (List GuestOp) :=
  [[.write barSram 0x100 (UInt64.ofNat (leValue [1, 2, 3])) 3] ++
      [.writeBuf barSram (0x100 + UInt32.ofNat 3) [4, 5]],
    [.write barReg regScratch3 (UInt64.ofNat (leValue (le32 6))) 4] ++
      [.write barReg (regScratch3 + UInt32.ofNat 4) (UInt64.ofNat (leValue (le32 7))) 4],
    [.read barReg regScratch3 4] ++ [.read barReg (regScratch3 + UInt32.ofNat 4) 4]]

/-- One transfer in words of four bytes, and in single bytes. -/
theorem guestRun_carryOut_narrow :
    guestRun .accepting narrowOps.flatten = guestRun .accepting (wideTransfers.map Transfer.block) ∧
      bytesRead .accepting initial narrowOps.flatten =
        bytesRead .accepting initial (wideTransfers.map Transfer.block) := by
  refine guestRun_carryOut .accepting (by decide) (.cons ?_ (.cons ?_ (.cons ?_ .nil)))
  · exact .writes (fun h => absurd rfl h) (.write _ _ (by decide)) (.block (.write ..))
  · exact .writes (fun _ => by decide) (.write _ _ (by decide)) (.write _ _ (by decide))
  · exact .reads (fun _ => by decide) (.read _ _ (by decide)) (.read _ _ (by decide))

end Xdna
