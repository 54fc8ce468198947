import Mathlib.Data.List.Basic
import Mathlib.Data.Nat.Notation
import Mathlib.Tactic.Ring

/-!
# Byte memories and little-endian words

A memory is a total function from offsets to bytes. A fixed-width integer
occupies consecutive bytes, least significant byte first. Blocks are copied in
and out as lists of bytes, so that a frame lemma is a fact about intervals of
offsets.
-/

namespace ByteMemory

/-- The `n` low bytes of a natural number, least significant first. -/
def leBytes : ℕ → ℕ → List UInt8
  | 0, _ => []
  | n + 1, v => UInt8.ofNat v :: leBytes n (v / 256)

/-- The natural number with the given bytes, least significant first. -/
def leValue : List UInt8 → ℕ
  | [] => 0
  | b :: bs => b.toNat + 256 * leValue bs

/-- The number of bytes is the width. -/
@[simp] theorem leBytes_length (n v : ℕ) : (leBytes n v).length = n := by
  induction n generalizing v with
  | zero => rfl
  | succ n ih => simp [leBytes, ih]

/-- The first bytes of an encoding are the encoding in that width. -/
theorem take_leBytes {k n : ℕ} (h : k ≤ n) (v : ℕ) : (leBytes n v).take k = leBytes k v := by
  induction k generalizing n v with
  | zero => rfl
  | succ k ih =>
    obtain ⟨n, rfl⟩ := Nat.exists_eq_add_of_le' (show 1 ≤ n by omega)
    rw [leBytes, List.take_succ_cons, ih (by omega), leBytes]

/-- Decoding returns the encoded number modulo the width. -/
theorem leValue_leBytes (n v : ℕ) : leValue (leBytes n v) = v % 256 ^ n := by
  induction n generalizing v with
  | zero => simp [leBytes, leValue, Nat.mod_one]
  | succ n ih =>
    rw [leBytes, leValue, ih, pow_succ', Nat.mod_mul]
    simp

/-- A number that fits is read back from its bytes. -/
theorem leValue_leBytes_of_lt {n v : ℕ} (h : v < 256 ^ n) : leValue (leBytes n v) = v := by
  rw [leValue_leBytes, Nat.mod_eq_of_lt h]

/-- The bits above the width do not matter. -/
theorem leBytes_mod (n v : ℕ) : leBytes n (v % 256 ^ n) = leBytes n v := by
  induction n generalizing v with
  | zero => rfl
  | succ n ih =>
    have hlow : UInt8.ofNat (v % (256 * 256 ^ n)) = UInt8.ofNat v := by
      apply UInt8.toNat_inj.mp
      simp
    rw [pow_succ', leBytes, leBytes, hlow, Nat.mod_mul_right_div_self, ih]

/-- The value of `n` bytes is less than `256 ^ n`. -/
theorem leValue_lt (bs : List UInt8) : leValue bs < 256 ^ bs.length := by
  induction bs with
  | nil => decide
  | cons b bs ih =>
    have hb := b.toNat_lt
    rw [leValue, List.length_cons, pow_succ']
    omega

/-- Encoding returns the bytes that were decoded. -/
theorem leBytes_leValue (bs : List UInt8) : leBytes bs.length (leValue bs) = bs := by
  induction bs with
  | nil => rfl
  | cons b bs ih =>
    have hb := b.toNat_lt
    have hlow : UInt8.ofNat (b.toNat + 256 * leValue bs) = b := by
      apply UInt8.toNat_inj.mp
      rw [UInt8.toNat_ofNat']
      omega
    have hhigh : (b.toNat + 256 * leValue bs) / 256 = leValue bs := by omega
    rw [leValue, List.length_cons, leBytes, hlow, hhigh, ih]

/-- A byte-addressed memory. -/
abbrev Memory := ℕ → UInt8

namespace Memory

/-- The `len` bytes from offset `off` on. -/
def read (mem : Memory) (off len : ℕ) : List UInt8 :=
  (List.range len).map fun i => mem (off + i)

/-- The memory after copying `bytes` to offset `off`. -/
def write (mem : Memory) (off : ℕ) (bytes : List UInt8) : Memory :=
  fun a => if off ≤ a then (bytes[a - off]?).getD (mem a) else mem a

/-- The memory after setting `len` bytes from `off` on to zero. -/
def clear (mem : Memory) (off len : ℕ) : Memory :=
  fun a => if off ≤ a ∧ a < off + len then 0 else mem a

/-- The same memory with offsets counted from `base`. -/
def window (mem : Memory) (base : ℕ) : Memory := fun a => mem (base + a)

/-- A read returns as many bytes as it asks for. -/
@[simp] theorem read_length (mem : Memory) (off len : ℕ) : (mem.read off len).length = len := by
  simp [read]

private theorem read_getElem? (mem : Memory) (off len i : ℕ) :
    (mem.read off len)[i]? = if i < len then some (mem (off + i)) else none := by
  by_cases h : i < len <;> simp [read, h]

/-- A read depends on the bytes it covers only. -/
theorem read_congr {mem mem' : Memory} {off len : ℕ}
    (h : ∀ a, off ≤ a → a < off + len → mem a = mem' a) : mem.read off len = mem'.read off len := by
  apply List.map_congr_left
  intro i hi
  exact h _ (by omega) (by have := List.mem_range.mp hi; omega)

/-- Two memories that read the same block agree on each of its bytes. -/
theorem eq_of_read_eq {mem mem' : Memory} {off len a : ℕ}
    (h : mem.read off len = mem'.read off len) (hlo : off ≤ a) (hhi : a < off + len) :
    mem a = mem' a := by
  have hget := congrArg (fun l => l[a - off]?) h
  simp only [read_getElem?, if_pos (show a - off < len by omega),
    Nat.add_sub_cancel' hlo] at hget
  exact Option.some.inj hget

/-- A read in two pieces. -/
theorem read_add (mem : Memory) (off m n : ℕ) :
    mem.read off (m + n) = mem.read off m ++ mem.read (off + m) n := by
  simp [read, List.range_add, Function.comp_def, Nat.add_assoc]

/-- Part of a block that was read is the block read at that place. -/
theorem take_drop_read (mem : Memory) (off : ℕ) {a n len : ℕ} (h : a + n ≤ len) :
    ((mem.read off len).drop a).take n = mem.read (off + a) n := by
  obtain ⟨k, rfl⟩ := Nat.exists_eq_add_of_le h
  rw [Nat.add_assoc, read_add, List.drop_left' (read_length ..), read_add,
    List.take_left' (read_length ..)]

/-- A write leaves the other bytes alone. -/
theorem write_of_outside {mem : Memory} {off a : ℕ} {bytes : List UInt8}
    (h : a < off ∨ off + bytes.length ≤ a) : mem.write off bytes a = mem a := by
  unfold write
  by_cases ha : off ≤ a
  · rw [if_pos ha, List.getElem?_eq_none (by omega), Option.getD_none]
  · rw [if_neg ha]

private theorem write_inside {mem : Memory} {off i : ℕ} {bytes : List UInt8}
    (h : i < bytes.length) : mem.write off bytes (off + i) = bytes[i] := by
  simp [write, h]

/-- Two memories that agree at an address still do after the same copy. -/
theorem write_congr {mem mem' : Memory} {a : ℕ} (h : mem a = mem' a) (off : ℕ)
    (bytes : List UInt8) : mem.write off bytes a = mem'.write off bytes a := by
  rw [write, write, h]

/-- A copied block reads back unchanged. -/
theorem read_write_self (mem : Memory) (off : ℕ) (bytes : List UInt8) :
    (mem.write off bytes).read off bytes.length = bytes := by
  apply List.ext_getElem (by simp)
  intro i hi _
  have hi' : i < bytes.length := by simpa using hi
  simp [read, write_inside hi']

/-- A block disjoint from the copied one is unchanged. -/
theorem read_write_disjoint {mem : Memory} {off off' len : ℕ} {bytes : List UInt8}
    (h : off' + len ≤ off ∨ off + bytes.length ≤ off') :
    (mem.write off bytes).read off' len = mem.read off' len :=
  read_congr fun _ _ _ => write_of_outside (by omega)

/-- Two adjacent copies are one copy of the joined block. -/
theorem write_append (mem : Memory) (off : ℕ) (xs ys : List UInt8) :
    (mem.write off xs).write (off + xs.length) ys = mem.write off (xs ++ ys) := by
  funext a
  unfold write
  by_cases hlo : off ≤ a
  · by_cases hmid : off + xs.length ≤ a
    · simp only [if_pos hlo, if_pos hmid,
        List.getElem?_append_right (show xs.length ≤ a - off by omega),
        List.getElem?_eq_none (show xs.length ≤ a - off by omega), Option.getD_none,
        Nat.sub_add_eq]
    · simp only [if_pos hlo, if_neg hmid,
        List.getElem?_append_left (show a - off < xs.length by omega)]
  · simp only [if_neg hlo, if_neg (show ¬ off + xs.length ≤ a by omega)]

/-- The memory that begins with the given bytes. -/
def ofBytes (bytes : List UInt8) : Memory := fun i => (bytes[i]?).getD 0

/-- A memory made of bytes holds these bytes. -/
theorem read_ofBytes (bytes : List UInt8) : (ofBytes bytes).read 0 bytes.length = bytes := by
  have hwrite : ofBytes bytes = Memory.write (fun _ => 0) 0 bytes := by
    funext a
    simp [ofBytes, write]
  rw [hwrite, read_write_self]

/-- Clearing leaves the other bytes alone. -/
theorem clear_of_outside {mem : Memory} {off len a : ℕ} (h : a < off ∨ off + len ≤ a) :
    mem.clear off len a = mem a := by
  rw [clear, if_neg (by omega)]

/-- A write inside a window is a write to the window. -/
theorem window_write (mem : Memory) (base off : ℕ) (bytes : List UInt8) :
    (mem.write (base + off) bytes).window base = (mem.window base).write off bytes := by
  funext a
  simp [window, write, Nat.add_sub_add_left]

/-- A read of a window is a read of the memory behind it. -/
theorem window_read (mem : Memory) (base off len : ℕ) :
    (mem.window base).read off len = mem.read (base + off) len := by
  simp [window, read, Nat.add_assoc]

/-- The 16-bit word at offset `off`. -/
def word16 (mem : Memory) (off : ℕ) : UInt16 := UInt16.ofNat (leValue (mem.read off 2))

/-- The 32-bit word at offset `off`. -/
def word32 (mem : Memory) (off : ℕ) : UInt32 := UInt32.ofNat (leValue (mem.read off 4))

/-- The 64-bit word at offset `off`. -/
def word64 (mem : Memory) (off : ℕ) : UInt64 := UInt64.ofNat (leValue (mem.read off 8))

section Agree

variable {mem mem' : Memory} {n off : ℕ} (h : ∀ i < n, mem i = mem' i)

include h

/-- Two memories that begin with the same bytes have the same words there. -/
theorem word16_congr (hin : off + 2 ≤ n) : mem.word16 off = mem'.word16 off := by
  rw [word16, word16, read_congr fun a _ ha => h a (by omega)]

/-- A word of two memories that agree on the first `n` bytes. -/
theorem word32_congr (hin : off + 4 ≤ n) : mem.word32 off = mem'.word32 off := by
  rw [word32, word32, read_congr fun a _ ha => h a (by omega)]

/-- The same for words of 64 bits. -/
theorem word64_congr (hin : off + 8 ≤ n) : mem.word64 off = mem'.word64 off := by
  rw [word64, word64, read_congr fun a _ ha => h a (by omega)]

end Agree

end Memory

/-- The bytes of a 16-bit word. -/
def le16 (v : UInt16) : List UInt8 := leBytes 2 v.toNat

/-- The bytes of a 32-bit word. -/
def le32 (v : UInt32) : List UInt8 := leBytes 4 v.toNat

/-- The bytes of a 64-bit word. -/
def le64 (v : UInt64) : List UInt8 := leBytes 8 v.toNat

/-- A number of 16 bits has two bytes. -/
@[simp] theorem le16_length (v : UInt16) : (le16 v).length = 2 := leBytes_length _ _

/-- A number of 32 bits has four bytes. -/
@[simp] theorem le32_length (v : UInt32) : (le32 v).length = 4 := leBytes_length _ _

/-- A number of 64 bits has eight bytes. -/
@[simp] theorem le64_length (v : UInt64) : (le64 v).length = 8 := leBytes_length _ _

/-- A number of 32 bits is read back from its bytes. -/
@[simp] theorem ofNat_leValue_le32 (v : UInt32) : UInt32.ofNat (leValue (le32 v)) = v := by
  rw [le32, leValue_leBytes_of_lt v.toNat_lt, UInt32.ofNat_toNat]

/-- Numbers with the same four bytes are equal. -/
theorem le32_injective {v w : UInt32} (h : le32 v = le32 w) : v = w := by
  rw [← ofNat_leValue_le32 v, h, ofNat_leValue_le32]

/-- Numbers with the same eight bytes are equal. -/
theorem le64_injective {v w : UInt64} (h : le64 v = le64 w) : v = w := by
  have hvalue := congrArg leValue h
  rw [le64, le64, leValue_leBytes_of_lt v.toNat_lt, leValue_leBytes_of_lt w.toNat_lt] at hvalue
  exact UInt64.toNat_inj.mp hvalue

/-- A block that begins with the bytes of a word reads as that word. -/
theorem Memory.word32_of_read {mem : Memory} {off : ℕ} {v : UInt32}
    (h : mem.read off 4 = le32 v) : mem.word32 off = v := by
  rw [Memory.word32, h, ofNat_leValue_le32]

end ByteMemory
