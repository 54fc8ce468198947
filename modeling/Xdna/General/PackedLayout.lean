import Xdna.General.ByteMemory
import Mathlib.Logic.Equiv.Defs

/-!
# Packed records

The fields of a packed record lie one behind the other, without padding, so that the values of
the record and the blocks of its size correspond to each other. A layout carries the laws of
this correspondence. Layouts of words are put together by pairing and by renaming the fields,
and a record described in this way needs no proofs of its own.
-/

namespace PackedLayout

open ByteMemory

/-- How the values of a type lie in memory. -/
structure Layout (α : Type*) where
  size : ℕ
  encode : α → List UInt8
  decode : Memory → ℕ → α
  length_encode : ∀ a, (encode a).length = size
  encode_decode : ∀ mem off, encode (decode mem off) = mem.read off size
  decode_of_read : ∀ {mem off a}, mem.read off size = encode a → decode mem off = a

namespace Layout

/-! ## Words -/

/-- Encoding a word that was read gives back the bytes that were read. -/
theorem leBytes_of_read (mem : Memory) (off n : ℕ) :
    leBytes n (leValue (mem.read off n) % 256 ^ n) = mem.read off n := by
  have hbytes := leBytes_leValue (mem.read off n)
  rw [Memory.read_length] at hbytes
  rw [leBytes_mod, hbytes]

/-- A byte. -/
def u8 : Layout UInt8 where
  size := 1
  encode b := [b]
  decode mem off := mem off
  length_encode _ := rfl
  encode_decode mem off := by simp [Memory.read]
  decode_of_read h := by simpa [Memory.read] using h

/-- A number of 16 bits, the low byte first. -/
def u16 : Layout UInt16 where
  size := 2
  encode := le16
  decode := Memory.word16
  length_encode := le16_length
  encode_decode mem off := by
    rw [le16, Memory.word16, UInt16.toNat_ofNat']
    exact leBytes_of_read mem off 2
  decode_of_read {mem off v} h := by
    rw [Memory.word16, h, le16, leValue_leBytes_of_lt v.toNat_lt, UInt16.ofNat_toNat]

/-- A number of 32 bits, the low byte first. -/
def u32 : Layout UInt32 where
  size := 4
  encode := le32
  decode := Memory.word32
  length_encode := le32_length
  encode_decode mem off := by
    rw [le32, Memory.word32, UInt32.toNat_ofNat']
    exact leBytes_of_read mem off 4
  decode_of_read := Memory.word32_of_read

/-- A number of 64 bits, the low byte first. -/
def u64 : Layout UInt64 where
  size := 8
  encode := le64
  decode := Memory.word64
  length_encode := le64_length
  encode_decode mem off := by
    rw [le64, Memory.word64, UInt64.toNat_ofNat']
    exact leBytes_of_read mem off 8
  decode_of_read {mem off v} h := by
    rw [Memory.word64, h, le64, leValue_leBytes_of_lt v.toNat_lt, UInt64.ofNat_toNat]

/-- A record without fields. -/
def unit : Layout Unit where
  size := 0
  encode _ := []
  decode _ _ := ()
  length_encode _ := rfl
  encode_decode _ _ := rfl
  decode_of_read _ := rfl

/-- A block of `n` bytes. -/
def bytes (n : ℕ) : Layout { bs : List UInt8 // bs.length = n } where
  size := n
  encode := Subtype.val
  decode mem off := ⟨mem.read off n, Memory.read_length ..⟩
  length_encode := Subtype.prop
  encode_decode _ _ := rfl
  decode_of_read h := Subtype.ext h

/-! ## Records -/

variable {α β : Type*}

/-- One field behind the other. -/
def pair (l : Layout α) (l' : Layout β) : Layout (α × β) where
  size := l.size + l'.size
  encode p := l.encode p.1 ++ l'.encode p.2
  decode mem off := (l.decode mem off, l'.decode mem (off + l.size))
  length_encode p := by rw [List.length_append, l.length_encode, l'.length_encode]
  encode_decode mem off := by rw [l.encode_decode, l'.encode_decode, Memory.read_add]
  decode_of_read {mem off p} h := by
    rw [Memory.read_add] at h
    obtain ⟨h₁, h₂⟩ := List.append_inj h (by rw [Memory.read_length, l.length_encode])
    rw [l.decode_of_read h₁, l'.decode_of_read h₂]

/-- The same fields under other names. -/
def iso (l : Layout α) (e : α ≃ β) : Layout β where
  size := l.size
  encode b := l.encode (e.symm b)
  decode mem off := e (l.decode mem off)
  length_encode b := l.length_encode _
  encode_decode mem off := by rw [e.symm_apply_apply, l.encode_decode]
  decode_of_read h := by rw [l.decode_of_read h, e.apply_symm_apply]

section Encode

variable (l : Layout α) (l' : Layout β)

/-- A byte is itself. -/
@[simp] theorem u8_encode (v : UInt8) : u8.encode v = [v] := rfl

/-- The bytes of a number of 16 bits. -/
@[simp] theorem u16_encode (v : UInt16) : u16.encode v = le16 v := rfl

/-- The bytes of a number of 32 bits. -/
@[simp] theorem u32_encode (v : UInt32) : u32.encode v = le32 v := rfl

/-- The bytes of a number of 64 bits. -/
@[simp] theorem u64_encode (v : UInt64) : u64.encode v = le64 v := rfl

/-- The bytes of a pair are those of its two parts. -/
@[simp] theorem pair_encode (a : α) (b : β) :
    (l.pair l').encode (a, b) = l.encode a ++ l'.encode b := rfl

/-- Under another type the bytes are the same. -/
@[simp] theorem iso_encode (e : α ≃ β) (b : β) : (l.iso e).encode b = l.encode (e.symm b) := rfl

end Encode

variable (l : Layout α)

/-- What is encoded is decoded. -/
@[simp] theorem decode_ofBytes (a : α) : l.decode (Memory.ofBytes (l.encode a)) 0 = a := by
  refine l.decode_of_read ?_
  have hread := Memory.read_ofBytes (l.encode a)
  rwa [l.length_encode] at hread

/-- The record of a block of zeros. -/
def zero : α := l.decode (fun _ => 0) 0

/-- The zero value has zero bytes. -/
theorem encode_zero : l.encode l.zero = List.replicate l.size 0 := by
  rw [zero, l.encode_decode]
  simp [Memory.read]

end Layout

end PackedLayout
