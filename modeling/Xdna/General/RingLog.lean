import Xdna.General.ByteMemory

/-!
# A ring of records with a wrap mark

A writer appends records of varying size to a block of memory and a reader
takes them off in order; each side publishes one offset. A record never crosses
the end of the block: when the next one does not fit, the writer leaves a mark
and goes on at offset zero. `Holds` says which records lie between the two
offsets, and `place` is the rule under which a writer never destroys one of them.
Equal offsets mean an empty ring, so the writer must not close the gap.
-/

namespace RingLog

open ByteMemory

variable {F : Type*} {enc : F → List UInt8} {mark : List UInt8} {mem mem' : Memory}
  {limit head tail a b : ℕ} {f : F} {fs : List F}

/-- The bytes of consecutive records. -/
def image (enc : F → List UInt8) (fs : List F) : List UInt8 := fs.flatMap enc

/-- No frames have no bytes. -/
@[simp] theorem image_nil : image enc [] = [] := rfl

/-- The bytes of the first frame come first. -/
@[simp] theorem image_cons : image enc (f :: fs) = enc f ++ image enc fs := List.flatMap_cons

/-- The bytes of one list of frames are followed by those of the other. -/
@[simp] theorem image_append (fs gs : List F) :
    image enc (fs ++ gs) = image enc fs ++ image enc gs := List.flatMap_append

/-- The records `fs` fill the memory from `a` to `b`. -/
structure Stored (enc : F → List UInt8) (mem : Memory) (a b : ℕ) (fs : List F) : Prop where
  finish : b = a + (image enc fs).length
  bytes : mem.read a (image enc fs).length = image enc fs

/-- No frames are stored between an offset and itself. -/
theorem Stored.nil : Stored enc mem a a [] := ⟨rfl, rfl⟩

private theorem Stored.le (h : Stored enc mem a b fs) : a ≤ b := by
  have := h.finish
  omega

private theorem stored_cons :
    Stored enc mem a b (f :: fs) ↔
      mem.read a (enc f).length = enc f ∧ Stored enc mem (a + (enc f).length) b fs := by
  constructor
  · rintro ⟨hfin, hbytes⟩
    rw [image_cons, List.length_append, Memory.read_add] at hbytes
    obtain ⟨hf, hfs⟩ := List.append_inj hbytes (by simp)
    refine ⟨hf, ?_, hfs⟩
    rw [hfin, image_cons, List.length_append]
    omega
  · rintro ⟨hf, hfin, hfs⟩
    refine ⟨?_, ?_⟩
    · rw [hfin, image_cons, List.length_append]
      omega
    · rw [image_cons, List.length_append, Memory.read_add, hf, hfs]

/-- A record written right behind the others extends them. -/
theorem Stored.snoc (h : Stored enc mem a b fs) (hf : mem.read b (enc f).length = enc f) :
    Stored enc mem a (b + (enc f).length) (fs ++ [f]) := by
  obtain ⟨hfin, hbytes⟩ := h
  refine ⟨?_, ?_⟩
  · simp [hfin]
    omega
  · rw [hfin] at hf
    simp [Memory.read_add, hbytes, hf]

/-- Only the bytes between the two offsets matter. -/
theorem Stored.congr (h : Stored enc mem a b fs) (heq : ∀ i, a ≤ i → i < b → mem i = mem' i) :
    Stored enc mem' a b fs := by
  obtain ⟨hfin, hbytes⟩ := h
  refine ⟨hfin, ?_⟩
  rw [← Memory.read_congr fun i hlo hhi => heq i hlo (by omega)]
  exact hbytes

/-- The records between `head` and `tail` of a ring whose last usable offset is `limit`:
either in one piece, or from `head` up to a mark and again from zero. -/
inductive Holds (enc : F → List UInt8) (mark : List UInt8) (mem : Memory) (limit head tail : ℕ) :
    List F → Prop
  | straight {fs : List F} (htail : tail ≤ limit) (hfs : Stored enc mem head tail fs) :
      Holds enc mark mem limit head tail fs
  | wrapped {front back : List F} {stop : ℕ} (hlt : tail < head) (hstop : stop ≤ limit)
      (hfront : Stored enc mem head stop front) (hmark : mem.read stop mark.length = mark)
      (hback : Stored enc mem 0 tail back) :
      Holds enc mark mem limit head tail (front ++ back)

/-- A ring whose head is at its tail holds no frames. -/
theorem Holds.empty (h : a ≤ limit) : Holds enc mark mem limit a a ([] : List F) :=
  .straight h .nil

/-- Head and tail of a ring that holds frames are offsets of the ring. -/
theorem Holds.bounds (h : Holds enc mark mem limit head tail fs) : head ≤ limit ∧ tail ≤ limit := by
  cases h with
  | straight htail hfs =>
    have := hfs.le
    omega
  | wrapped hlt hstop hfront _ _ =>
    have := hfront.le
    omega

/-- A reader at offset zero sees all records in one piece. -/
theorem Holds.stored_of_head_zero (h : Holds enc mark mem limit 0 tail fs) :
    Stored enc mem 0 tail fs := by
  cases h with
  | straight _ hfs => exact hfs
  | wrapped hlt _ _ _ _ => omega

/-- With the head at zero the bytes of the frames reach up to the tail. -/
theorem Holds.length_of_head_zero (h : Holds enc mark mem limit 0 tail fs) :
    (image enc fs).length = tail := by
  have := h.stored_of_head_zero.finish
  omega

/-- A ring that holds nothing is empty, unless the reader has yet to go back to a tail at zero. -/
theorem Holds.eq_of_nil (h : Holds enc mark mem limit head tail []) (hpos : 0 < tail) :
    head = tail := by
  generalize hfs : ([] : List F) = fs at h
  cases h with
  | straight _ hstored =>
    subst hfs
    simpa using hstored.finish.symm
  | @wrapped front back _ _ _ _ _ hback =>
    obtain ⟨_, rfl⟩ := List.append_eq_nil_iff.mp hfs.symm
    have := hback.finish
    simp at this
    omega

/-- Bytes outside the ring do not matter. -/
theorem Holds.congr (h : Holds enc mark mem limit head tail fs)
    (heq : ∀ i, i < limit + mark.length → mem i = mem' i) :
    Holds enc mark mem' limit head tail fs := by
  cases h with
  | straight htail hfs => exact .straight htail (hfs.congr fun i _ hi => heq i (by omega))
  | wrapped hlt hstop hfront hmark hback =>
    have := hfront.le
    refine .wrapped hlt hstop (hfront.congr fun i _ hi => heq i (by omega)) ?_
      (hback.congr fun i _ hi => heq i (by omega))
    rw [← Memory.read_congr fun i _ hi => heq i (by omega)]
    exact hmark

/-- What a reader at `head` finds: nothing, the mark, or the first record. The mark is never at
the start of the ring, and a reader in front of the tail does not get to it. -/
theorem Holds.next (hpos : ∀ f, 0 < (enc f).length) (h : Holds enc mark mem limit head tail fs) :
    (head = tail ∧ fs = []) ∨
    (tail < head ∧ mem.read head mark.length = mark ∧ Holds enc mark mem limit 0 tail fs) ∨
    (∃ f rest, fs = f :: rest ∧ head ≠ tail ∧ mem.read head (enc f).length = enc f ∧
      (tail < head + (enc f).length ↔ tail < head) ∧
      Holds enc mark mem limit (head + (enc f).length) tail rest) := by
  cases h with
  | straight htail hfs =>
    cases fs with
    | nil => exact .inl ⟨by simpa using hfs.finish.symm, rfl⟩
    | cons f rest =>
      obtain ⟨hf, hrest⟩ := stored_cons.mp hfs
      have := hrest.le
      have := hpos f
      exact .inr (.inr ⟨f, rest, rfl, by omega, hf, by omega, .straight htail hrest⟩)
  | @wrapped front back stop hlt hstop hfront hmark hback =>
    cases front with
    | nil =>
      have hfin : stop = head := by simpa using hfront.finish
      subst hfin
      exact .inr (.inl ⟨by omega, hmark, .straight (by omega) hback⟩)
    | cons f rest =>
      obtain ⟨hf, hrest⟩ := stored_cons.mp hfront
      exact .inr (.inr ⟨f, rest ++ back, rfl, by omega, hf, by omega,
        .wrapped (by omega) hstop hrest hmark hback⟩)

/-- The number of marks on the way from `head` to `tail`. -/
def marks (head tail : ℕ) : ℕ := if tail < head then 1 else 0

/-- The reader has nothing to do exactly when it stands at the tail. -/
theorem Holds.eq_iff (hpos : ∀ f, 0 < (enc f).length) (h : Holds enc mark mem limit head tail fs) :
    head = tail ↔ fs.length + marks head tail = 0 := by
  unfold marks
  rcases h.next hpos with ⟨heq, rfl⟩ | ⟨hlt, _, _⟩ | ⟨f, rest, rfl, hne, _, _, _⟩
  · simp [heq]
  · rw [if_pos hlt]
    omega
  · simp [hne]

/-! ## One ring, one list of records -/

/-- In this memory a record tells where it ends, and does not begin like the mark. -/
structure SelfDelimiting (enc : F → List UInt8) (mark : List UInt8) (mem : Memory) (limit : ℕ)
    (ok : F → Prop) : Prop where
  pos : ∀ f, 0 < (enc f).length
  unique : ∀ a f g, ok f → ok g → mem.read a (enc f).length = enc f →
    mem.read a (enc g).length = enc g → f = g
  unmarked : ∀ a f, ok f → a + (enc f).length ≤ limit → mem.read a (enc f).length = enc f →
    mem.read a mark.length ≠ mark

section Unique

variable {ok : F → Prop} {gs : List F} {c : ℕ}

/-- The bytes between two offsets are those of one list of frames at most. -/
theorem Stored.unique (hself : SelfDelimiting enc mark mem limit ok) (h : Stored enc mem a b fs)
    (h' : Stored enc mem a b gs) (hfs : ∀ f ∈ fs, ok f) (hgs : ∀ g ∈ gs, ok g) : fs = gs := by
  induction fs generalizing a gs with
  | nil =>
    cases gs with
    | nil => rfl
    | cons g gs =>
      have hend : b = a := by simpa using h.finish
      have hle := (stored_cons.mp h').2.le
      have hpos := hself.pos g
      omega
  | cons f fs ih =>
    obtain ⟨hf, hrest⟩ := stored_cons.mp h
    cases gs with
    | nil =>
      have hend : b = a := by simpa using h'.finish
      have hle := hrest.le
      have hpos := hself.pos f
      omega
    | cons g gs =>
      obtain ⟨hg, hrest'⟩ := stored_cons.mp h'
      obtain rfl := hself.unique a f g (hfs f (List.mem_cons_self ..))
        (hgs g (List.mem_cons_self ..)) hf hg
      rw [ih hrest hrest' (fun x hx => hfs x (List.mem_cons_of_mem f hx))
        (fun x hx => hgs x (List.mem_cons_of_mem f hx))]

/-- The mark ends the records in front of it. -/
theorem Stored.unique_of_mark (hself : SelfDelimiting enc mark mem limit ok)
    (h : Stored enc mem a b fs) (h' : Stored enc mem a c gs) (hb : b ≤ limit) (hc : c ≤ limit)
    (hmark : mem.read b mark.length = mark) (hmark' : mem.read c mark.length = mark)
    (hfs : ∀ f ∈ fs, ok f) (hgs : ∀ g ∈ gs, ok g) : fs = gs := by
  induction fs generalizing a gs with
  | nil =>
    obtain rfl : b = a := by simpa using h.finish
    cases gs with
    | nil => rfl
    | cons g gs =>
      obtain ⟨hg, hrest⟩ := stored_cons.mp h'
      have hend := hrest.le
      exact absurd hmark (hself.unmarked b g (hgs g (List.mem_cons_self ..)) (by omega) hg)
  | cons f fs ih =>
    obtain ⟨hf, hrest⟩ := stored_cons.mp h
    cases gs with
    | nil =>
      obtain rfl : c = a := by simpa using h'.finish
      have hend := hrest.le
      exact absurd hmark' (hself.unmarked c f (hfs f (List.mem_cons_self ..)) (by omega) hf)
    | cons g gs =>
      obtain ⟨hg, hrest'⟩ := stored_cons.mp h'
      obtain rfl := hself.unique a f g (hfs f (List.mem_cons_self ..))
        (hgs g (List.mem_cons_self ..)) hf hg
      rw [ih hrest hrest' (fun x hx => hfs x (List.mem_cons_of_mem f hx))
        (fun x hx => hgs x (List.mem_cons_of_mem f hx))]

/-- What a ring holds is determined by its bytes and its two offsets. -/
theorem Holds.unique (hself : SelfDelimiting enc mark mem limit ok)
    (h : Holds enc mark mem limit head tail fs) (h' : Holds enc mark mem limit head tail gs)
    (hfs : ∀ f ∈ fs, ok f) (hgs : ∀ g ∈ gs, ok g) : fs = gs := by
  cases h with
  | straight _ hstored =>
    cases h' with
    | straight _ hstored' => exact hstored.unique hself hstored' hfs hgs
    | wrapped hlt _ _ _ _ =>
      have := hstored.le
      omega
  | wrapped hlt hstop hfront hmark hback =>
    cases h' with
    | straight _ hstored' =>
      have := hstored'.le
      omega
    | wrapped _ hstop' hfront' hmark' hback' =>
      rw [hfront.unique_of_mark hself hfront' hstop hstop' hmark hmark'
          (fun f hf => hfs f (List.mem_append_left _ hf))
          (fun g hg => hgs g (List.mem_append_left _ hg)),
        hback.unique hself hback' (fun f hf => hfs f (List.mem_append_right _ hf))
          (fun g hg => hgs g (List.mem_append_right _ hg))]

end Unique

/-! ## The writer -/

/-- A record of `n` bytes does not fit behind the tail. -/
def Wraps (limit head tail n : ℕ) : Prop := head ≤ tail ∧ limit < tail + n

instance : Decidable (Wraps limit head tail n) := inferInstanceAs (Decidable (_ ∧ _))

/-- Where a record of `n` bytes can be put without touching what the ring holds. -/
def place (limit head tail n : ℕ) : Option ℕ :=
  if tail < head then if tail + n < head then some tail else none
  else if tail + n ≤ limit then some tail
  else if n < head then some 0 else none

/-- The tail after records of the given lengths have been put one after the other, if there is a
place for each. -/
def placeAll (limit head : ℕ) : ℕ → List ℕ → Option ℕ
  | tail, [] => some tail
  | tail, n :: ns =>
    match place limit head tail n with
    | none => none
    | some s => placeAll limit head (s + n) ns

/-- With the head at zero there is only the room behind the tail. -/
theorem place_head_zero (limit tail n : ℕ) :
    place limit 0 tail n = if tail + n ≤ limit then some tail else none := by
  unfold place
  rw [if_neg (Nat.not_lt_zero _), if_neg (Nat.not_lt_zero _)]

/-- The place is inside the ring. -/
theorem place_fits {n s : ℕ} (h : place limit head tail n = some s) (hhead : head ≤ limit) :
    s + n ≤ limit := by
  unfold place at h
  split_ifs at h <;> have := Option.some.inj h <;> omega

/-- The rule for a writer that first decides whether to go back to zero. With the head at zero
there is no place behind the mark. -/
theorem place_eq (hhead : head ≤ limit) (tail n : ℕ) :
    place limit head tail n =
      if Wraps limit head tail n then if 0 < head ∧ head ≤ n then none
        else if head = 0 then none else some 0
      else if tail < head ∧ head ≤ tail + n then none else some tail := by
  unfold place
  by_cases hw : Wraps limit head tail n
  · rw [if_pos hw]
    obtain ⟨hle, hlt⟩ := hw
    split_ifs <;> first | rfl | omega
  · rw [if_neg hw]
    unfold Wraps at hw
    split_ifs <;> first | rfl | omega

/-- The memory in which the writer has left the mark, if it goes back to zero. -/
def marked (mark : List UInt8) (mem : Memory) (limit head tail n : ℕ) : Memory :=
  if Wraps limit head tail n then mem.write tail mark else mem

/-- The mark lies in the gap between the records. -/
theorem Holds.marked (h : Holds enc mark mem limit head tail fs) (n : ℕ) :
    Holds enc mark (marked mark mem limit head tail n) limit head tail fs := by
  unfold RingLog.marked
  split
  · rename_i hwraps
    cases h with
    | straight htail hfs =>
      exact .straight htail (hfs.congr fun i _ hi => (Memory.write_of_outside (by omega)).symm)
    | wrapped hlt _ _ _ _ => exact absurd hwraps.1 (by omega)
  · exact h

/-- A record put where `place` says is held after the others. -/
theorem Holds.put (h : Holds enc mark mem limit head tail fs) {s : ℕ}
    (hs : place limit head tail (enc f).length = some s) :
    Holds enc mark ((RingLog.marked mark mem limit head tail (enc f).length).write s (enc f))
      limit head (s + (enc f).length) (fs ++ [f]) := by
  have hself (mem : Memory) := Memory.read_write_self mem s (enc f)
  unfold place at hs
  by_cases hlt : tail < head
  · by_cases hfit : tail + (enc f).length < head
    · obtain rfl : tail = s := by simpa [hlt, hfit] using hs
      rw [RingLog.marked, if_neg (fun hw => absurd hw.1 (by omega))]
      cases h with
      | straight _ hfs =>
        have := hfs.le
        omega
      | @wrapped front back stop _ hstop hfront hmark hback =>
        have hle := hfront.le
        rw [List.append_assoc]
        refine .wrapped hfit hstop
          (hfront.congr fun i hi _ => (Memory.write_of_outside (by omega)).symm) ?_
          ((hback.congr fun i _ hi => (Memory.write_of_outside (by omega)).symm).snoc (hself mem))
        rw [Memory.read_write_disjoint (by omega), hmark]
    · simp [hlt, hfit] at hs
  · cases h with
    | wrapped hlt' _ _ _ _ => omega
    | straight htail hfs =>
      by_cases hfit : tail + (enc f).length ≤ limit
      · obtain rfl : tail = s := by simpa [hlt, hfit] using hs
        rw [RingLog.marked, if_neg (fun hw => absurd hw.2 (by omega))]
        exact .straight hfit
          ((hfs.congr fun i _ hi => (Memory.write_of_outside (by omega)).symm).snoc (hself mem))
      · by_cases hhead : (enc f).length < head
        · obtain rfl : 0 = s := by simpa [hlt, hfit, hhead] using hs
          rw [RingLog.marked, if_pos ⟨by omega, by omega⟩]
          -- The old records are the front part, up to the mark; the new one is the back part.
          refine .wrapped (by omega) htail ?_ ?_ (Stored.nil.snoc (hself _))
          · exact hfs.congr fun i hlo hhi => by
              rw [Memory.write_of_outside (by omega), Memory.write_of_outside (by omega)]
          · rw [Memory.read_write_disjoint (by omega), Memory.read_write_self]
        · simp [hlt, hfit, hhead] at hs

end RingLog
