import Mathlib.Data.Nat.Notation
import Mathlib.Data.List.Basic

/-!
# Reading a ring up to a tail

A reader walks over a ring in which a writer has published everything from the reader's offset
up to a tail, around the end of the ring if the tail lies in front of the offset. At each
offset the reader finds a record, a mark that sends it back to zero, or nothing. It stops when
it stands at the tail, and nowhere else does it look at the tail: whether it stays in what was
published depends on what it finds.
-/

namespace RingWalk

/-- What a reader finds at an offset. -/
inductive Look where
  | record (n : ℕ)
  | wrap
  | stop
  deriving DecidableEq

/-- The records that the reader takes in `fuel` steps from offset `h`, as offsets and lengths. -/
def walk (look : ℕ → Look) (tail : ℕ) : ℕ → ℕ → List (ℕ × ℕ)
  | 0, _ => []
  | fuel + 1, h =>
    if h = tail then []
    else match look h with
    | .record n => (h, n) :: walk look tail fuel (h + n)
    | .wrap => walk look tail fuel 0
    | .stop => []

/-- No record on the way reaches over the tail, and the reader is sent back to zero only when it is
past the tail, or when it finds no record there. -/
def Clear (look : ℕ → Look) (tail : ℕ) : ℕ → ℕ → Prop
  | 0, _ => True
  | fuel + 1, h =>
    h ≠ tail → match look h with
    | .record n => (tail ≤ h ∨ h + n ≤ tail) ∧ Clear look tail fuel (h + n)
    | .wrap => (tail ≤ h ∨ fuel = 0 ∨ ∀ n, look 0 ≠ .record n) ∧ Clear look tail fuel 0
    | .stop => True

/-- Two records do not overlap. -/
def Apart (x y : ℕ × ℕ) : Prop := x.1 + x.2 ≤ y.1 ∨ y.1 + y.2 ≤ x.1

/-- The records lie in what is published between `head` and `tail` of a ring of `size` bytes, and
no byte of the ring belongs to two of them. -/
structure Published (head tail size : ℕ) (xs : List (ℕ × ℕ)) : Prop where
  inside : ∀ x ∈ xs, if head ≤ tail then head ≤ x.1 ∧ x.1 + x.2 ≤ tail
    else (head ≤ x.1 ∧ x.1 + x.2 ≤ size) ∨ x.1 + x.2 ≤ tail
  once : xs.Pairwise Apart

variable {look : ℕ → Look} {tail size : ℕ}

/-- Where there is no record, the reader stays until it runs out of steps. -/
theorem walk_zero_of_no_record (h : ∀ n, look 0 ≠ .record n) (fuel : ℕ) :
    walk look tail fuel 0 = [] ∧ Clear look tail fuel 0 := by
  induction fuel with
  | zero => exact ⟨rfl, trivial⟩
  | succ fuel ih =>
    rw [walk, Clear]
    cases hlook : look 0 with
    | record n => exact absurd hlook (h n)
    | wrap =>
      refine ⟨?_, fun _ => ⟨.inr (.inr fun n => by simp), ih.2⟩⟩
      split
      · rfl
      · exact ih.1
    | stop =>
      refine ⟨?_, fun _ => trivial⟩
      split <;> rfl

/-- A record in front of the tail is visited, and the walk goes on behind it. -/
theorem walk_record {fuel h n : ℕ} (hne : h ≠ tail) (hlook : look h = .record n) :
    walk look tail (fuel + 1) h = (h, n) :: walk look tail fuel (h + n) := by
  rw [walk, if_neg hne, hlook]

/-- A mark in front of the tail sends the walk back to the start. -/
theorem walk_wrap {fuel h : ℕ} (hne : h ≠ tail) (hlook : look h = .wrap) :
    walk look tail (fuel + 1) h = walk look tail fuel 0 := by
  rw [walk, if_neg hne, hlook]

/-- A reader in front of the tail cannot get behind it without a record that reaches over it. -/
theorem walk_le_tail {fuel h : ℕ} (hle : h ≤ tail)
    (hall : ∀ x ∈ walk look tail fuel h, tail < x.1 ∨ x.1 + x.2 ≤ tail) :
    ∀ x ∈ walk look tail fuel h, x.1 + x.2 ≤ tail := by
  induction fuel generalizing h with
  | zero => simp [walk]
  | succ fuel ih =>
    by_cases heq : h = tail
    · simp [walk, heq]
    · cases hlook : look h with
      | stop => simp [walk, heq, hlook]
      | wrap =>
        rw [walk_wrap heq hlook] at hall ⊢
        exact ih (Nat.zero_le _) hall
      | record n =>
        rw [walk_record heq hlook, List.forall_mem_cons] at hall ⊢
        have hn : h + n ≤ tail := hall.1.resolve_left (by dsimp only; omega)
        exact ⟨hn, ih hn hall.2⟩

variable (hpos : ∀ h n, look h = .record n → 0 < n ∧ h + n ≤ size)

include hpos

private theorem walk_bounds (fuel h : ℕ) :
    ∀ x ∈ walk look tail fuel h, 0 < x.2 ∧ x.1 + x.2 ≤ size := by
  induction fuel generalizing h with
  | zero => simp [walk]
  | succ fuel ih =>
    by_cases heq : h = tail
    · simp [walk, heq]
    · cases hlook : look h with
      | stop => simp [walk, heq, hlook]
      | wrap =>
        rw [walk_wrap heq hlook]
        exact ih 0
      | record n =>
        rw [walk_record heq hlook]
        intro x hx
        rcases List.mem_cons.mp hx with rfl | hx
        · exact hpos h n hlook
        · exact ih (h + n) x hx

/-- The last lap, which ends at the tail: the reader stays between its offset and the tail. -/
theorem clear_iff_of_le {fuel h : ℕ} (hle : h ≤ tail) :
    Clear look tail fuel h ↔
      (∀ x ∈ walk look tail fuel h, h ≤ x.1 ∧ x.1 + x.2 ≤ tail) ∧
        (walk look tail fuel h).Pairwise Apart := by
  induction fuel generalizing h with
  | zero => simp [walk, Clear]
  | succ fuel ih =>
    by_cases heq : h = tail
    · simp [walk, Clear, heq]
    · cases hlook : look h with
      | stop => simp [walk, Clear, heq, hlook]
      | wrap =>
        rw [walk_wrap heq hlook, Clear, hlook]
        simp only [ne_eq, heq, not_false_eq_true, forall_const]
        by_cases hzero : ∀ n, look 0 ≠ .record n
        · obtain ⟨hwalk, hclear⟩ := @walk_zero_of_no_record look tail hzero fuel
          simp [hwalk, hclear, hzero]
        · push Not at hzero
          obtain ⟨n, hn⟩ := hzero
          cases fuel with
          | zero => simp [walk, Clear]
          | succ fuel =>
            -- The record at zero lies in front of the offset, or has been taken before.
            rw [walk_record (show 0 ≠ tail by omega) hn]
            constructor
            · rintro ⟨hbad | hbad | hbad, _⟩
              · omega
              · omega
              · exact absurd hn (hbad n)
            · rintro ⟨hall, _⟩
              have hzero := (hall _ (List.mem_cons_self ..)).1
              obtain rfl : h = 0 := Nat.le_zero.mp hzero
              rw [hn] at hlook
              cases hlook
      | record n =>
        rw [walk_record heq hlook, Clear, hlook, List.pairwise_cons]
        simp only [ne_eq, heq, not_false_eq_true, forall_const, List.forall_mem_cons]
        constructor
        · rintro ⟨hn, hclear⟩
          obtain ⟨hall, hpair⟩ := (ih (by omega)).mp hclear
          refine ⟨⟨⟨Nat.le_refl h, by omega⟩, fun x hx => ?_⟩,
            fun x hx => .inl (hall x hx).1, hpair⟩
          have := hall x hx
          omega
        · rintro ⟨⟨⟨_, hn⟩, hall⟩, hapart, hpair⟩
          refine ⟨.inr hn, (ih hn).mpr ⟨fun x hx => ⟨?_, (hall x hx).2⟩, hpair⟩⟩
          have hx₁ := hall x hx
          have hx₂ := walk_bounds hpos fuel (h + n) x hx
          rcases hapart x hx with hx₃ | hx₃
          · exact hx₃
          · dsimp only at hx₃
            omega

/-- The first of two laps: the reader is past the tail until it is sent back to zero. -/
theorem clear_iff_of_lt {fuel h : ℕ} (hlt : tail < h) :
    Clear look tail fuel h ↔
      (∀ x ∈ walk look tail fuel h, h ≤ x.1 ∨ x.1 + x.2 ≤ tail) ∧
        (walk look tail fuel h).Pairwise Apart := by
  have hne (h : ℕ) (hlt : tail < h) : h ≠ tail := by omega
  induction fuel generalizing h with
  | zero => simp [walk, Clear]
  | succ fuel ih =>
    have heq := hne h hlt
    cases hlook : look h with
    | stop => simp [walk, Clear, heq, hlook]
    | wrap =>
      rw [walk_wrap heq hlook, Clear, hlook]
      simp only [ne_eq, heq, not_false_eq_true, forall_const]
      rw [clear_iff_of_le hpos (Nat.zero_le tail)]
      constructor
      · rintro ⟨_, hall, hpair⟩
        exact ⟨fun x hx => .inr (hall x hx).2, hpair⟩
      · rintro ⟨hall, hpair⟩
        refine ⟨.inl (Nat.le_of_lt hlt), fun x hx => ⟨Nat.zero_le _, ?_⟩, hpair⟩
        apply walk_le_tail (Nat.zero_le tail) _ x hx
        intro y hy
        have := hall y hy
        omega
    | record n =>
      rw [walk_record heq hlook, Clear, hlook, List.pairwise_cons]
      simp only [ne_eq, heq, not_false_eq_true, forall_const, List.forall_mem_cons]
      constructor
      · rintro ⟨_, hclear⟩
        obtain ⟨hall, hpair⟩ := (ih (by omega)).mp hclear
        refine ⟨⟨.inl (Nat.le_refl h), fun x hx => ?_⟩, fun x hx => ?_, hpair⟩
        · have := hall x hx
          omega
        · have := hall x hx
          unfold Apart
          dsimp only
          omega
      · rintro ⟨⟨_, hall⟩, hapart, hpair⟩
        refine ⟨.inl (Nat.le_of_lt hlt), (ih (by omega)).mpr ⟨fun x hx => ?_, hpair⟩⟩
        have hx₁ := hall x hx
        have hx₂ := walk_bounds hpos fuel (h + n) x hx
        have hx₃ := hapart x hx
        unfold Apart at hx₃
        dsimp only at hx₃
        omega

/-- The reader stays in what was published, and takes nothing twice, exactly when its way is
clear. -/
theorem published_iff (fuel head : ℕ) :
    Published head tail size (walk look tail fuel head) ↔ Clear look tail fuel head := by
  have hbounds := @walk_bounds look tail size hpos fuel head
  by_cases hle : head ≤ tail
  · rw [clear_iff_of_le hpos hle]
    constructor
    · rintro ⟨hin, honce⟩
      refine ⟨fun x hx => ?_, honce⟩
      have := hin x hx
      rwa [if_pos hle] at this
    · rintro ⟨hin, honce⟩
      refine ⟨fun x hx => ?_, honce⟩
      rw [if_pos hle]
      exact hin x hx
  · rw [clear_iff_of_lt hpos (Nat.lt_of_not_le hle)]
    constructor
    · rintro ⟨hin, honce⟩
      refine ⟨fun x hx => ?_, honce⟩
      have := hin x hx
      rw [if_neg hle] at this
      exact this.imp And.left id
    · rintro ⟨hin, honce⟩
      refine ⟨fun x hx => ?_, honce⟩
      rw [if_neg hle]
      exact (hin x hx).imp (fun h => ⟨h, (hbounds x hx).2⟩) id

end RingWalk
