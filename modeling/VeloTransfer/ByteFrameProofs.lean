import Mathlib

/-! # Bytes in frames

    A frame starts with a number of fixed width, and its payload is cut into parts
    whose sizes are told elsewhere.

    * `ofLittleEndian_littleEndian`, `littleEndian_ofLittleEndian` — a number of fixed
      width and its bytes, lowest first, determine each other;
    * `cut_iff` — cutting by sizes succeeds on exactly the lists that are the parts,
      one after the other. -/

namespace ByteFrame

/-! ## Numbers of fixed width -/

/-- The lowest `width` bytes of a number, the lowest first. -/
def littleEndian : Nat → Nat → List UInt8
  | 0, _ => []
  | width + 1, n => UInt8.ofNat n :: littleEndian width (n / 256)

def ofLittleEndian : List UInt8 → Nat
  | [] => 0
  | b :: bs => b.toNat + 256 * ofLittleEndian bs

@[simp] theorem littleEndian_length (width n : Nat) : (littleEndian width n).length = width := by
  induction width generalizing n with
  | zero => rfl
  | succ width ih => exact congrArg (· + 1) (ih (n / 256))

theorem ofLittleEndian_littleEndian {width n : Nat} (h : n < 256 ^ width) :
    ofLittleEndian (littleEndian width n) = n := by
  induction width generalizing n with
  | zero =>
      have hzero : n = 0 := by simpa using h
      rw [hzero]
      rfl
  | succ width ih =>
      have hrest : n / 256 < 256 ^ width := by
        rw [Nat.div_lt_iff_lt_mul (by decide)]
        rwa [Nat.pow_succ] at h
      show (UInt8.ofNat n).toNat + 256 * ofLittleEndian (littleEndian width (n / 256)) = n
      rw [ih hrest, UInt8.toNat_ofNat']
      exact Nat.mod_add_div n 256

theorem ofLittleEndian_lt (bs : List UInt8) : ofLittleEndian bs < 256 ^ bs.length := by
  induction bs with
  | nil => exact Nat.one_pos
  | cons b bs ih =>
      have hb := b.toNat_lt
      show b.toNat + 256 * ofLittleEndian bs < 256 ^ (bs.length + 1)
      rw [Nat.pow_succ]
      omega

theorem littleEndian_ofLittleEndian (bs : List UInt8) : littleEndian bs.length (ofLittleEndian bs) = bs := by
  induction bs with
  | nil => rfl
  | cons b bs ih =>
      have hb := b.toNat_lt
      have hlow : UInt8.ofNat (b.toNat + 256 * ofLittleEndian bs) = b := by
        apply UInt8.toNat_inj.mp
        rw [UInt8.toNat_ofNat']
        omega
      have hhigh : (b.toNat + 256 * ofLittleEndian bs) / 256 = ofLittleEndian bs := by omega
      show UInt8.ofNat (b.toNat + 256 * ofLittleEndian bs)
        :: littleEndian bs.length ((b.toNat + 256 * ofLittleEndian bs) / 256) = b :: bs
      rw [hlow, hhigh, ih]

/-! ## Parts of a list -/

variable {α : Type}

/-- The parts of these sizes, where nothing is missing and nothing is left. -/
def cut : List Nat → List α → Option (List (List α))
  | [], xs => if xs.isEmpty then some [] else none
  | size :: sizes, xs =>
      if size ≤ xs.length then (cut sizes (xs.drop size)).map (xs.take size :: ·) else none

/-- **Cutting is exact.** -/
theorem cut_iff {sizes : List Nat} {xs : List α} {parts : List (List α)} :
    cut sizes xs = some parts ↔ parts.flatten = xs ∧ parts.map List.length = sizes := by
  induction sizes generalizing xs parts with
  | nil =>
      unfold cut
      cases xs with
      | nil =>
          constructor
          · intro h
            obtain rfl := Option.some.inj h
            exact ⟨rfl, rfl⟩
          · rintro ⟨-, hsizes⟩
            rw [List.map_eq_nil_iff.mp hsizes]
            rfl
      | cons x xs =>
          constructor
          · intro h
            exact absurd h nofun
          · rintro ⟨hflat, hsizes⟩
            rw [List.map_eq_nil_iff.mp hsizes] at hflat
            exact absurd hflat nofun
  | cons size sizes ih =>
      unfold cut
      constructor
      · intro h
        split at h
        next hsize =>
          obtain ⟨rest, hrest, rfl⟩ := Option.map_eq_some_iff.mp h
          obtain ⟨hflat, hsizes⟩ := ih.mp hrest
          refine ⟨?_, ?_⟩
          · rw [List.flatten_cons, hflat]
            exact List.take_append_drop size xs
          · rw [List.map_cons, hsizes, List.length_take, Nat.min_eq_left hsize]
        · exact absurd h nofun
      · rintro ⟨rfl, hsizes⟩
        cases parts with
        | nil => exact absurd hsizes nofun
        | cons part parts =>
            obtain ⟨rfl, rfl⟩ := List.cons.inj hsizes
            rw [List.flatten_cons, if_pos (by rw [List.length_append]; omega), List.drop_left, List.take_left,
              ih.mpr ⟨rfl, rfl⟩]
            rfl

end ByteFrame
