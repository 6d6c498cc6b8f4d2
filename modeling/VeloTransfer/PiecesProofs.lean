import Mathlib

/-! # Lists in pieces

    `pieces n k xs` are the first `k` pieces of `xs`, each of `n` elements but for the
    last one, which has what is left.

    * `flatten_pieces` — the pieces are a start of the list;
    * `pieces_append` — more pieces are those of the rest;
    * `pieces_enough` — once the list is used up there are no more. -/

namespace Pieces

variable {α : Type}

def pieces (n : Nat) : Nat → List α → List (List α)
  | 0, _ => []
  | _ + 1, [] => []
  | k + 1, x :: xs => (x :: xs).take n :: pieces n k ((x :: xs).drop n)

@[simp] theorem pieces_zero (n : Nat) (xs : List α) : pieces n 0 xs = [] := rfl

@[simp] theorem pieces_nil (n k : Nat) : pieces n k ([] : List α) = [] := by
  cases k with
  | zero => rfl
  | succ k => rfl

theorem pieces_succ {n k : Nat} {xs : List α} (h : xs ≠ []) :
    pieces n (k + 1) xs = xs.take n :: pieces n k (xs.drop n) := by
  cases xs with
  | nil => exact absurd rfl h
  | cons x xs => rfl

theorem flatten_pieces (n k : Nat) (xs : List α) : (pieces n k xs).flatten = xs.take (k * n) := by
  induction k generalizing xs with
  | zero => simp
  | succ k ih =>
      by_cases hxs : xs = []
      · simp [hxs]
      · rw [pieces_succ hxs, List.flatten_cons, ih, Nat.succ_mul, Nat.add_comm (k * n), List.take_add]

/-- Pieces of a positive length have something, and no more than that length. -/
theorem mem_pieces {n k : Nat} {xs p : List α} (hn : 0 < n) (h : p ∈ pieces n k xs) :
    0 < p.length ∧ p.length ≤ n := by
  induction k generalizing xs with
  | zero => exact absurd h List.not_mem_nil
  | succ k ih =>
      by_cases hxs : xs = []
      · simp [hxs] at h
      · rw [pieces_succ hxs] at h
        rcases List.mem_cons.mp h with rfl | h
        · have := List.length_pos_iff.mpr hxs
          rw [List.length_take]
          omega
        · exact ih h

theorem pieces_append (n j k : Nat) (xs : List α) :
    pieces n (j + k) xs = pieces n j xs ++ pieces n k (xs.drop (j * n)) := by
  induction j generalizing xs with
  | zero => simp
  | succ j ih =>
      by_cases hxs : xs = []
      · simp [hxs]
      · rw [Nat.succ_add, pieces_succ hxs, pieces_succ hxs, ih, List.drop_drop, Nat.succ_mul,
          Nat.add_comm (j * n), List.cons_append]

/-- A list that is used up has no more pieces. -/
theorem pieces_enough {n k : Nat} {xs : List α} (m : Nat) (h : xs.length ≤ k * n) :
    pieces n (k + m) xs = pieces n k xs := by
  rw [pieces_append, List.drop_of_length_le h, pieces_nil, List.append_nil]

/-- All of a list. -/
def whole (n : Nat) (xs : List α) : List (List α) := pieces n xs.length xs

theorem length_le_mul {n : Nat} (hn : 0 < n) (k : Nat) : k ≤ k * n := Nat.le_mul_of_pos_right k hn

theorem whole_eq {n k : Nat} {xs : List α} (hn : 0 < n) (h : xs.length ≤ k * n) :
    pieces n k xs = whole n xs := by
  rw [whole, ← pieces_enough xs.length h, Nat.add_comm, pieces_enough k (length_le_mul hn _)]

/-- The rest behind some pieces has the other pieces. -/
theorem pieces_whole {n : Nat} (hn : 0 < n) (k : Nat) (xs : List α) :
    pieces n k xs ++ whole n (xs.drop (k * n)) = whole n xs := by
  rw [whole, ← pieces_append]
  refine whole_eq hn ?_
  have hrest := length_le_mul hn (xs.drop (k * n)).length
  rw [List.length_drop] at hrest ⊢
  rw [Nat.add_mul]
  omega

theorem flatten_whole {n : Nat} (hn : 0 < n) (xs : List α) : (whole n xs).flatten = xs := by
  rw [whole, flatten_pieces, List.take_of_length_le (length_le_mul hn _)]

/-- The first pieces come before the others. -/
theorem pieces_prefix {n j k : Nat} (h : j ≤ k) (xs : List α) : pieces n j xs <+: pieces n k xs := by
  obtain ⟨m, rfl⟩ := Nat.exists_eq_add_of_le h
  rw [pieces_append]
  exact List.prefix_append _ _

end Pieces
