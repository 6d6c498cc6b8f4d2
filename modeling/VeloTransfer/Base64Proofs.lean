import Mathlib

/-! # Base64, with validation

    `encode` is `base64.b64encode`, `decode` is `base64.b64decode` with
    `validate=True`: groups of four characters, padding only at the end.
    Headline: `decode_encode`. -/

namespace Base64

/-- The character of a six-bit value. -/
def char (n : Nat) : Nat :=
  if n < 26 then 65 + n
  else if n < 52 then 71 + n
  else if n < 62 then n - 4
  else if n = 62 then 43
  else 47

/-- The six-bit value of a character. -/
def value (c : Nat) : Option Nat :=
  if 65 ≤ c ∧ c ≤ 90 then some (c - 65)
  else if 97 ≤ c ∧ c ≤ 122 then some (c - 71)
  else if 48 ≤ c ∧ c ≤ 57 then some (c + 4)
  else if c = 43 then some 62
  else if c = 47 then some 63
  else none

def encode : List UInt8 → List Nat
  | [] => []
  | [x] => [char (x.toNat / 4), char (x.toNat % 4 * 16), 61, 61]
  | [x, y] =>
      [char (x.toNat / 4), char (x.toNat % 4 * 16 + y.toNat / 16), char (y.toNat % 16 * 4), 61]
  | x :: y :: z :: rest =>
      char (x.toNat / 4) :: char (x.toNat % 4 * 16 + y.toNat / 16) ::
        char (y.toNat % 16 * 4 + z.toNat / 64) :: char (z.toNat % 64) :: encode rest

/-- The bytes of the first two, three or four values of a group. -/
def first (a b : Nat) : UInt8 := UInt8.ofNat (a * 4 + b / 16)
def second (b c : Nat) : UInt8 := UInt8.ofNat (b % 16 * 16 + c / 4)
def third (c d : Nat) : UInt8 := UInt8.ofNat (c % 4 * 64 + d)

/-- Decode groups of four; `none` is the `binascii.Error`. -/
def decode : List Nat → Option (List UInt8)
  | [] => some []
  | a :: b :: c :: d :: rest =>
      if d = 61 then
        if rest ≠ [] then none
        else if c = 61 then
          match value a, value b with
          | some a, some b => some [first a b]
          | _, _ => none
        else
          match value a, value b, value c with
          | some a, some b, some c => some [first a b, second b c]
          | _, _, _ => none
      else
        match value a, value b, value c, value d with
        | some a, some b, some c, some d =>
            (decode rest).map (fun bs => first a b :: second b c :: third c d :: bs)
        | _, _, _, _ => none
  | _ => none

private theorem value_char_all : ∀ n, n < 64 → value (char n) = some n ∧ char n ≠ 61 := by decide

theorem value_char {n : Nat} (h : n < 64) : value (char n) = some n := (value_char_all n h).1

theorem char_ne_pad {n : Nat} (h : n < 64) : char n ≠ 61 := (value_char_all n h).2

theorem first_join (x : UInt8) (low : Nat) (h : low < 16) :
    first (x.toNat / 4) (x.toNat % 4 * 16 + low) = x := by
  have hx : x.toNat / 4 * 4 + (x.toNat % 4 * 16 + low) / 16 = x.toNat := by omega
  rw [first, hx]
  exact UInt8.ofNat_toNat

theorem second_join (high low : Nat) (y : UInt8) (hl : low < 4) :
    second (high * 16 + y.toNat / 16) (y.toNat % 16 * 4 + low) = y := by
  have hy := y.toNat_lt
  have hsum : (high * 16 + y.toNat / 16) % 16 * 16 + (y.toNat % 16 * 4 + low) / 4 = y.toNat := by
    omega
  rw [second, hsum]
  exact UInt8.ofNat_toNat

theorem third_join (high : Nat) (z : UInt8) :
    third (high * 4 + z.toNat / 64) (z.toNat % 64) = z := by
  have hz := z.toNat_lt
  have hsum : (high * 4 + z.toNat / 64) % 4 * 64 + z.toNat % 64 = z.toNat := by omega
  rw [third, hsum]
  exact UInt8.ofNat_toNat

/-- Decoding inverts encoding. -/
theorem decode_encode : ∀ bs : List UInt8, decode (encode bs) = some bs
  | [] => rfl
  | [x] => by
      have hx := x.toNat_lt
      rw [encode, decode, if_pos rfl, if_neg (fun h => h rfl), if_pos rfl,
        value_char (by omega), value_char (by omega)]
      exact congrArg (fun b => some [b]) (first_join x 0 (by decide))
  | [x, y] => by
      have hx := x.toNat_lt
      have hy := y.toNat_lt
      rw [encode, decode, if_pos rfl, if_neg (fun h => h rfl), if_neg (char_ne_pad (by omega)),
        value_char (by omega), value_char (by omega), value_char (by omega)]
      show some [first _ _, second _ (y.toNat % 16 * 4 + 0)] = _
      rw [first_join x _ (by omega), second_join _ 0 y (by decide)]
  | x :: y :: z :: rest => by
      have hx := x.toNat_lt
      have hy := y.toNat_lt
      have hz := z.toNat_lt
      rw [encode, decode, if_neg (char_ne_pad (by omega)), value_char (by omega),
        value_char (by omega), value_char (by omega), value_char (by omega)]
      show (decode (encode rest)).map _ = _
      rw [decode_encode rest, first_join x _ (by omega), second_join _ _ y (by omega),
        third_join _ z]
      rfl

theorem encode_length : ∀ bs : List UInt8, (encode bs).length = 4 * ((bs.length + 2) / 3)
  | [] => rfl
  | [_] => by simp [encode]
  | [_, _] => by simp [encode]
  | _ :: _ :: _ :: rest => by
      simp only [encode, List.length_cons, encode_length rest]
      omega

end Base64
