import Mathlib

/-! # SHA-256 on byte lists, and its hexadecimal digest

    Words are natural numbers below `2 ^ 32`.  Proofs elsewhere use only that
    `sha256` is a function and that `hexdigest` has 64 lower-case hexadecimal
    characters (`isHex_hexdigest`). -/

namespace Sha256

def modulus : Nat := 0x100000000

def rotr (x n : Nat) : Nat := (x >>> n) ||| ((x <<< (32 - n)) % modulus)

def add (x y : Nat) : Nat := (x + y) % modulus

def complement (x : Nat) : Nat := 0xffffffff - x

/-- The eight working variables. -/
structure Working where
  a : Nat
  b : Nat
  c : Nat
  d : Nat
  e : Nat
  f : Nat
  g : Nat
  h : Nat

def initial : Working :=
  { a := 0x6a09e667, b := 0xbb67ae85, c := 0x3c6ef372, d := 0xa54ff53a
    e := 0x510e527f, f := 0x9b05688c, g := 0x1f83d9ab, h := 0x5be0cd19 }

def constants : List Nat :=
  [0x428a2f98, 0x71374491, 0xb5c0fbcf, 0xe9b5dba5, 0x3956c25b, 0x59f111f1, 0x923f82a4, 0xab1c5ed5,
   0xd807aa98, 0x12835b01, 0x243185be, 0x550c7dc3, 0x72be5d74, 0x80deb1fe, 0x9bdc06a7, 0xc19bf174,
   0xe49b69c1, 0xefbe4786, 0x0fc19dc6, 0x240ca1cc, 0x2de92c6f, 0x4a7484aa, 0x5cb0a9dc, 0x76f988da,
   0x983e5152, 0xa831c66d, 0xb00327c8, 0xbf597fc7, 0xc6e00bf3, 0xd5a79147, 0x06ca6351, 0x14292967,
   0x27b70a85, 0x2e1b2138, 0x4d2c6dfc, 0x53380d13, 0x650a7354, 0x766a0abb, 0x81c2c92e, 0x92722c85,
   0xa2bfe8a1, 0xa81a664b, 0xc24b8b70, 0xc76c51a3, 0xd192e819, 0xd6990624, 0xf40e3585, 0x106aa070,
   0x19a4c116, 0x1e376c08, 0x2748774c, 0x34b0bcb5, 0x391c0cb3, 0x4ed8aa4a, 0x5b9cca4f, 0x682e6ff3,
   0x748f82ee, 0x78a5636f, 0x84c87814, 0x8cc70208, 0x90befffa, 0xa4506ceb, 0xbef9a3f7, 0xc67178f2]

/-- Extend the message schedule, kept with its newest word first. -/
def extend : Nat → List Nat → List Nat
  | 0, w => w
  | n + 1, w =>
      let x := w.getD 1 0
      let y := w.getD 14 0
      let s1 := rotr x 17 ^^^ rotr x 19 ^^^ (x >>> 10)
      let s0 := rotr y 7 ^^^ rotr y 18 ^^^ (y >>> 3)
      extend n (add (add s1 (w.getD 6 0)) (add s0 (w.getD 15 0)) :: w)

def round (s : Working) (k w : Nat) : Working :=
  let t1 := add (add s.h (rotr s.e 6 ^^^ rotr s.e 11 ^^^ rotr s.e 25))
    (add ((s.e &&& s.f) ^^^ (complement s.e &&& s.g)) (add k w))
  let t2 := add (rotr s.a 2 ^^^ rotr s.a 13 ^^^ rotr s.a 22)
    ((s.a &&& s.b) ^^^ (s.a &&& s.c) ^^^ (s.b &&& s.c))
  { a := add t1 t2, b := s.a, c := s.b, d := s.c, e := add s.d t1, f := s.e, g := s.f, h := s.g }

def rounds : List Nat → List Nat → Working → Working
  | k :: ks, w :: ws, s => rounds ks ws (round s k w)
  | _, _, s => s

/-- Big-endian words. -/
def words : List UInt8 → List Nat
  | a :: b :: c :: d :: rest =>
      (((a.toNat * 256 + b.toNat) * 256 + c.toNat) * 256 + d.toNat) :: words rest
  | _ => []

def compress (s : Working) (block : List UInt8) : Working :=
  let r := rounds constants (extend 48 (words block).reverse).reverse s
  { a := add s.a r.a, b := add s.b r.b, c := add s.c r.c, d := add s.d r.d
    e := add s.e r.e, f := add s.f r.f, g := add s.g r.g, h := add s.h r.h }

/-- The last `k` big-endian bytes of `n`. -/
def bigEndian (n : Nat) : Nat → List UInt8
  | 0 => []
  | k + 1 => bigEndian (n / 256) k ++ [UInt8.ofNat (n % 256)]

def pad (m : List UInt8) : List UInt8 :=
  m ++ 0x80 :: (List.replicate ((119 - m.length % 64) % 64) 0 ++ bigEndian (8 * m.length) 8)

def blocks : Nat → Working → List UInt8 → Working
  | 0, s, _ => s
  | n + 1, s, m => blocks n (compress s (m.take 64)) (m.drop 64)

/-- The SHA-256 digest of a message. -/
def sha256 (m : List UInt8) : List UInt8 :=
  let s := blocks ((pad m).length / 64) initial (pad m)
  bigEndian s.a 4 ++ bigEndian s.b 4 ++ bigEndian s.c 4 ++ bigEndian s.d 4 ++
    bigEndian s.e 4 ++ bigEndian s.f 4 ++ bigEndian s.g 4 ++ bigEndian s.h 4

theorem bigEndian_length (n k : Nat) : (bigEndian n k).length = k := by
  induction k generalizing n with
  | zero => rfl
  | succ k ih => rw [bigEndian, List.length_append, ih]; rfl

theorem sha256_length (m : List UInt8) : (sha256 m).length = 32 := by
  simp only [sha256, List.length_append, bigEndian_length]

/-! ## Hexadecimal -/

/-- The code point of a hexadecimal digit. -/
def hexChar (n : Nat) : Nat := if n < 10 then 48 + n else 87 + n

def hex : List UInt8 → List Nat
  | [] => []
  | b :: bs => hexChar (b.toNat / 16) :: hexChar (b.toNat % 16) :: hex bs

/-- `hashlib.sha256(m).hexdigest()`, as code points. -/
def hexdigest (m : List UInt8) : List Nat := hex (sha256 m)

def isHexChar (c : Nat) : Bool := (48 ≤ c && c ≤ 57) || (97 ≤ c && c ≤ 102)

/-- The pattern `[0-9a-f]{64}`. -/
def isHex (s : List Nat) : Bool := s.length == 64 && s.all isHexChar

theorem isHexChar_hexChar {n : Nat} (h : n < 16) : isHexChar (hexChar n) = true := by
  unfold isHexChar hexChar
  split
  · simp only [Bool.or_eq_true, Bool.and_eq_true, decide_eq_true_eq]; omega
  · simp only [Bool.or_eq_true, Bool.and_eq_true, decide_eq_true_eq]; omega

theorem hex_length (bs : List UInt8) : (hex bs).length = 2 * bs.length := by
  induction bs with
  | nil => rfl
  | cons b bs ih => simp only [hex, List.length_cons, ih]; omega

theorem hex_all (bs : List UInt8) : (hex bs).all isHexChar = true := by
  induction bs with
  | nil => rfl
  | cons b bs ih =>
      have hb : b.toNat < 256 := b.toNat_lt
      simp only [hex, List.all_cons, ih, Bool.and_true, Bool.and_eq_true]
      exact ⟨isHexChar_hexChar (by omega), isHexChar_hexChar (by omega)⟩

/-- A digest has the form that the wire checks ask for. -/
theorem isHex_hexdigest (m : List UInt8) : isHex (hexdigest m) = true := by
  rw [isHex, hexdigest, hex_all, hex_length, sha256_length]
  rfl

example : (sha256 [97, 98, 99]).take 4 = [0xba, 0x78, 0x16, 0xbf] := by decide +kernel

end Sha256
