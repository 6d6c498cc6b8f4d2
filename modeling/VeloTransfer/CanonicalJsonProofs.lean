import Mathlib

/-! # JSON text: rendering, parsing, and the round trip

    Texts are lists of code points (surrogates included: a Python `str` may
    hold them).  `render` writes a value compactly, with the escapes of
    `json.dumps(ensure_ascii=False)`; `parseValue` is the decoder of
    `json.loads`, with its white space, its escapes and its number grammar.

    * `parseValue_render` — reading back what was rendered gives the value and
      leaves the rest of the text;
    * `loads_dumps` — the same for UTF-8 encoded documents, for every value
      without duplicate keys and without lone surrogates. -/

namespace CanonicalJson

/-- A text: the code points of a `str`. -/
abbrev Text := List Nat

instance : LawfulBEq Text := List.instLawfulBEq

/-- The code points of an ASCII literal. -/
def ascii (s : String) : Text := s.toList.map Char.toNat

/-- The code points of a literal that is spelled out: a literal is its spelling by definition. -/
theorem ascii_ofList (cs : List Char) : ascii (String.ofList cs) = cs.map Char.toNat :=
  congrArg (List.map Char.toNat) String.toList_ofList

/-- A JSON value.  A number with a fraction or an exponent keeps its token. -/
inductive Json where
  | null
  | bool (b : Bool)
  | int (i : Int)
  | float (token : Text)
  | str (s : Text)
  | arr (items : List Json)
  | obj (fields : List (Text × Json))
deriving Repr

/-! ## Decimal numbers -/

/-- The decimal digits of `n` in front of `acc`, at most `fuel` of them. -/
def decimalAux : Nat → Nat → Text → Text
  | 0, _, acc => acc
  | fuel + 1, n, acc =>
      if n / 10 = 0 then (48 + n % 10) :: acc
      else decimalAux fuel (n / 10) ((48 + n % 10) :: acc)

/-- The decimal digits of `n`: the value of `str(n)`. -/
def decimal (n : Nat) : Text := decimalAux (Nat.log2 n + 1) n []

/-- The digits of an integer, with its sign. -/
def renderInt (i : Int) : Text :=
  if i < 0 then 45 :: decimal i.natAbs else decimal i.natAbs

def isDigit (c : Nat) : Bool := 48 ≤ c && c ≤ 57

def digitValue (c : Nat) : Nat := c - 48

/-- The number that a digit string denotes, continuing from `n`. -/
def ofDigits (n : Nat) (ds : Text) : Nat := ds.foldl (fun a d => a * 10 + digitValue d) n

/-- Split off the longest digit prefix. -/
def spanDigits : Text → Text × Text
  | [] => ([], [])
  | c :: cs => if isDigit c then ((c :: (spanDigits cs).1), (spanDigits cs).2) else ([], c :: cs)

/-- The next character is no digit. -/
def NoDigit (rest : Text) : Prop := ∀ c cs, rest = c :: cs → isDigit c = false

theorem noDigit_nil : NoDigit [] := by intro c cs h; cases h

theorem noDigit_cons {c : Nat} {cs : Text} (h : isDigit c = false) : NoDigit (c :: cs) := by
  intro c' cs' h'
  cases h'
  exact h

theorem isDigit_digit (n : Nat) : isDigit (48 + n % 10) = true := by
  simp only [isDigit, Bool.and_eq_true, decide_eq_true_eq]
  omega

theorem digitValue_digit (n : Nat) : digitValue (48 + n % 10) = n % 10 := by
  rw [digitValue, Nat.add_sub_cancel_left]

theorem decimalAux_append (fuel n : Nat) (acc : Text) :
    decimalAux fuel n acc = decimalAux fuel n [] ++ acc := by
  induction fuel generalizing n acc with
  | zero => rfl
  | succ fuel ih =>
      simp only [decimalAux]
      split
      · rfl
      · rw [ih, ih (n / 10) [_], List.append_assoc]
        rfl

theorem ofDigits_append (n : Nat) (ds es : Text) :
    ofDigits n (ds ++ es) = ofDigits (ofDigits n ds) es :=
  List.foldl_append

theorem ofDigits_digit (m n : Nat) : ofDigits m [48 + n % 10] = m * 10 + n % 10 := by
  rw [ofDigits, List.foldl_cons, List.foldl_nil, digitValue_digit]

theorem ofDigits_decimalAux {fuel n : Nat} (h : n < 10 ^ fuel) :
    ofDigits 0 (decimalAux fuel n []) = n := by
  induction fuel generalizing n with
  | zero =>
      have : n = 0 := by simpa using h
      rw [this]
      rfl
  | succ fuel ih =>
      simp only [decimalAux]
      split
      next h0 =>
        rw [ofDigits_digit]
        clear h
        omega
      next h0 =>
        have hlt : n / 10 < 10 ^ fuel := by
          rw [Nat.div_lt_iff_lt_mul (by decide)]
          rwa [Nat.pow_succ] at h
        rw [decimalAux_append, ofDigits_append, ih hlt, ofDigits_digit]
        clear h hlt
        omega

theorem lt_pow_log2 (n : Nat) : n < 10 ^ (Nat.log2 n + 1) :=
  Nat.lt_of_lt_of_le Nat.lt_log2_self (Nat.pow_le_pow_left (by decide) _)

theorem ofDigits_decimal (n : Nat) : ofDigits 0 (decimal n) = n :=
  ofDigits_decimalAux (lt_pow_log2 n)

theorem decimalAux_digits (fuel n : Nat) : ∀ c ∈ decimalAux fuel n [], isDigit c = true := by
  induction fuel generalizing n with
  | zero => intro c hc; exact absurd hc List.not_mem_nil
  | succ fuel ih =>
      intro c hc
      simp only [decimalAux] at hc
      split at hc
      · rw [List.mem_singleton] at hc
        rw [hc]
        exact isDigit_digit n
      · rw [decimalAux_append, List.mem_append, List.mem_singleton] at hc
        rcases hc with hc | rfl
        · exact ih _ c hc
        · exact isDigit_digit n

theorem decimal_digits (n : Nat) : ∀ c ∈ decimal n, isDigit c = true :=
  decimalAux_digits _ _

/-- A multi-digit number does not start with zero. -/
theorem decimalAux_head {fuel n : Nat} (hn : 0 < n) (h : n < 10 ^ fuel) :
    ∃ c cs, decimalAux fuel n [] = c :: cs ∧ c ≠ 48 := by
  induction fuel generalizing n with
  | zero =>
      have : n = 0 := by simpa using h
      omega
  | succ fuel ih =>
      simp only [decimalAux]
      split
      next h0 =>
        clear h
        exact ⟨_, _, rfl, by omega⟩
      next h0 =>
        have hlt : n / 10 < 10 ^ fuel := by
          rw [Nat.div_lt_iff_lt_mul (by decide)]
          rwa [Nat.pow_succ] at h
        obtain ⟨c, cs, heq, hc⟩ := ih (Nat.pos_of_ne_zero h0) hlt
        exact ⟨c, cs ++ [_], by rw [decimalAux_append, heq]; rfl, hc⟩

theorem decimalAux_length {fuel n k : Nat} (hk : 0 < k) (h : n < 10 ^ k) :
    (decimalAux fuel n []).length ≤ k := by
  induction fuel generalizing n k with
  | zero => exact Nat.zero_le k
  | succ fuel ih =>
      simp only [decimalAux]
      split
      next h0 => exact hk
      next h0 =>
        obtain ⟨k, rfl⟩ : ∃ j, k = j + 1 := ⟨k - 1, by omega⟩
        have hlt : n / 10 < 10 ^ k := by
          rw [Nat.div_lt_iff_lt_mul (by decide)]
          rwa [Nat.pow_succ] at h
        have hpos : 0 < k := by
          rcases Nat.eq_zero_or_pos k with rfl | hpos
          · rw [Nat.pow_zero, Nat.lt_one_iff] at hlt
            exact absurd hlt h0
          · exact hpos
        rw [decimalAux_append, List.length_append]
        exact Nat.succ_le_succ (ih hpos hlt)

/-- A number below `10 ^ k` has at most `k` digits. -/
theorem decimal_length {n k : Nat} (hk : 0 < k) (h : n < 10 ^ k) : (decimal n).length ≤ k :=
  decimalAux_length hk h

theorem decimal_zero : decimal 0 = [48] := rfl

theorem decimal_cons (n : Nat) :
    ∃ c cs, decimal n = c :: cs ∧ isDigit c = true ∧ (c = 48 → cs = []) := by
  by_cases hn : n = 0
  · subst hn
    exact ⟨48, [], decimal_zero, rfl, fun _ => rfl⟩
  · obtain ⟨c, cs, heq, hc⟩ := decimalAux_head (Nat.pos_of_ne_zero hn) (lt_pow_log2 n)
    refine ⟨c, cs, heq, ?_, fun h => absurd h hc⟩
    exact decimal_digits n c (by rw [decimal, heq]; exact List.mem_cons_self)

theorem spanDigits_append {ds rest : Text} (hd : ∀ c ∈ ds, isDigit c = true)
    (hr : NoDigit rest) : spanDigits (ds ++ rest) = (ds, rest) := by
  induction ds with
  | nil =>
      cases rest with
      | nil => rfl
      | cons c cs =>
          show spanDigits (c :: cs) = _
          rw [spanDigits, hr c cs rfl]
          rfl
  | cons d ds ih =>
      show spanDigits (d :: (ds ++ rest)) = _
      rw [spanDigits, if_pos (hd d List.mem_cons_self),
        ih (fun c hc => hd c (List.mem_cons_of_mem _ hc))]

/-! ## Rendering -/

/-- The four hexadecimal digits of a `\u` escape below `0x20`. -/
def hexDigit (n : Nat) : Nat := if n < 10 then 48 + n else 87 + n

/-- One character of a string literal. -/
def renderChar (c : Nat) : Text :=
  if c = 34 then [92, 34]
  else if c = 92 then [92, 92]
  else if c = 10 then [92, 110]
  else if c = 13 then [92, 114]
  else if c = 9 then [92, 116]
  else if c = 12 then [92, 102]
  else if c = 8 then [92, 98]
  else if c < 32 then [92, 117, 48, 48, hexDigit (c / 16), hexDigit (c % 16)]
  else [c]

def renderChars : Text → Text
  | [] => []
  | c :: cs => renderChar c ++ renderChars cs

/-- A string literal with its quotes. -/
def renderString (s : Text) : Text := 34 :: (renderChars s ++ [34])

mutual

/-- The compact text of a value. -/
def render : Json → Text
  | .null => ascii "null"
  | .bool true => ascii "true"
  | .bool false => ascii "false"
  | .int i => renderInt i
  | .float token => token
  | .str s => renderString s
  | .arr [] => ascii "[]"
  | .arr (x :: xs) => 91 :: (render x ++ renderItems xs)
  | .obj [] => ascii "{}"
  | .obj ((k, v) :: fs) => 123 :: (renderString k ++ 58 :: (render v ++ renderFields fs))

/-- The rest of an array after one of its items. -/
def renderItems : List Json → Text
  | [] => [93]
  | x :: xs => 44 :: (render x ++ renderItems xs)

/-- The rest of an object after one of its fields. -/
def renderFields : List (Text × Json) → Text
  | [] => [125]
  | (k, v) :: fs => 44 :: (renderString k ++ 58 :: (render v ++ renderFields fs))

end

/-! ## Parsing -/

/-- Why a document is refused. -/
inductive ParseError where
  | syntaxError
  | duplicateKey
deriving Repr, DecidableEq

/-- The result of reading a prefix of a text: the value and the rest. -/
abbrev Parse (α : Type) := Except ParseError (α × Text)

def isSpace (c : Nat) : Bool := c == 32 || c == 9 || c == 10 || c == 13

def skipSpace : Text → Text
  | [] => []
  | c :: cs => if isSpace c then skipSpace cs else c :: cs

def hexValue (c : Nat) : Option Nat :=
  if 48 ≤ c ∧ c ≤ 57 then some (c - 48)
  else if 97 ≤ c ∧ c ≤ 102 then some (c - 87)
  else if 65 ≤ c ∧ c ≤ 70 then some (c - 55)
  else none

/-- The code unit of a `\u` escape. -/
def hex4 : Text → Option (Nat × Text)
  | a :: b :: c :: d :: rest =>
      match hexValue a, hexValue b, hexValue c, hexValue d with
      | some a, some b, some c, some d => some (((a * 16 + b) * 16 + c) * 16 + d, rest)
      | _, _, _, _ => none
  | _ => none

/-- A high surrogate escape followed by a low one is a single character. -/
def lowSurrogate (u : Nat) (rest : Text) : Option (Nat × Text) :=
  if 0xd800 ≤ u ∧ u ≤ 0xdbff then
    match rest with
    | 92 :: 117 :: rest' =>
        match hex4 rest' with
        | some (v, rest'') =>
            if 0xdc00 ≤ v ∧ v ≤ 0xdfff then
              some (0x10000 + (u - 0xd800) * 1024 + (v - 0xdc00), rest'')
            else none
        | none => none
    | _ => none
  else none

/-- The character of a one-letter escape. -/
def escapeValue (e : Nat) : Option Nat :=
  if e = 34 then some 34
  else if e = 92 then some 92
  else if e = 47 then some 47
  else if e = 98 then some 8
  else if e = 102 then some 12
  else if e = 110 then some 10
  else if e = 114 then some 13
  else if e = 116 then some 9
  else none

/-- Put a character in front of a scanned string. -/
def prepend (c : Nat) : Parse Text → Parse Text
  | .ok (s, rest) => .ok (c :: s, rest)
  | .error e => .error e

/-- Read a string literal after its opening quote. -/
def scanString : Nat → Text → Parse Text
  | 0, _ => .error .syntaxError
  | _ + 1, [] => .error .syntaxError
  | fuel + 1, c :: cs =>
      if c = 34 then .ok ([], cs)
      else if c = 92 then
        match cs with
        | [] => .error .syntaxError
        | e :: es =>
            if e = 117 then
              match hex4 es with
              | none => .error .syntaxError
              | some (u, rest) =>
                  match lowSurrogate u rest with
                  | some (v, rest') => prepend v (scanString fuel rest')
                  | none => prepend u (scanString fuel rest)
            else
              match escapeValue e with
              | none => .error .syntaxError
              | some v => prepend v (scanString fuel es)
      else if c < 32 then .error .syntaxError
      else prepend c (scanString fuel cs)

/-- The integer part of a number: a zero, or digits without a leading zero. -/
def matchInt : Text → Option (Text × Text)
  | [] => none
  | c :: cs =>
      if c = 48 then some ([48], cs)
      else if isDigit c then some (c :: (spanDigits cs).1, (spanDigits cs).2)
      else none

/-- The fraction of a number; empty when there is none. -/
def matchFraction : Text → Text × Text
  | [] => ([], [])
  | c :: cs =>
      if c = 46 ∧ (spanDigits cs).1 ≠ [] then (46 :: (spanDigits cs).1, (spanDigits cs).2)
      else ([], c :: cs)

/-- The exponent of a number; empty when there is none. -/
def matchExponent : Text → Text × Text
  | [] => ([], [])
  | c :: cs =>
      if c = 101 ∨ c = 69 then
        match cs with
        | [] => ([], c :: cs)
        | d :: ds =>
            if (d = 43 ∨ d = 45) ∧ (spanDigits ds).1 ≠ [] then
              (c :: d :: (spanDigits ds).1, (spanDigits ds).2)
            else if (spanDigits cs).1 ≠ [] then (c :: (spanDigits cs).1, (spanDigits cs).2)
            else ([], c :: cs)
      else ([], c :: cs)

/-- A number without its sign. -/
def matchUnsigned (negative : Bool) (cs : Text) : Parse Json :=
  match matchInt cs with
  | none => .error .syntaxError
  | some (digits, rest) =>
      let (fraction, rest') := matchFraction rest
      let (exponent, rest'') := matchExponent rest'
      if fraction = [] ∧ exponent = [] then
        .ok (.int (if negative then - (ofDigits 0 digits : Int) else ofDigits 0 digits), rest)
      else
        .ok (.float ((if negative then [45] else []) ++ digits ++ fraction ++ exponent), rest'')

/-- A number: the rule that `scan_once` falls through to. -/
def matchNumber : Text → Parse Json
  | [] => .error .syntaxError
  | c :: cs => if c = 45 then matchUnsigned true cs else matchUnsigned false (c :: cs)

def hasDuplicate : List (Text × Json) → Bool
  | [] => false
  | (k, _) :: fs => fs.any (fun f => f.1 == k) || hasDuplicate fs

/-- The object hook that refuses a repeated key. -/
def makeObject (pairs : List (Text × Json)) : Except ParseError Json :=
  if hasDuplicate pairs then .error .duplicateKey else .ok (.obj pairs)

mutual

/-- Read one value at the head of a text, nesting at most `fuel` deep. -/
def parseValue : Nat → Text → Parse Json
  | 0, _ => .error .syntaxError
  | _ + 1, [] => .error .syntaxError
  | fuel + 1, c :: cs =>
      if c = 34 then
        match scanString (cs.length + 1) cs with
        | .ok (s, rest) => .ok (.str s, rest)
        | .error e => .error e
      else if c = 123 then
        match skipSpace cs with
        | [] => .error .syntaxError
        | d :: ds =>
            if d = 125 then .ok (.obj [], ds)
            else if d = 34 then
              match parseFields fuel ds with
              | .ok (pairs, rest) => (makeObject pairs).map (fun v => (v, rest))
              | .error e => .error e
            else .error .syntaxError
      else if c = 91 then
        match skipSpace cs with
        | [] => .error .syntaxError
        | d :: ds =>
            if d = 93 then .ok (.arr [], ds)
            else
              match parseItems fuel (d :: ds) with
              | .ok (items, rest) => .ok (.arr items, rest)
              | .error e => .error e
      else if ascii "null" <+: c :: cs then .ok (.null, (c :: cs).drop 4)
      else if ascii "true" <+: c :: cs then .ok (.bool true, (c :: cs).drop 4)
      else if ascii "false" <+: c :: cs then .ok (.bool false, (c :: cs).drop 5)
      else matchNumber (c :: cs)

/-- Read the items of an array, the first one at the head of the text. -/
def parseItems : Nat → Text → Parse (List Json)
  | 0, _ => .error .syntaxError
  | fuel + 1, cs =>
      match parseValue fuel cs with
      | .error e => .error e
      | .ok (x, rest) =>
          match skipSpace rest with
          | [] => .error .syntaxError
          | d :: ds =>
              if d = 93 then .ok ([x], ds)
              else if d = 44 then
                match parseItems fuel (skipSpace ds) with
                | .error e => .error e
                | .ok (xs, rest') => .ok (x :: xs, rest')
              else .error .syntaxError

/-- Read the fields of an object, after the first key's opening quote. -/
def parseFields : Nat → Text → Parse (List (Text × Json))
  | 0, _ => .error .syntaxError
  | fuel + 1, cs =>
      match scanString (cs.length + 1) cs with
      | .error e => .error e
      | .ok (k, rest) =>
          match skipSpace rest with
          | [] => .error .syntaxError
          | d :: ds =>
              if d = 58 then
                match parseValue fuel (skipSpace ds) with
                | .error e => .error e
                | .ok (v, rest') =>
                    match skipSpace rest' with
                    | [] => .error .syntaxError
                    | e :: es =>
                        if e = 125 then .ok ([(k, v)], es)
                        else if e = 44 then
                          match skipSpace es with
                          | [] => .error .syntaxError
                          | f :: fs =>
                              if f = 34 then
                                match parseFields fuel fs with
                                | .error e => .error e
                                | .ok (kvs, rest'') => .ok ((k, v) :: kvs, rest'')
                              else .error .syntaxError
                        else .error .syntaxError
              else .error .syntaxError

end

/-- A whole document: one value, with white space around it. -/
def parseDocument (cs : Text) : Except ParseError Json :=
  match parseValue (cs.length + 1) (skipSpace cs) with
  | .error e => .error e
  | .ok (v, rest) => if skipSpace rest = [] then .ok v else .error .syntaxError

/-! ## Reading back what was rendered -/

private theorem hexValue_all : ∀ n, n < 16 → hexValue (hexDigit n) = some n := by decide

theorem hexValue_hexDigit {n : Nat} (h : n < 16) : hexValue (hexDigit n) = some n :=
  hexValue_all n h

/-- The two hexadecimal digits of a control character read back. -/
theorem hex4_control {c : Nat} (h : c < 32) (rest : Text) :
    hex4 (48 :: 48 :: hexDigit (c / 16) :: hexDigit (c % 16) :: rest) = some (c, rest) := by
  have h0 : hexValue 48 = some 0 := rfl
  have hq : c / 16 < 16 := by omega
  have hr : c % 16 < 16 := by omega
  simp only [hex4, h0, hexValue_hexDigit hq, hexValue_hexDigit hr]
  have hc : ((0 * 16 + 0) * 16 + c / 16) * 16 + c % 16 = c := by omega
  rw [hc]

theorem lowSurrogate_small {u : Nat} (h : u < 0xd800) (rest : Text) :
    lowSurrogate u rest = none := by
  have : ¬ (0xd800 ≤ u ∧ u ≤ 0xdbff) := by omega
  unfold lowSurrogate
  rw [if_neg this]

/-- One rendered character is scanned back as that character. -/
theorem scanString_renderChar (fuel c : Nat) (rest : Text) :
    scanString (fuel + 1) (renderChar c ++ rest) = prepend c (scanString fuel rest) := by
  unfold renderChar
  by_cases h34 : c = 34
  · subst h34; rfl
  by_cases h92 : c = 92
  · subst h92; rfl
  by_cases h10 : c = 10
  · subst h10; rfl
  by_cases h13 : c = 13
  · subst h13; rfl
  by_cases h9 : c = 9
  · subst h9; rfl
  by_cases h12 : c = 12
  · subst h12; rfl
  by_cases h8 : c = 8
  · subst h8; rfl
  rw [if_neg h34, if_neg h92, if_neg h10, if_neg h13, if_neg h9, if_neg h12, if_neg h8]
  by_cases h32 : c < 32
  · rw [if_pos h32]
    simp only [List.cons_append, List.nil_append, scanString, hex4_control h32,
      lowSurrogate_small (Nat.lt_trans h32 (by decide : 32 < 0xd800))]
    rfl
  · rw [if_neg h32]
    simp only [List.cons_append, List.nil_append, scanString, if_neg h34, if_neg h92, if_neg h32]

theorem scanString_renderChars {fuel : Nat} (s rest : Text) (h : s.length < fuel) :
    scanString fuel (renderChars s ++ 34 :: rest) = .ok (s, rest) := by
  induction s generalizing fuel with
  | nil =>
      obtain ⟨fuel, rfl⟩ : ∃ k, fuel = k + 1 := ⟨fuel - 1, by simp at h; omega⟩
      rfl
  | cons c s ih =>
      obtain ⟨fuel, rfl⟩ : ∃ k, fuel = k + 1 := ⟨fuel - 1, by simp at h; omega⟩
      rw [renderChars, List.append_assoc, scanString_renderChar, ih (by simpa using h)]
      rfl

theorem renderChar_length (c : Nat) : 0 < (renderChar c).length := by
  unfold renderChar
  repeat' split
  all_goals simp

theorem renderChars_length (s : Text) : s.length ≤ (renderChars s).length := by
  induction s with
  | nil => exact Nat.le_refl 0
  | cons c s ih =>
      have := renderChar_length c
      simp only [renderChars, List.length_append, List.length_cons]
      omega

/-- The body of a rendered string is scanned with the fuel its caller gives. -/
theorem scanString_rendered (s rest : Text) :
    scanString ((renderChars s ++ 34 :: rest).length + 1) (renderChars s ++ 34 :: rest)
      = .ok (s, rest) := by
  apply scanString_renderChars
  have := renderChars_length s
  simp only [List.length_append]
  omega

/-- The text after a number does not continue it. -/
def Delimited (rest : Text) : Prop :=
  ∀ c cs, rest = c :: cs → isDigit c = false ∧ c ≠ 46 ∧ c ≠ 101 ∧ c ≠ 69

theorem delimited_nil : Delimited [] := by intro c cs h; cases h

theorem delimited_cons {c : Nat} (cs : Text)
    (h : isDigit c = false ∧ c ≠ 46 ∧ c ≠ 101 ∧ c ≠ 69) : Delimited (c :: cs) := by
  intro c' cs' h'
  cases h'
  exact h

theorem Delimited.noDigit {rest : Text} (h : Delimited rest) : NoDigit rest :=
  fun c cs hc => (h c cs hc).1

theorem matchFraction_delimited {rest : Text} (h : Delimited rest) :
    matchFraction rest = ([], rest) := by
  cases rest with
  | nil => rfl
  | cons c cs =>
      rw [matchFraction, if_neg]
      exact fun hc => (h c cs rfl).2.1 hc.1

theorem matchExponent_delimited {rest : Text} (h : Delimited rest) :
    matchExponent rest = ([], rest) := by
  cases rest with
  | nil => rfl
  | cons c cs =>
      obtain ⟨-, -, h101, h69⟩ := h c cs rfl
      unfold matchExponent
      exact if_neg (fun hc => hc.elim h101 h69)

theorem matchInt_decimal (n : Nat) {rest : Text} (h : NoDigit rest) :
    matchInt (decimal n ++ rest) = some (decimal n, rest) := by
  obtain ⟨c, cs, heq, hc, h0⟩ := decimal_cons n
  have hall := decimal_digits n
  rw [heq] at hall ⊢
  by_cases hz : c = 48
  · rw [h0 hz, hz]
    rfl
  · have hspan := spanDigits_append (fun d hd => hall d (List.mem_cons_of_mem _ hd)) h
    show matchInt (c :: (cs ++ rest)) = _
    rw [matchInt, if_neg hz, if_pos hc, hspan]

theorem matchUnsigned_decimal (negative : Bool) (n : Nat) {rest : Text} (h : Delimited rest) :
    matchUnsigned negative (decimal n ++ rest)
      = .ok (.int (if negative then - (n : Int) else n), rest) := by
  simp only [matchUnsigned, matchInt_decimal n h.noDigit, matchFraction_delimited h,
    matchExponent_delimited h, ofDigits_decimal, and_self, if_true]

/-- An integer reads back, whatever follows it. -/
theorem matchNumber_renderInt (i : Int) {rest : Text} (h : Delimited rest) :
    matchNumber (renderInt i ++ rest) = .ok (.int i, rest) := by
  unfold renderInt
  by_cases hi : i < 0
  · rw [if_pos hi]
    show matchNumber (45 :: (decimal i.natAbs ++ rest)) = _
    rw [matchNumber, if_pos rfl, matchUnsigned_decimal true _ h, if_pos rfl]
    have : - (i.natAbs : Int) = i := by omega
    rw [this]
  · rw [if_neg hi]
    obtain ⟨c, cs, heq, hc, -⟩ := decimal_cons i.natAbs
    have hne : c ≠ 45 := by
      rintro rfl
      exact absurd hc (by decide)
    have hrun := matchUnsigned_decimal false i.natAbs h
    rw [heq] at hrun ⊢
    show matchNumber (c :: (cs ++ rest)) = _
    rw [matchNumber, if_neg hne]
    refine hrun.trans ?_
    have : (i.natAbs : Int) = i := by omega
    rw [this]
    rfl

mutual

/-- A bound on the nesting that reading a value back needs. -/
def Json.size : Json → Nat
  | .arr items => 1 + itemsSize items
  | .obj fields => 1 + fieldsSize fields
  | _ => 1

def itemsSize : List Json → Nat
  | [] => 0
  | x :: xs => 1 + x.size + itemsSize xs

def fieldsSize : List (Text × Json) → Nat
  | [] => 0
  | (_, v) :: fs => 1 + v.size + fieldsSize fs

end

/-- The token of a fractional number, as `float.__repr__` writes it: the number
    rule reads exactly this token back. -/
structure FloatToken (t : Text) : Prop where
  head : ∃ c cs, t = c :: cs ∧ (c = 45 ∨ isDigit c = true)
  ascii : ∀ c ∈ t, 0 < c ∧ c < 127
  reads : ∀ rest, Delimited rest → matchNumber (t ++ rest) = .ok (.float t, rest)

mutual

/-- Values without repeated keys, whose fractional numbers read back. -/
def Json.Plain : Json → Prop
  | .float token => FloatToken token
  | .arr items => PlainItems items
  | .obj fields => hasDuplicate fields = false ∧ PlainFields fields
  | _ => True

def PlainItems : List Json → Prop
  | [] => True
  | x :: xs => x.Plain ∧ PlainItems xs

def PlainFields : List (Text × Json) → Prop
  | [] => True
  | (_, v) :: fs => v.Plain ∧ PlainFields fs

end

theorem skipSpace_cons {c : Nat} (cs : Text) (h : isSpace c = false) :
    skipSpace (c :: cs) = c :: cs := by
  rw [skipSpace, h]
  rfl

/-- A number starts with a sign or a digit. -/
theorem number_head {c : Nat} (hc : c = 45 ∨ isDigit c = true) : 45 ≤ c ∧ c ≤ 57 := by
  rcases hc with rfl | hc
  · decide
  · simp only [isDigit, Bool.and_eq_true, decide_eq_true_eq] at hc
    omega

/-- No rendered value starts with white space or with a closing bracket. -/
theorem render_head (v : Json) (hv : v.Plain) :
    ∃ c cs, render v = c :: cs ∧ isSpace c = false ∧ c ≠ 93 := by
  cases v with
  | null => exact ⟨110, ascii "ull", rfl, rfl, by decide⟩
  | bool b =>
      cases b with
      | true => exact ⟨116, ascii "rue", rfl, rfl, by decide⟩
      | false => exact ⟨102, ascii "alse", rfl, rfl, by decide⟩
  | int i =>
      by_cases hi : i < 0
      · exact ⟨45, decimal i.natAbs, by rw [render, renderInt, if_pos hi], rfl, by decide⟩
      · obtain ⟨c, cs, heq, hc, -⟩ := decimal_cons i.natAbs
        refine ⟨c, cs, by rw [render, renderInt, if_neg hi, heq], ?_, ?_⟩
        · simp only [isDigit, Bool.and_eq_true, decide_eq_true_eq] at hc
          simp only [isSpace, Bool.or_eq_false_iff, beq_eq_false_iff_ne]
          omega
        · rintro rfl
          exact absurd hc (by decide)
  | float t =>
      obtain ⟨c, cs, heq, hc⟩ := FloatToken.head hv
      have hrange : 45 ≤ c ∧ c ≤ 57 := number_head hc
      refine ⟨c, cs, heq, ?_, by omega⟩
      simp only [isSpace, Bool.or_eq_false_iff, beq_eq_false_iff_ne]
      omega
  | str s => exact ⟨34, renderChars s ++ [34], rfl, rfl, by decide⟩
  | arr xs =>
      cases xs with
      | nil => exact ⟨91, [93], rfl, rfl, by decide⟩
      | cons x xs => exact ⟨91, render x ++ renderItems xs, rfl, rfl, by decide⟩
  | obj fs =>
      cases fs with
      | nil => exact ⟨123, [125], rfl, rfl, by decide⟩
      | cons f fs =>
          obtain ⟨k, v⟩ := f
          exact ⟨123, renderString k ++ 58 :: (render v ++ renderFields fs), rfl, rfl, by decide⟩

theorem skipSpace_render (v : Json) (hv : v.Plain) (rest : Text) :
    skipSpace (render v ++ rest) = render v ++ rest := by
  obtain ⟨c, cs, heq, hc, -⟩ := render_head v hv
  rw [heq]
  exact skipSpace_cons _ hc

theorem renderFields_delimited (fs : List (Text × Json)) (rest : Text) :
    Delimited (renderFields fs ++ rest) := by
  cases fs with
  | nil => exact delimited_cons rest (by decide)
  | cons f fs =>
      obtain ⟨k, v⟩ := f
      exact delimited_cons _ (by decide)

theorem not_prefix_of_head {d c : Nat} (h : d ≠ c) (ds cs : Text) : ¬ d :: ds <+: c :: cs :=
  fun hp => h (List.cons_prefix_cons.mp hp).1

/-- What starts with a sign or a digit is read by the number rule. -/
theorem parseValue_number (fuel : Nat) {c : Nat} (hc : 45 ≤ c ∧ c ≤ 57) (cs : Text) :
    parseValue (fuel + 1) (c :: cs) = matchNumber (c :: cs) := by
  have h34 : c ≠ 34 := by omega
  have h123 : c ≠ 123 := by omega
  have h91 : c ≠ 91 := by omega
  have hnull := not_prefix_of_head (by omega : 110 ≠ c) (ascii "ull") cs
  have htrue := not_prefix_of_head (by omega : 116 ≠ c) (ascii "rue") cs
  have hfalse := not_prefix_of_head (by omega : 102 ≠ c) (ascii "alse") cs
  rw [parseValue, if_neg h34, if_neg h123, if_neg h91]
  exact (if_neg hnull).trans ((if_neg htrue).trans (if_neg hfalse))

mutual

/-- Reading back a rendered value gives the value and leaves the rest. -/
theorem parseValue_render : ∀ (v : Json) (fuel : Nat) (rest : Text),
    v.Plain → v.size ≤ fuel → Delimited rest →
      parseValue fuel (render v ++ rest) = .ok (v, rest)
  | v, 0, rest, hv, hs, hr => by
      cases v <;> simp [Json.size] at hs
  | .null, fuel + 1, rest, hv, hs, hr => by simp [render, ascii, parseValue]
  | .bool true, fuel + 1, rest, hv, hs, hr => by simp [render, ascii, parseValue]
  | .bool false, fuel + 1, rest, hv, hs, hr => by simp [render, ascii, parseValue]
  | .float t, fuel + 1, rest, hv, hs, hr => by
      obtain ⟨c, cs, heq, hc⟩ := FloatToken.head hv
      have hrun := FloatToken.reads hv rest hr
      rw [render]
      rw [heq] at hrun ⊢
      exact (parseValue_number fuel (number_head hc) (cs ++ rest)).trans hrun
  | .int i, fuel + 1, rest, hv, hs, hr => by
      have hrun := matchNumber_renderInt i hr
      obtain ⟨c, cs, heq, hc⟩ : ∃ c cs, renderInt i = c :: cs ∧ (c = 45 ∨ isDigit c = true) := by
        by_cases hi : i < 0
        · exact ⟨45, decimal i.natAbs, by rw [renderInt, if_pos hi], Or.inl rfl⟩
        · obtain ⟨c, cs, heq, hc, -⟩ := decimal_cons i.natAbs
          exact ⟨c, cs, by rw [renderInt, if_neg hi, heq], Or.inr hc⟩
      rw [render]
      rw [heq] at hrun ⊢
      exact (parseValue_number fuel (number_head hc) (cs ++ rest)).trans hrun
  | .str s, fuel + 1, rest, hv, hs, hr => by
      show parseValue (fuel + 1) (34 :: ((renderChars s ++ [34]) ++ rest)) = _
      rw [List.append_assoc, List.singleton_append, parseValue, if_pos rfl, scanString_rendered]
  | .arr [], fuel + 1, rest, hv, hs, hr => by
      show parseValue (fuel + 1) (91 :: 93 :: rest) = _
      simp [parseValue, skipSpace, isSpace]
  | .arr (x :: xs), fuel + 1, rest, hv, hs, hr => by
      have hrun := parseItems_render x xs fuel rest hv (by simp [Json.size] at hs; omega)
      obtain ⟨c, cs, heq, hc, h93⟩ := render_head x hv.1
      show parseValue (fuel + 1) (91 :: ((render x ++ renderItems xs) ++ rest)) = _
      rw [List.append_assoc] at hrun ⊢
      rw [heq] at hrun ⊢
      rw [parseValue, if_neg (by decide), if_neg (by decide), if_pos rfl]
      rw [List.cons_append] at hrun ⊢
      rw [skipSpace_cons _ hc]
      simp only [if_neg h93, hrun]
  | .obj [], fuel + 1, rest, hv, hs, hr => by
      show parseValue (fuel + 1) (123 :: 125 :: rest) = _
      simp [parseValue, skipSpace, isSpace]
  | .obj ((k, v) :: fs), fuel + 1, rest, hv, hs, hr => by
      have hrun := parseFields_render k v fs fuel rest hv.2 (by simp [Json.size] at hs; omega)
      show parseValue (fuel + 1)
        (123 :: 34 :: (((renderChars k ++ [34]) ++ 58 :: (render v ++ renderFields fs)) ++ rest)) = _
      have hshape : ((renderChars k ++ [34]) ++ 58 :: (render v ++ renderFields fs)) ++ rest
          = renderChars k ++ 34 :: 58 :: (render v ++ (renderFields fs ++ rest)) := by
        simp [List.append_assoc]
      rw [hshape, parseValue, if_neg (by decide), if_pos rfl, skipSpace_cons _ (by decide)]
      simp only [if_neg (by decide : ¬ 34 = 125), if_pos, hrun, makeObject, hv.1]
      rfl

/-- The items of a rendered array, from its first one on. -/
theorem parseItems_render : ∀ (x : Json) (xs : List Json) (fuel : Nat) (rest : Text),
    PlainItems (x :: xs) → itemsSize (x :: xs) ≤ fuel →
      parseItems fuel ((render x ++ renderItems xs) ++ rest) = .ok (x :: xs, rest)
  | x, xs, 0, rest, hv, hs => by simp [itemsSize] at hs
  | x, [], fuel + 1, rest, hv, hs => by
      have hrun := parseValue_render x fuel (93 :: rest) hv.1 (by simp [itemsSize] at hs; omega)
        (delimited_cons rest (by decide))
      show parseItems (fuel + 1) ((render x ++ [93]) ++ rest) = _
      rw [List.append_assoc, List.singleton_append, parseItems, hrun]
      simp [skipSpace, isSpace]
  | x, y :: ys, fuel + 1, rest, hv, hs => by
      have hitems := parseItems_render y ys fuel rest hv.2
        (by simp only [itemsSize] at hs ⊢; omega)
      have hrun := parseValue_render x fuel (44 :: ((render y ++ renderItems ys) ++ rest)) hv.1
        (by simp only [itemsSize] at hs; omega) (delimited_cons _ (by decide))
      have hskip := skipSpace_render y hv.2.1 (renderItems ys ++ rest)
      show parseItems (fuel + 1) ((render x ++ 44 :: (render y ++ renderItems ys)) ++ rest) = _
      rw [List.append_assoc, List.cons_append, parseItems, hrun]
      simp only [skipSpace_cons _ (by decide : isSpace 44 = false), if_neg (by decide : ¬ 44 = 93),
        if_pos]
      rw [List.append_assoc] at hitems ⊢
      rw [hskip, hitems]

/-- The fields of a rendered object, after the first key's opening quote. -/
theorem parseFields_render : ∀ (k : Text) (v : Json) (fs : List (Text × Json)) (fuel : Nat)
    (rest : Text), PlainFields ((k, v) :: fs) → fieldsSize ((k, v) :: fs) ≤ fuel →
      parseFields fuel (renderChars k ++ 34 :: 58 :: (render v ++ (renderFields fs ++ rest)))
        = .ok ((k, v) :: fs, rest)
  | k, v, fs, 0, rest, hv, hs => by simp [fieldsSize] at hs
  | k, v, [], fuel + 1, rest, hv, hs => by
      have hrun := parseValue_render v fuel (125 :: rest) hv.1
        (by simp [fieldsSize] at hs; omega) (delimited_cons rest (by decide))
      have hskip := skipSpace_render v hv.1 (125 :: rest)
      rw [parseFields, scanString_rendered]
      simp only [skipSpace_cons _ (by decide : isSpace 58 = false), if_pos]
      show (match parseValue fuel (skipSpace (render v ++ (125 :: rest))) with
        | .error e => _ | .ok (v, rest') => _) = _
      rw [hskip, hrun]
      simp [skipSpace, isSpace]
  | k, v, (k', v') :: fs, fuel + 1, rest, hv, hs => by
      have hfields := parseFields_render k' v' fs fuel rest hv.2
        (by simp only [fieldsSize] at hs ⊢; omega)
      have hrun := parseValue_render v fuel (renderFields ((k', v') :: fs) ++ rest) hv.1
        (by simp only [fieldsSize] at hs; omega) (renderFields_delimited _ rest)
      have hskip := skipSpace_render v hv.1 (renderFields ((k', v') :: fs) ++ rest)
      have hshape : renderFields ((k', v') :: fs) ++ rest
          = 44 :: 34 :: (renderChars k' ++ 34 :: 58 :: (render v' ++ (renderFields fs ++ rest))) := by
        simp [renderFields, renderString, List.append_assoc]
      rw [parseFields, scanString_rendered]
      simp only [skipSpace_cons _ (by decide : isSpace 58 = false), if_pos]
      rw [hskip, hrun, hshape]
      simp only [skipSpace_cons _ (by decide : isSpace 44 = false),
        skipSpace_cons _ (by decide : isSpace 34 = false), if_neg (by decide : ¬ 44 = 125), if_pos,
        hfields]

end

mutual

theorem size_le_render : ∀ v : Json, v.Plain → v.size ≤ (render v).length
  | .null, _ => by decide
  | .bool true, _ => by decide
  | .bool false, _ => by decide
  | .float t, hv => by
      obtain ⟨c, cs, heq, -⟩ := render_head (.float t) hv
      simp [heq, Json.size]
  | .int i, hv => by
      obtain ⟨c, cs, heq, -⟩ := render_head (.int i) hv
      simp [heq, Json.size]
  | .str s, _ => by simp [render, renderString, Json.size]
  | .arr [], _ => by decide
  | .arr (x :: xs), hv => by
      have hx := size_le_render x hv.1
      have hxs := itemsSize_le_render xs hv.2
      simp only [render, Json.size, itemsSize, List.length_cons, List.length_append]
      omega
  | .obj [], _ => by decide
  | .obj ((k, v) :: fs), hv => by
      have hx := size_le_render v hv.2.1
      have hxs := fieldsSize_le_render fs hv.2.2
      simp only [render, renderString, Json.size, fieldsSize, List.length_cons, List.length_append]
      omega

theorem itemsSize_le_render : ∀ xs : List Json, PlainItems xs →
    itemsSize xs + 1 ≤ (renderItems xs).length
  | [], _ => by decide
  | x :: xs, hv => by
      have hx := size_le_render x hv.1
      have hxs := itemsSize_le_render xs hv.2
      simp only [renderItems, itemsSize, List.length_cons, List.length_append]
      omega

theorem fieldsSize_le_render : ∀ fs : List (Text × Json), PlainFields fs →
    fieldsSize fs + 1 ≤ (renderFields fs).length
  | [], _ => by decide
  | (k, v) :: fs, hv => by
      have hx := size_le_render v hv.1
      have hxs := fieldsSize_le_render fs hv.2
      simp only [renderFields, renderString, fieldsSize, List.length_cons, List.length_append]
      omega

end

theorem skipSpace_spaces {tail : Text} (h : ∀ c ∈ tail, isSpace c = true) :
    skipSpace tail = [] := by
  induction tail with
  | nil => rfl
  | cons c cs ih =>
      rw [skipSpace, if_pos (h c List.mem_cons_self)]
      exact ih (fun d hd => h d (List.mem_cons_of_mem _ hd))

theorem delimited_spaces {tail : Text} (h : ∀ c ∈ tail, isSpace c = true) : Delimited tail := by
  intro c cs hc
  have hs := h c (by rw [hc]; exact List.mem_cons_self)
  simp only [isSpace, Bool.or_eq_true, beq_iff_eq] at hs
  rcases hs with ((rfl | rfl) | rfl) | rfl <;> decide

/-- A rendered document reads back, also with a line end behind it. -/
theorem parseDocument_render (v : Json) (hv : v.Plain) {tail : Text}
    (htail : ∀ c ∈ tail, isSpace c = true) : parseDocument (render v ++ tail) = .ok v := by
  have hfuel : v.size ≤ (render v ++ tail).length + 1 := by
    have := size_le_render v hv
    simp only [List.length_append]
    omega
  rw [parseDocument, skipSpace_render v hv,
    parseValue_render v _ tail hv hfuel (delimited_spaces htail)]
  simp only [skipSpace_spaces htail, if_pos]

/-- A number with a fraction is the token of a float. -/
theorem floatToken_fraction (n : Nat) {ds : Text} (hne : ds ≠ [])
    (hds : ∀ c ∈ ds, isDigit c = true) : FloatToken (decimal n ++ 46 :: ds) where
  head := by
    obtain ⟨c, cs, heq, hc, -⟩ := decimal_cons n
    exact ⟨c, cs ++ 46 :: ds, by rw [heq]; rfl, Or.inr hc⟩
  ascii := by
    have hdigit : ∀ c, isDigit c = true → 0 < c ∧ c < 127 := by
      intro c hc
      have := number_head (Or.inr hc)
      omega
    intro c hc
    rcases List.mem_append.mp hc with hc | hc
    · exact hdigit c (decimal_digits n c hc)
    · rcases List.mem_cons.mp hc with rfl | hc
      · decide
      · exact hdigit c (hds c hc)
  reads := by
    intro rest hrest
    have hint : matchInt (decimal n ++ (46 :: (ds ++ rest))) = some (decimal n, 46 :: (ds ++ rest)) :=
      matchInt_decimal n (noDigit_cons (by decide))
    have hfraction : matchFraction (46 :: (ds ++ rest)) = (46 :: ds, rest) := by
      rw [matchFraction, spanDigits_append hds hrest.noDigit, if_pos ⟨rfl, hne⟩]
    obtain ⟨c, cs, heq, hc, -⟩ := decimal_cons n
    have hne45 : c ≠ 45 := by
      rintro rfl
      exact absurd hc (by decide)
    rw [List.append_assoc, List.cons_append]
    rw [heq] at hint ⊢
    rw [List.cons_append] at hint ⊢
    rw [matchNumber, if_neg hne45]
    simp [matchUnsigned, hint, hfraction, matchExponent_delimited hrest]

/-! ## UTF-8 -/

/-- The UTF-8 units of a code point. -/
def utf8Units (c : Nat) : List Nat :=
  if c < 0x80 then [c]
  else if c < 0x800 then [0xc0 + c / 64, 0x80 + c % 64]
  else if c < 0x10000 then [0xe0 + c / 4096, 0x80 + c / 64 % 64, 0x80 + c % 64]
  else [0xf0 + c / 262144, 0x80 + c / 4096 % 64, 0x80 + c / 64 % 64, 0x80 + c % 64]

def isSurrogate (c : Nat) : Bool := 0xd800 ≤ c && c ≤ 0xdfff

/-- A code point that `str.encode("utf-8")` accepts. -/
def Scalar (c : Nat) : Prop := c < 0x110000 ∧ isSurrogate c = false

instance (c : Nat) : Decidable (Scalar c) := inferInstanceAs (Decidable (_ ∧ _))

def encodeUnits : Text → List Nat
  | [] => []
  | c :: cs => utf8Units c ++ encodeUnits cs

/-- `str.encode("utf-8")`; `none` is the `UnicodeEncodeError` of a lone surrogate. -/
def encodeUtf8 (cs : Text) : Option (List UInt8) :=
  if ∀ c ∈ cs, Scalar c then some ((encodeUnits cs).map UInt8.ofNat) else none

/-- Decode UTF-8 with `surrogatepass`: `need` continuation units are still to
    come, `acc` is the code point so far and `low` its least admissible value. -/
def decodeUnits : Nat → Nat → Nat → List Nat → Option Text
  | 0, _, _, [] => some []
  | _ + 1, _, _, [] => none
  | 0, _, _, b :: bs =>
      if b < 0x80 then (decodeUnits 0 0 0 bs).map (b :: ·)
      else if 0xc2 ≤ b ∧ b < 0xe0 then decodeUnits 1 (b - 0xc0) 0x80 bs
      else if 0xe0 ≤ b ∧ b < 0xf0 then decodeUnits 2 (b - 0xe0) 0x800 bs
      else if 0xf0 ≤ b ∧ b < 0xf5 then decodeUnits 3 (b - 0xf0) 0x10000 bs
      else none
  | need + 1, acc, low, b :: bs =>
      if 0x80 ≤ b ∧ b < 0xc0 then
        if need = 0 then
          if low ≤ acc * 64 + (b - 0x80) ∧ acc * 64 + (b - 0x80) < 0x110000 then
            (decodeUnits 0 0 0 bs).map ((acc * 64 + (b - 0x80)) :: ·)
          else none
        else decodeUnits need (acc * 64 + (b - 0x80)) low bs
      else none

def decodeUtf8 (bs : List UInt8) : Option Text := decodeUnits 0 0 0 (bs.map UInt8.toNat)

theorem utf8Units_lt {c : Nat} (h : c < 0x110000) : ∀ b ∈ utf8Units c, b < 256 := by
  unfold utf8Units
  intro b hb
  split at hb
  · simp only [List.mem_singleton] at hb; omega
  split at hb
  · simp only [List.mem_cons, List.not_mem_nil, or_false] at hb; omega
  split at hb
  · simp only [List.mem_cons, List.not_mem_nil, or_false] at hb; omega
  · simp only [List.mem_cons, List.not_mem_nil, or_false] at hb; omega

/-- One encoded character decodes to itself. -/
theorem decodeUnits_utf8Units {c : Nat} (h : c < 0x110000) (bs : List Nat) :
    decodeUnits 0 0 0 (utf8Units c ++ bs) = (decodeUnits 0 0 0 bs).map (c :: ·) := by
  unfold utf8Units
  by_cases h1 : c < 0x80
  · rw [if_pos h1]
    show decodeUnits 0 0 0 (c :: bs) = _
    rw [decodeUnits, if_pos h1]
  by_cases h2 : c < 0x800
  · have hb : c / 64 * 64 + (0x80 + c % 64 - 0x80) = c := by omega
    rw [if_neg h1, if_pos h2]
    show decodeUnits 0 0 0 ((0xc0 + c / 64) :: (0x80 + c % 64) :: bs) = _
    rw [decodeUnits, if_neg (by omega), if_pos (by omega), decodeUnits, if_pos (by omega),
      if_pos rfl, Nat.add_sub_cancel_left, hb, if_pos (by omega)]
  by_cases h3 : c < 0x10000
  · have hb : (c / 4096 * 64 + (0x80 + c / 64 % 64 - 0x80)) * 64 + (0x80 + c % 64 - 0x80) = c := by
      omega
    rw [if_neg h1, if_neg h2, if_pos h3]
    show decodeUnits 0 0 0
      ((0xe0 + c / 4096) :: (0x80 + c / 64 % 64) :: (0x80 + c % 64) :: bs) = _
    rw [decodeUnits, if_neg (by omega), if_neg (by omega), if_pos (by omega), decodeUnits,
      if_pos (by omega), if_neg (by decide), decodeUnits, if_pos (by omega), if_pos rfl,
      Nat.add_sub_cancel_left, hb, if_pos (by omega)]
  · have hb : ((c / 262144 * 64 + (0x80 + c / 4096 % 64 - 0x80)) * 64
        + (0x80 + c / 64 % 64 - 0x80)) * 64 + (0x80 + c % 64 - 0x80) = c := by
      omega
    rw [if_neg h1, if_neg h2, if_neg h3]
    show decodeUnits 0 0 0 ((0xf0 + c / 262144) :: (0x80 + c / 4096 % 64) ::
      (0x80 + c / 64 % 64) :: (0x80 + c % 64) :: bs) = _
    rw [decodeUnits, if_neg (by omega), if_neg (by omega), if_neg (by omega), if_pos (by omega),
      decodeUnits, if_pos (by omega), if_neg (by decide), decodeUnits, if_pos (by omega),
      if_neg (by decide), decodeUnits, if_pos (by omega), if_pos rfl,
      Nat.add_sub_cancel_left, hb, if_pos (by omega)]

theorem decodeUnits_encodeUnits {cs : Text} (h : ∀ c ∈ cs, c < 0x110000) :
    decodeUnits 0 0 0 (encodeUnits cs) = some cs := by
  induction cs with
  | nil => rfl
  | cons c cs ih =>
      rw [encodeUnits, decodeUnits_utf8Units (h c List.mem_cons_self),
        ih (fun d hd => h d (List.mem_cons_of_mem _ hd))]
      rfl

theorem encodeUnits_lt {cs : Text} (h : ∀ c ∈ cs, c < 0x110000) :
    ∀ b ∈ encodeUnits cs, b < 256 := by
  induction cs with
  | nil => intro b hb; exact absurd hb List.not_mem_nil
  | cons c cs ih =>
      intro b hb
      rcases List.mem_append.mp hb with hb | hb
      · exact utf8Units_lt (h c List.mem_cons_self) b hb
      · exact ih (fun d hd => h d (List.mem_cons_of_mem _ hd)) b hb

/-- Decoding inverts encoding. -/
theorem decodeUtf8_encodeUtf8 {cs : Text} {bs : List UInt8} (h : encodeUtf8 cs = some bs) :
    decodeUtf8 bs = some cs := by
  unfold encodeUtf8 at h
  split at h
  next hall =>
    have hlt : ∀ c ∈ cs, c < 0x110000 := fun c hc => (hall c hc).1
    obtain rfl := Option.some.inj h
    have hunits : ((encodeUnits cs).map UInt8.ofNat).map UInt8.toNat = encodeUnits cs := by
      rw [List.map_map]
      refine (List.map_congr_left ?_).trans (List.map_id _)
      intro b hb
      exact UInt8.toNat_ofNat_of_lt (encodeUnits_lt hlt b hb)
    rw [decodeUtf8, hunits]
    exact decodeUnits_encodeUnits hlt
  next => exact absurd h (by simp)

/-! ## Documents -/

/-- The order of `sort_keys`: by code points. -/
def keyLt : Text → Text → Bool
  | [], [] => false
  | [], _ :: _ => true
  | _ :: _, [] => false
  | a :: as, b :: bs => a < b || (a == b && keyLt as bs)

def insertField (f : Text × Json) : List (Text × Json) → List (Text × Json)
  | [] => [f]
  | g :: gs => if keyLt g.1 f.1 then g :: insertField f gs else f :: g :: gs

mutual

/-- The value with the fields of every object in key order. -/
def Json.sortKeys : Json → Json
  | .arr items => .arr (sortItems items)
  | .obj fields => .obj (sortFields fields)
  | v => v

def sortItems : List Json → List Json
  | [] => []
  | x :: xs => x.sortKeys :: sortItems xs

def sortFields : List (Text × Json) → List (Text × Json)
  | [] => []
  | (k, v) :: fs => insertField (k, v.sortKeys) (sortFields fs)

end

/-- `json.dumps(v, ensure_ascii=False, sort_keys=True, separators=(",", ":"))`
    in UTF-8; `none` is the `UnicodeEncodeError`. -/
def dumps (v : Json) : Option (List UInt8) := encodeUtf8 (render v.sortKeys)

/-- `json.loads` is asked for UTF-8 by the first bytes of the document: no byte
    order mark and no null byte in them. -/
def looksUtf8 (bs : List UInt8) : Bool :=
  match bs with
  | 0xef :: 0xbb :: 0xbf :: _ => false
  | 0xff :: 0xfe :: _ => false
  | 0xfe :: 0xff :: _ => false
  | a :: b :: _ => a != 0 && b != 0
  | _ => true

/-- `json.loads` on UTF-8 bytes; other encodings are refused here. -/
def loads (bs : List UInt8) : Except ParseError Json :=
  if looksUtf8 bs then
    match decodeUtf8 bs with
    | some cs => parseDocument cs
    | none => .error .syntaxError
  else .error .syntaxError

/-- **Round trip**: what was dumped, with white space behind it, is loaded back. -/
theorem loads_dumps {v : Json} (hv : v.sortKeys.Plain) {bs : List UInt8} {tail : Text}
    (htail : ∀ c ∈ tail, isSpace c = true) (h : encodeUtf8 (render v.sortKeys ++ tail) = some bs)
    (hlooks : looksUtf8 bs = true) : loads bs = .ok v.sortKeys := by
  rw [loads, if_pos hlooks, decodeUtf8_encodeUtf8 h]
  exact parseDocument_render v.sortKeys hv htail

end CanonicalJson
