import Mathlib
import VeloTransfer.CanonicalJsonProofs

/-! # The tokens of a query language

    A word is a letter or an underscore with letters, digits and underscores behind it; a
    back-quoted name ends at the next back quote; in a single-quoted string a backslash
    hides the next character, and a quote that is not hidden ends it; a number is a
    decimal literal.  The reader looks at one character at a time.

    * `lex_word`, `lex_number`, `lex_name`, `lex_string` — each token is read as itself,
      whatever stands behind it;
    * `numberValue_render` — a decimal literal denotes its value. -/

namespace QueryTokens

open CanonicalJson

inductive Token where
  | word (s : Text)
  | name (s : Text)
  | string (s : Text)
  | number (s : Text)
  | mark (c : Nat)
deriving Repr, DecidableEq

/-! ## Reading -/

def isSpace (c : Nat) : Bool := c == 32 || c == 9 || c == 10 || c == 13

def isWordStart (c : Nat) : Bool := (65 ≤ c && c ≤ 90) || (97 ≤ c && c ≤ 122) || c == 95

def isWordChar (c : Nat) : Bool := isWordStart c || isDigit c

/-- Where the reader is, with the characters of the token so far. -/
inductive State where
  | start
  | word (s : Text)
  | name (s : Text)
  | string (s : Text)
  | escape (s : Text)
  | sign (c : Nat)
  | number (s : Text)
deriving Repr, DecidableEq

/-- The number goes on with the character. -/
def goesOn (s : Text) (c : Nat) : Bool :=
  isDigit c || c == 46 || c == 69 || c == 101 ||
    ((c == 43 || c == 45) && (s.getLast? == some 69 || s.getLast? == some 101))

/-- A character between tokens. -/
def State.first (c : Nat) : List Token × State :=
  if isSpace c then ([], .start)
  else if isWordStart c then ([], .word [c])
  else if isDigit c then ([], .number [c])
  else if c = 96 then ([], .name [])
  else if c = 39 then ([], .string [])
  else if c = 43 ∨ c = 45 then ([], .sign c)
  else ([.mark c], .start)

/-- The token is complete, and the character is the first one behind it. -/
def State.after (t : Token) (c : Nat) : List Token × State := (t :: (State.first c).1, (State.first c).2)

/-- One character: the tokens that it completes, and the state behind it. -/
def State.read (state : State) (c : Nat) : List Token × State :=
  match state with
  | .start => State.first c
  | .word s => if isWordChar c then ([], .word (s ++ [c])) else State.after (.word s) c
  | .name s => if c = 96 then ([.name s], .start) else ([], .name (s ++ [c]))
  | .string s =>
      if c = 39 then ([.string s], .start)
      else if c = 92 then ([], .escape s)
      else ([], .string (s ++ [c]))
  | .escape s => ([], .string (s ++ [c]))
  | .sign q => if isDigit c then ([], .number [q, c]) else State.after (.mark q) c
  | .number s => if goesOn s c then ([], .number (s ++ [c])) else State.after (.number s) c

/-- The end of the text; a name or a string that is not closed is no token. -/
def State.finish : State → Option (List Token)
  | .start => some []
  | .word s => some [.word s]
  | .sign q => some [.mark q]
  | .number s => some [.number s]
  | .name _ => none
  | .string _ => none
  | .escape _ => none

def lexFrom (state : State) : Text → Option (List Token)
  | [] => state.finish
  | c :: cs => (lexFrom (state.read c).2 cs).map ((state.read c).1 ++ ·)

/-- The tokens of a text. -/
def lex (text : Text) : Option (List Token) := lexFrom .start text

/-! ## Decimal literals -/

/-- A decimal literal: digits, a fraction if there is one, and an exponent if there is
    one, with its sign. -/
structure Decimal where
  negative : Bool
  whole : Text
  fraction : Text
  exponent : Option (Bool × Text)
  whole_ne : whole ≠ []
  whole_digits : ∀ c ∈ whole, isDigit c = true
  fraction_digits : ∀ c ∈ fraction, isDigit c = true
  exponent_digits : ∀ e ∈ exponent, e.2 ≠ [] ∧ ∀ c ∈ e.2, isDigit c = true

def signOf (negative : Bool) : Text := if negative then [45] else []

def fractionText (fraction : Text) : Text := if fraction = [] then [] else 46 :: fraction

def exponentText : Option (Bool × Text) → Text
  | none => []
  | some (negative, digits) => 101 :: (if negative then 45 else 43) :: digits

def Decimal.render (d : Decimal) : Text :=
  signOf d.negative ++ (d.whole ++ (fractionText d.fraction ++ exponentText d.exponent))

def exponentValue : Option (Bool × Text) → Int
  | none => 0
  | some (negative, digits) => if negative then -(ofDigits 0 digits : Int) else ofDigits 0 digits

/-- The value that a sign, digits, a fraction and an exponent denote. -/
def decimalValue (negative : Bool) (whole fraction : Text) (exponent : Int) : ℚ :=
  (if negative then -1 else 1) * (ofDigits 0 (whole ++ fraction) : ℚ) * 10 ^ (exponent - fraction.length)

def Decimal.value (d : Decimal) : ℚ := decimalValue d.negative d.whole d.fraction (exponentValue d.exponent)

/-- The exponent at the end of a literal. -/
def readExponent (s : Text) : Option Int :=
  match s with
  | [] => some 0
  | c :: s =>
      if c = 69 ∨ c = 101 then
        let negative := s.head? == some 45
        let digits := if s.head? = some 43 ∨ s.head? = some 45 then s.drop 1 else s
        if digits ≠ [] ∧ digits.all isDigit = true then some (exponentValue (some (negative, digits))) else none
      else none

/-- The digits behind a point. -/
def readFraction (s : Text) : Text × Text :=
  match s with
  | 46 :: s => spanDigits s
  | s => ([], s)

/-- The value of a decimal literal. -/
def numberValue (s : Text) : Option ℚ :=
  let negative := s.head? == some 45
  let digits := if s.head? = some 43 ∨ s.head? = some 45 then s.drop 1 else s
  let (whole, rest) := spanDigits digits
  let (fraction, rest) := readFraction rest
  if whole = [] then none else (readExponent rest).map (decimalValue negative whole fraction ·)

section Decimals

variable {d : Decimal}

theorem readExponent_text {e : Option (Bool × Text)} (h : ∀ x ∈ e, x.2 ≠ [] ∧ ∀ c ∈ x.2, isDigit c = true) :
    readExponent (exponentText e) = some (exponentValue e) := by
  cases e with
  | none => rfl
  | some e =>
      obtain ⟨negative, digits⟩ := e
      obtain ⟨hne, hdigits⟩ := h _ rfl
      have hall : digits.all isDigit = true := List.all_eq_true.mpr hdigits
      cases negative <;> simp [exponentText, readExponent, hne, hall]

theorem noDigit_exponent (e : Option (Bool × Text)) : NoDigit (exponentText e) := by
  cases e with
  | none => exact noDigit_nil
  | some e => exact noDigit_cons rfl

theorem noDigit_fraction (fraction : Text) (e : Option (Bool × Text)) :
    NoDigit (fractionText fraction ++ exponentText e) := by
  unfold fractionText
  split
  · exact noDigit_exponent e
  · exact noDigit_cons rfl

theorem readFraction_text {fraction : Text} (h : ∀ c ∈ fraction, isDigit c = true) (e : Option (Bool × Text)) :
    readFraction (fractionText fraction ++ exponentText e) = (fraction, exponentText e) := by
  by_cases hfraction : fraction = []
  · rw [hfraction]
    cases e <;> rfl
  · rw [fractionText, if_neg hfraction]
    exact spanDigits_append h (noDigit_exponent e)

/-- The sign of a literal, and its digits. -/
theorem render_sign (d : Decimal) :
    (d.render.head? == some 45) = d.negative ∧
      (if d.render.head? = some 43 ∨ d.render.head? = some 45 then d.render.drop 1 else d.render) =
        d.whole ++ (fractionText d.fraction ++ exponentText d.exponent) := by
  unfold Decimal.render signOf
  cases d.negative with
  | true => exact ⟨rfl, rfl⟩
  | false =>
      obtain ⟨c, cs, hwhole⟩ := List.exists_cons_of_ne_nil d.whole_ne
      have hc := d.whole_digits c (hwhole ▸ List.mem_cons_self)
      have hplus : c ≠ 43 := fun h => absurd (h ▸ hc) (by decide)
      have hminus : c ≠ 45 := fun h => absurd (h ▸ hc) (by decide)
      rw [hwhole]
      simp [hplus, hminus]

/-- **A decimal literal denotes its value.** -/
theorem numberValue_render (d : Decimal) : numberValue d.render = some d.value := by
  obtain ⟨hnegative, hdigits⟩ := render_sign d
  have hspan := spanDigits_append d.whole_digits (noDigit_fraction d.fraction d.exponent)
  unfold numberValue
  rw [hnegative, hdigits]
  dsimp only
  rw [hspan]
  dsimp only
  rw [readFraction_text d.fraction_digits]
  dsimp only
  rw [if_neg d.whole_ne, readExponent_text d.exponent_digits]
  rfl

end Decimals

/-! ## Each token is read as itself -/

section Lexing

variable {s t rest : Text} {c : Nat}

/-- The text ends the word or the number before it. -/
def Ends (rest : Text) : Prop := ∀ c, rest.head? = some c → isWordChar c = false ∧ c ≠ 46

theorem ends_nil : Ends [] := nofun

theorem ends_cons (hc : isWordChar c = false) (hpoint : c ≠ 46) : Ends (c :: rest) := by
  intro d hd
  obtain rfl := Option.some.inj hd
  exact ⟨hc, hpoint⟩

/-- A character that completes no token. -/
theorem lexFrom_cons {state state' : State} (h : state.read c = ([], state')) :
    lexFrom state (c :: rest) = lexFrom state' rest := by
  rw [lexFrom, h]
  exact Option.map_id'

/-- A token that is complete stands before those of the rest. -/
theorem lexFrom_after {state : State} {token : Token} (hfinish : state.finish = some [token])
    (hread : ∀ c, rest.head? = some c → state.read c = State.after token c) :
    lexFrom state rest = (lex rest).map (token :: ·) := by
  cases rest with
  | nil => exact hfinish
  | cons c cs =>
      rw [lex, lexFrom, lexFrom, hread c rfl, Option.map_map]
      rfl

theorem lexFrom_word (h : ∀ c ∈ t, isWordChar c = true) : lexFrom (.word s) (t ++ rest) = lexFrom (.word (s ++ t)) rest := by
  induction t generalizing s with
  | nil => rw [List.append_nil, List.nil_append]
  | cons c cs ih =>
      have hread : State.read (.word s) c = ([], .word (s ++ [c])) := if_pos (h c List.mem_cons_self)
      rw [List.cons_append, lexFrom_cons hread, ih fun d hd => h d (List.mem_cons_of_mem _ hd), List.append_assoc]
      rfl

/-- **A word.** -/
theorem lex_word (hc : isWordStart c = true) (h : ∀ d ∈ t, isWordChar d = true) (hrest : Ends rest) :
    lex (c :: t ++ rest) = (lex rest).map (.word (c :: t) :: ·) := by
  have hspace : isSpace c = false := by
    by_contra hspace
    simp only [isSpace, Bool.not_eq_false, Bool.or_eq_true, beq_iff_eq] at hspace
    rcases hspace with ((rfl | rfl) | rfl) | rfl <;> exact absurd hc (by decide)
  have hread : State.read .start c = ([], .word [c]) := by simp [State.read, State.first, hspace, hc]
  rw [lex, List.cons_append, lexFrom_cons hread, lexFrom_word h]
  refine lexFrom_after rfl fun d hd => if_neg ?_
  rw [(hrest d hd).1]
  exact nofun

/-- **A back-quoted name.** -/
theorem lex_name (h : ∀ d ∈ t, d ≠ 96) : lex (96 :: (t ++ 96 :: rest)) = (lex rest).map (.name t :: ·) := by
  have hrun : ∀ s, lexFrom (.name s) (t ++ 96 :: rest) = (lex rest).map (.name (s ++ t) :: ·) := by
    induction t with
    | nil =>
        intro s
        rw [List.append_nil]
        rfl
    | cons c cs ih =>
        intro s
        have hread : State.read (.name s) c = ([], .name (s ++ [c])) := if_neg (h c List.mem_cons_self)
        rw [List.cons_append, lexFrom_cons hread, ih (fun d hd => h d (List.mem_cons_of_mem _ hd)), List.append_assoc]
        rfl
  exact (lexFrom_cons rfl).trans (hrun [])

/-- A string with a backslash before each backslash and each quote. -/
def escaped (t : Text) : Text := t.flatMap fun c => if c = 92 then [92, 92] else if c = 39 then [92, 39] else [c]

/-- **A string.** -/
theorem lex_string (t rest : Text) : lex (39 :: (escaped t ++ 39 :: rest)) = (lex rest).map (.string t :: ·) := by
  have hrun : ∀ s, lexFrom (.string s) (escaped t ++ 39 :: rest) = (lex rest).map (.string (s ++ t) :: ·) := by
    induction t with
    | nil =>
        intro s
        rw [List.append_nil]
        rfl
    | cons c cs ih =>
        intro s
        have hstep : lexFrom (.string s) (escaped (c :: cs) ++ 39 :: rest) =
            lexFrom (.string (s ++ [c])) (escaped cs ++ 39 :: rest) := by
          unfold escaped
          rw [List.flatMap_cons, List.append_assoc]
          by_cases hslash : c = 92
          · subst hslash
            exact (lexFrom_cons rfl).trans (lexFrom_cons rfl)
          · by_cases hquote : c = 39
            · subst hquote
              exact (lexFrom_cons rfl).trans (lexFrom_cons rfl)
            · have hread : State.read (.string s) c = ([], .string (s ++ [c])) := by
                simp [State.read, hslash, hquote]
              rw [if_neg hslash, if_neg hquote]
              exact lexFrom_cons hread
        rw [hstep, ih, List.append_assoc]
        rfl
  exact (lexFrom_cons rfl).trans (hrun [])

/-- **A mark.** -/
theorem lex_mark (hc : c = 61 ∨ c = 44 ∨ c = 91 ∨ c = 93) : lex (c :: rest) = (lex rest).map (.mark c :: ·) := by
  rcases hc with rfl | rfl | rfl | rfl <;> rfl

/-- A space is no token. -/
theorem lex_space : lex (32 :: rest) = lex rest := lexFrom_cons rfl

/-- A number goes on with all of these characters. -/
def goesOnAll (s : Text) : Text → Bool
  | [] => true
  | c :: cs => goesOn s c && goesOnAll (s ++ [c]) cs

theorem lexFrom_number (h : goesOnAll s t = true) : lexFrom (.number s) (t ++ rest) = lexFrom (.number (s ++ t)) rest := by
  induction t generalizing s with
  | nil => rw [List.append_nil, List.nil_append]
  | cons c cs ih =>
      obtain ⟨hc, hcs⟩ := Bool.and_eq_true_iff.mp h
      have hread : State.read (.number s) c = ([], .number (s ++ [c])) := if_pos hc
      rw [List.cons_append, lexFrom_cons hread, ih hcs, List.append_assoc]
      rfl

theorem goesOnAll_digits (h : ∀ c ∈ t, isDigit c = true) (hrest : goesOnAll (s ++ t) rest = true) :
    goesOnAll s (t ++ rest) = true := by
  induction t generalizing s with
  | nil =>
      rw [List.append_nil] at hrest
      exact hrest
  | cons c cs ih =>
      refine Bool.and_eq_true_iff.mpr ⟨?_, ih (fun d hd => h d (List.mem_cons_of_mem _ hd)) ?_⟩
      · rw [goesOn, h c List.mem_cons_self]
        rfl
      · rwa [List.append_assoc]

/-- A literal goes on to its end. -/
theorem goesOnAll_tail (d : Decimal) {cs : Text} (hcs : ∀ c ∈ cs, isDigit c = true) (s : Text) :
    goesOnAll s (cs ++ (fractionText d.fraction ++ exponentText d.exponent)) = true := by
  have hexponent : ∀ s, goesOnAll s (exponentText d.exponent) = true := by
    intro s
    have hdigits := d.exponent_digits
    generalize d.exponent = exponent at hdigits ⊢
    cases exponent with
    | none => rfl
    | some e =>
        obtain ⟨negative, digits⟩ := e
        have hall := (hdigits _ rfl).2
        have htail : ∀ s, goesOnAll s digits = true := fun s => by
          rw [← List.append_nil digits]
          exact goesOnAll_digits hall rfl
        cases negative <;> simp [exponentText, goesOnAll, goesOn, htail]
  have hfraction : ∀ s, goesOnAll s (fractionText d.fraction ++ exponentText d.exponent) = true := by
    intro s
    unfold fractionText
    split
    · exact hexponent s
    · exact Bool.and_eq_true_iff.mpr ⟨rfl, goesOnAll_digits d.fraction_digits (hexponent _)⟩
  exact goesOnAll_digits hcs (hfraction _)

theorem last_digit (hne : t ≠ []) (h : ∀ c ∈ t, isDigit c = true) : ∃ c, t.getLast? = some c ∧ isDigit c = true :=
  ⟨t.getLast hne, List.getLast?_eq_some_getLast hne, h _ (List.getLast_mem hne)⟩

/-- A literal ends with a digit. -/
theorem render_last (d : Decimal) : ∃ c, d.render.getLast? = some c ∧ isDigit c = true := by
  have hdigits := d.exponent_digits
  unfold Decimal.render
  rw [List.getLast?_append, List.getLast?_append, List.getLast?_append]
  generalize d.exponent = exponent at hdigits ⊢
  cases exponent with
  | none =>
      by_cases hfraction : d.fraction = []
      · obtain ⟨c, hc, hdigit⟩ := last_digit d.whole_ne d.whole_digits
        rw [hfraction, hc]
        exact ⟨c, rfl, hdigit⟩
      · obtain ⟨c, hc, hdigit⟩ := last_digit hfraction d.fraction_digits
        rw [fractionText, if_neg hfraction, List.getLast?_cons_of_ne_nil hfraction, hc]
        exact ⟨c, rfl, hdigit⟩
  | some e =>
      obtain ⟨hne, hall⟩ := hdigits e rfl
      obtain ⟨c, hc, hdigit⟩ := last_digit hne hall
      have htext : (exponentText (some e)).getLast? = some c := by
        rw [exponentText, List.getLast?_cons_of_ne_nil (List.cons_ne_nil _ _), List.getLast?_cons_of_ne_nil hne, hc]
      rw [htext]
      exact ⟨c, rfl, hdigit⟩

/-- **A number.** -/
theorem lex_number (d : Decimal) (hrest : Ends rest) : lex (d.render ++ rest) = (lex rest).map (.number d.render :: ·) := by
  obtain ⟨c, hlast, hdigit⟩ := render_last d
  have hend : lexFrom (.number d.render) rest = (lex rest).map (.number d.render :: ·) := by
    refine lexFrom_after rfl fun e he => if_neg ?_
    obtain ⟨hword, hpoint⟩ := hrest e he
    simp only [isWordChar, isWordStart, Bool.or_eq_false_iff] at hword
    have hnot : c ≠ 69 ∧ c ≠ 101 := by
      constructor <;> rintro rfl <;> exact absurd hdigit (by decide)
    have h69 : e ≠ 69 := fun h => by subst h; exact absurd hword.1.1.1 (by decide)
    have h101 : e ≠ 101 := fun h => by subst h; exact absurd hword.1.1.2 (by decide)
    simp [goesOn, hword.2, hpoint, h69, h101, hlast, hnot]
  obtain ⟨first, digits, hwhole⟩ := List.exists_cons_of_ne_nil d.whole_ne
  have hfirst := d.whole_digits first (hwhole ▸ List.mem_cons_self)
  have hdigits : ∀ c ∈ digits, isDigit c = true := fun c hc => d.whole_digits c (hwhole ▸ List.mem_cons_of_mem _ hc)
  -- Behind the first digit the rest of the literal goes on.
  have hrun : ∀ s, lexFrom (.number (s ++ [first])) (digits ++ (fractionText d.fraction ++ exponentText d.exponent) ++ rest) =
      lexFrom (.number (s ++ (d.whole ++ (fractionText d.fraction ++ exponentText d.exponent)))) rest := fun s => by
    rw [lexFrom_number (goesOnAll_tail d hdigits _), hwhole, List.append_assoc]
    rfl
  rw [← hend]
  unfold Decimal.render signOf
  cases d.negative with
  | true =>
      have hread : State.read (.sign 45) first = ([], .number [45, first]) := if_pos hfirst
      have hbody := hrun [45]
      rw [hwhole] at hbody ⊢
      exact (lexFrom_cons rfl).trans ((lexFrom_cons hread).trans hbody)
  | false =>
      have hread : State.read .start first = ([], .number [first]) := by
        simp only [isDigit, Bool.and_eq_true, decide_eq_true_eq] at hfirst
        have hspace : isSpace first = false := by
          simp only [isSpace, Bool.or_eq_false_iff, beq_eq_false_iff_ne]
          omega
        have hword : isWordStart first = false := by
          simp only [isWordStart, Bool.or_eq_false_iff, Bool.and_eq_false_iff, decide_eq_false_iff_not,
            beq_eq_false_iff_ne]
          omega
        simp [State.read, State.first, hspace, hword, isDigit, hfirst]
      have hbody := hrun []
      rw [hwhole] at hbody ⊢
      exact (lexFrom_cons hread).trans hbody

end Lexing

end QueryTokens
