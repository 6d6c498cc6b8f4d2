import Mathlib

/-! # Shell words — how a command line is split at blanks and quotes

    `shlex.split` reads a text character by character: blanks end a word, quotes keep
    blanks in it, a backslash keeps the character behind it.  What is said of the
    result is said of one character first:

    * `lex_word`, `lex_quoted` — a stretch without anything special goes into the word;
    * `lex_count` — no character is in the words more often than in the text;
    * `lex_drops` — a blank or a quote outside quotes is in no word. -/

namespace ShellWords

abbrev Text := List Nat

/-- `shlex.whitespace`. -/
def isBlank (c : Nat) : Bool := c == 32 || c == 9 || c == 13 || c == 10

/-- `shlex.quotes`. -/
def isQuote (c : Nat) : Bool := c == 39 || c == 34

/-- Where the reader is: between words, in one, in quotes, or behind a backslash (in
    which quotes, if in any). -/
inductive LexState where
  | space
  | word
  | quote (q : Nat)
  | escape (back : Option Nat)
deriving Repr, DecidableEq

/-- The reader: its state, and the word so far. -/
structure Reading where
  state : LexState
  token : Text
deriving Repr, DecidableEq

def Reading.start : Reading := ⟨.space, []⟩

/-- One character: the word that it ends, if it ends one, and the reader behind it. -/
def Reading.read (r : Reading) (c : Nat) : Option Text × Reading :=
  match r.state with
  | .space =>
      if isBlank c then (none, .start)
      else if c = 92 then (none, ⟨.escape none, []⟩)
      else if isQuote c then (none, ⟨.quote c, []⟩)
      else (none, ⟨.word, [c]⟩)
  | .word =>
      if isBlank c then (some r.token, .start)
      else if isQuote c then (none, ⟨.quote c, r.token⟩)
      else if c = 92 then (none, ⟨.escape none, r.token⟩)
      else (none, ⟨.word, r.token ++ [c]⟩)
  | .quote q =>
      if c = q then (none, ⟨.word, r.token⟩)
      -- Only double quotes know the backslash.
      else if c = 92 ∧ q = 34 then (none, ⟨.escape (some q), r.token⟩)
      else (none, ⟨.quote q, r.token ++ [c]⟩)
  | .escape none => (none, ⟨.word, r.token ++ [c]⟩)
  | .escape (some q) =>
      -- In quotes the backslash stays, unless it hides a quote or a backslash.
      (none, ⟨.quote q, (if c ≠ 92 ∧ c ≠ q then r.token ++ [92] else r.token) ++ [c]⟩)

/-- The end of the text. -/
def Reading.finish (r : Reading) : Except String (List Text) :=
  match r.state with
  | .space => .ok []
  | .word => .ok [r.token]
  | .quote _ => .error "No closing quotation"
  | .escape _ => .error "No escaped character"

def lex (r : Reading) : Text → Except String (List Text)
  | [] => r.finish
  | c :: cs =>
      match r.read c with
      | (none, r') => lex r' cs
      | (some token, r') => (lex r' cs).map (token :: ·)

/-- `shlex.split`. -/
def split (text : Text) : Except String (List Text) := lex .start text

/-! ## Stretches without anything special -/

/-- A character that goes into a word as it is. -/
def isPlain (c : Nat) : Bool := !isBlank c && !isQuote c && c != 92

theorem plain_iff {c : Nat} : isPlain c = true ↔ isBlank c = false ∧ isQuote c = false ∧ c ≠ 92 := by
  simp [isPlain, and_assoc]

section Stretches

variable {token rest : Text}

theorem lex_blank {c : Nat} (hc : isBlank c = true) : lex .start (c :: rest) = lex .start rest := by
  simp [lex, Reading.read, Reading.start, hc]

theorem lex_blanks {gap : Text} (h : ∀ c ∈ gap, isBlank c = true) : lex .start (gap ++ rest) = lex .start rest := by
  induction gap with
  | nil => rfl
  | cons c cs ih =>
      rw [List.cons_append, lex_blank (h c List.mem_cons_self)]
      exact ih fun d hd => h d (List.mem_cons_of_mem _ hd)

theorem read_word {c : Nat} (hc : isPlain c = true) :
    Reading.read ⟨.word, token⟩ c = (none, ⟨.word, token ++ [c]⟩) := by
  obtain ⟨hblank, hquote, hslash⟩ := plain_iff.mp hc
  simp [Reading.read, hblank, hquote, hslash]

theorem read_first {c : Nat} (hc : isPlain c = true) : Reading.read .start c = (none, ⟨.word, [c]⟩) := by
  obtain ⟨hblank, hquote, hslash⟩ := plain_iff.mp hc
  simp [Reading.read, Reading.start, hblank, hquote, hslash]

theorem lex_word {word : Text} (h : ∀ c ∈ word, isPlain c = true) :
    lex ⟨.word, token⟩ (word ++ rest) = lex ⟨.word, token ++ word⟩ rest := by
  induction word generalizing token with
  | nil => rw [List.nil_append, List.append_nil]
  | cons c cs ih =>
      rw [List.cons_append, lex, read_word (h c List.mem_cons_self)]
      dsimp only
      rw [ih fun d hd => h d (List.mem_cons_of_mem _ hd), List.append_assoc]
      rfl

theorem lex_quoted {inner : Text} (h : ∀ c ∈ inner, c ≠ 34 ∧ c ≠ 92) :
    lex ⟨.quote 34, token⟩ (inner ++ rest) = lex ⟨.quote 34, token ++ inner⟩ rest := by
  induction inner generalizing token with
  | nil => rw [List.nil_append, List.append_nil]
  | cons c cs ih =>
      obtain ⟨hquote, hslash⟩ := h c List.mem_cons_self
      have hread : Reading.read ⟨.quote 34, token⟩ c = (none, ⟨.quote 34, token ++ [c]⟩) := by
        simp [Reading.read, hquote, hslash]
      rw [List.cons_append, lex, hread]
      dsimp only
      rw [ih fun d hd => h d (List.mem_cons_of_mem _ hd), List.append_assoc]
      rfl

/-- A word ends at a blank, or with the text. -/
theorem lex_end (h : rest = [] ∨ ∃ c cs, rest = c :: cs ∧ isBlank c = true) :
    lex ⟨.word, token⟩ rest = (lex .start rest).map (token :: ·) := by
  rcases h with rfl | ⟨c, cs, rfl, hc⟩
  · rfl
  · have hread : Reading.read ⟨.word, token⟩ c = (some token, .start) := by simp [Reading.read, hc]
    rw [lex, hread, lex_blank hc]

end Stretches

/-! ## How often a character comes out -/

section Count

variable {p : Nat → Bool} {r : Reading} {c : Nat}

/-- How often the characters are in a word that may not be there. -/
def countOut (p : Nat → Bool) : Option Text → Nat
  | none => 0
  | some token => token.countP p

/-- What a character adds. -/
def countOne (p : Nat → Bool) (c : Nat) : Nat := if p c then 1 else 0

theorem countP_snoc (p : Nat → Bool) (token : Text) (c : Nat) :
    (token ++ [c]).countP p = token.countP p + countOne p c := by
  rw [List.countP_append, List.countP_singleton]
  rfl

/-- **No character comes out more often** than it was read; the backslash is not one of
    them. -/
theorem read_count (hp : p 92 = false) : countOut p (r.read c).1 + (r.read c).2.token.countP p ≤
    r.token.countP p + countOne p c := by
  have hslash : countOne p 92 = 0 := by rw [countOne, hp]; rfl
  obtain ⟨state, token⟩ := r
  unfold Reading.read Reading.start
  cases state with
  | space =>
      have hone : [c].countP p = countOne p c := List.countP_singleton
      dsimp only
      split
      · exact Nat.zero_le _
      split
      · exact Nat.zero_le _
      split
      · exact Nat.zero_le _
      · show 0 + [c].countP p ≤ _
        omega
  | word =>
      have hsnoc := countP_snoc p token c
      dsimp only
      split
      · exact Nat.le_add_right _ _
      split
      · show 0 + token.countP p ≤ _
        omega
      split
      · show 0 + token.countP p ≤ _
        omega
      · show 0 + (token ++ [c]).countP p ≤ _
        omega
  | quote q =>
      have hsnoc := countP_snoc p token c
      dsimp only
      split
      · show 0 + token.countP p ≤ _
        omega
      split
      · show 0 + token.countP p ≤ _
        omega
      · show 0 + (token ++ [c]).countP p ≤ _
        omega
  | escape back =>
      have hsnoc := countP_snoc p token c
      cases back with
      | none =>
          show 0 + (token ++ [c]).countP p ≤ token.countP p + countOne p c
          omega
      | some q =>
          show 0 + ((if c ≠ 92 ∧ c ≠ q then token ++ [92] else token) ++ [c]).countP p ≤ token.countP p + countOne p c
          rw [countP_snoc]
          split
          · rw [countP_snoc]
            omega
          · omega

/-- A blank or a single quote outside quotes comes out nowhere. -/
theorem read_drops (hstate : r.state = .space ∨ r.state = .word) (hc : isBlank c = true ∨ c = 39) :
    countOut p (r.read c).1 + (r.read c).2.token.countP p ≤ r.token.countP p := by
  obtain ⟨state, token⟩ := r
  have hquote : c = 39 → isBlank c = false ∧ isQuote c = true ∧ c ≠ 92 := by
    rintro rfl
    decide
  unfold Reading.read Reading.start
  rcases hstate with rfl | rfl
  · rcases hc with hblank | hsingle
    · simp [hblank, countOut]
    · obtain ⟨hblank, hmark, hslash⟩ := hquote hsingle
      simp [hblank, hmark, hslash, countOut]
  · rcases hc with hblank | hsingle
    · simp [hblank, countOut]
    · obtain ⟨hblank, hmark, hslash⟩ := hquote hsingle
      simp [hblank, hmark, countOut]

/-- The words behind one character. -/
theorem lex_cons {cs : Text} {tokens : List Text} (h : lex r (c :: cs) = .ok tokens) :
    ∃ tokens', lex (r.read c).2 cs = .ok tokens' ∧
      (tokens.map (List.countP p)).sum = countOut p (r.read c).1 + (tokens'.map (List.countP p)).sum := by
  rw [lex] at h
  generalize r.read c = step at h ⊢
  obtain ⟨out, r'⟩ := step
  cases out with
  | none => exact ⟨tokens, h, (Nat.zero_add _).symm⟩
  | some token =>
      dsimp only at h
      cases hrest : lex r' cs with
      | error e =>
          rw [hrest] at h
          exact absurd h nofun
      | ok tokens' =>
          rw [hrest] at h
          obtain rfl := Except.ok.inj h
          exact ⟨tokens', rfl, List.sum_cons⟩

/-- **No character is in the words more often than in the text.** -/
theorem lex_count (hp : p 92 = false) {text : Text} {tokens : List Text} (h : lex r text = .ok tokens) :
    (tokens.map (List.countP p)).sum ≤ r.token.countP p + text.countP p := by
  induction text generalizing r tokens with
  | nil =>
      obtain ⟨state, token⟩ := r
      cases state with
      | space =>
          obtain rfl := Except.ok.inj h
          exact Nat.zero_le _
      | word =>
          obtain rfl := Except.ok.inj h
          simp
      | quote q => exact absurd h nofun
      | escape back => exact absurd h nofun
  | cons c cs ih =>
      obtain ⟨tokens', hrest, hsum⟩ := @lex_cons p r c cs tokens h
      have hread := @read_count p r c hp
      have hcs := ih hrest
      have hcount : (c :: cs).countP p = cs.countP p + countOne p c := List.countP_cons
      omega

/-- **A blank or a single quote outside quotes is lost.** -/
theorem lex_drops (hp : p 92 = false) (hstate : r.state = .space ∨ r.state = .word)
    (hc : isBlank c = true ∨ c = 39) {cs : Text} {tokens : List Text} (h : lex r (c :: cs) = .ok tokens) :
    (tokens.map (List.countP p)).sum ≤ r.token.countP p + cs.countP p := by
  obtain ⟨tokens', hrest, hsum⟩ := @lex_cons p r c cs tokens h
  have hread := @read_drops p r c hstate hc
  have hcs := lex_count hp hrest
  omega

end Count

end ShellWords
