import VeloTransfer.CanonicalJsonProofs

/-! # Logs of JSON lines

    A log holds one compact JSON document to a line.  A reader takes lines off
    with `readline(limit)`; a crash may leave a torn tail behind the complete
    lines.

    * `readline_line` — a complete line within the limit is read as it is,
      whatever follows it;
    * `loads_jsonLine` — the line of an ASCII document is loaded back;
    * `jsonLine_isLine` — such a line has its only line end at its end. -/

namespace JsonLine

open CanonicalJson

abbrev Bytes := List UInt8

/-! ## Lines -/

/-- `readline(limit)`. -/
def readline : Nat → Bytes → Bytes
  | 0, _ => []
  | _ + 1, [] => []
  | limit + 1, b :: bs => if b = 10 then [b] else b :: readline limit bs

/-- A complete line: its only line end is its last byte. -/
def IsLine (line : Bytes) : Prop := ∃ body, line = body ++ [10] ∧ (10 : UInt8) ∉ body

theorem readline_body {body : Bytes} (hbody : (10 : UInt8) ∉ body) (rest : Bytes) {limit : Nat}
    (h : body.length < limit) : readline limit (body ++ 10 :: rest) = body ++ [10] := by
  induction body generalizing limit with
  | nil =>
      obtain ⟨limit, rfl⟩ : ∃ k, limit = k + 1 := ⟨limit - 1, by simp at h; omega⟩
      rfl
  | cons b body ih =>
      obtain ⟨limit, rfl⟩ : ∃ k, limit = k + 1 := ⟨limit - 1, by simp at h; omega⟩
      have hb : b ≠ 10 := by
        rintro rfl
        exact hbody List.mem_cons_self
      show readline (limit + 1) (b :: (body ++ 10 :: rest)) = _
      rw [readline, if_neg hb,
        ih (fun hm => hbody (List.mem_cons_of_mem _ hm)) (by simpa using h)]
      rfl

/-- A complete line within the limit is read whole. -/
theorem readline_line {line : Bytes} (hline : IsLine line) (rest : Bytes) {limit : Nat}
    (h : line.length ≤ limit) : readline limit (line ++ rest) = line := by
  obtain ⟨body, rfl, hbody⟩ := hline
  rw [List.append_assoc, List.singleton_append]
  refine readline_body hbody rest ?_
  rw [List.length_append] at h
  exact h

/-! ## ASCII documents -/

/-- A character that is rendered as itself in one byte. -/
def Printable (c : Nat) : Prop := 32 ≤ c ∧ c < 127 ∧ c ≠ 34 ∧ c ≠ 92

instance (c : Nat) : Decidable (Printable c) := inferInstanceAs (Decidable (_ ∧ _))

theorem renderChars_printable {s : Text} (h : ∀ c ∈ s, Printable c) : renderChars s = s := by
  induction s with
  | nil => rfl
  | cons c s ih =>
      obtain ⟨h32, -, h34, h92⟩ := h c List.mem_cons_self
      have hc : renderChar c = [c] := by
        unfold renderChar
        rw [if_neg h34, if_neg h92, if_neg (by omega), if_neg (by omega), if_neg (by omega),
          if_neg (by omega), if_neg (by omega), if_neg (by omega)]
      rw [renderChars, hc, ih (fun d hd => h d (List.mem_cons_of_mem _ hd))]
      rfl

mutual

/-- Every string in the value is printable ASCII; no fractional numbers. -/
def AllAscii : Json → Prop
  | .str s => ∀ c ∈ s, Printable c
  | .float _ => False
  | .arr items => AllAsciiItems items
  | .obj fields => AllAsciiFields fields
  | _ => True

def AllAsciiItems : List Json → Prop
  | [] => True
  | x :: xs => AllAscii x ∧ AllAsciiItems xs

def AllAsciiFields : List (Text × Json) → Prop
  | [] => True
  | (k, v) :: fs => (∀ c ∈ k, Printable c) ∧ AllAscii v ∧ AllAsciiFields fs

end

/-- A visible ASCII character or a blank. -/
def Visible (c : Nat) : Prop := 32 ≤ c ∧ c < 127

instance (c : Nat) : Decidable (Visible c) := inferInstanceAs (Decidable (_ ∧ _))

theorem visible_digit {c : Nat} (h : isDigit c = true) : Visible c := by
  simp only [isDigit, Bool.and_eq_true, decide_eq_true_eq] at h
  exact ⟨by omega, by omega⟩

theorem visible_renderInt (i : Int) : ∀ c ∈ renderInt i, Visible c := by
  intro c hc
  unfold renderInt at hc
  split at hc
  · rcases List.mem_cons.mp hc with rfl | hc
    · exact ⟨by decide, by decide⟩
    · exact visible_digit (decimal_digits _ c hc)
  · exact visible_digit (decimal_digits _ c hc)

theorem visible_renderString {s : Text} (h : ∀ c ∈ s, Printable c) :
    ∀ c ∈ renderString s, Visible c := by
  intro c hc
  rw [renderString, renderChars_printable h] at hc
  rcases List.mem_cons.mp hc with rfl | hc
  · exact ⟨by decide, by decide⟩
  rcases List.mem_append.mp hc with hc | hc
  · exact ⟨(h c hc).1, (h c hc).2.1⟩
  · rw [List.mem_singleton] at hc
    subst hc
    exact ⟨by decide, by decide⟩

theorem visible_cons {c : Nat} {cs : Text} (hc : Visible c) (hcs : ∀ d ∈ cs, Visible d) :
    ∀ d ∈ c :: cs, Visible d := by
  intro d hd
  rcases List.mem_cons.mp hd with rfl | hd
  · exact hc
  · exact hcs d hd

theorem visible_append {as bs : Text} (ha : ∀ d ∈ as, Visible d) (hb : ∀ d ∈ bs, Visible d) :
    ∀ d ∈ as ++ bs, Visible d := by
  intro d hd
  rcases List.mem_append.mp hd with hd | hd
  · exact ha d hd
  · exact hb d hd

mutual

/-- The text of an ASCII document is visible ASCII. -/
theorem visible_render : ∀ v : Json, AllAscii v → ∀ c ∈ render v, Visible c
  | .null, _ => by decide
  | .bool true, _ => by decide
  | .bool false, _ => by decide
  | .float _, h => absurd h (by simp [AllAscii])
  | .int i, _ => visible_renderInt i
  | .str s, h => visible_renderString h
  | .arr [], _ => by decide
  | .arr (x :: xs), h =>
      visible_cons (by decide) (visible_append (visible_render x h.1) (visible_renderItems xs h.2))
  | .obj [], _ => by decide
  | .obj ((_, v) :: fs), h =>
      visible_cons (by decide) (visible_append (visible_renderString h.1)
        (visible_cons (by decide)
          (visible_append (visible_render v h.2.1) (visible_renderFields fs h.2.2))))

theorem visible_renderItems : ∀ xs : List Json, AllAsciiItems xs → ∀ c ∈ renderItems xs, Visible c
  | [], _ => by decide
  | x :: xs, h =>
      visible_cons (by decide) (visible_append (visible_render x h.1) (visible_renderItems xs h.2))

theorem visible_renderFields : ∀ fs : List (Text × Json), AllAsciiFields fs →
    ∀ c ∈ renderFields fs, Visible c
  | [], _ => by decide
  | (_, v) :: fs, h =>
      visible_cons (by decide) (visible_append (visible_renderString h.1)
        (visible_cons (by decide)
          (visible_append (visible_render v h.2.1) (visible_renderFields fs h.2.2))))

end

theorem encodeUnits_visible {cs : Text} (h : ∀ c ∈ cs, c < 127) : encodeUnits cs = cs := by
  induction cs with
  | nil => rfl
  | cons c cs ih =>
      have hc := h c List.mem_cons_self
      rw [encodeUnits, utf8Units, if_pos (by omega),
        ih (fun d hd => h d (List.mem_cons_of_mem _ hd))]
      rfl

/-- ASCII text is encoded one byte to a character. -/
theorem encodeUtf8_visible {cs : Text} (h : ∀ c ∈ cs, c < 127) :
    encodeUtf8 cs = some (cs.map UInt8.ofNat) := by
  rw [encodeUtf8, if_pos, encodeUnits_visible h]
  intro c hc
  have := h c hc
  refine ⟨by omega, ?_⟩
  simp only [isSurrogate, Bool.and_eq_false_iff, decide_eq_false_iff_not]
  omega

/-! ## Lines of JSON -/

/-- The line of a document; it is meant for documents that encode. -/
def jsonLine (v : Json) : Bytes := (dumps v).getD [] ++ [10]

variable {v : Json}

theorem dumps_ascii (h : AllAscii v.sortKeys) :
    dumps v = some ((render v.sortKeys).map UInt8.ofNat) :=
  encodeUtf8_visible (fun c hc => (visible_render _ h c hc).2)

theorem jsonLine_ascii (h : AllAscii v.sortKeys) :
    jsonLine v = (render v.sortKeys).map UInt8.ofNat ++ [10] := by
  rw [jsonLine, dumps_ascii h]
  rfl

theorem jsonLine_length (h : AllAscii v.sortKeys) :
    (jsonLine v).length = (render v.sortKeys).length + 1 := by
  rw [jsonLine_ascii h, List.length_append, List.length_map]
  rfl

/-- The line end of a line is its last byte. -/
theorem jsonLine_isLine (h : AllAscii v.sortKeys) : IsLine (jsonLine v) := by
  refine ⟨(render v.sortKeys).map UInt8.ofNat, jsonLine_ascii h, ?_⟩
  intro hmem
  obtain ⟨c, hc, heq⟩ := List.mem_map.mp hmem
  obtain ⟨h32, h127⟩ := visible_render _ h c hc
  have hnat := congrArg UInt8.toNat heq
  rw [UInt8.toNat_ofNat', Nat.mod_eq_of_lt (Nat.lt_trans h127 (by decide))] at hnat
  have hten : c = 10 := hnat
  omega

/-- The line of an object is loaded back, line end included. -/
theorem loads_jsonLine {k : Text} {w : Json} {fs : List (Text × Json)}
    (hsort : v.sortKeys = .obj ((k, w) :: fs)) (h : AllAscii v.sortKeys)
    (hplain : v.sortKeys.Plain) : loads (jsonLine v) = .ok v.sortKeys := by
  have hvis := visible_render _ h
  have hlt : ∀ c ∈ render v.sortKeys ++ [10], c < 127 := by
    intro c hc
    rcases List.mem_append.mp hc with hc | hc
    · exact (hvis c hc).2
    · rw [List.mem_singleton] at hc
      omega
  have hline : encodeUtf8 (render v.sortKeys ++ [10]) = some (jsonLine v) := by
    rw [encodeUtf8_visible hlt, jsonLine_ascii h, List.map_append]
    rfl
  refine loads_dumps hplain ?_ hline ?_
  · intro c hc
    rw [List.mem_singleton] at hc
    subst hc
    rfl
  · rw [jsonLine_ascii h, hsort]
    rfl

end JsonLine
