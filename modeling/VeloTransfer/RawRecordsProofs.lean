import VeloTransfer.JsonHeapProofs
import VeloTransfer.JsonLengthProofs
import VeloTransfer.Sha256Proofs

/-! # Raw record files — lines that a collector writes and reads back

    The boot collectors append one canonical line for each record and read the
    file back with `splitlines`.  The encoder leaves U+0085, U+2028 and U+2029 as
    they are, and `splitlines` ends a line at each of them:

    * `splitLines_line` — a text without line breaks is one line;
    * `recordLines_broken` — a record with one of the three characters is two lines
      at least;
    * `reads_back_iff` — the file is read back as it was written exactly when no
      text of a record has one of them. -/

namespace RawRecords

open CanonicalJson JsonLine BoundedJson JsonLimits JsonDict JsonHeap

/-! ## Lines of a text -/

/-- Where `str.splitlines` ends a line. -/
def isLineBreak (c : Nat) : Bool :=
  (10 ≤ c && c ≤ 13) || (28 ≤ c && c ≤ 30) || c == 0x85 || c == 0x2028 || c == 0x2029

/-- What `str.strip` removes. -/
def isStripped (c : Nat) : Bool :=
  (9 ≤ c && c ≤ 13) || (28 ≤ c && c ≤ 32) || c == 0x85 || c == 0xa0 || c == 0x1680 ||
    (0x2000 ≤ c && c ≤ 0x200a) || c == 0x2028 || c == 0x2029 || c == 0x202f || c == 0x205f ||
    c == 0x3000

/-- A character in front of the first line. -/
def consLine (c : Nat) : List Text → List Text
  | [] => [[c]]
  | line :: lines => (c :: line) :: lines

/-- `str.splitlines`. -/
def splitLines : Text → List Text
  | [] => []
  | 13 :: 10 :: cs => [] :: splitLines cs
  | c :: cs => if isLineBreak c then [] :: splitLines cs else consLine c (splitLines cs)

/-- What reading in text mode does to line ends. -/
def universalNewlines : Text → Text
  | [] => []
  | 13 :: 10 :: cs => 10 :: universalNewlines cs
  | c :: cs => (if c = 13 then 10 else c) :: universalNewlines cs

/-- `bool(line.strip())`. -/
def nonBlank (line : Text) : Bool := line.any (fun c => !isStripped c)

/-- The lines that a reader looks at. -/
def recordLines (text : Text) : List Text := (splitLines text).filter nonBlank

theorem splitLines_cons {c : Nat} (hc : c ≠ 13) (cs : Text) :
    splitLines (c :: cs) =
      if isLineBreak c then [] :: splitLines cs else consLine c (splitLines cs) := by
  rw [splitLines]
  rintro ds rfl
  exact absurd rfl hc

theorem universalNewlines_of {s : Text} (hs : 13 ∉ s) : universalNewlines s = s := by
  induction s with
  | nil => rfl
  | cons c cs ih =>
      rw [List.mem_cons, not_or] at hs
      rw [universalNewlines, if_neg (Ne.symm hs.1), ih hs.2]
      rintro ds rfl
      exact absurd rfl hs.1

theorem stripped_of_break {c : Nat} (hc : isLineBreak c = true) : isStripped c = true := by
  unfold isLineBreak at hc
  unfold isStripped
  simp only [Bool.or_eq_true, Bool.and_eq_true, decide_eq_true_eq, beq_iff_eq] at hc ⊢
  omega

theorem consLine_append (c : Nat) {lines : List Text} (hne : lines ≠ []) (more : List Text) :
    consLine c (lines ++ more) = consLine c lines ++ more := by
  cases lines with
  | nil => exact absurd rfl hne
  | cons line lines => rfl

theorem splitLines_ne_nil {s : Text} (hs : 13 ∉ s) (hne : s ≠ []) : splitLines s ≠ [] := by
  cases s with
  | nil => exact absurd rfl hne
  | cons c cs =>
      rw [splitLines_cons (fun h => hs (h ▸ List.mem_cons_self))]
      by_cases hc : isLineBreak c = true
      · rw [if_pos hc]
        exact List.cons_ne_nil _ _
      · rw [if_neg hc]
        cases splitLines cs with
        | nil => exact List.cons_ne_nil _ _
        | cons line lines => exact List.cons_ne_nil _ _

/-- At a line break a text falls into two. -/
theorem splitLines_append {s : Text} (hs : 13 ∉ s) {b : Nat} (hb : isLineBreak b = true)
    (hb13 : b ≠ 13) (t : Text) :
    splitLines (s ++ b :: t) = splitLines (s ++ [b]) ++ splitLines t := by
  induction s with
  | nil =>
      rw [List.nil_append, List.nil_append, splitLines_cons hb13, splitLines_cons hb13, if_pos hb,
        if_pos hb]
      rfl
  | cons c cs ih =>
      rw [List.mem_cons, not_or] at hs
      rw [List.cons_append, List.cons_append, splitLines_cons (Ne.symm hs.1),
        splitLines_cons (Ne.symm hs.1), ih hs.2]
      by_cases hc : isLineBreak c = true
      · rw [if_pos hc, if_pos hc, List.cons_append]
      · have hmem : 13 ∉ cs ++ [b] := by
          rw [List.mem_append, List.mem_singleton, not_or]
          exact ⟨hs.2, Ne.symm hb13⟩
        rw [if_neg hc, if_neg hc,
          consLine_append c (splitLines_ne_nil hmem (List.append_ne_nil_of_right_ne_nil _
            (List.cons_ne_nil _ _)))]

/-- **A text without line breaks is one line.** -/
theorem splitLines_line {s : Text} (hs : ∀ c ∈ s, isLineBreak c = false) :
    splitLines (s ++ [10]) = [s] := by
  induction s with
  | nil => rfl
  | cons c cs ih =>
      have hc := hs c List.mem_cons_self
      have hc13 : c ≠ 13 := by
        rintro rfl
        exact absurd hc (by decide)
      rw [List.cons_append, splitLines_cons hc13, hc, if_neg Bool.false_ne_true,
        ih (fun d hd => hs d (List.mem_cons_of_mem _ hd))]
      rfl

/-- A character that is no line break is in some line. -/
theorem mem_splitLines {s : Text} (hs : 13 ∉ s) {c : Nat} (hc : c ∈ s)
    (hbreak : isLineBreak c = false) : ∃ line ∈ splitLines s, c ∈ line := by
  induction s with
  | nil => exact absurd hc List.not_mem_nil
  | cons d ds ih =>
      rw [List.mem_cons, not_or] at hs
      rw [splitLines_cons (Ne.symm hs.1)]
      by_cases hd : isLineBreak d = true
      · rw [if_pos hd]
        rcases List.mem_cons.mp hc with rfl | hc
        · cases hbreak.symm.trans hd
        · obtain ⟨line, hline, hmem⟩ := ih hs.2 hc
          exact ⟨line, List.mem_cons_of_mem _ hline, hmem⟩
      · rw [if_neg hd]
        rcases List.mem_cons.mp hc with rfl | hc
        · cases splitLines ds with
          | nil => exact ⟨[c], List.mem_singleton_self _, List.mem_singleton_self _⟩
          | cons line lines => exact ⟨c :: line, List.mem_cons_self, List.mem_cons_self⟩
        · obtain ⟨line, hline, hmem⟩ := ih hs.2 hc
          cases hsplit : splitLines ds with
          | nil =>
              rw [hsplit] at hline
              exact absurd hline List.not_mem_nil
          | cons first lines =>
              rw [hsplit] at hline
              rcases List.mem_cons.mp hline with rfl | hline
              · exact ⟨d :: line, List.mem_cons_self, List.mem_cons_of_mem _ hmem⟩
              · exact ⟨line, List.mem_cons_of_mem _ hline, hmem⟩

/-- A text with something that is not stripped has a line to look at. -/
theorem recordLines_pos {s : Text} (hs : 13 ∉ s) {c : Nat} (hc : c ∈ s)
    (hblank : isStripped c = false) : 1 ≤ (recordLines s).length := by
  have hbreak : isLineBreak c = false := by
    by_contra h
    have h : isLineBreak c = true := by simpa using h
    cases hblank.symm.trans (stripped_of_break h)
  obtain ⟨line, hline, hmem⟩ := mem_splitLines hs hc hbreak
  refine List.length_pos_of_mem (a := line) (List.mem_filter.mpr ⟨hline, ?_⟩)
  exact List.any_eq_true.mpr ⟨c, hmem, by rw [hblank]; rfl⟩

theorem recordLines_append {s : Text} (hs : 13 ∉ s) {b : Nat} (hb : isLineBreak b = true)
    (hb13 : b ≠ 13) (t : Text) :
    recordLines (s ++ b :: t) = recordLines (s ++ [b]) ++ recordLines t := by
  rw [recordLines, splitLines_append hs hb hb13, List.filter_append]
  rfl

/-! ## The characters of an encoded value -/

mutual

/-- The texts of a value: its strings and its keys. -/
def texts : Json → List Text
  | .str s => [s]
  | .arr items => textsItems items
  | .obj fields => textsFields fields
  | _ => []

def textsItems : List Json → List Text
  | [] => []
  | x :: xs => texts x ++ textsItems xs

def textsFields : List (Text × Json) → List Text
  | [] => []
  | (k, v) :: fs => k :: texts v ++ textsFields fs

end

/-- A text of the value has the character. -/
def Mentions (c : Nat) (ts : List Text) : Prop := ∃ s ∈ ts, c ∈ s

theorem mentions_append {c : Nat} {ts us : List Text} :
    Mentions c (ts ++ us) ↔ Mentions c ts ∨ Mentions c us := by
  constructor
  · rintro ⟨s, hs, hc⟩
    rcases List.mem_append.mp hs with hs | hs
    · exact Or.inl ⟨s, hs, hc⟩
    · exact Or.inr ⟨s, hs, hc⟩
  · rintro (⟨s, hs, hc⟩ | ⟨s, hs, hc⟩)
    · exact ⟨s, List.mem_append_left _ hs, hc⟩
    · exact ⟨s, List.mem_append_right _ hs, hc⟩

theorem mentions_cons {c : Nat} {s : Text} {ts : List Text} :
    Mentions c (s :: ts) ↔ c ∈ s ∨ Mentions c ts := by
  constructor
  · rintro ⟨t, ht, hc⟩
    rcases List.mem_cons.mp ht with rfl | ht
    · exact Or.inl hc
    · exact Or.inr ⟨t, ht, hc⟩
  · rintro (hc | ⟨t, ht, hc⟩)
    · exact ⟨s, List.mem_cons_self, hc⟩
    · exact ⟨t, List.mem_cons_of_mem _ ht, hc⟩

theorem mentions_nil {c : Nat} : ¬ Mentions c [] := fun ⟨_, hs, _⟩ => absurd hs List.not_mem_nil

theorem mentions_textsFields {c : Nat} {fs : List (Text × Json)} :
    Mentions c (textsFields fs) ↔ ∃ f ∈ fs, c ∈ f.1 ∨ Mentions c (texts f.2) := by
  induction fs with
  | nil => exact ⟨fun h => absurd h mentions_nil, fun ⟨_, hf, _⟩ => absurd hf List.not_mem_nil⟩
  | cons f fs ih =>
      obtain ⟨k, v⟩ := f
      show Mentions c (k :: (texts v ++ textsFields fs)) ↔ _
      rw [mentions_cons, mentions_append, ih, List.exists_mem_cons_iff, or_assoc]

mutual

/-- Sorting the keys keeps the texts. -/
theorem mentions_sortKeys {c : Nat} : ∀ v : Json,
    Mentions c (texts v.sortKeys) ↔ Mentions c (texts v)
  | .null => Iff.rfl
  | .bool _ => Iff.rfl
  | .int _ => Iff.rfl
  | .float _ => Iff.rfl
  | .str _ => Iff.rfl
  | .arr items => mentions_sortItems items
  | .obj fields => by
      show Mentions c (textsFields (sortFields fields)) ↔ Mentions c (textsFields fields)
      rw [mentions_textsFields, mentions_textsFields]
      constructor
      · rintro ⟨f, hf, hc⟩
        obtain ⟨g, hg, rfl⟩ := mem_sortFields hf
        exact ⟨g, hg, hc.imp_right (mentions_sorted fields g hg).mp⟩
      · rintro ⟨g, hg, hc⟩
        exact ⟨(g.1, g.2.sortKeys), (sortFields_perm fields).mem_iff.mpr (List.mem_map_of_mem hg),
          hc.imp_right (mentions_sorted fields g hg).mpr⟩

theorem mentions_sortItems {c : Nat} : ∀ xs : List Json,
    Mentions c (textsItems (sortItems xs)) ↔ Mentions c (textsItems xs)
  | [] => Iff.rfl
  | x :: xs => by
      show Mentions c (texts x.sortKeys ++ textsItems (sortItems xs)) ↔
        Mentions c (texts x ++ textsItems xs)
      rw [mentions_append, mentions_append, mentions_sortKeys x, mentions_sortItems xs]

theorem mentions_sorted {c : Nat} : ∀ fs : List (Text × Json), ∀ f ∈ fs,
    (Mentions c (texts f.2.sortKeys) ↔ Mentions c (texts f.2))
  | [], _, hf => absurd hf List.not_mem_nil
  | (k, v) :: fs, f, hf => by
      rcases List.mem_cons.mp hf with rfl | hf
      · exact mentions_sortKeys v
      · exact mentions_sorted fs f hf

end

theorem renderChar_high {c : Nat} (hc : 127 ≤ c) : renderChar c = [c] := by
  unfold renderChar
  rw [if_neg (by omega), if_neg (by omega), if_neg (by omega), if_neg (by omega),
    if_neg (by omega), if_neg (by omega), if_neg (by omega), if_neg (by omega)]

/-- An escaped character is visible ASCII, or it stands as it is. -/
theorem mem_renderChar {c d : Nat} (hd : d ∈ renderChar c) : Visible d ∨ (127 ≤ d ∧ d = c) := by
  have hlow : ∀ c < 127, ∀ d ∈ renderChar c, 32 ≤ d ∧ d < 127 := by decide
  by_cases hc : c < 127
  · exact Or.inl (hlow c hc d hd)
  · have hc := Nat.not_lt.mp hc
    rw [renderChar_high hc, List.mem_singleton] at hd
    exact Or.inr ⟨hd ▸ hc, hd⟩

theorem mem_renderChars {s : Text} {d : Nat} (hd : d ∈ renderChars s) :
    Visible d ∨ (127 ≤ d ∧ d ∈ s) := by
  induction s with
  | nil => exact absurd hd List.not_mem_nil
  | cons c cs ih =>
      rcases List.mem_append.mp hd with hd | hd
      · rcases mem_renderChar hd with hvis | ⟨hhigh, rfl⟩
        · exact Or.inl hvis
        · exact Or.inr ⟨hhigh, List.mem_cons_self⟩
      · exact (ih hd).imp_right (And.imp_right (List.mem_cons_of_mem _))

theorem mem_renderString {s : Text} {d : Nat} (hd : d ∈ renderString s) :
    Visible d ∨ (127 ≤ d ∧ d ∈ s) := by
  rcases List.mem_cons.mp hd with rfl | hd
  · exact Or.inl ⟨by decide, by decide⟩
  rcases List.mem_append.mp hd with hd | hd
  · exact mem_renderChars hd
  · rw [List.mem_singleton] at hd
    exact Or.inl ⟨by omega, by omega⟩

theorem renderString_high {s : Text} {c : Nat} (hc : c ∈ s) (hhigh : 127 ≤ c) :
    c ∈ renderString s := by
  refine List.mem_cons_of_mem _ (List.mem_append_left _ ?_)
  induction s with
  | nil => exact absurd hc List.not_mem_nil
  | cons d ds ih =>
      rcases List.mem_cons.mp hc with rfl | hc
      · exact List.mem_append_left _ (renderChar_high hhigh ▸ List.mem_singleton_self c)
      · exact List.mem_append_right _ (ih hc)

/-! The token of a fractional number: what the number rule reads back has only
    digits, a sign, a point and an exponent. -/

theorem visible_digits {ds : Text} (hds : ∀ c ∈ ds, isDigit c = true) : ∀ c ∈ ds, Visible c :=
  fun c hc => visible_digit (hds c hc)

theorem visible_fraction (cs : Text) : ∀ c ∈ (matchFraction cs).1, Visible c := by
  unfold matchFraction
  split
  · exact fun _ hc => absurd hc List.not_mem_nil
  next d ds =>
    split
    · exact visible_cons ⟨by decide, by decide⟩ (visible_digits (spanDigits_digits ds))
    · exact fun _ hc => absurd hc List.not_mem_nil

theorem visible_exponent (cs : Text) : ∀ c ∈ (matchExponent cs).1, Visible c := by
  unfold matchExponent
  split
  · exact fun _ hc => absurd hc List.not_mem_nil
  next e es =>
    split
    next he =>
      have hvis : Visible e := by
        rcases he with rfl | rfl <;> exact ⟨by decide, by decide⟩
      split
      · exact fun _ hc => absurd hc List.not_mem_nil
      next d ds =>
        split
        next hsign =>
          have hd : Visible d := by
            rcases hsign.1 with rfl | rfl <;> exact ⟨by decide, by decide⟩
          exact visible_cons hvis (visible_cons hd (visible_digits (spanDigits_digits ds)))
        · split
          · exact visible_cons hvis (visible_digits (spanDigits_digits (d :: ds)))
          · exact fun _ hc => absurd hc List.not_mem_nil
    · exact fun _ hc => absurd hc List.not_mem_nil

theorem visible_unsigned {negative : Bool} {cs t rest : Text}
    (h : matchUnsigned negative cs = .ok (.float t, rest)) : ∀ c ∈ t, Visible c := by
  unfold matchUnsigned at h
  split at h
  · exact absurd h nofun
  next digits ds hmatch =>
    dsimp only at h
    split at h
    · exact absurd (Prod.mk.inj (Except.ok.inj h)).1 nofun
    · obtain rfl := Json.float.inj (Prod.mk.inj (Except.ok.inj h)).1
      refine visible_append (visible_append (visible_append ?_ ?_) (visible_fraction ds))
        (visible_exponent _)
      · cases negative <;> decide
      · exact visible_digits (matchInt_length hmatch).2.2

theorem visible_float {t : Text} (ht : FloatToken t) : ∀ c ∈ t, Visible c := by
  have hread := ht.reads [] delimited_nil
  unfold matchNumber at hread
  split at hread
  · cases hread
  · split at hread
    · exact visible_unsigned hread
    · exact visible_unsigned hread

/-- Where a character of an encoded value comes from. -/
def Comes (c : Nat) (ts : List Text) : Prop := Visible c ∨ (127 ≤ c ∧ Mentions c ts)

theorem Comes.mono {c : Nat} {ts us : List Text} (hc : Comes c ts)
    (hsub : Mentions c ts → Mentions c us) : Comes c us := hc.imp_right (And.imp_right hsub)

theorem comes_visible {c : Nat} {ts : List Text} (hlow : 32 ≤ c := by decide)
    (hhigh : c < 127 := by decide) : Comes c ts := Or.inl ⟨hlow, hhigh⟩

theorem comes_of_field {k : Text} {v : Json} {fs : List (Text × Json)}
    (hv : ∀ c ∈ render v, Comes c (texts v))
    (hfs : ∀ c ∈ renderFields fs, Comes c (textsFields fs)) :
    ∀ c ∈ renderString k ++ 58 :: (render v ++ renderFields fs),
      Comes c (textsFields ((k, v) :: fs)) := by
  intro c hc
  show Comes c (k :: (texts v ++ textsFields fs))
  rcases List.mem_append.mp hc with hc | hc
  · exact (mem_renderString hc).imp_right (And.imp_right fun h => mentions_cons.mpr (Or.inl h))
  rcases List.mem_cons.mp hc with rfl | hc
  · exact comes_visible
  rcases List.mem_append.mp hc with hc | hc
  · exact (hv c hc).mono fun h => mentions_cons.mpr (Or.inr (mentions_append.mpr (Or.inl h)))
  · exact (hfs c hc).mono fun h => mentions_cons.mpr (Or.inr (mentions_append.mpr (Or.inr h)))

mutual

/-- An encoded value has visible ASCII characters, and others from its texts. -/
theorem comes_of_render : ∀ v : Json, Value v → ∀ c ∈ render v, Comes c (texts v)
  | .null, _, _, hc => by
      have hall : ∀ d ∈ render .null, 32 ≤ d ∧ d < 127 := by decide
      exact Or.inl (hall _ hc)
  | .bool true, _, _, hc => by
      have hall : ∀ d ∈ render (.bool true), 32 ≤ d ∧ d < 127 := by decide
      exact Or.inl (hall _ hc)
  | .bool false, _, _, hc => by
      have hall : ∀ d ∈ render (.bool false), 32 ≤ d ∧ d < 127 := by decide
      exact Or.inl (hall _ hc)
  | .int i, _, c, hc => Or.inl (visible_renderInt i c hc)
  | .float _, hv, c, hc => Or.inl (visible_float hv c hc)
  | .str s, _, c, hc => (mem_renderString hc).imp_right (And.imp_right
      fun hs => ⟨s, List.mem_singleton_self s, hs⟩)
  | .arr [], _, _, hc => by
      have hall : ∀ d ∈ render (.arr []), 32 ≤ d ∧ d < 127 := by decide
      exact Or.inl (hall _ hc)
  | .arr (x :: xs), hv, c, hc => by
      rcases List.mem_cons.mp hc with rfl | hc
      · exact comes_visible
      rcases List.mem_append.mp hc with hc | hc
      · exact (comes_of_render x hv.1 c hc).mono fun h => mentions_append.mpr (Or.inl h)
      · exact (comes_of_renderItems xs hv.2 c hc).mono fun h => mentions_append.mpr (Or.inr h)
  | .obj [], _, _, hc => by
      have hall : ∀ d ∈ render (.obj []), 32 ≤ d ∧ d < 127 := by decide
      exact Or.inl (hall _ hc)
  | .obj ((k, v) :: fs), hv, c, hc => by
      rcases List.mem_cons.mp hc with rfl | hc
      · exact comes_visible
      exact comes_of_field (comes_of_render v hv.2.1.2) (comes_of_renderFields fs hv.2.2) c hc

theorem comes_of_renderItems : ∀ xs : List Json, ValueItems xs → ∀ c ∈ renderItems xs,
    Comes c (textsItems xs)
  | [], _, c, hc => by
      rw [renderItems, List.mem_singleton] at hc
      subst hc
      exact comes_visible
  | x :: xs, hv, c, hc => by
      rcases List.mem_cons.mp hc with rfl | hc
      · exact comes_visible
      rcases List.mem_append.mp hc with hc | hc
      · exact (comes_of_render x hv.1 c hc).mono fun h => mentions_append.mpr (Or.inl h)
      · exact (comes_of_renderItems xs hv.2 c hc).mono fun h => mentions_append.mpr (Or.inr h)

theorem comes_of_renderFields : ∀ fs : List (Text × Json), ValueFields fs →
    ∀ c ∈ renderFields fs, Comes c (textsFields fs)
  | [], _, c, hc => by
      rw [renderFields, List.mem_singleton] at hc
      subst hc
      exact comes_visible
  | (k, v) :: fs, hv, c, hc => by
      rcases List.mem_cons.mp hc with rfl | hc
      · exact comes_visible
      exact comes_of_field (comes_of_render v hv.1.2) (comes_of_renderFields fs hv.2) c hc

end

theorem field_of_mentions {c : Nat} (hhigh : 127 ≤ c) {k : Text} {v : Json}
    {fs : List (Text × Json)} (hv : Mentions c (texts v) → c ∈ render v)
    (hfs : Mentions c (textsFields fs) → c ∈ renderFields fs)
    (h : Mentions c (textsFields ((k, v) :: fs))) :
    c ∈ renderString k ++ 58 :: (render v ++ renderFields fs) := by
  have h : Mentions c (k :: (texts v ++ textsFields fs)) := h
  rcases mentions_cons.mp h with hc | h
  · exact List.mem_append_left _ (renderString_high hc hhigh)
  · refine List.mem_append_right _ (List.mem_cons_of_mem _ (List.mem_append.mpr ?_))
    exact (mentions_append.mp h).imp hv hfs

mutual

/-- What a text mentions beyond ASCII is written. -/
theorem render_of_mentions {c : Nat} (hhigh : 127 ≤ c) : ∀ v : Json, Mentions c (texts v) →
    c ∈ render v
  | .null, h => absurd h mentions_nil
  | .bool _, h => absurd h mentions_nil
  | .int _, h => absurd h mentions_nil
  | .float _, h => absurd h mentions_nil
  | .str s, h => by
      rcases mentions_cons.mp h with hc | h
      · exact renderString_high hc hhigh
      · exact absurd h mentions_nil
  | .arr [], h => absurd h mentions_nil
  | .arr (x :: xs), h => by
      refine List.mem_cons_of_mem _ (List.mem_append.mpr ?_)
      exact (mentions_append.mp h).imp (render_of_mentions hhigh x) (renderItems_of_mentions hhigh xs)
  | .obj [], h => absurd h mentions_nil
  | .obj ((_, v) :: fs), h => List.mem_cons_of_mem _
      (field_of_mentions hhigh (render_of_mentions hhigh v) (renderFields_of_mentions hhigh fs) h)

theorem renderItems_of_mentions {c : Nat} (hhigh : 127 ≤ c) : ∀ xs : List Json,
    Mentions c (textsItems xs) → c ∈ renderItems xs
  | [], h => absurd h mentions_nil
  | x :: xs, h => by
      refine List.mem_cons_of_mem _ (List.mem_append.mpr ?_)
      exact (mentions_append.mp h).imp (render_of_mentions hhigh x) (renderItems_of_mentions hhigh xs)

theorem renderFields_of_mentions {c : Nat} (hhigh : 127 ≤ c) : ∀ fs : List (Text × Json),
    Mentions c (textsFields fs) → c ∈ renderFields fs
  | [], h => absurd h mentions_nil
  | (_, v) :: fs, h => List.mem_cons_of_mem _
      (field_of_mentions hhigh (render_of_mentions hhigh v) (renderFields_of_mentions hhigh fs) h)

end

/-! ## The file -/

/-- One call of `_RawWriter.write`: the record is `dict(index=…, kind=…,
    monotonic_ns=…, **payload)`. -/
structure Entry where
  kind : Text
  monotonic : Nat
  payload : List (Text × Json)
  sound : Value (.obj ((ascii "index", .null) :: (ascii "kind", .str kind) ::
    (ascii "monotonic_ns", .null) :: payload))

def Entry.record (e : Entry) (index : Nat) : Json :=
  .obj ((ascii "index", .int index) :: (ascii "kind", .str e.kind) ::
    (ascii "monotonic_ns", .int e.monotonic) :: e.payload)

/-- `_RawWriter`: the records so far, and the file. -/
structure RawWriter where
  count : Nat
  stream : Bytes
deriving Repr, DecidableEq

/-- `_RawWriter.write`; `none` when the record cannot be encoded. -/
def RawWriter.write (digits : Nat) (w : RawWriter) (e : Entry) : Option (Json × RawWriter) := do
  let raw ← canonicalJson digits (e.record (w.count + 1))
  return (e.record (w.count + 1), ⟨w.count + 1, w.stream ++ (raw ++ [10])⟩)

/-- A collection: the records that were written, and the writer after them. -/
def RawWriter.writes (digits : Nat) : RawWriter → List Entry → Option (List Json × RawWriter)
  | w, [] => some ([], w)
  | w, e :: es => do
      let (record, w) ← w.write digits e
      let (records, w) ← w.writes digits es
      return (record :: records, w)

/-- `json.loads` without a hook.  Where an object repeats a key it keeps the last
    one, and it has constants of its own; elsewhere it reads what the strict
    parser reads. -/
structure Loader where
  loads : Text → Option Json
  strict : ∀ text v, parseDocument text = .ok v → loads text = some v

/-- `Path.read_text(encoding='utf-8')`. -/
def readText (raw : Bytes) : Option Text :=
  (decodeUtf8 raw).bind fun text =>
    if ∀ c ∈ text, Scalar c then some (universalNewlines text) else none

/-- `_load_records`. -/
def Loader.loadRecords (l : Loader) (raw : Bytes) : Option (List Json) :=
  (readText raw).bind fun text => (recordLines text).mapM l.loads

/-- The entry of a file in the manifest. -/
structure FileEntry where
  size : Nat
  sha256 : Text
deriving Repr, DecidableEq

def sealFile (raw : Bytes) : FileEntry := ⟨raw.length, Sha256.hexdigest raw⟩

/-- The size and the digest of a file, as `_check_manifest_inventory` asks for them. -/
def checkFile (entry : FileEntry) (raw : Bytes) : Bool :=
  raw.length == entry.size && Sha256.hexdigest raw == entry.sha256

/-- Each record has its own position for an index, as `normalize_boot_resume` asks. -/
def checkIndex : Nat → List Json → Bool
  | _, [] => true
  | index, record :: records =>
      (match get record "index" with
        | some (.int i) => i == index
        | _ => false) && checkIndex (index + 1) records

/-- The file is read back as the records that were written, and passes the checks
    of its digest and of the count. -/
def ReadsBack (l : Loader) (records : List Json) (w : RawWriter) : Prop :=
  ∃ back, l.loadRecords w.stream = some back ∧ EqualItems records back ∧
    checkFile (sealFile w.stream) w.stream = true ∧
    back.length = w.count ∧ checkIndex 1 back = true

/-- The line breaks that the encoder leaves as they are. -/
def softBreaks : List Nat := [0x85, 0x2028, 0x2029]

/-! ## The lines of the file -/

/-- The line of a record. -/
def recordText (record : Json) : Text := render record.sortKeys ++ [10]

theorem Entry.value_record (e : Entry) (index : Nat) : Value (e.record index) := e.sound

/-- What is known of a record that was written. -/
structure Kept (record : Json) : Prop where
  value : Value record
  object : ∃ fs, record = .obj fs

/-- **A collection appends the lines of its records.** -/
theorem writes_spec {digits : Nat} {w w' : RawWriter} {es : List Entry} {records : List Json}
    (hw : w.writes digits es = some (records, w')) :
    (∃ raw, encodeUtf8 (records.flatMap recordText) = some raw ∧ w'.stream = w.stream ++ raw) ∧
      w'.count = w.count + records.length ∧ (∀ r ∈ records, Kept r) ∧
      checkIndex (w.count + 1) (records.map Json.sortKeys) = true := by
  induction es generalizing w records with
  | nil =>
      obtain ⟨rfl, rfl⟩ := Prod.mk.inj (Option.some.inj hw)
      exact ⟨⟨[], rfl, (List.append_nil _).symm⟩, rfl, fun _ hr => absurd hr List.not_mem_nil, rfl⟩
  | cons e es ih =>
      obtain ⟨⟨record, v⟩, hfirst, hw⟩ := Option.bind_eq_some_iff.mp hw
      obtain ⟨⟨rest, v'⟩, hrest, hlast⟩ := Option.bind_eq_some_iff.mp hw
      obtain ⟨raw, hraw, hfirst⟩ := Option.bind_eq_some_iff.mp hfirst
      obtain ⟨rfl, rfl⟩ := Prod.mk.inj (Option.some.inj hfirst)
      obtain ⟨rfl, rfl⟩ := Prod.mk.inj (Option.some.inj hlast)
      obtain ⟨⟨more, hmore, hstream⟩, hcount, hkept, hindex⟩ := ih hrest
      have hvalue := e.value_record (w.count + 1)
      have hline : encodeUtf8 (recordText (e.record (w.count + 1))) = some (raw ++ [10]) :=
        encodeUtf8_append (storable_of_canonicalJson hvalue hraw).2.2 (by decide)
      refine ⟨⟨(raw ++ [10]) ++ more, encodeUtf8_append hline hmore, ?_⟩, ?_, ?_, ?_⟩
      · rw [hstream, List.append_assoc]
      · rw [hcount, List.length_cons]
        show w.count + 1 + rest.length = _
        omega
      · intro r hr
        rcases List.mem_cons.mp hr with rfl | hr
        · exact ⟨hvalue, _, rfl⟩
        · exact hkept r hr
      · have hget : get (e.record (w.count + 1)).sortKeys "index" = some (.int (w.count + 1 : Nat)) := by
          rw [get_sortKeys hvalue]
          rfl
        rw [List.map_cons, checkIndex, hget, hindex]
        simp

/-- A line break that a rendered value has is one of the soft ones, from a text. -/
theorem softBreak_of_render {v : Json} (hv : Value v) {c : Nat} (hc : c ∈ render v.sortKeys)
    (hbreak : isLineBreak c = true) : c ∈ softBreaks ∧ Mentions c (texts v) := by
  rcases comes_of_render v.sortKeys (value_sortKeys v hv) c hc with hvis | ⟨hhigh, hment⟩
  · obtain ⟨hlow, hhigh⟩ := hvis
    simp only [isLineBreak, Bool.or_eq_true, Bool.and_eq_true, decide_eq_true_eq,
      beq_iff_eq] at hbreak
    omega
  · refine ⟨?_, (mentions_sortKeys v).mp hment⟩
    simp only [isLineBreak, Bool.or_eq_true, Bool.and_eq_true, decide_eq_true_eq,
      beq_iff_eq] at hbreak
    simp only [softBreaks, List.mem_cons, List.not_mem_nil, or_false]
    omega

theorem softBreak_isLineBreak {c : Nat} (hc : c ∈ softBreaks) :
    isLineBreak c = true ∧ 127 ≤ c := by
  have hall : ∀ d ∈ softBreaks, isLineBreak d = true ∧ 127 ≤ d := by decide
  exact hall c hc

theorem no_return_in_render {v : Json} (hv : Value v) : 13 ∉ render v.sortKeys := by
  intro hmem
  exact absurd (softBreak_of_render hv hmem (by decide)).1 (by decide)

theorem no_return_in_text {records : List Json} (hkept : ∀ r ∈ records, Kept r) :
    13 ∉ records.flatMap recordText := by
  rw [List.mem_flatMap]
  rintro ⟨r, hr, hmem⟩
  rcases List.mem_append.mp hmem with hmem | hmem
  · exact no_return_in_render (hkept r hr).value hmem
  · exact absurd (List.mem_singleton.mp hmem) (by decide)

/-- The lines of the file are those of each record. -/
theorem recordLines_flatMap {records : List Json} (hkept : ∀ r ∈ records, Kept r) :
    recordLines (records.flatMap recordText)
      = records.flatMap (fun r => recordLines (recordText r)) := by
  induction records with
  | nil => rfl
  | cons r rs ih =>
      have hr := (hkept r List.mem_cons_self).value
      rw [List.flatMap_cons, List.flatMap_cons, ← ih fun s hs => hkept s (List.mem_cons_of_mem _ hs),
        recordText, List.append_assoc]
      exact recordLines_append (no_return_in_render hr) (by decide) (by decide) _

/-- An encoded object is between braces. -/
theorem render_obj_braces (fs : List (Text × Json)) : ∃ m, render (.obj fs) = 123 :: (m ++ [125]) := by
  have htail : ∀ gs : List (Text × Json), ∃ m, renderFields gs = m ++ [125] := by
    intro gs
    induction gs with
    | nil => exact ⟨[], rfl⟩
    | cons g gs ih =>
        obtain ⟨k, v⟩ := g
        obtain ⟨m, hm⟩ := ih
        refine ⟨44 :: (renderString k ++ 58 :: (render v ++ m)), ?_⟩
        rw [renderFields, hm]
        simp only [List.append_assoc, List.cons_append]
  cases fs with
  | nil => exact ⟨[], rfl⟩
  | cons f fs =>
      obtain ⟨k, v⟩ := f
      obtain ⟨m, hm⟩ := htail fs
      refine ⟨renderString k ++ 58 :: (render v ++ m), ?_⟩
      rw [render, hm]
      simp only [List.append_assoc, List.cons_append]

theorem Kept.braces {r : Json} (hr : Kept r) : ∃ m, render r.sortKeys = 123 :: (m ++ [125]) := by
  obtain ⟨fs, rfl⟩ := hr.object
  exact render_obj_braces (sortFields fs)

/-- **A record without a soft break is one line.** -/
theorem recordLines_whole {r : Json} (hr : Kept r) (hsoft : ∀ c ∈ softBreaks, ¬ Mentions c (texts r)) :
    recordLines (recordText r) = [render r.sortKeys] := by
  have hline : splitLines (recordText r) = [render r.sortKeys] := by
    refine splitLines_line fun c hc => ?_
    by_contra hbreak
    have hbreak : isLineBreak c = true := by simpa using hbreak
    obtain ⟨hmem, hment⟩ := softBreak_of_render hr.value hc hbreak
    exact hsoft c hmem hment
  obtain ⟨m, hm⟩ := hr.braces
  rw [recordLines, hline, hm]
  rfl

/-- Every record has a line. -/
theorem recordLines_one {r : Json} (hr : Kept r) : 1 ≤ (recordLines (recordText r)).length := by
  obtain ⟨m, hm⟩ := hr.braces
  have hall : ∀ s ∈ [r], Kept s := fun s hs => List.mem_singleton.mp hs ▸ hr
  have hreturn := no_return_in_text hall
  rw [List.flatMap_cons, List.flatMap_nil, List.append_nil] at hreturn
  refine recordLines_pos hreturn (c := 123) ?_ (by decide)
  rw [recordText, hm]
  exact List.mem_cons_self

/-- **A record with a soft break is two lines at least**: its braces are on
    different ones. -/
theorem recordLines_broken {r : Json} (hr : Kept r) {c : Nat} (hc : c ∈ softBreaks)
    (hment : Mentions c (texts r)) : 2 ≤ (recordLines (recordText r)).length := by
  obtain ⟨m, hm⟩ := hr.braces
  obtain ⟨hbreak, hhigh⟩ := softBreak_isLineBreak hc
  have hmem := render_of_mentions hhigh r.sortKeys ((mentions_sortKeys r).mpr hment)
  have hreturn := no_return_in_render hr.value
  rw [hm] at hmem hreturn
  have hmid : c ∈ m := by
    rcases List.mem_cons.mp hmem with rfl | hmem
    · exact absurd hhigh (by decide)
    rcases List.mem_append.mp hmem with hmem | hmem
    · exact hmem
    · rw [List.mem_singleton.mp hmem] at hhigh
      exact absurd hhigh (by decide)
  obtain ⟨before, after, rfl⟩ := List.append_of_mem hmid
  have htext : recordText r = (123 :: before) ++ c :: (after ++ [125] ++ [10]) := by
    rw [recordText, hm]
    simp only [List.append_assoc, List.cons_append]
  have hbefore : 13 ∉ 123 :: before := fun h => hreturn (by
    rcases List.mem_cons.mp h with h | h
    · exact absurd h (by decide)
    · simp [h])
  have hafter : 13 ∉ after := fun h => hreturn (by simp [h])
  have hc13 : c ≠ 13 := by omega
  rw [htext, recordLines_append hbefore hbreak hc13, List.length_append]
  have hfirst : 1 ≤ (recordLines (123 :: before ++ [c])).length := by
    refine recordLines_pos ?_ (c := 123) List.mem_cons_self (by decide)
    rw [List.mem_append, List.mem_singleton, not_or]
    exact ⟨hbefore, Ne.symm hc13⟩
  have hsecond : 1 ≤ (recordLines (after ++ [125] ++ [10])).length := by
    refine recordLines_pos ?_ (c := 125) (by simp) (by decide)
    simp [hafter]
  omega

/-! ## Reading back -/

theorem readText_of {text : Text} {raw : Bytes} (h : encodeUtf8 text = some raw) (hreturn : 13 ∉ text) :
    readText raw = some text := by
  rw [readText, decodeUtf8_encodeUtf8 h, Option.bind_some, if_pos (scalar_of_encodeUtf8 h),
    universalNewlines_of hreturn]

/-- A load reads each line of the file into one value. -/
theorem loadRecords_written {l : Loader} {records : List Json} (hkept : ∀ r ∈ records, Kept r)
    {raw : Bytes} (hraw : encodeUtf8 (records.flatMap recordText) = some raw) :
    l.loadRecords raw = (records.flatMap (fun r => recordLines (recordText r))).mapM l.loads := by
  rw [Loader.loadRecords, readText_of hraw (no_return_in_text hkept), Option.bind_some,
    recordLines_flatMap hkept]

theorem length_of_mapM {α β : Type} {f : α → Option β} {xs : List α} {ys : List β}
    (h : xs.mapM f = some ys) : ys.length = xs.length := by
  induction xs generalizing ys with
  | nil =>
      rw [List.mapM_nil] at h
      obtain rfl := Option.some.inj h
      rfl
  | cons x xs ih =>
      rw [List.mapM_cons] at h
      obtain ⟨y, -, h⟩ := Option.bind_eq_some_iff.mp h
      obtain ⟨zs, hzs, h⟩ := Option.bind_eq_some_iff.mp h
      obtain rfl := Option.some.inj h
      rw [List.length_cons, List.length_cons, ih hzs]

/-- Where no part is empty and the whole has one item for each part, no part has two. -/
theorem length_flatMap_one {α β : Type} {f : α → List β} {xs : List α}
    (hone : ∀ x ∈ xs, 1 ≤ (f x).length) :
    xs.length ≤ (xs.flatMap f).length ∧
      ((xs.flatMap f).length = xs.length → ∀ x ∈ xs, (f x).length = 1) := by
  induction xs with
  | nil => exact ⟨Nat.le_refl _, fun _ _ hx => absurd hx List.not_mem_nil⟩
  | cons x xs ih =>
      obtain ⟨hle, hall⟩ := ih fun y hy => hone y (List.mem_cons_of_mem _ hy)
      have hx := hone x List.mem_cons_self
      rw [List.flatMap_cons, List.length_append, List.length_cons]
      refine ⟨by omega, fun hlen y hy => ?_⟩
      rcases List.mem_cons.mp hy with rfl | hy
      · omega
      · exact hall (by omega) y hy

theorem equalItems_length {xs ys : List Json} (h : EqualItems xs ys) : ys.length = xs.length := by
  induction xs generalizing ys with
  | nil => cases h; rfl
  | cons x xs ih =>
      cases h with
      | cons _ hrest => exact congrArg (· + 1) (ih hrest)

/-- A file that is read back has a line for each record, so no record has a soft
    break. -/
theorem unbroken_of_readsBack {l : Loader} {digits : Nat} {es : List Entry} {records : List Json}
    {w : RawWriter} (hw : RawWriter.writes digits ⟨0, []⟩ es = some (records, w))
    (hback : ReadsBack l records w) : ∀ r ∈ records, ∀ c ∈ softBreaks, ¬ Mentions c (texts r) := by
  obtain ⟨⟨raw, hraw, hstream⟩, -, hkept, -⟩ := writes_spec hw
  obtain ⟨back, hload, hequal, -, -⟩ := hback
  rw [hstream, List.nil_append, loadRecords_written hkept hraw] at hload
  have hlen := (length_of_mapM hload).symm.trans (equalItems_length hequal)
  have hone := (length_flatMap_one (f := fun r => recordLines (recordText r)) fun r hr =>
    recordLines_one (hkept r hr)).2 hlen
  intro r hr c hc hment
  have htwo := recordLines_broken (hkept r hr) hc hment
  have hr1 := hone r hr
  omega

theorem mapM_sortKeys {l : Loader} {records : List Json} (hkept : ∀ r ∈ records, Kept r) :
    (records.map (fun r => render r.sortKeys)).mapM l.loads = some (records.map Json.sortKeys) := by
  induction records with
  | nil => rfl
  | cons r rs ih =>
      have hr := (hkept r List.mem_cons_self).value
      have hparse : parseDocument (render r.sortKeys ++ []) = .ok r.sortKeys :=
        parseDocument_render r.sortKeys (plain_of_value _ (value_sortKeys r hr))
          fun _ hc => absurd hc List.not_mem_nil
      rw [List.append_nil] at hparse
      rw [List.map_cons, List.mapM_cons, l.strict _ _ hparse,
        ih fun s hs => hkept s (List.mem_cons_of_mem _ hs)]
      rfl

theorem equalItems_map_sortKeys (xs : List Json) : EqualItems xs (xs.map Json.sortKeys) := by
  induction xs with
  | nil => exact .nil
  | cons x xs ih => exact .cons (equal_sortKeys x) ih

theorem checkFile_sealFile (raw : Bytes) : checkFile (sealFile raw) raw = true := by
  simp [checkFile, sealFile]

/-- Without a soft break the lines are the records. -/
theorem readsBack_of_unbroken (l : Loader) {digits : Nat} {es : List Entry} {records : List Json}
    {w : RawWriter} (hw : RawWriter.writes digits ⟨0, []⟩ es = some (records, w))
    (hsoft : ∀ r ∈ records, ∀ c ∈ softBreaks, ¬ Mentions c (texts r)) : ReadsBack l records w := by
  obtain ⟨⟨raw, hraw, hstream⟩, hcount, hkept, hindex⟩ := writes_spec hw
  rw [List.nil_append] at hstream
  have hlines : records.flatMap (fun r => recordLines (recordText r))
      = records.map (fun r => render r.sortKeys) := by
    rw [List.map_eq_flatMap]
    exact List.flatMap_congr fun r hr => recordLines_whole (hkept r hr) (hsoft r hr)
  refine ⟨records.map Json.sortKeys, ?_, equalItems_map_sortKeys records, checkFile_sealFile _, ?_,
    hindex⟩
  · rw [hstream, loadRecords_written hkept hraw, hlines, mapM_sortKeys hkept]
  · rw [List.length_map, hcount]
    exact (Nat.zero_add _).symm

/-- **A raw record file is read back exactly when no text of a record has U+0085,
    U+2028 or U+2029**: the encoder writes these as they are, and the reader ends
    a line at them. -/
theorem reads_back_iff (l : Loader) {digits : Nat} {es : List Entry} {records : List Json}
    {w : RawWriter} (hw : RawWriter.writes digits ⟨0, []⟩ es = some (records, w)) :
    ReadsBack l records w ↔ ∀ r ∈ records, ∀ c ∈ softBreaks, ¬ Mentions c (texts r) :=
  ⟨unbroken_of_readsBack hw, readsBack_of_unbroken l hw⟩

/-- The strict parser as a loader. -/
def strictLoader : Loader where
  loads text := (parseDocument text).toOption
  strict _ _ h := by rw [h]; rfl

instance (s : Text) : Decidable (PyText s) :=
  inferInstanceAs (Decidable (∀ c ∈ s, c < 0x110000))

/-- What a command printed, as a record holds it. -/
def printed (text : Text) (htext : PyText text) : Entry where
  kind := ascii "unit-cat"
  monotonic := 5
  payload := [(ascii "stdout", .str text)]
  sound := by
    refine ⟨(hasDuplicate_false _).mpr ?_, ⟨?_, trivial⟩, ⟨?_, ?_⟩, ⟨?_, trivial⟩, ⟨?_, htext⟩, trivial⟩
    · show [ascii "index", ascii "kind", ascii "monotonic_ns", ascii "stdout"].Nodup
      decide
    · decide
    · decide
    · show PyText (ascii "unit-cat")
      decide
    · decide
    · decide

/-- The records of a collection, each with its position. -/
theorem writes_records {digits : Nat} {w w' : RawWriter} {es : List Entry} {records : List Json}
    (hw : w.writes digits es = some (records, w')) :
    records = (es.zipIdx (w.count + 1)).map fun p => p.1.record p.2 := by
  induction es generalizing w records with
  | nil => exact (Prod.mk.inj (Option.some.inj hw)).1.symm
  | cons e es ih =>
      obtain ⟨⟨record, v⟩, hfirst, hw⟩ := Option.bind_eq_some_iff.mp hw
      obtain ⟨⟨rest, v'⟩, hrest, hlast⟩ := Option.bind_eq_some_iff.mp hw
      obtain ⟨raw, -, hfirst⟩ := Option.bind_eq_some_iff.mp hfirst
      obtain ⟨rfl, rfl⟩ := Prod.mk.inj (Option.some.inj hfirst)
      obtain ⟨rfl, rfl⟩ := Prod.mk.inj (Option.some.inj hlast)
      rw [ih hrest]
      rfl

theorem reads_back_printed : ∃ records w,
    RawWriter.writes 4300 ⟨0, []⟩ [printed [97, 0xe9, 98] (by decide)] = some (records, w) ∧
    (ReadsBack strictLoader records w ↔ ∀ r ∈ records, ∀ c ∈ softBreaks, ¬ Mentions c (texts r)) := by
  have hsome : (RawWriter.writes 4300 ⟨0, []⟩ [printed [97, 0xe9, 98] (by decide)]).isSome = true := by
    decide
  obtain ⟨⟨records, w⟩, hw⟩ := Option.isSome_iff_exists.mp hsome
  exact ⟨records, w, hw, reads_back_iff strictLoader hw⟩

/-- A printed text with a line separator is not read back. -/
theorem separator_not_read_back : ¬ ∀ (l : Loader) (digits : Nat) (es : List Entry)
    (records : List Json) (w : RawWriter),
    RawWriter.writes digits ⟨0, []⟩ es = some (records, w) → ReadsBack l records w := by
  intro hall
  have hsome : (RawWriter.writes 4300 ⟨0, []⟩ [printed [97, 0x2028, 98] (by decide)]).isSome = true := by
    decide
  obtain ⟨⟨records, w⟩, hw⟩ := Option.isSome_iff_exists.mp hsome
  have hsoft := unbroken_of_readsBack hw (hall strictLoader 4300 _ records w hw)
  rw [writes_records hw] at hsoft
  exact hsoft _ (List.mem_singleton_self _) 0x2028 (by decide)
    ⟨[97, 0x2028, 98], by decide, by decide⟩

end RawRecords
