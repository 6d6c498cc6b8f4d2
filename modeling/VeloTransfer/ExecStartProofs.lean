import Mathlib
import VeloTransfer.RawRecordsProofs
import VeloTransfer.ArchiveCodecProofs
import VeloTransfer.ShellWordsProofs

/-! # The loaded ExecStart — two parsers of one structure

    `systemctl show` prints a loaded command as `{ path=P ; argv[]=P t1 t2 ; … }`.  The
    boot service splits the arguments by itself, the boot installation with `shlex`:

    * `split_of_words`, `split_words` — the words that the service accepts, as a relation;
    * `split_iff` — `shlex` reads the same words exactly where no apostrophe, tab or line
      end stands outside double quotes;
    * `parsers_agree_iff` — the same of the whole structure. -/

namespace ExecStart

open CanonicalJson ExceptRules
open ArchiveCodec (require require_iff require_of)
open RawRecords (isStripped)

def UNSUPPORTED : String := "loaded ExecStart structure unsupported"

/-! ## The parsers -/

/-- `str.strip`. -/
def strip (s : Text) : Text := ((s.dropWhile isStripped).reverse.dropWhile isStripped).reverse

/-- `text.split(' ; ')`, with the segment so far. -/
def splitSegments : Text → Text → List Text
  | segment, [] => [segment]
  | segment, 32 :: 59 :: 32 :: cs => segment :: splitSegments [] cs
  | segment, c :: cs => splitSegments (segment ++ [c]) cs

/-- The segments between the braces. -/
def segmentsOf (text : Text) : Except String (List Text) := do
  require (text.head? == some 123 && text.getLast? == some 125) UNSUPPORTED
  .ok ((splitSegments [] (text.drop 1).dropLast).map strip)

/-- Neither a double quote nor a backslash. -/
def isUnquoted (s : Text) : Bool := !s.contains 34 && !s.contains 92

/-- The path of a `path=` segment, without the quotes around it. -/
def pathOf (s : Text) : Text :=
  if 2 ≤ s.length ∧ s.head? = some 34 ∧ s.getLast? = some 34 then (s.drop 1).dropLast else s

/-- `\[[^\[\]{};"\\\r\n\t]*\]`. -/
def isTimestamp (value : Text) : Bool :=
  decide (2 ≤ value.length) && value.head? == some 91 && value.getLast? == some 93 &&
    (value.drop 1).dropLast.all fun c => !(ascii "[]\x7b\x7d;\"\\\r\n\t").contains c

/-- What was read of the segments so far. -/
structure Fields where
  path : Option Text
  argv : Option (List Text)
deriving Repr, DecidableEq

/-- One segment; `splitWords` splits the arguments. -/
def readSegment (splitWords : Text → Except String (List Text)) (f : Fields) (segment : Text) :
    Except String Fields :=
  if (ascii "path=").isPrefixOf segment then do
    require f.path.isNone UNSUPPORTED
    let path := pathOf (segment.drop 5)
    require (!path.isEmpty && isUnquoted path) UNSUPPORTED
    .ok { f with path := some path }
  else if (ascii "argv[]=").isPrefixOf segment then do
    require f.argv.isNone UNSUPPORTED
    let argv ← splitWords (segment.drop 7)
    .ok { f with argv := some argv }
  else if (ascii "start_time=").isPrefixOf segment || (ascii "stop_time=").isPrefixOf segment then do
    require (isTimestamp ((segment.dropWhile (· != 61)).drop 1)) UNSUPPORTED
    .ok f
  else do
    require (segment.contains 61 && !segment.contains 32 && isUnquoted segment) UNSUPPORTED
    .ok f

def Fields.result (f : Fields) : Except String (Text × List Text) :=
  match f.path, f.argv with
  | some path, some argv => .ok (path, argv)
  | _, _ => .error UNSUPPORTED

/-- `_split_quoted`. -/
def splitQuoted (text : Text) : Except String (List Text) :=
  match h : text.dropWhile (· == 32) with
  | [] => .ok []
  | 34 :: cs => do
      require (cs.contains 34) UNSUPPORTED
      let inner := cs.takeWhile (· != 34)
      let rest := (cs.dropWhile (· != 34)).drop 1
      require (isUnquoted inner) UNSUPPORTED
      require (rest.isEmpty || rest.head? == some 32) UNSUPPORTED
      let tokens ← splitQuoted rest
      .ok (inner :: tokens)
  | c :: cs => do
      let token := (c :: cs).takeWhile (· != 32)
      require (isUnquoted token) UNSUPPORTED
      let tokens ← splitQuoted (cs.dropWhile (· != 32))
      .ok (token :: tokens)
termination_by text.length
decreasing_by
  · have hgap := (List.dropWhile_sublist (fun c : Nat => c == 32) (l := text)).length_le
    have hinner := (List.dropWhile_sublist (fun c : Nat => c != 34) (l := cs)).length_le
    rw [h, List.length_cons] at hgap
    rw [List.length_drop]
    omega
  · have hgap := (List.dropWhile_sublist (fun c : Nat => c == 32) (l := text)).length_le
    have htoken := (List.dropWhile_sublist (fun c : Nat => c != 32) (l := cs)).length_le
    rw [h, List.length_cons] at hgap
    omega

/-- `boot_service.parse_loaded_execstart`. -/
def BootService.parseLoadedExecstart (text : Text) : Except String (Text × List Text) := do
  let segments ← segmentsOf text
  require (decide (2 ≤ segments.length)) UNSUPPORTED
  let f ← segments.foldlM (readSegment splitQuoted) ⟨none, none⟩
  f.result

/-- `boot_install._parse_loaded_execstart`. -/
def BootInstall.parseLoadedExecstart (text : Text) : Except String (Text × List Text) := do
  let segments ← segmentsOf text
  let f ← segments.foldlM (readSegment ShellWords.split) ⟨none, none⟩
  f.result

/-! ## The words of a text that is accepted -/

/-- What `_split_quoted` accepts: plain words and words in double quotes, between spaces. -/
inductive Words : Text → List Text → Prop
  | none {gap : Text} (hgap : ∀ c ∈ gap, c = 32) : Words gap []
  | quoted {gap inner rest : Text} {tokens : List Text} (hgap : ∀ c ∈ gap, c = 32)
      (hinner : isUnquoted inner = true) (hend : rest = [] ∨ ∃ cs, rest = 32 :: cs) (hrest : Words rest tokens) :
      Words (gap ++ 34 :: (inner ++ 34 :: rest)) (inner :: tokens)
  | plain {gap rest : Text} {c : Nat} {cs : Text} {tokens : List Text} (hgap : ∀ c ∈ gap, c = 32)
      (hspace : ∀ d ∈ c :: cs, d ≠ 32) (htoken : isUnquoted (c :: cs) = true)
      (hend : rest = [] ∨ ∃ cs, rest = 32 :: cs) (hrest : Words rest tokens) :
      Words (gap ++ (c :: cs ++ rest)) ((c :: cs) :: tokens)

theorem unquoted_iff {s : Text} : isUnquoted s = true ↔ ∀ c ∈ s, c ≠ 34 ∧ c ≠ 92 := by
  simp only [isUnquoted, Bool.and_eq_true, Bool.not_eq_true', List.contains_eq_mem, decide_eq_false_iff_not]
  exact ⟨fun h c hc => ⟨fun heq => h.1 (heq ▸ hc), fun heq => h.2 (heq ▸ hc)⟩,
    fun h => ⟨fun hmem => (h 34 hmem).1 rfl, fun hmem => (h 92 hmem).2 rfl⟩⟩

/-- What is left behind a stretch without the character. -/
theorem dropWhile_end {s rest : Text} {c : Nat} (h : s.dropWhile (· != c) = rest) :
    rest = [] ∨ ∃ cs, rest = c :: cs := by
  subst h
  cases hdrop : s.dropWhile (· != c) with
  | nil => exact .inl rfl
  | cons d ds =>
      have hhead := List.head?_dropWhile_not (fun x => x != c) s
      rw [hdrop] at hhead
      exact .inr ⟨ds, by simpa using hhead⟩

theorem split_words {text : Text} {tokens : List Text} (h : splitQuoted text = .ok tokens) : Words text tokens := by
  induction hn : text.length using Nat.strong_induction_on generalizing text tokens with
  | _ n ih =>
    have hgap : ∀ c ∈ text.takeWhile (· == 32), c = 32 := fun c hc => by
      simpa using List.mem_takeWhile_imp hc
    have htext := List.takeWhile_append_dropWhile (p := fun c : Nat => c == 32) (l := text)
    have hlength := congrArg List.length htext
    rw [List.length_append] at hlength
    rw [splitQuoted] at h
    split at h
    next hrest =>
      obtain rfl := Except.ok.inj h
      rw [hrest, List.append_nil] at htext
      exact htext ▸ .none hgap
    next cs hrest =>
      rw [hrest] at htext hlength
      obtain ⟨_, hclosed, h⟩ := bind_ok h
      obtain ⟨_, hinner, h⟩ := bind_ok h
      obtain ⟨_, hboundary, h⟩ := bind_ok h
      obtain ⟨tokens', hsplit, h⟩ := bind_ok h
      obtain rfl := Except.ok.inj h
      have hcs := List.takeWhile_append_dropWhile (p := fun c : Nat => c != 34) (l := cs)
      have hshort := congrArg List.length hcs
      rcases dropWhile_end (rfl : cs.dropWhile (· != 34) = _) with hnil | ⟨rest, hrest⟩
      · -- The quote that is there ends the stretch.
        have hmem : (34 : Nat) ∈ cs := List.contains_iff_mem.mp (require_iff.mp hclosed)
        rw [hnil, List.append_nil] at hcs
        rw [← hcs] at hmem
        exact absurd (List.mem_takeWhile_imp hmem) (by decide)
      rw [hrest] at hcs hshort hboundary hsplit
      rw [List.drop_one, List.tail_cons] at hboundary hsplit
      rw [List.length_append, List.length_cons] at hshort
      rw [List.length_cons] at hlength
      have hwords := ih rest.length (by omega) hsplit rfl
      have hafter : rest = [] ∨ ∃ ds, rest = 32 :: ds := by
        have hboundary := require_iff.mp hboundary
        cases rest with
        | nil => exact .inl rfl
        | cons d ds => exact .inr ⟨ds, by simpa using hboundary⟩
      have hquoted := Words.quoted hgap (require_iff.mp hinner) hafter hwords
      rw [hcs] at hquoted
      rw [← htext]
      exact hquoted
    next c cs hquote hrest =>
      rw [hrest] at htext hlength
      obtain ⟨_, htoken, h⟩ := bind_ok h
      obtain ⟨tokens', hsplit, h⟩ := bind_ok h
      obtain rfl := Except.ok.inj h
      have hfirst : (c != 32) = true := by
        have hhead := List.head?_dropWhile_not (fun x : Nat => x == 32) text
        rw [hrest] at hhead
        simpa using hhead
      have hcs := List.takeWhile_append_dropWhile (p := fun c : Nat => c != 32) (l := cs)
      have hshort := congrArg List.length hcs
      rw [List.length_append] at hshort
      rw [List.length_cons] at hlength
      have hwords := ih (cs.dropWhile (· != 32)).length (by omega) hsplit rfl
      have hword : (c :: cs).takeWhile (· != 32) = c :: cs.takeWhile (· != 32) := by
        rw [List.takeWhile_cons, hfirst]
        rfl
      rw [hword] at htoken ⊢
      have hspace : ∀ d ∈ c :: cs.takeWhile (· != 32), d ≠ 32 := by
        intro d hd
        rcases List.mem_cons.mp hd with rfl | hd
        · simpa using hfirst
        · simpa using List.mem_takeWhile_imp hd
      have hplain := Words.plain hgap hspace (require_iff.mp htoken) (dropWhile_end rfl) hwords
      rw [List.cons_append, hcs] at hplain
      rw [← htext]
      exact hplain

theorem drop_gap {gap rest : Text} {c : Nat} (hgap : ∀ d ∈ gap, d = 32) (hc : c ≠ 32) :
    (gap ++ c :: rest).dropWhile (· == 32) = c :: rest := by
  rw [List.dropWhile_append_of_pos fun d hd => beq_iff_eq.mpr (hgap d hd)]
  exact List.dropWhile_cons_of_neg fun h => hc (beq_iff_eq.mp h)

/-- A stretch ends where its end character first stands. -/
theorem stretch {s rest : Text} {c : Nat} (hs : ∀ d ∈ s, d ≠ c) (hend : rest = [] ∨ ∃ cs, rest = c :: cs) :
    (s ++ rest).takeWhile (· != c) = s ∧ (s ++ rest).dropWhile (· != c) = rest := by
  have hall : ∀ d ∈ s, (d != c) = true := fun d hd => bne_iff_ne.mpr (hs d hd)
  rw [List.takeWhile_append_of_pos hall, List.dropWhile_append_of_pos hall]
  rcases hend with rfl | ⟨cs, rfl⟩
  · exact ⟨List.append_nil _, rfl⟩
  · have hstop : (c != c) = false := bne_self_eq_false c
    rw [List.takeWhile_cons, List.dropWhile_cons, hstop]
    exact ⟨List.append_nil _, rfl⟩

theorem split_of_words {text : Text} {tokens : List Text} (h : Words text tokens) : splitQuoted text = .ok tokens := by
  induction h with
  | @none gap hgap =>
      have hdrop : gap.dropWhile (· == 32) = [] := List.dropWhile_eq_nil_iff.mpr fun c hc => beq_iff_eq.mpr (hgap c hc)
      rw [splitQuoted]
      split
      next => rfl
      next cs hrest => exact absurd (hrest.symm.trans hdrop) nofun
      next c cs _ hrest => exact absurd (hrest.symm.trans hdrop) nofun
  | @quoted gap inner rest tokens hgap hinner hend hrest ih =>
      have hdrop : (gap ++ 34 :: (inner ++ 34 :: rest)).dropWhile (· == 32) = 34 :: (inner ++ 34 :: rest) :=
        drop_gap hgap (by decide)
      obtain ⟨htake, hleft⟩ := stretch (fun c hc => (unquoted_iff.mp hinner c hc).1) (.inr ⟨rest, rfl⟩)
      rw [splitQuoted]
      split
      next hnil => exact absurd (hnil.symm.trans hdrop) nofun
      next cs hcs =>
        obtain rfl := List.tail_eq_of_cons_eq (hcs.symm.trans hdrop)
        have hclosed : (inner ++ 34 :: rest).contains 34 = true :=
          List.contains_iff_mem.mpr (List.mem_append_right _ List.mem_cons_self)
        have hboundary : (rest.isEmpty || rest.head? == some 32) = true := by
          rcases hend with rfl | ⟨cs, rfl⟩ <;> rfl
        rw [htake, hleft, List.drop_one, List.tail_cons, require_of hclosed, ok_bind]
        dsimp only
        rw [require_of hinner, ok_bind, require_of hboundary, ok_bind, ih]
        rfl
      next c cs hquote hcs => exact absurd (List.head_eq_of_cons_eq (hcs.symm.trans hdrop)) hquote
  | @plain gap rest c cs tokens hgap hspace htoken hend hrest ih =>
      have hdrop : (gap ++ c :: (cs ++ rest)).dropWhile (· == 32) = c :: (cs ++ rest) :=
        drop_gap hgap (hspace c List.mem_cons_self)
      obtain ⟨htake, -⟩ := stretch hspace hend
      obtain ⟨-, hleft⟩ := stretch (fun d hd => hspace d (List.mem_cons_of_mem _ hd)) hend
      rw [List.cons_append] at htake ⊢
      rw [splitQuoted]
      split
      next hnil => exact absurd (hnil.symm.trans hdrop) nofun
      next ds hds =>
        have hfirst := List.head_eq_of_cons_eq (hds.symm.trans hdrop)
        exact absurd hfirst.symm (unquoted_iff.mp htoken c List.mem_cons_self).1
      next d ds hquote hds =>
        obtain ⟨rfl, rfl⟩ := List.cons_eq_cons.mp (hds.symm.trans hdrop)
        dsimp only
        rw [htake, hleft, require_of htoken, ok_bind, ih]
        rfl

/-! ## The words of `shlex` -/

/-- An apostrophe, a tab or the end of a line: `shlex` reads them, `_split_quoted` does not. -/
def isMark (c : Nat) : Bool := c == 39 || c == 9 || c == 13 || c == 10

/-- The characters outside double quotes. -/
def outside : Bool → Text → Text
  | _, [] => []
  | false, c :: cs => if c = 34 then outside true cs else c :: outside false cs
  | true, c :: cs => if c = 34 then outside false cs else outside true cs

/-- No mark stands outside double quotes. -/
def Unmarked (s : Text) : Prop := ∀ c ∈ outside false s, isMark c = false

instance (s : Text) : Decidable (Unmarked s) := inferInstanceAs (Decidable (∀ c ∈ outside false s, isMark c = false))

section Marks

variable {s rest : Text}

theorem outside_plain (h : ∀ c ∈ s, c ≠ 34) : outside false (s ++ rest) = s ++ outside false rest := by
  induction s with
  | nil => rfl
  | cons c cs ih =>
      rw [List.cons_append, outside, if_neg (h c List.mem_cons_self), ih fun d hd => h d (List.mem_cons_of_mem _ hd)]
      rfl

theorem outside_quoted (h : ∀ c ∈ s, c ≠ 34) : outside true (s ++ 34 :: rest) = outside false rest := by
  induction s with
  | nil => rfl
  | cons c cs ih =>
      rw [List.cons_append, outside, if_neg (h c List.mem_cons_self)]
      exact ih fun d hd => h d (List.mem_cons_of_mem _ hd)

theorem outside_gap (h : ∀ c ∈ s, c = 32) : outside false (s ++ rest) = s ++ outside false rest :=
  outside_plain fun c hc => h c hc ▸ (by decide)

theorem gap_blank (h : ∀ c ∈ s, c = 32) : ∀ c ∈ s, ShellWords.isBlank c = true := fun c hc => h c hc ▸ rfl

theorem gap_unmarked (h : ∀ c ∈ s, c = 32) : ∀ c ∈ s, isMark c = false := fun c hc => h c hc ▸ rfl

theorem count_unmarked (h : ∀ c ∈ s, isMark c = false) : s.countP isMark = 0 :=
  List.countP_eq_zero.mpr fun c hc => Bool.eq_false_iff.mp (h c hc)

theorem end_blank (h : rest = [] ∨ ∃ cs, rest = 32 :: cs) :
    rest = [] ∨ ∃ c cs, rest = c :: cs ∧ ShellWords.isBlank c = true := h.imp_right fun ⟨cs, hcs⟩ => ⟨32, cs, hcs, rfl⟩

/-- What is neither a space nor a quote, a backslash or a mark is nothing to `shlex`. -/
theorem plain_of {c : Nat} (hspace : c ≠ 32) (hquote : c ≠ 34 ∧ c ≠ 92) (hmark : isMark c = false) :
    ShellWords.isPlain c = true := by
  simp only [isMark, Bool.or_eq_false_iff, beq_eq_false_iff_ne] at hmark
  simp [ShellWords.isPlain, ShellWords.isBlank, ShellWords.isQuote, hspace, hquote, hmark]

/-- A mark is a blank or a quote to `shlex`. -/
theorem mark_dropped {c : Nat} (h : isMark c = true) : ShellWords.isBlank c = true ∨ c = 39 := by
  simp only [isMark, Bool.or_eq_true, beq_iff_eq] at h
  rcases h with ((rfl | rfl) | rfl) | rfl <;> decide

/-- A word in double quotes, to `shlex`. -/
theorem lex_quoted_word (hinner : isUnquoted s = true) (hend : rest = [] ∨ ∃ cs, rest = 32 :: cs) :
    ShellWords.lex .start (34 :: (s ++ 34 :: rest)) = (ShellWords.lex .start rest).map (s :: ·) := by
  have hopen : ShellWords.Reading.read .start 34 = (none, ⟨.quote 34, []⟩) := rfl
  have hclose : ShellWords.Reading.read ⟨.quote 34, s⟩ 34 = (none, ⟨.word, s⟩) := rfl
  rw [ShellWords.lex, hopen]
  dsimp only
  rw [ShellWords.lex_quoted (unquoted_iff.mp hinner), List.nil_append, ShellWords.lex, hclose]
  exact ShellWords.lex_end (end_blank hend)

/-- A word without a mark. -/
theorem lex_plain_word {c : Nat} {cs : Text} (hspace : ∀ d ∈ c :: cs, d ≠ 32) (htoken : isUnquoted (c :: cs) = true)
    (hend : rest = [] ∨ ∃ cs, rest = 32 :: cs) (hmarks : ∀ d ∈ c :: cs, isMark d = false) :
    ShellWords.lex .start (c :: cs ++ rest) = (ShellWords.lex .start rest).map ((c :: cs) :: ·) := by
  have hplain : ∀ d ∈ c :: cs, ShellWords.isPlain d = true := fun d hd =>
    plain_of (hspace d hd) (unquoted_iff.mp htoken d hd) (hmarks d hd)
  rw [List.cons_append, ShellWords.lex, ShellWords.read_first (hplain c List.mem_cons_self)]
  dsimp only
  rw [ShellWords.lex_word fun d hd => hplain d (List.mem_cons_of_mem _ hd)]
  exact ShellWords.lex_end (end_blank hend)

end Marks

/-- **Without marks the words are the same.** -/
theorem split_agrees {text : Text} {tokens : List Text} (h : Words text tokens) (hmarks : Unmarked text) :
    ShellWords.split text = .ok tokens := by
  show ShellWords.lex .start text = .ok tokens
  unfold Unmarked at hmarks
  induction h with
  | @none gap hgap =>
      have hlex : ShellWords.lex .start (gap ++ []) = ShellWords.lex .start [] := ShellWords.lex_blanks (gap_blank hgap)
      rw [List.append_nil] at hlex
      exact hlex
  | @quoted gap inner rest tokens hgap hinner hend hrest ih =>
      rw [outside_gap hgap, outside, if_pos rfl, outside_quoted fun c hc => (unquoted_iff.mp hinner c hc).1] at hmarks
      rw [ShellWords.lex_blanks (gap_blank hgap), lex_quoted_word hinner hend,
        ih fun c hc => hmarks c (List.mem_append_right _ hc)]
      rfl
  | @plain gap rest c cs tokens hgap hspace htoken hend hrest ih =>
      rw [outside_gap hgap, outside_plain fun d hd => (unquoted_iff.mp htoken d hd).1] at hmarks
      have hword : ∀ d ∈ c :: cs, isMark d = false := fun d hd =>
        hmarks d (List.mem_append_right _ (List.mem_append_left _ hd))
      rw [ShellWords.lex_blanks (gap_blank hgap), lex_plain_word hspace htoken hend hword,
        ih fun d hd => hmarks d (List.mem_append_right _ (List.mem_append_right _ hd))]
      rfl

/-! With a mark, `shlex` loses one. -/

/-- The words keep every mark. -/
theorem words_count {text : Text} {tokens : List Text} (h : Words text tokens) :
    (tokens.map (List.countP isMark)).sum = text.countP isMark := by
  induction h with
  | none hgap => exact (count_unmarked (gap_unmarked hgap)).symm
  | @quoted gap inner rest tokens hgap hinner hend hrest ih =>
      have hquote : ∀ s : Text, (34 :: s).countP isMark = s.countP isMark := fun s => List.countP_cons_of_neg nofun
      rw [List.map_cons, List.sum_cons, ih, List.countP_append, count_unmarked (gap_unmarked hgap), hquote,
        List.countP_append, hquote, Nat.zero_add]
  | @plain gap rest c cs tokens hgap hspace htoken hend hrest ih =>
      rw [List.map_cons, List.sum_cons, ih, List.countP_append, count_unmarked (gap_unmarked hgap),
        List.countP_append, Nat.zero_add]

/-- A mark in a word is lost, or what stands behind it is. -/
theorem lost_word {s rest : Text} (hspace : ∀ d ∈ s, d ≠ 32) (htoken : ∀ d ∈ s, d ≠ 34 ∧ d ≠ 92)
    (hmark : ∃ d ∈ s, isMark d = true) {token : Text} {tokens : List Text}
    (h : ShellWords.lex ⟨.word, token⟩ (s ++ rest) = .ok tokens) :
    (tokens.map (List.countP isMark)).sum < token.countP isMark + (s ++ rest).countP isMark := by
  induction s generalizing token with
  | nil =>
      obtain ⟨d, hd, -⟩ := hmark
      exact absurd hd List.not_mem_nil
  | cons c cs ih =>
      rw [List.cons_append] at h ⊢
      by_cases hc : isMark c = true
      · have hdropped := mark_dropped hc
        have hsum : _ ≤ token.countP isMark + (cs ++ rest).countP isMark :=
          ShellWords.lex_drops rfl (.inr rfl) hdropped h
        rw [List.countP_cons_of_pos hc]
        omega
      · have hplain := plain_of (hspace c List.mem_cons_self) (htoken c List.mem_cons_self) (Bool.eq_false_iff.mpr hc)
        rw [ShellWords.lex, ShellWords.read_word hplain] at h
        obtain ⟨d, hd, hdmark⟩ := hmark
        have hrest : ∃ d ∈ cs, isMark d = true := by
          rcases List.mem_cons.mp hd with rfl | hd
          · exact absurd hdmark hc
          · exact ⟨d, hd, hdmark⟩
        have hcount := ih (fun d hd => hspace d (List.mem_cons_of_mem _ hd))
          (fun d hd => htoken d (List.mem_cons_of_mem _ hd)) hrest h
        rw [List.countP_append, List.countP_singleton, if_neg hc] at hcount
        rw [List.countP_cons_of_neg hc]
        exact hcount

/-- **A mark outside double quotes is lost**, so the words are not the same. -/
theorem split_loses {text : Text} {tokens words : List Text} (h : Words text tokens) (hmarks : ¬ Unmarked text)
    (hwords : ShellWords.split text = .ok words) : (words.map (List.countP isMark)).sum < text.countP isMark := by
  replace hwords : ShellWords.lex .start text = .ok words := hwords
  unfold Unmarked at hmarks
  induction h generalizing words with
  | @none gap hgap =>
      rw [← List.append_nil gap, outside_gap hgap, outside, List.append_nil] at hmarks
      exact absurd (gap_unmarked hgap) hmarks
  | @quoted gap inner rest tokens hgap hinner hend hrest ih =>
      rw [outside_gap hgap, outside, if_pos rfl, outside_quoted fun c hc => (unquoted_iff.mp hinner c hc).1] at hmarks
      have hbehind : ¬ ∀ c ∈ outside false rest, isMark c = false := fun hclean =>
        hmarks fun c hc => (List.mem_append.mp hc).elim (gap_unmarked hgap c) (hclean c)
      rw [ShellWords.lex_blanks (gap_blank hgap), lex_quoted_word hinner hend] at hwords
      obtain ⟨words', hlex, rfl⟩ := map_ok hwords
      have hlost := ih hbehind hlex
      rw [List.map_cons, List.sum_cons, List.countP_append, List.countP_cons, List.countP_append, List.countP_cons]
      omega
  | @plain gap rest c cs tokens hgap hspace htoken hend hrest ih =>
      have hchars := unquoted_iff.mp htoken
      rw [outside_gap hgap, outside_plain fun d hd => (hchars d hd).1] at hmarks
      rw [ShellWords.lex_blanks (gap_blank hgap)] at hwords
      rw [List.countP_append]
      by_cases hword : ∀ d ∈ c :: cs, isMark d = false
      · -- The mark stands behind the word.
        have hbehind : ¬ ∀ d ∈ outside false rest, isMark d = false := fun hclean =>
          hmarks fun d hd => (List.mem_append.mp hd).elim (gap_unmarked hgap d) fun hd =>
            (List.mem_append.mp hd).elim (hword d) (hclean d)
        rw [lex_plain_word hspace htoken hend hword] at hwords
        obtain ⟨words', hlex, rfl⟩ := map_ok hwords
        have hlost := ih hbehind hlex
        rw [List.map_cons, List.sum_cons, List.countP_append]
        omega
      · by_cases hc : isMark c = true
        · -- The first character of the word is lost.
          have hdropped : ShellWords.isBlank c = true ∨ c = 39 := mark_dropped hc
          have hsum : _ ≤ 0 + (cs ++ rest).countP isMark := ShellWords.lex_drops rfl (.inl rfl) hdropped hwords
          rw [List.cons_append, List.countP_cons_of_pos hc]
          omega
        · have hplain := plain_of (hspace c List.mem_cons_self) (hchars c List.mem_cons_self)
            (Bool.eq_false_iff.mpr hc)
          have hmark : ∃ d ∈ cs, isMark d = true := by
            by_contra hnone
            refine hword fun d hd => Bool.eq_false_iff.mpr fun hd' => ?_
            rcases List.mem_cons.mp hd with rfl | hd
            · exact hc hd'
            · exact hnone ⟨d, hd, hd'⟩
          rw [List.cons_append, ShellWords.lex, ShellWords.read_first hplain] at hwords
          have hlost := lost_word (fun d hd => hspace d (List.mem_cons_of_mem _ hd))
            (fun d hd => hchars d (List.mem_cons_of_mem _ hd)) hmark hwords
          rw [List.countP_singleton, if_neg hc] at hlost
          rw [List.cons_append, List.countP_cons_of_neg hc]
          omega

/-- **The words are the same** exactly where no mark stands outside double quotes. -/
theorem split_iff {text : Text} {tokens : List Text} (h : splitQuoted text = .ok tokens) :
    ShellWords.split text = .ok tokens ↔ Unmarked text := by
  have hwords := split_words h
  refine ⟨fun hsplit => ?_, split_agrees hwords⟩
  by_contra hmarks
  have hlost := split_loses hwords hmarks hsplit
  have hkept := words_count hwords
  omega

/-! ## The two structures -/

/-- A segment without a mark outside double quotes in its arguments, if it has any. -/
def CleanSegment (segment : Text) : Prop := (ascii "argv[]=").isPrefixOf segment = true → Unmarked (segment.drop 7)

instance (segment : Text) : Decidable (CleanSegment segment) :=
  inferInstanceAs (Decidable ((ascii "argv[]=").isPrefixOf segment = true → Unmarked (segment.drop 7)))

/-- No apostrophe, tab or line end stands outside double quotes in the arguments. -/
def Clean (text : Text) : Prop := ∀ segments, segmentsOf text = .ok segments → ∀ s ∈ segments, CleanSegment s

/-- Where both accept, they read the same, and what the service accepts the
    installation accepts. -/
def Agrees (text : Text) : Prop :=
  (∀ r r', BootService.parseLoadedExecstart text = .ok r → BootInstall.parseLoadedExecstart text = .ok r' → r = r') ∧
    ∀ r, BootService.parseLoadedExecstart text = .ok r → BootInstall.parseLoadedExecstart text = .ok r

section Segments

variable {f f' : Fields} {segment : Text} {segments : List Text} {splitWords other : Text → Except String (List Text)}

/-- The arguments are read once, by the splitting; all else is read without it. -/
theorem read_cases (h : readSegment splitWords f segment = .ok f') :
    ((ascii "argv[]=").isPrefixOf segment = true ∧ f.argv = none ∧
      ∃ argv, splitWords (segment.drop 7) = .ok argv ∧ f' = { f with argv := some argv }) ∨
    ((ascii "argv[]=").isPrefixOf segment = false ∧ f'.argv = f.argv ∧
      ∀ other, readSegment other f segment = .ok f') := by
  have hboth : (ascii "path=").isPrefixOf segment = true → (ascii "argv[]=").isPrefixOf segment = false := by
    intro hpath
    refine Bool.eq_false_iff.mpr fun hargv => ?_
    obtain ⟨a, rfl⟩ := List.isPrefixOf_iff_prefix.mp hpath
    exact absurd hargv nofun
  unfold readSegment at h ⊢
  by_cases hpath : (ascii "path=").isPrefixOf segment = true
  · rw [if_pos hpath] at h
    refine .inr ⟨hboth hpath, ?_, fun _ => by rw [if_pos hpath]; exact h⟩
    obtain ⟨_, _, h⟩ := bind_ok h
    obtain ⟨_, _, h⟩ := bind_ok h
    exact Except.ok.inj h ▸ rfl
  rw [if_neg hpath] at h
  by_cases hargv : (ascii "argv[]=").isPrefixOf segment = true
  · rw [if_pos hargv] at h
    obtain ⟨_, hnone, h⟩ := bind_ok h
    obtain ⟨argv, hsplit, h⟩ := bind_ok h
    exact .inl ⟨hargv, Option.isNone_iff_eq_none.mp (require_iff.mp hnone), argv, hsplit, (Except.ok.inj h).symm⟩
  rw [if_neg hargv] at h
  refine .inr ⟨Bool.eq_false_iff.mpr hargv, ?_, fun _ => by rw [if_neg hpath, if_neg hargv]; exact h⟩
  split at h
  · obtain ⟨_, _, h⟩ := bind_ok h
    exact Except.ok.inj h ▸ rfl
  · obtain ⟨_, _, h⟩ := bind_ok h
    exact Except.ok.inj h ▸ rfl

theorem read_argv {argv : List Text} (h : readSegment splitWords f segment = .ok f') (hargv : f.argv = some argv) :
    f'.argv = some argv := by
  obtain ⟨-, hnone, -⟩ | ⟨-, hsame, -⟩ := read_cases h
  · exact absurd (hargv.symm.trans hnone) nofun
  · exact hsame.trans hargv

theorem walk_argv {argv : List Text} (h : segments.foldlM (readSegment splitWords) f = .ok f')
    (hargv : f.argv = some argv) : f'.argv = some argv := by
  induction segments generalizing f with
  | nil => exact Except.ok.inj h ▸ hargv
  | cons s ss ih =>
      rw [List.foldlM_cons] at h
      obtain ⟨f₁, hread, h⟩ := bind_ok h
      exact ih h (read_argv hread hargv)

/-- A clean segment is read the same by both. -/
theorem read_agrees (h : readSegment splitQuoted f segment = .ok f') (hclean : CleanSegment segment) :
    readSegment ShellWords.split f segment = .ok f' := by
  obtain ⟨hargv, hnone, argv, hsplit, rfl⟩ | ⟨-, -, hall⟩ := read_cases h
  · have hother := (split_iff hsplit).mpr (hclean hargv)
    have hpath : (ascii "path=").isPrefixOf segment = false := by
      obtain ⟨a, rfl⟩ := List.isPrefixOf_iff_prefix.mp hargv
      rfl
    simp only [readSegment, hpath, hargv, hnone, hother]
    rfl
  · exact hall _

theorem walk_agrees (h : segments.foldlM (readSegment splitQuoted) f = .ok f')
    (hclean : ∀ s ∈ segments, CleanSegment s) : segments.foldlM (readSegment ShellWords.split) f = .ok f' := by
  induction segments generalizing f with
  | nil => exact h
  | cons s ss ih =>
      rw [List.foldlM_cons] at h ⊢
      obtain ⟨f₁, hread, h⟩ := bind_ok h
      rw [read_agrees hread (hclean s List.mem_cons_self)]
      exact ih h fun t ht => hclean t (List.mem_cons_of_mem _ ht)

/-- Behind a segment that is not clean the arguments are not the same. -/
theorem walk_differs {f'' : Fields} (h : segments.foldlM (readSegment splitQuoted) f = .ok f')
    (hother : segments.foldlM (readSegment ShellWords.split) f = .ok f'')
    (hdirty : ¬ ∀ s ∈ segments, CleanSegment s) : f'' ≠ f' := by
  induction segments generalizing f with
  | nil => exact absurd nofun hdirty
  | cons s ss ih =>
      rw [List.foldlM_cons] at h hother
      obtain ⟨f₁, hread, h⟩ := bind_ok h
      obtain ⟨f₂, hread₂, hother⟩ := bind_ok hother
      by_cases hclean : CleanSegment s
      · rw [read_agrees hread hclean] at hread₂
        obtain rfl := Except.ok.inj hread₂
        exact ih h hother fun hss => hdirty (List.forall_mem_cons.mpr ⟨hclean, hss⟩)
      · unfold CleanSegment at hclean
        rw [Classical.not_imp] at hclean
        obtain ⟨hargv, hmarks⟩ := hclean
        obtain ⟨-, -, tokens, hsplit, rfl⟩ | ⟨hno, -⟩ := read_cases hread
        · obtain ⟨-, -, words, hsplit₂, rfl⟩ | ⟨hno, -⟩ := read_cases hread₂
          · have htokens := walk_argv h rfl
            have hwords := walk_argv hother rfl
            rintro rfl
            obtain rfl := Option.some.inj (htokens.symm.trans hwords)
            exact hmarks ((split_iff hsplit).mp hsplit₂)
          · exact absurd hargv (Bool.eq_false_iff.mp hno)
        · exact absurd hargv (Bool.eq_false_iff.mp hno)

end Segments

/-- What was read is in the result. -/
theorem Fields.result_iff {f : Fields} {r : Text × List Text} :
    f.result = .ok r ↔ f = ⟨some r.1, some r.2⟩ := by
  obtain ⟨path, argv⟩ := f
  cases path <;> cases argv <;> simp [Fields.result, Prod.ext_iff]

/-- **The installation reads what the service reads** exactly where the service refuses
    the text, or no mark stands outside double quotes in its arguments. -/
theorem parsers_agree_iff (text : Text) :
    Agrees text ↔ ∀ r, BootService.parseLoadedExecstart text = .ok r → Clean text := by
  constructor
  · rintro ⟨-, hsame⟩ r hservice segments hsegments
    have hinstall := hsame r hservice
    obtain ⟨segments₁, hsegments₁, hread⟩ := bind_ok hservice
    obtain ⟨_, _, hread⟩ := bind_ok hread
    obtain ⟨f, hwalk, hresult⟩ := bind_ok hread
    obtain ⟨segments₂, hsegments₂, hread₂⟩ := bind_ok hinstall
    obtain ⟨f₂, hwalk₂, hresult₂⟩ := bind_ok hread₂
    obtain rfl := Except.ok.inj (hsegments.symm.trans hsegments₁)
    obtain rfl := Except.ok.inj (hsegments.symm.trans hsegments₂)
    by_contra hdirty
    refine walk_differs hwalk hwalk₂ hdirty ?_
    rw [Fields.result_iff.mp hresult, Fields.result_iff.mp hresult₂]
  · intro hclean
    have hsame : ∀ r, BootService.parseLoadedExecstart text = .ok r →
        BootInstall.parseLoadedExecstart text = .ok r := by
      intro r hservice
      have hclean := hclean r hservice
      obtain ⟨segments, hsegments, hservice⟩ := bind_ok hservice
      obtain ⟨_, _, hservice⟩ := bind_ok hservice
      obtain ⟨f, hwalk, hservice⟩ := bind_ok hservice
      unfold BootInstall.parseLoadedExecstart
      rw [hsegments, ok_bind, walk_agrees hwalk (hclean segments hsegments), ok_bind]
      exact hservice
    exact ⟨fun r r' hservice hinstall => Except.ok.inj ((hsame r hservice).symm.trans hinstall), hsame⟩

/-- The service takes the apostrophe for a character of the word; to the installation it
    opens a quotation that is never closed. -/
theorem apostrophe_differs :
    let text := ascii "\x7b path=/opt/t42/origin/payload ; argv[]=/opt/t42/origin/payload don't ; status=0/0 \x7d"
    BootService.parseLoadedExecstart text =
        .ok (ascii "/opt/t42/origin/payload", [ascii "/opt/t42/origin/payload", ascii "don't"]) ∧
      BootInstall.parseLoadedExecstart text = .error "No closing quotation" ∧ ¬ Agrees text := by
  intro text
  have hread : BootService.parseLoadedExecstart text =
        .ok (ascii "/opt/t42/origin/payload", [ascii "/opt/t42/origin/payload", ascii "don't"]) ∧
      BootInstall.parseLoadedExecstart text = .error "No closing quotation" := by
    -- the text is long: its characters are read off the literal, not decoded from it
    rw [show text = _ from ascii_ofList _]
    decide +kernel
  exact ⟨hread.1, hread.2, fun h => by cases (h.2 _ hread.1).symm.trans hread.2⟩

end ExecStart
