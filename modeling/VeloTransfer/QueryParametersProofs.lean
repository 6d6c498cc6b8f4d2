import Mathlib
import VeloTransfer.ExceptProofs
import VeloTransfer.QueryTokensProofs

/-! # The parameters of a query — written into its text

    The parameters of an artifact are written into a query as pairs of a name and a
    literal.  What the text says is read off its tokens.

    * `lex_env` — its tokens are those of the pairs, in any template;
    * `denotes_iff` — the tokens say what the parameters are exactly where no plain name
      is a keyword and no number is infinite or no number;
    * `env_safe_iff` — the same of the text. -/

namespace QueryParameters

open CanonicalJson ExceptRules QueryTokens

/-! ## Values -/

/-- A Python float, by what `repr` writes of it. -/
inductive PyFloat where
  | nan
  | infinite (negative : Bool)
  | finite (d : Decimal)

def PyFloat.repr : PyFloat → Text
  | .nan => ascii "nan"
  | .infinite negative => signOf negative ++ ascii "inf"
  | .finite d => d.render

/-- `ScalarParameter`. -/
inductive Scalar where
  | none
  | bool (b : Bool)
  | int (i : Int)
  | float (f : PyFloat)
  | str (s : Text)

/-- `ParameterValue`. -/
inductive ParameterValue where
  | scalar (s : Scalar)
  | list (items : List Scalar)

/-- What a caller may pass for a value. -/
inductive Argument where
  | scalar (s : Scalar)
  | list (items : List Argument)
  | other

inductive Key where
  | text (s : Text)
  | other

inductive Parameters where
  | none
  | mapping (items : List (Key × Argument))
  | other

/-! ## Writing -/

/-- `sep.join`. -/
def join {α : Type} (sep : List α) : List (List α) → List α
  | [] => []
  | [x] => x
  | x :: y :: rest => x ++ (sep ++ join sep (y :: rest))

/-- `str.replace` of one character. -/
def replace (c : Nat) (new s : Text) : Text := s.flatMap fun d => if d = c then new else [d]

/-- `vql_literal`, of a scalar; Python writes no integer with more than `digits` digits. -/
def scalarLiteral (digits : Nat) : Scalar → Except String Text
  | .none => .ok (ascii "null")
  | .bool b => .ok (if b then ascii "TRUE" else ascii "FALSE")
  | .int i => if digits < (decimal i.natAbs).length then .error "ValueError" else .ok (renderInt i)
  | .float f => .ok f.repr
  | .str s => .ok (39 :: (replace 39 [92, 39] (replace 92 [92, 92] s) ++ [39]))

/-- `vql_literal`. -/
def vqlLiteral (digits : Nat) : ParameterValue → Except String Text
  | .scalar s => scalarLiteral digits s
  | .list items => do
      let texts ← items.mapM (scalarLiteral digits)
      .ok (91 :: (join (ascii ", ") texts ++ [93]))

/-- A member of a list, in `normalize_parameter_value`. -/
def listItem : Argument → Except String Scalar
  | .scalar s => .ok s
  | .list _ => .error "Parameter lists must contain scalar values only."
  | .other => .error "Parameter values must be JSON scalars or lists of scalar values."

/-- `normalize_parameter_value`. -/
def normalizeParameterValue : Argument → Except String ParameterValue
  | .scalar s => .ok (.scalar s)
  | .list items => do
      let scalars ← items.mapM listItem
      .ok (.list scalars)
  | .other => .error "Parameter values must be JSON scalars or lists of scalar values."

/-- `VALID_PARAMETER_NAME_RE`. -/
def isPlainName : Text → Bool
  | [] => false
  | c :: cs => isWordStart c && cs.all isWordChar

/-- `vql_identifier`. -/
def vqlIdentifier : Key → Except String Text
  | .other => .error "VQL identifier must be a non-empty string."
  | .text s =>
      if s = [] then .error "VQL identifier must be a non-empty string."
      else if isPlainName s = true then .ok s
      else if s.contains 96 = true ∨ s.any (· < 32) = true then .error "VQL identifier contains unsupported characters."
      else .ok (96 :: (s ++ [96]))

/-- One item of `normalize_env_dict`. -/
def envItem (digits : Nat) (item : Key × Argument) : Except String Text := do
  let encodedKey ← vqlIdentifier item.1
  let normalizedValue ← normalizeParameterValue item.2
  let literal ← vqlLiteral digits normalizedValue
  .ok (encodedKey ++ 61 :: literal)

/-- `normalize_env_dict`. -/
def normalizeEnvDict (digits : Nat) : Parameters → Except String Text
  | .none => .ok []
  | .other => .error "parameters must be a mapping or None"
  | .mapping items => do
      let texts ← items.mapM (envItem digits)
      .ok (join [44] texts)

/-- One item of `normalize_parameter_dict`. -/
def dictItem (item : Key × Argument) : Except String (Text × ParameterValue) := do
  let _ ← vqlIdentifier item.1
  let normalizedValue ← normalizeParameterValue item.2
  match item.1 with
  | .text s => .ok (s, normalizedValue)
  | .other => .error "VQL identifier must be a non-empty string."

/-- `normalize_parameter_dict`. -/
def normalizeParameterDict : Parameters → Except String (List (Text × ParameterValue))
  | .none => .ok []
  | .other => .error "parameters must be a mapping or None"
  | .mapping items => items.mapM dictItem

/-! ## What tokens say -/

/-- A value, as Python or the language of the query means it. -/
inductive Meaning where
  | null
  | bool (b : Bool)
  | number (q : ℚ)
  | nan
  | infinite (negative : Bool)
  | text (s : Text)
deriving DecidableEq

inductive ValueMeaning where
  | scalar (m : Meaning)
  | list (ms : List Meaning)
deriving DecidableEq

def PyFloat.meaning : PyFloat → Meaning
  | .nan => .nan
  | .infinite negative => .infinite negative
  | .finite d => .number d.value

def Scalar.meaning : Scalar → Meaning
  | .none => .null
  | .bool b => .bool b
  | .int i => .number i
  | .float f => f.meaning
  | .str s => .text s

def ParameterValue.meaning : ParameterValue → ValueMeaning
  | .scalar s => .scalar s.meaning
  | .list items => .list (items.map Scalar.meaning)

/-- The words that are literals, in any case. -/
def wordLiteral (s : Text) : Option Meaning :=
  let lower := s.map fun c => if 65 ≤ c ∧ c ≤ 90 then c + 32 else c
  if lower = ascii "null" then some .null
  else if lower = ascii "true" then some (.bool true)
  else if lower = ascii "false" then some (.bool false)
  else none

/-- The value of a literal. -/
def literal : Token → Option Meaning
  | .string s => some (.text s)
  | .number s => (numberValue s).map .number
  | .word s => wordLiteral s
  | _ => none

/-- The name of an identifier: a word that is no keyword, or what stands in back quotes. -/
def nameOf (keyword : Text → Bool) : Token → Option Text
  | .name s => some s
  | .word s => if keyword s then none else some s
  | _ => none

/-- The literals up to the end of a list, and what stands behind it. -/
def itemsOf : List Token → Option (List Meaning × List Token)
  | t :: .mark 93 :: rest => (literal t).map fun m => ([m], rest)
  | t :: .mark 44 :: rest =>
      match literal t, itemsOf rest with
      | some m, some (ms, rest) => some (m :: ms, rest)
      | _, _ => none
  | _ => none

/-- The value at the start of the tokens, and what stands behind it. -/
def valueOf : List Token → Option (ValueMeaning × List Token)
  | .mark 91 :: .mark 93 :: rest => some (.list [], rest)
  | .mark 91 :: rest => (itemsOf rest).map fun r => (.list r.1, r.2)
  | t :: rest => (literal t).map fun m => (.scalar m, rest)
  | [] => none

/-- The tokens are these pairs, with commas between them. -/
inductive Denotes (keyword : Text → Bool) : List Token → List (Text × ValueMeaning) → Prop
  | nil : Denotes keyword [] []
  | one {n : Token} {vs : List Token} {k : Text} {v : ValueMeaning} (hname : nameOf keyword n = some k)
      (hvalue : valueOf vs = some (v, [])) : Denotes keyword (n :: .mark 61 :: vs) [(k, v)]
  | cons {n : Token} {vs rest : List Token} {k : Text} {v : ValueMeaning} {p : Text × ValueMeaning}
      {ps : List (Text × ValueMeaning)} (hname : nameOf keyword n = some k)
      (hvalue : valueOf vs = some (v, .mark 44 :: rest)) (hrest : Denotes keyword rest (p :: ps)) :
      Denotes keyword (n :: .mark 61 :: vs) ((k, v) :: p :: ps)

/-- The template is complete before the place of the text: no token is open. -/
def Reads (before : Text) (ts : List Token) : Prop := ∀ rest, lex (before ++ rest) = (lex rest).map (ts ++ ·)

/-- The text is the same tokens in every template, and they say what the parameters are. -/
def Safe (keyword : Text → Bool) (entries : List (Text × ParameterValue)) (text : Text) : Prop :=
  ∃ tokens, (∀ before ts after, Reads before ts → Ends after →
    lex (before ++ (text ++ after)) = (lex after).map fun more => ts ++ (tokens ++ more)) ∧
    Denotes keyword tokens (entries.map fun e => (e.1, e.2.meaning))

/-! ## The condition -/

def Scalar.isFinite : Scalar → Bool
  | .float (.finite _) => true
  | .float _ => false
  | _ => true

def ParameterValue.isFinite : ParameterValue → Bool
  | .scalar s => s.isFinite
  | .list items => items.all Scalar.isFinite

/-- No plain name is a keyword, and no number is infinite or no number. -/
def Plain (keyword : Text → Bool) (entries : List (Text × ParameterValue)) : Prop :=
  ∀ e ∈ entries, (isPlainName e.1 = true → keyword e.1 = false) ∧ e.2.isFinite = true

/-! ## The tokens of the text -/

section Tokens

variable {digits : Nat} {text : Text} {s : Scalar} {v : ParameterValue} {e : Text × ParameterValue}

/-- An integer as a decimal literal. -/
def ofInt (i : Int) : Decimal where
  negative := decide (i < 0)
  whole := decimal i.natAbs
  fraction := []
  exponent := none
  whole_ne := by
    obtain ⟨c, cs, h, -⟩ := decimal_cons i.natAbs
    exact h ▸ List.cons_ne_nil c cs
  whole_digits := decimal_digits i.natAbs
  fraction_digits := nofun
  exponent_digits := nofun

theorem render_ofInt (i : Int) : (ofInt i).render = renderInt i := by
  unfold Decimal.render ofInt renderInt signOf fractionText exponentText
  by_cases hi : i < 0 <;> simp [hi]

theorem value_ofInt (i : Int) : (ofInt i).value = i := by
  have hdigits : ofDigits 0 (decimal i.natAbs ++ []) = i.natAbs := by rw [List.append_nil, ofDigits_decimal]
  show decimalValue (decide (i < 0)) (decimal i.natAbs) [] 0 = i
  rw [decimalValue, hdigits]
  by_cases hi : i < 0
  · have habs : (i.natAbs : ℤ) = -i := by omega
    have hcast : ((i.natAbs : ℕ) : ℚ) = ((-i : ℤ) : ℚ) := by rw [← habs, Int.cast_natCast]
    simp [hi, hcast]
  · have habs : (i.natAbs : ℤ) = i := by omega
    have hcast : ((i.natAbs : ℕ) : ℚ) = (i : ℚ) := by rw [← Int.cast_natCast, habs]
    simp [hi, hcast]

def floatTokens : PyFloat → List Token
  | .nan => [.word (ascii "nan")]
  | .infinite true => [.mark 45, .word (ascii "inf")]
  | .infinite false => [.word (ascii "inf")]
  | .finite d => [.number d.render]

def scalarTokens : Scalar → List Token
  | .none => [.word (ascii "null")]
  | .bool b => [.word (if b then ascii "TRUE" else ascii "FALSE")]
  | .int i => [.number (renderInt i)]
  | .float f => floatTokens f
  | .str s => [.string s]

def valueTokens : ParameterValue → List Token
  | .scalar s => scalarTokens s
  | .list items => .mark 91 :: (join [.mark 44] (items.map scalarTokens) ++ [.mark 93])

def nameToken (s : Text) : Token := if isPlainName s = true then .word s else .name s

def entryTokens (e : Text × ParameterValue) : List Token := nameToken e.1 :: .mark 61 :: valueTokens e.2

def envTokens (entries : List (Text × ParameterValue)) : List Token := join [.mark 44] (entries.map entryTokens)

/-- The text is these tokens, whatever stands behind it. -/
def LexesAs (text : Text) (tokens : List Token) : Prop :=
  ∀ rest, Ends rest → lex (text ++ rest) = (lex rest).map (tokens ++ ·)

theorem replace_escaped (s : Text) : replace 39 [92, 39] (replace 92 [92, 92] s) = escaped s := by
  unfold replace escaped
  rw [List.flatMap_assoc]
  refine List.flatMap_congr fun c _ => ?_
  by_cases hslash : c = 92
  · rw [if_pos hslash, if_pos hslash]
    rfl
  · rw [if_neg hslash, if_neg hslash, List.flatMap_singleton]

/-- A word in lower or upper case. -/
theorem lexesAs_word {w : Text} (h : isPlainName w = true) : LexesAs w [.word w] := by
  intro rest hrest
  cases w with
  | nil => exact absurd h nofun
  | cons c cs =>
      obtain ⟨hc, hcs⟩ := Bool.and_eq_true_iff.mp h
      exact lex_word hc (List.all_eq_true.mp hcs) hrest

theorem lexesAs_number (d : Decimal) : LexesAs d.render [.number d.render] := fun _ hrest => lex_number d hrest

theorem lexesAs_float (f : PyFloat) : LexesAs f.repr (floatTokens f) := by
  cases f with
  | nan => exact lexesAs_word rfl
  | infinite negative =>
      cases negative with
      | false => exact lexesAs_word rfl
      | true =>
          intro rest hrest
          have hread : lexFrom .start (45 :: (ascii "inf" ++ rest)) = lexFrom (.sign 45) (ascii "inf" ++ rest) :=
            lexFrom_cons rfl
          have hword := lexesAs_word (w := ascii "inf") rfl rest hrest
          have hsign : lexFrom (.sign 45) (ascii "inf" ++ rest) = (lex (ascii "inf" ++ rest)).map (.mark 45 :: ·) :=
            lexFrom_after rfl fun c hc => by
              obtain rfl := Option.some.inj hc
              rfl
          show lexFrom .start (45 :: (ascii "inf" ++ rest)) = _
          rw [hread, hsign, hword, Option.map_map]
          rfl
  | finite d => exact lexesAs_number d

theorem lexesAs_scalar (h : scalarLiteral digits s = .ok text) : LexesAs text (scalarTokens s) := by
  cases s with
  | none =>
      obtain rfl := Except.ok.inj h
      exact lexesAs_word rfl
  | bool b =>
      obtain rfl := Except.ok.inj h
      cases b <;> exact lexesAs_word rfl
  | int i =>
      simp only [scalarLiteral] at h
      split at h
      next => exact absurd h nofun
      next =>
        obtain rfl := Except.ok.inj h
        have hnumber := lexesAs_number (ofInt i)
        rwa [render_ofInt] at hnumber
  | float f =>
      obtain rfl := Except.ok.inj h
      exact lexesAs_float f
  | str s =>
      obtain rfl := Except.ok.inj h
      intro rest _
      rw [replace_escaped]
      have hstring := lex_string s rest
      rwa [List.cons_append, List.append_assoc]

/-- Texts with a separator between them, of which a comma is left. -/
theorem lexesAs_join {sep : Text} {texts : List Text} {tokens : List (List Token)}
    (hsep : ∀ rest, Ends (sep ++ rest) ∧ lex (sep ++ rest) = (lex rest).map (.mark 44 :: ·))
    (h : List.Forall₂ LexesAs texts tokens) : LexesAs (join sep texts) (join [.mark 44] tokens) := by
  intro rest hrest
  induction h with
  | nil => exact Option.map_id'.symm
  | @cons text ts texts tokens hfirst h ih =>
      cases h with
      | nil => exact hfirst rest hrest
      | @cons text' ts' texts tokens hsecond h =>
          have hjoin : join sep (text :: text' :: texts) ++ rest = text ++ (sep ++ (join sep (text' :: texts) ++ rest)) := by
            rw [join, List.append_assoc, List.append_assoc]
          obtain ⟨hends, hlex⟩ := hsep (join sep (text' :: texts) ++ rest)
          rw [hjoin, hfirst _ hends, hlex, ih, Option.map_map, Option.map_map]
          refine Option.map_congr fun more _ => ?_
          simp [join, Function.comp]

theorem comma_ends (rest : Text) : Ends (44 :: rest) := ends_cons rfl (by decide)

theorem lexesAs_value (h : vqlLiteral digits v = .ok text) : LexesAs text (valueTokens v) := by
  cases v with
  | scalar s => exact lexesAs_scalar h
  | list items =>
      obtain ⟨texts, hmap, h⟩ := bind_ok h
      obtain rfl := Except.ok.inj h
      have hitems : List.Forall₂ LexesAs texts (items.map scalarTokens) := by
        have hforall := mapM_ok hmap
        rw [List.forall₂_map_right_iff]
        exact hforall.flip.imp fun _ _ hscalar => lexesAs_scalar hscalar
      have hcomma : ∀ rest, lex (ascii ", " ++ rest) = (lex rest).map (.mark 44 :: ·) := by
        intro rest
        show lex (44 :: 32 :: rest) = _
        rw [lex_mark (.inr (.inl rfl)), lex_space]
      have hjoin : LexesAs (join (ascii ", ") texts) (join [.mark 44] (items.map scalarTokens)) :=
        lexesAs_join (fun rest => ⟨comma_ends _, hcomma rest⟩) hitems
      intro rest hrest
      have hclose : Ends ([93] ++ rest) := ends_cons rfl (by decide)
      have hbracket : lex ([93] ++ rest) = (lex rest).map (.mark 93 :: ·) := lex_mark (.inr (.inr (.inr rfl)))
      show lex (91 :: (join (ascii ", ") texts ++ [93] ++ rest)) = _
      rw [lex_mark (.inr (.inr (.inl rfl))), List.append_assoc, hjoin _ hclose, hbracket, Option.map_map,
        Option.map_map]
      refine Option.map_congr fun more _ => ?_
      simp [valueTokens, Function.comp]

/-- What an item is written as. -/
structure Written (digits : Nat) (item : Key × Argument) (text : Text) (e : Text × ParameterValue) : Prop where
  key : item.1 = .text e.1
  identifier : vqlIdentifier item.1 = .ok (if isPlainName e.1 = true then e.1 else 96 :: (e.1 ++ [96]))
  closed : isPlainName e.1 = false → ∀ c ∈ e.1, c ≠ 96
  value : normalizeParameterValue item.2 = .ok e.2
  literal : ∃ literal, vqlLiteral digits e.2 = .ok literal ∧
    text = (if isPlainName e.1 = true then e.1 else 96 :: (e.1 ++ [96])) ++ 61 :: literal

theorem vqlIdentifier_ok {key : Key} (h : vqlIdentifier key = .ok text) : ∃ s, key = .text s ∧
    text = (if isPlainName s = true then s else 96 :: (s ++ [96])) ∧ (isPlainName s = false → ∀ c ∈ s, c ≠ 96) := by
  cases key with
  | other => exact absurd h nofun
  | text s =>
      refine ⟨s, rfl, ?_⟩
      simp only [vqlIdentifier] at h
      split at h
      next => exact absurd h nofun
      next =>
        by_cases hplain : isPlainName s = true
        · rw [if_pos hplain] at h
          rw [if_pos hplain]
          exact ⟨(Except.ok.inj h).symm, fun hnot => absurd hplain (Bool.eq_false_iff.mp hnot)⟩
        · rw [if_neg hplain] at h
          rw [if_neg hplain]
          split at h
          next => exact absurd h nofun
          next hchars =>
            refine ⟨(Except.ok.inj h).symm, fun _ c hc heq => hchars (.inl ?_)⟩
            exact List.contains_iff_mem.mpr (heq ▸ hc)

theorem envItem_ok {item : Key × Argument} (h : envItem digits item = .ok text) : ∃ e, Written digits item text e := by
  obtain ⟨identifier, hkey, h⟩ := bind_ok h
  obtain ⟨v, hvalue, h⟩ := bind_ok h
  obtain ⟨literal, hliteral, h⟩ := bind_ok h
  obtain ⟨s, hs, rfl, hclosed⟩ := vqlIdentifier_ok hkey
  exact ⟨(s, v), hs, hkey, hclosed, hvalue, literal, hliteral, (Except.ok.inj h).symm⟩

/-- The parameters that are written are those that are normalized. -/
theorem Written.dict {item : Key × Argument} (h : Written digits item text e) : dictItem item = .ok e := by
  obtain ⟨key, argument⟩ := item
  have hkey := h.key
  have hidentifier := h.identifier
  dsimp only at hkey
  subst hkey
  unfold dictItem
  rw [hidentifier, ok_bind, h.value]
  rfl

theorem Written.lexesAs {item : Key × Argument} (h : Written digits item text e) : LexesAs text (entryTokens e) := by
  obtain ⟨literal, hliteral, rfl⟩ := h.literal
  intro rest hrest
  have hvalue := lexesAs_value hliteral rest hrest
  have hequal : lex (61 :: (literal ++ rest)) = (lex rest).map fun more => .mark 61 :: (valueTokens e.2 ++ more) := by
    rw [lex_mark (.inl rfl), hvalue, Option.map_map]
    rfl
  have hends : Ends (61 :: (literal ++ rest)) := ends_cons rfl (by decide)
  unfold entryTokens nameToken
  rw [List.append_assoc, List.cons_append]
  by_cases hplain : isPlainName e.1 = true
  · rw [if_pos hplain, if_pos hplain, lexesAs_word hplain _ hends, hequal, Option.map_map]
    rfl
  · have hname := @lex_name e.1 (61 :: (literal ++ rest)) (h.closed (Bool.eq_false_iff.mpr hplain))
    rw [if_neg hplain, if_neg hplain, List.cons_append, List.append_assoc]
    show lex (96 :: (e.1 ++ 96 :: 61 :: (literal ++ rest))) = _
    rw [hname, hequal, Option.map_map]
    rfl

theorem written_all {items : List (Key × Argument)} {texts : List Text}
    (h : List.Forall₂ (fun item text => envItem digits item = .ok text) items texts) :
    ∃ entries, items.mapM dictItem = .ok entries ∧ List.Forall₂ LexesAs texts (entries.map entryTokens) := by
  induction h with
  | nil => exact ⟨[], rfl, .nil⟩
  | @cons item text items texts hfirst hrest ih =>
      obtain ⟨e, he⟩ := envItem_ok hfirst
      obtain ⟨entries, hentries, hlexes⟩ := ih
      refine ⟨e :: entries, ?_, .cons he.lexesAs hlexes⟩
      rw [List.mapM_cons, he.dict, ok_bind, hentries]
      rfl

/-- **The text is the tokens of the parameters**, whatever stands behind it. -/
theorem lex_env {params : Parameters} (h : normalizeEnvDict digits params = .ok text) :
    ∃ entries, normalizeParameterDict params = .ok entries ∧ LexesAs text (envTokens entries) := by
  cases params with
  | none =>
      obtain rfl := Except.ok.inj h
      exact ⟨[], rfl, fun _ _ => Option.map_id'.symm⟩
  | other => exact absurd h nofun
  | mapping items =>
      obtain ⟨texts, hmap, h⟩ := bind_ok h
      obtain rfl := Except.ok.inj h
      obtain ⟨entries, hentries, hlexes⟩ := written_all (mapM_ok hmap)
      exact ⟨entries, hentries, lexesAs_join (fun rest => ⟨comma_ends _, lex_mark (.inr (.inl rfl))⟩) hlexes⟩

end Tokens

/-! ## What the text says -/

section Denoting

variable {keyword : Text → Bool} {s : Scalar} {items : List Scalar} {v : ParameterValue} {e : Text × ParameterValue}
  {entries : List (Text × ParameterValue)} {rest : List Token}

/-- A finite scalar is one literal, which denotes it. -/
theorem literal_of_finite (h : s.isFinite = true) : ∃ t, scalarTokens s = [t] ∧ literal t = some s.meaning := by
  cases s with
  | none => exact ⟨_, rfl, rfl⟩
  | bool b => cases b <;> exact ⟨_, rfl, rfl⟩
  | int i =>
      refine ⟨_, rfl, ?_⟩
      rw [literal, ← render_ofInt, numberValue_render, value_ofInt]
      rfl
  | float f =>
      cases f with
      | nan => exact absurd h nofun
      | infinite negative => exact absurd h nofun
      | finite d =>
          refine ⟨_, rfl, ?_⟩
          rw [literal, numberValue_render]
          rfl
  | str s => exact ⟨_, rfl, rfl⟩

/-- One that is not starts with no literal. -/
theorem literal_of_infinite (h : s.isFinite = false) :
    ∃ t more, scalarTokens s = t :: more ∧ literal t = none ∧ t ≠ .mark 91 ∧ t ≠ .mark 93 := by
  cases s with
  | float f =>
      cases f with
      | nan => exact ⟨_, _, rfl, rfl, nofun, nofun⟩
      | infinite negative => cases negative <;> exact ⟨_, _, rfl, by decide, by decide, by decide⟩
      | finite d => exact absurd h nofun
  | _ => exact absurd h nofun

theorem itemsOf_none {t : Token} (h : literal t = none) (xs : List Token) : itemsOf (t :: xs) = none := by
  unfold itemsOf
  split
  next heq =>
    obtain ⟨rfl, -⟩ := List.cons_eq_cons.mp heq
    rw [h]
    rfl
  next heq =>
    obtain ⟨rfl, -⟩ := List.cons_eq_cons.mp heq
    rw [h]
  next => rfl

/-- **The literals of a list** are read up to its end. -/
theorem itemsOf_finite (hne : items ≠ []) (h : ∀ s ∈ items, s.isFinite = true) :
    itemsOf (join [.mark 44] (items.map scalarTokens) ++ .mark 93 :: rest) = some (items.map Scalar.meaning, rest) := by
  induction items with
  | nil => exact absurd rfl hne
  | cons s items ih =>
      obtain ⟨t, htokens, hliteral⟩ := literal_of_finite (h s List.mem_cons_self)
      cases items with
      | nil =>
          show itemsOf (scalarTokens s ++ .mark 93 :: rest) = _
          rw [htokens, List.singleton_append, itemsOf, hliteral]
          rfl
      | cons s' items =>
          have hrest := ih (List.cons_ne_nil _ _) fun s hs => h s (List.mem_cons_of_mem _ hs)
          have htext : join [.mark 44] ((s :: s' :: items).map scalarTokens) ++ .mark 93 :: rest =
              t :: .mark 44 :: (join [.mark 44] ((s' :: items).map scalarTokens) ++ .mark 93 :: rest) := by
            rw [List.map_cons, List.map_cons, join, htokens]
            rfl
          rw [htext, itemsOf, hliteral, hrest]
          rfl

/-- A number that is not finite ends the reading. -/
theorem itemsOf_infinite (h : ¬ ∀ s ∈ items, s.isFinite = true) :
    itemsOf (join [.mark 44] (items.map scalarTokens) ++ .mark 93 :: rest) = none := by
  induction items with
  | nil => exact absurd nofun h
  | cons s items ih =>
      by_cases hs : s.isFinite = true
      · obtain ⟨t, htokens, hliteral⟩ := literal_of_finite hs
        cases items with
        | nil =>
            refine absurd (fun s' hs' => ?_) h
            exact List.mem_singleton.mp hs' ▸ hs
        | cons s' items =>
            have hrest := ih fun hall => h (List.forall_mem_cons.mpr ⟨hs, hall⟩)
            have htext : join [.mark 44] ((s :: s' :: items).map scalarTokens) ++ .mark 93 :: rest =
                t :: .mark 44 :: (join [.mark 44] ((s' :: items).map scalarTokens) ++ .mark 93 :: rest) := by
              rw [List.map_cons, List.map_cons, join, htokens]
              rfl
            rw [htext, itemsOf, hliteral, hrest]
      · obtain ⟨t, more, htokens, hliteral, -⟩ := literal_of_infinite (Bool.eq_false_iff.mpr hs)
        cases items with
        | nil =>
            show itemsOf (scalarTokens s ++ .mark 93 :: rest) = _
            rw [htokens]
            exact itemsOf_none hliteral _
        | cons s' items =>
            rw [List.map_cons, List.map_cons, join, htokens]
            exact itemsOf_none hliteral _

theorem valueOf_scalar {t : Token} (ht : t ≠ .mark 91) (xs : List Token) :
    valueOf (t :: xs) = (literal t).map fun m => (.scalar m, xs) := by
  unfold valueOf
  split
  next heq => exact absurd (List.head_eq_of_cons_eq heq) ht
  next heq => exact absurd (List.head_eq_of_cons_eq heq) ht
  next heq =>
    obtain ⟨rfl, rfl⟩ := List.cons_eq_cons.mp heq
    rfl
  next heq => exact absurd heq nofun

theorem valueOf_list {t : Token} (ht : t ≠ .mark 93) (xs : List Token) :
    valueOf (.mark 91 :: t :: xs) = (itemsOf (t :: xs)).map fun r => (.list r.1, r.2) := by
  rw [valueOf]
  intro rest heq
  exact ht (List.head_eq_of_cons_eq heq)

/-- The first token of a list is no closing bracket. -/
theorem join_head (hne : items ≠ []) (rest : List Token) :
    ∃ t xs, join [.mark 44] (items.map scalarTokens) ++ rest = t :: xs ∧ t ≠ .mark 93 := by
  have hscalar : ∀ s : Scalar, ∃ t more, scalarTokens s = t :: more ∧ t ≠ .mark 93 := by
    intro s
    by_cases hs : s.isFinite = true
    · obtain ⟨t, htokens, hliteral⟩ := literal_of_finite hs
      exact ⟨t, [], htokens, fun h => by subst h; exact absurd hliteral nofun⟩
    · obtain ⟨t, more, htokens, -, -, ht⟩ := literal_of_infinite (Bool.eq_false_iff.mpr hs)
      exact ⟨t, more, htokens, ht⟩
  cases items with
  | nil => exact absurd rfl hne
  | cons s items =>
      obtain ⟨t, more, htokens, ht⟩ := hscalar s
      cases items with
      | nil => exact ⟨t, more ++ rest, congrArg (· ++ rest) htokens, ht⟩
      | cons s' items =>
          rw [List.map_cons, List.map_cons, join, htokens]
          exact ⟨t, _, rfl, ht⟩

/-- **A finite value** is read as what it means. -/
theorem valueOf_finite (h : v.isFinite = true) : valueOf (valueTokens v ++ rest) = some (v.meaning, rest) := by
  cases v with
  | scalar s =>
      obtain ⟨t, htokens, hliteral⟩ := literal_of_finite h
      have ht : t ≠ .mark 91 := fun h => by subst h; exact absurd hliteral nofun
      show valueOf (scalarTokens s ++ rest) = _
      rw [htokens, List.singleton_append, valueOf_scalar ht, hliteral]
      rfl
  | list items =>
      by_cases hne : items = []
      · subst hne
        rfl
      · have hitems := @itemsOf_finite items rest hne (List.all_eq_true.mp h)
        obtain ⟨t, xs, htext, ht⟩ := join_head hne (.mark 93 :: rest)
        show valueOf (.mark 91 :: (join [.mark 44] (items.map scalarTokens) ++ [.mark 93] ++ rest)) = _
        rw [List.append_assoc]
        show valueOf (.mark 91 :: (join [.mark 44] (items.map scalarTokens) ++ .mark 93 :: rest)) = _
        rw [htext] at hitems ⊢
        rw [valueOf_list ht, hitems]
        rfl

/-- One that is not is no value. -/
theorem valueOf_infinite (h : v.isFinite = false) : valueOf (valueTokens v ++ rest) = none := by
  cases v with
  | scalar s =>
      obtain ⟨t, more, htokens, hliteral, ht, -⟩ := literal_of_infinite h
      show valueOf (scalarTokens s ++ rest) = _
      rw [htokens, List.cons_append, valueOf_scalar ht, hliteral]
      rfl
  | list items =>
      have hinfinite : ¬ ∀ s ∈ items, s.isFinite = true := fun hall =>
        absurd ((List.all_eq_true.mpr hall).symm.trans h) nofun
      have hne : items ≠ [] := fun hnil => hinfinite (hnil ▸ nofun)
      have hitems := @itemsOf_infinite items rest hinfinite
      obtain ⟨t, xs, htext, ht⟩ := join_head hne (.mark 93 :: rest)
      show valueOf (.mark 91 :: (join [.mark 44] (items.map scalarTokens) ++ [.mark 93] ++ rest)) = _
      rw [List.append_assoc]
      show valueOf (.mark 91 :: (join [.mark 44] (items.map scalarTokens) ++ .mark 93 :: rest)) = _
      rw [htext] at hitems ⊢
      rw [valueOf_list ht, hitems]
      rfl

/-- A name is one unless it is a keyword that is written as it is. -/
theorem nameOf_iff (key : Text) :
    nameOf keyword (nameToken key) = some key ↔ (isPlainName key = true → keyword key = false) := by
  unfold nameToken
  by_cases hplain : isPlainName key = true
  · rw [if_pos hplain, nameOf]
    cases keyword key <;> simp [hplain]
  · rw [if_neg hplain]
    exact ⟨fun _ hp => absurd hp hplain, fun _ => rfl⟩

/-- **The tokens say what the parameters are** exactly where no plain name is a keyword
    and every number is finite. -/
theorem denotes_iff (entries : List (Text × ParameterValue)) :
    Denotes keyword (envTokens entries) (entries.map fun e => (e.1, e.2.meaning)) ↔ Plain keyword entries := by
  induction entries with
  | nil => exact ⟨fun _ => nofun, fun _ => .nil⟩
  | cons e entries ih =>
      cases entries with
      | nil =>
          have hvalue := @valueOf_finite e.2 []
          have hinfinite := @valueOf_infinite e.2 []
          rw [List.append_nil] at hvalue hinfinite
          constructor
          · intro h e' he'
            obtain rfl := List.mem_singleton.mp he'
            cases h with
            | one hname hread =>
                refine ⟨(nameOf_iff _).mp hname, ?_⟩
                by_contra hv
                exact absurd (hread.symm.trans (hinfinite (Bool.eq_false_iff.mpr hv))) nofun
          · intro h
            obtain ⟨hname, hfinite⟩ := h e List.mem_cons_self
            exact .one ((nameOf_iff _).mpr hname) (hvalue hfinite)
      | cons e' entries =>
          have htokens : envTokens (e :: e' :: entries) =
              nameToken e.1 :: .mark 61 :: (valueTokens e.2 ++ .mark 44 :: envTokens (e' :: entries)) := rfl
          rw [htokens]
          constructor
          · intro h
            cases h with
            | cons hname hread hrest =>
                have hfinite : e.2.isFinite = true := by
                  by_contra hv
                  exact absurd (hread.symm.trans (valueOf_infinite (Bool.eq_false_iff.mpr hv))) nofun
                rw [valueOf_finite hfinite] at hread
                have hmore := (List.cons_eq_cons.mp (Prod.mk.inj (Option.some.inj hread)).2).2
                exact List.forall_mem_cons.mpr ⟨⟨(nameOf_iff _).mp hname, hfinite⟩, ih.mp (hmore ▸ hrest)⟩
          · intro h
            obtain ⟨⟨hname, hfinite⟩, hrest⟩ := List.forall_mem_cons.mp h
            exact .cons ((nameOf_iff _).mpr hname) (valueOf_finite hfinite) (ih.mpr hrest)

end Denoting

/-- **The text is safe** exactly where no plain name is a keyword and every number is
    finite. -/
theorem env_safe_iff {keyword : Text → Bool} {digits : Nat} {params : Parameters} {text : Text}
    (h : normalizeEnvDict digits params = .ok text) :
    ∃ entries, normalizeParameterDict params = .ok entries ∧ (Safe keyword entries text ↔ Plain keyword entries) := by
  obtain ⟨entries, hentries, hlexes⟩ := lex_env h
  refine ⟨entries, hentries, ?_⟩
  rw [← denotes_iff]
  constructor
  · rintro ⟨tokens, htemplate, hdenotes⟩
    -- The empty template shows which tokens they are.
    have hempty := htemplate [] [] [] (fun _ => Option.map_id'.symm) ends_nil
    have hown := hlexes [] ends_nil
    rw [List.nil_append] at hempty
    rw [hempty] at hown
    have htokens : tokens = envTokens entries := by simpa [lex, lexFrom, State.finish] using hown
    exact htokens ▸ hdenotes
  · intro hdenotes
    refine ⟨envTokens entries, fun before ts after hbefore hafter => ?_, hdenotes⟩
    rw [hbefore, hlexes after hafter, Option.map_map]
    rfl

/-- The words that begin or join the clauses of a query, and the words that are literals. -/
def isKeyword (s : Text) : Bool :=
  ["select", "from", "where", "let", "explain", "as", "and", "or", "not", "in", "limit", "order", "by", "desc", "group",
    "null", "true", "false"].any fun word => ascii word == s.map fun c => if 65 ≤ c ∧ c ≤ 90 then c + 32 else c

/-- A name with a space. -/
theorem env_safe_iff_quoted : ∃ entries,
    normalizeParameterDict (.mapping [(.text (ascii "Boot execute"), .scalar (.bool false))]) = .ok entries ∧
      (Safe isKeyword entries (ascii "`Boot execute`=FALSE") ↔ Plain isKeyword entries) :=
  @env_safe_iff isKeyword 4300 (.mapping [(.text (ascii "Boot execute"), .scalar (.bool false))]) _ rfl

/-- The name `SELECT` is written as it is: the text begins with a keyword. -/
theorem keyword_unsafe :
    let params : Parameters := .mapping [(.text (ascii "SELECT"), .scalar (.int 1))]
    let entries : List (Text × ParameterValue) := [(ascii "SELECT", .scalar (.int 1))]
    normalizeEnvDict 4300 params = .ok (ascii "SELECT=1") ∧ normalizeParameterDict params = .ok entries ∧
      ¬ Safe isKeyword entries (ascii "SELECT=1") := by
  intro params entries
  refine ⟨rfl, rfl, ?_⟩
  rintro ⟨tokens, htemplate, hdenotes⟩
  have hempty := htemplate [] [] [] (fun _ => Option.map_id'.symm) ends_nil
  have hown : lex (ascii "SELECT=1") = some (envTokens entries) := by decide
  have htokens : tokens = envTokens entries := by
    rw [List.nil_append, List.append_nil, hown] at hempty
    simpa [lex, lexFrom, State.finish] using hempty.symm
  have hplain := (denotes_iff entries).mp (htokens ▸ hdenotes)
  exact absurd ((hplain _ List.mem_cons_self).1 rfl) (by decide)

end QueryParameters
