import Mathlib
import VeloTransfer.JsonLineProofs

/-! # The length of what is written again

    A document that was read and is written again compactly is no longer than it
    was, where its strings are printable and its numbers integers: white space,
    escapes and the sign of a zero are all that may be lost
    (`render_le_document`). -/

namespace CanonicalJson

open JsonLine

/-! ## Strings -/

theorem skipSpace_length (cs : Text) : (skipSpace cs).length ≤ cs.length := by
  induction cs with
  | nil => exact Nat.le_refl _
  | cons c cs ih =>
      unfold skipSpace
      split
      · exact Nat.le_succ_of_le ih
      · exact Nat.le_refl _

theorem skipSpace_cons_length {cs ds : Text} {d : Nat} (h : skipSpace cs = d :: ds) : ds.length + 1 ≤ cs.length := by
  have hle := skipSpace_length cs
  rw [h, List.length_cons] at hle
  exact hle

theorem hex4_length {cs rest : Text} {u : Nat} (h : hex4 cs = some (u, rest)) : rest.length + 4 = cs.length := by
  unfold hex4 at h
  split at h
  · split at h
    · obtain ⟨-, rfl⟩ := Prod.mk.inj (Option.some.inj h)
      rfl
    · exact absurd h nofun
  · exact absurd h nofun

theorem lowSurrogate_length {u v : Nat} {cs rest : Text} (h : lowSurrogate u cs = some (v, rest)) :
    rest.length ≤ cs.length := by
  unfold lowSurrogate at h
  split at h
  · split at h
    · split at h
      next heq =>
        split at h
        · obtain ⟨-, rfl⟩ := Prod.mk.inj (Option.some.inj h)
          have hfour := hex4_length heq
          simp only [List.length_cons]
          omega
        · exact absurd h nofun
      · exact absurd h nofun
    · exact absurd h nofun
  · exact absurd h nofun

theorem prepend_ok {c : Nat} {p : Parse Text} {s rest : Text} (h : prepend c p = .ok (s, rest)) :
    ∃ t, s = c :: t ∧ p = .ok (t, rest) := by
  unfold prepend at h
  split at h
  · obtain ⟨rfl, rfl⟩ := Prod.mk.inj (Except.ok.inj h)
    exact ⟨_, rfl, rfl⟩
  · cases h

/-- A string is shorter than its literal. -/
theorem scanString_length {fuel : Nat} {cs s rest : Text} (h : scanString fuel cs = .ok (s, rest)) :
    s.length + 1 + rest.length ≤ cs.length := by
  induction fuel generalizing cs s rest with
  | zero => exact absurd h nofun
  | succ fuel ih =>
      -- each character that is scanned takes at least one character of the literal
      have hmore : ∀ {c : Nat} {ds : Text}, prepend c (scanString fuel ds) = .ok (s, rest) →
          s.length + rest.length ≤ ds.length := by
        intro c ds hds
        obtain ⟨t, rfl, ht⟩ := prepend_ok hds
        have hle := ih ht
        rw [List.length_cons]
        omega
      cases cs with
      | nil => exact absurd h nofun
      | cons c cs =>
          unfold scanString at h
          rw [List.length_cons]
          split at h
          · obtain ⟨rfl, rfl⟩ := Prod.mk.inj (Except.ok.inj h)
            simp
            omega
          split at h
          · split at h
            · exact absurd h nofun
            next e es =>
              rw [List.length_cons]
              split at h
              · split at h
                · exact absurd h nofun
                next u ds hhex =>
                  have hfour := hex4_length hhex
                  split at h
                  next hlow =>
                    have hle := hmore h
                    have hshort := lowSurrogate_length hlow
                    omega
                  next =>
                    have hle := hmore h
                    omega
              · split at h
                · exact absurd h nofun
                · have hle := hmore h
                  omega
          split at h
          · exact absurd h nofun
          · have hle := hmore h
            omega

/-! ## Numbers -/

theorem spanDigits_length (cs : Text) : (spanDigits cs).1.length + (spanDigits cs).2.length = cs.length := by
  induction cs with
  | nil => rfl
  | cons c cs ih =>
      unfold spanDigits
      split
      · simp only [List.length_cons]
        omega
      · simp

theorem spanDigits_digits (cs : Text) : ∀ c ∈ (spanDigits cs).1, isDigit c = true := by
  induction cs with
  | nil => exact fun _ hc => absurd hc List.not_mem_nil
  | cons c cs ih =>
      unfold spanDigits
      split
      next hc =>
        intro d hd
        rcases List.mem_cons.mp hd with rfl | hd
        · exact hc
        · exact ih d hd
      · exact fun _ hc => absurd hc List.not_mem_nil

theorem ofDigits_lt {ds : Text} (h : ∀ c ∈ ds, isDigit c = true) : ofDigits 0 ds < 10 ^ ds.length := by
  induction ds using List.reverseRecOn with
  | nil => exact Nat.one_pos
  | append_singleton ds d ih =>
      have hd := h d (List.mem_append_right _ (List.mem_singleton_self d))
      have hlt := ih (fun c hc => h c (List.mem_append_left _ hc))
      simp only [isDigit, Bool.and_eq_true, decide_eq_true_eq] at hd
      rw [ofDigits_append, List.length_append, List.length_singleton, Nat.pow_succ]
      show ofDigits 0 ds * 10 + digitValue d < _
      unfold digitValue
      omega

theorem matchInt_length {cs digits rest : Text} (h : matchInt cs = some (digits, rest)) :
    digits.length + rest.length = cs.length ∧ digits ≠ [] ∧ ∀ c ∈ digits, isDigit c = true := by
  unfold matchInt at h
  split at h
  · cases h
  next c cs =>
    split at h
    · obtain ⟨rfl, rfl⟩ := Prod.mk.inj (Option.some.inj h)
      refine ⟨?_, (by intro h; cases h), ?_⟩
      · simp only [List.length_cons, List.length_nil]
        omega
      · decide
    · split at h
      next hc =>
        obtain ⟨rfl, rfl⟩ := Prod.mk.inj (Option.some.inj h)
        have hspan := spanDigits_length cs
        refine ⟨?_, (by intro h; cases h), ?_⟩
        · simp only [List.length_cons]
          omega
        · intro d hd
          rcases List.mem_cons.mp hd with rfl | hd
          · exact hc
          · exact spanDigits_digits cs d hd
      · cases h

/-- An integer is written with no more digits than it was read from. -/
theorem renderInt_length {digits : Text} (hne : digits ≠ []) (h : ∀ c ∈ digits, isDigit c = true) (negative : Bool) :
    (renderInt (if negative then - (ofDigits 0 digits : Int) else ofDigits 0 digits)).length
      ≤ digits.length + negative.toNat := by
  have hdecimal : (decimal (ofDigits 0 digits)).length ≤ digits.length :=
    decimal_length (List.length_pos_iff.mpr hne) (ofDigits_lt h)
  unfold renderInt
  cases negative with
  | false =>
      simp only [Bool.false_eq_true, if_false, Int.natAbs_natCast]
      rw [if_neg (Int.not_lt.mpr (Int.natCast_nonneg _))]
      exact hdecimal
  | true =>
      simp only [if_true, Int.natAbs_neg, Int.natAbs_natCast, Bool.toNat_true]
      split
      · rw [List.length_cons]
        omega
      · omega

/-- A number is an integer that was read from its digits, or a float. -/
theorem matchUnsigned_ok {negative : Bool} {cs rest : Text} {v : Json} (h : matchUnsigned negative cs = .ok (v, rest)) :
    (∃ digits, matchInt cs = some (digits, rest) ∧
      v = .int (if negative then - (ofDigits 0 digits : Int) else ofDigits 0 digits)) ∨ ∃ t, v = .float t := by
  unfold matchUnsigned at h
  split at h
  · exact absurd h nofun
  next digits ds hmatch =>
    dsimp only at h
    split at h
    · obtain ⟨rfl, rfl⟩ := Prod.mk.inj (Except.ok.inj h)
      exact Or.inl ⟨digits, hmatch, rfl⟩
    · exact Or.inr ⟨_, (Prod.mk.inj (Except.ok.inj h)).1.symm⟩

theorem matchUnsigned_length {negative : Bool} {cs rest : Text} {v : Json} (hv : AllAscii v)
    (h : matchUnsigned negative cs = .ok (v, rest)) :
    (render v).length + rest.length ≤ cs.length + negative.toNat := by
  rcases matchUnsigned_ok h with ⟨digits, hmatch, rfl⟩ | ⟨t, rfl⟩
  · obtain ⟨hlength, hne, hdigits⟩ := matchInt_length hmatch
    have hle := renderInt_length hne hdigits negative
    show (renderInt _).length + rest.length ≤ _
    omega
  · exact absurd hv id

theorem matchNumber_length {cs rest : Text} {v : Json} (hv : AllAscii v) (h : matchNumber cs = .ok (v, rest)) :
    (render v).length + rest.length ≤ cs.length := by
  unfold matchNumber at h
  split at h
  · cases h
  · split at h
    · exact matchUnsigned_length hv h
    · exact matchUnsigned_length hv h

/-! ## Documents -/

theorem render_arr_length (x : Json) (xs : List Json) :
    (render (.arr (x :: xs))).length = (render x).length + (renderItems xs).length + 1 := by
  show (91 :: (render x ++ renderItems xs)).length = _
  rw [List.length_cons, List.length_append]

theorem render_obj_length (k : Text) (v : Json) (fs : List (Text × Json)) :
    (render (.obj ((k, v) :: fs))).length
      = (renderString k).length + (render v).length + (renderFields fs).length + 2 := by
  show (123 :: (renderString k ++ 58 :: (render v ++ renderFields fs))).length = _
  rw [List.length_cons, List.length_append, List.length_cons, List.length_append]
  omega

/-- The rest of an array is no longer than the array it would be. -/
theorem renderItems_length (xs : List Json) : (renderItems xs).length ≤ (render (.arr xs)).length := by
  cases xs with
  | nil => exact Nat.le_succ 1
  | cons x xs => exact Nat.le_refl _

theorem renderFields_length (fs : List (Text × Json)) : (renderFields fs).length ≤ (render (.obj fs)).length := by
  cases fs with
  | nil => exact Nat.le_succ 1
  | cons f fs => exact Nat.le_refl _

theorem renderString_length {s : Text} (h : ∀ c ∈ s, Printable c) : (renderString s).length = s.length + 2 := by
  rw [renderString, renderChars_printable h, List.length_cons, List.length_append]
  rfl

/-- What is read at one depth is written again in no more characters. -/
structure Shrinks (fuel : Nat) : Prop where
  value : ∀ {cs rest : Text} {v : Json}, AllAscii v → parseValue fuel cs = .ok (v, rest) →
    (render v).length + rest.length ≤ cs.length
  items : ∀ {cs rest : Text} {xs : List Json}, AllAsciiItems xs → parseItems fuel cs = .ok (xs, rest) →
    (render (.arr xs)).length + rest.length ≤ cs.length + 1
  fields : ∀ {cs rest : Text} {fs : List (Text × Json)}, AllAsciiFields fs → parseFields fuel cs = .ok (fs, rest) →
    (render (.obj fs)).length + rest.length ≤ cs.length + 2

theorem drop_prefix_length {t cs : Text} (h : t <+: cs) {n : Nat} (hn : t.length = n) :
    t.length + (cs.drop n).length = cs.length := by
  obtain ⟨rest, rfl⟩ := h
  subst hn
  rw [List.drop_left, List.length_append]

theorem makeObject_ok {pairs : List (Text × Json)} {v : Json} (h : makeObject pairs = .ok v) : v = .obj pairs := by
  unfold makeObject at h
  split at h
  · exact absurd h nofun
  · exact (Except.ok.inj h).symm

theorem parseValue_length {fuel : Nat} (ih : Shrinks fuel) {cs rest : Text} {v : Json} (hv : AllAscii v)
    (h : parseValue (fuel + 1) cs = .ok (v, rest)) : (render v).length + rest.length ≤ cs.length := by
  cases cs with
  | nil => cases h
  | cons c cs =>
      unfold parseValue at h
      split at h
      -- a string
      · split at h
        next s rest' hscan =>
          obtain ⟨rfl, rfl⟩ := Prod.mk.inj (Except.ok.inj h)
          have hle := scanString_length hscan
          show (renderString s).length + _ ≤ _
          rw [renderString_length hv, List.length_cons]
          omega
        · cases h
      split at h
      -- an object
      · split at h
        · cases h
        next d ds hskip =>
          have hds := skipSpace_cons_length hskip
          rw [List.length_cons]
          split at h
          · obtain ⟨rfl, rfl⟩ := Prod.mk.inj (Except.ok.inj h)
            show 2 + ds.length ≤ _
            omega
          · split at h
            · split at h
              next pairs rest' hfields =>
                cases hobject : makeObject pairs with
                | error e =>
                    rw [hobject] at h
                    cases h
                | ok w =>
                    rw [hobject] at h
                    obtain ⟨rfl, rfl⟩ := Prod.mk.inj (Except.ok.inj h)
                    obtain rfl := makeObject_ok hobject
                    have hle := ih.fields hv hfields
                    omega
              · cases h
            · cases h
      split at h
      -- an array
      · split at h
        · cases h
        next d ds hskip =>
          have hds := skipSpace_cons_length hskip
          rw [List.length_cons]
          split at h
          · obtain ⟨rfl, rfl⟩ := Prod.mk.inj (Except.ok.inj h)
            show 2 + ds.length ≤ _
            omega
          · split at h
            next items rest' hitems =>
              obtain ⟨rfl, rfl⟩ := Prod.mk.inj (Except.ok.inj h)
              have hle := ih.items hv hitems
              rw [List.length_cons] at hle
              omega
            · cases h
      -- a word, or a number
      split at h
      next hword =>
        obtain ⟨rfl, rfl⟩ := Prod.mk.inj (Except.ok.inj h)
        exact Nat.le_of_eq (drop_prefix_length hword rfl)
      split at h
      next hword =>
        obtain ⟨rfl, rfl⟩ := Prod.mk.inj (Except.ok.inj h)
        exact Nat.le_of_eq (drop_prefix_length hword rfl)
      split at h
      next hword =>
        obtain ⟨rfl, rfl⟩ := Prod.mk.inj (Except.ok.inj h)
        exact Nat.le_of_eq (drop_prefix_length hword rfl)
      · exact matchNumber_length hv h

theorem parseItems_length {fuel : Nat} (ih : Shrinks fuel) {cs rest : Text} {xs : List Json} (hxs : AllAsciiItems xs)
    (h : parseItems (fuel + 1) cs = .ok (xs, rest)) : (render (.arr xs)).length + rest.length ≤ cs.length + 1 := by
  unfold parseItems at h
  split at h
  · cases h
  next x rest' hvalue =>
    split at h
    · cases h
    next d ds hskip =>
      have hds := skipSpace_cons_length hskip
      split at h
      · obtain ⟨rfl, rfl⟩ := Prod.mk.inj (Except.ok.inj h)
        have hx := ih.value hxs.1 hvalue
        rw [render_arr_length]
        show (render x).length + 1 + 1 + ds.length ≤ _
        omega
      · split at h
        · split at h
          · cases h
          next xs' rest'' hrest =>
            obtain ⟨rfl, rfl⟩ := Prod.mk.inj (Except.ok.inj h)
            have hx := ih.value hxs.1 hvalue
            have hle := ih.items hxs.2 hrest
            have hspace := skipSpace_length ds
            have hshort := renderItems_length xs'
            rw [render_arr_length]
            omega
        · cases h

theorem parseFields_length {fuel : Nat} (ih : Shrinks fuel) {cs rest : Text} {fs : List (Text × Json)}
    (hfs : AllAsciiFields fs) (h : parseFields (fuel + 1) cs = .ok (fs, rest)) :
    (render (.obj fs)).length + rest.length ≤ cs.length + 2 := by
  unfold parseFields at h
  split at h
  · cases h
  next k rest₁ hkey =>
    have hk := scanString_length hkey
    split at h
    · cases h
    next d ds hcolon =>
      have hds := skipSpace_cons_length hcolon
      split at h
      · split at h
        · cases h
        next v rest₂ hvalue =>
          have hspace := skipSpace_length ds
          split at h
          · cases h
          next e es hend =>
            have hes := skipSpace_cons_length hend
            split at h
            · obtain ⟨rfl, rfl⟩ := Prod.mk.inj (Except.ok.inj h)
              have hv := ih.value hfs.2.1 hvalue
              rw [render_obj_length, renderString_length hfs.1]
              show k.length + 2 + (render v).length + 1 + 2 + es.length ≤ _
              omega
            · split at h
              · split at h
                · cases h
                next f fs' hquote =>
                  have hf := skipSpace_cons_length hquote
                  split at h
                  · split at h
                    · cases h
                    next kvs rest₃ hrest =>
                      obtain ⟨rfl, rfl⟩ := Prod.mk.inj (Except.ok.inj h)
                      have hv := ih.value hfs.2.1 hvalue
                      have hle := ih.fields hfs.2.2 hrest
                      have hshort := renderFields_length kvs
                      rw [render_obj_length, renderString_length hfs.1]
                      omega
                  · cases h
              · cases h
      · cases h

theorem shrinks (fuel : Nat) : Shrinks fuel := by
  induction fuel with
  | zero => exact ⟨fun _ h => absurd h nofun, fun _ h => absurd h nofun, fun _ h => absurd h nofun⟩
  | succ fuel ih => exact ⟨parseValue_length ih, parseItems_length ih, parseFields_length ih⟩

/-- **What is written again is no longer than what was read.** -/
theorem render_le_document {cs : Text} {v : Json} (hv : AllAscii v) (h : parseDocument cs = .ok v) :
    (render v).length ≤ cs.length := by
  unfold parseDocument at h
  split at h
  · cases h
  next w rest hvalue =>
    split at h
    · obtain rfl := Except.ok.inj h
      have hle := (shrinks _).value hv hvalue
      have hspace := skipSpace_length cs
      omega
    · cases h

/-- A text is no longer than its bytes. -/
theorem decodeUnits_length {need acc low : Nat} {bs : List Nat} {cs : Text} (h : decodeUnits need acc low bs = some cs) :
    cs.length ≤ bs.length := by
  induction bs generalizing need acc low cs with
  | nil =>
      cases need with
      | zero =>
          obtain rfl := Option.some.inj h
          exact Nat.le_refl _
      | succ need => exact absurd h nofun
  | cons b bs ih =>
      -- a character is added with the last of its bytes
      have hlast : ∀ {c : Nat}, (decodeUnits 0 0 0 bs).map (c :: ·) = some cs → cs.length ≤ (b :: bs).length := by
        intro c hc
        obtain ⟨ds, hds, rfl⟩ := Option.map_eq_some_iff.mp hc
        exact Nat.succ_le_succ (ih hds)
      have hmore : ∀ {need acc low : Nat}, decodeUnits need acc low bs = some cs → cs.length ≤ (b :: bs).length :=
        fun hds => Nat.le_succ_of_le (ih hds)
      cases need with
      | zero =>
          unfold decodeUnits at h
          split_ifs at h
          · exact hlast h
          · exact hmore h
          · exact hmore h
          · exact hmore h
      | succ need =>
          unfold decodeUnits at h
          split_ifs at h
          · exact hlast h
          · exact hmore h

theorem decodeUtf8_length {bs : List UInt8} {cs : Text} (h : decodeUtf8 bs = some cs) : cs.length ≤ bs.length := by
  have hle := decodeUnits_length h
  rwa [List.length_map] at hle

end CanonicalJson
