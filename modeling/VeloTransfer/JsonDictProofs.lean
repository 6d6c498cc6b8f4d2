import Mathlib
import VeloTransfer.BoundedJsonProofs

/-! # Dictionaries — JSON objects without an order

    Python compares objects as dictionaries: the order of the fields does not
    count.  Two values are the same exactly when their canonical texts are, and
    an object whose keys are known can be read field by field.

    * `sortFields_congr` — the canonical order depends on the fields only, not
      on how they were listed;
    * `sameFields` — an object with exactly the expected keys is the object that
      lists them in the expected order. -/

namespace JsonDict

open CanonicalJson BoundedJson JsonLine

/-! ## The order of the keys -/

theorem keyLt_irrefl (s : Text) : keyLt s s = false := by
  induction s with
  | nil => rfl
  | cons c cs ih =>
      show (decide (c < c) || (c == c && keyLt cs cs)) = false
      rw [ih, Bool.and_false, Bool.or_false]
      exact decide_eq_false (Nat.lt_irrefl c)

theorem keyLt_cons {a b : Nat} {s t : Text} :
    keyLt (a :: s) (b :: t) = true ↔ a < b ∨ (a = b ∧ keyLt s t = true) := by
  show (decide (a < b) || (a == b && keyLt s t)) = true ↔ _
  rw [Bool.or_eq_true, Bool.and_eq_true, decide_eq_true_iff, beq_iff_eq]

theorem keyLt_trans {s t u : Text} (hst : keyLt s t = true) (htu : keyLt t u = true) :
    keyLt s u = true := by
  induction s generalizing t u with
  | nil =>
      cases u with
      | nil => cases t <;> exact absurd htu nofun
      | cons c cs => rfl
  | cons a s ih =>
      cases t with
      | nil => exact absurd hst nofun
      | cons b t =>
          cases u with
          | nil => exact absurd htu nofun
          | cons c u =>
              rw [keyLt_cons] at hst htu ⊢
              rcases hst with hab | ⟨rfl, hst⟩
              · rcases htu with hbc | ⟨rfl, -⟩
                · exact .inl (Nat.lt_trans hab hbc)
                · exact .inl hab
              · rcases htu with hbc | ⟨rfl, htu⟩
                · exact .inl hbc
                · exact .inr ⟨rfl, ih hst htu⟩

/-- Two different keys are in order one way or the other. -/
theorem keyLt_total {s t : Text} (hne : s ≠ t) (h : keyLt s t = false) : keyLt t s = true := by
  induction s generalizing t with
  | nil =>
      cases t with
      | nil => exact absurd rfl hne
      | cons b t => exact absurd h nofun
  | cons a s ih =>
      cases t with
      | nil => rfl
      | cons b t =>
          rw [← Bool.not_eq_true, keyLt_cons, not_or, not_and] at h
          rw [keyLt_cons]
          rcases Nat.lt_trichotomy b a with hba | rfl | hab
          · exact .inl hba
          · exact .inr ⟨rfl, ih (fun heq => hne (by rw [heq])) (Bool.not_eq_true _ ▸ h.2 rfl)⟩
          · exact absurd hab h.1

/-- The fields are in key order, and no key stands twice. -/
def InOrder (fs : List (Text × Json)) : Prop :=
  fs.Pairwise (fun f g => keyLt f.1 g.1 = true)

theorem insertField_inOrder {f : Text × Json} {fs : List (Text × Json)} (h : InOrder fs)
    (hne : ∀ g ∈ fs, g.1 ≠ f.1) : InOrder (insertField f fs) := by
  induction fs with
  | nil => exact List.pairwise_singleton _ _
  | cons g gs ih =>
      obtain ⟨hg, hgs⟩ := List.pairwise_cons.mp h
      unfold insertField
      by_cases hlt : keyLt g.1 f.1 = true
      · rw [if_pos hlt]
        refine List.pairwise_cons.mpr
          ⟨fun x hx => ?_, ih hgs (fun x hx => hne x (List.mem_cons_of_mem _ hx))⟩
        rcases List.mem_cons.mp ((insertField_perm f gs).mem_iff.mp hx) with rfl | hx
        · exact hlt
        · exact hg x hx
      · rw [if_neg hlt]
        have hfg := keyLt_total (hne g List.mem_cons_self) (Bool.not_eq_true _ ▸ hlt)
        refine List.pairwise_cons.mpr ⟨fun x hx => ?_, h⟩
        rcases List.mem_cons.mp hx with rfl | hx
        · exact hfg
        · exact keyLt_trans hfg (hg x hx)

theorem sortFields_inOrder {fs : List (Text × Json)} (h : hasDuplicate fs = false) :
    InOrder (sortFields fs) := by
  induction fs with
  | nil => exact List.Pairwise.nil
  | cons f fs ih =>
      obtain ⟨k, v⟩ := f
      rw [hasDuplicate_false, List.map_cons, List.nodup_cons, ← hasDuplicate_false] at h
      refine insertField_inOrder (ih h.2) (fun g hg heq => h.1 ?_)
      obtain ⟨g', hg', rfl⟩ := mem_sortFields hg
      exact List.mem_map.mpr ⟨g', hg', heq⟩

theorem inOrder_unique {fs gs : List (Text × Json)} (hf : InOrder fs) (hg : InOrder gs)
    (hp : fs.Perm gs) : fs = gs := by
  refine hp.eq_of_pairwise (fun f g _ _ hfg hgf => ?_) hf hg
  have hloop := keyLt_trans hfg hgf
  rw [keyLt_irrefl] at hloop
  exact absurd hloop nofun

/-- **The canonical order depends on the fields only**: on which keys there are,
    and on the canonical value of each. -/
theorem sortFields_congr {fs gs : List (Text × Json)} (hf : hasDuplicate fs = false)
    (hp : (fs.map (fun f => (f.1, f.2.sortKeys))).Perm (gs.map (fun g => (g.1, g.2.sortKeys)))) :
    sortFields fs = sortFields gs := by
  refine inOrder_unique (sortFields_inOrder hf) (sortFields_inOrder ?_)
    ((sortFields_perm fs).trans (hp.trans (sortFields_perm gs).symm))
  rw [hasDuplicate_false] at hf ⊢
  have hkeys := hp.map Prod.fst
  rw [List.map_map, List.map_map] at hkeys
  exact hkeys.nodup_iff.mp hf

/-- Fields in order stay where they are. -/
theorem insertField_first {f : Text × Json} {fs : List (Text × Json)}
    (h : ∀ g ∈ fs, keyLt f.1 g.1 = true) : insertField f fs = f :: fs := by
  cases fs with
  | nil => rfl
  | cons g gs =>
      refine if_neg (fun hgf => ?_)
      have hloop := keyLt_trans (h g List.mem_cons_self) hgf
      rw [keyLt_irrefl] at hloop
      exact absurd hloop nofun

theorem sortFields_of_inOrder {fs : List (Text × Json)} (h : InOrder fs) :
    sortFields fs = fs.map (fun f => (f.1, f.2.sortKeys)) := by
  induction fs with
  | nil => rfl
  | cons f fs ih =>
      obtain ⟨k, v⟩ := f
      obtain ⟨hf, hfs⟩ := List.pairwise_cons.mp h
      show insertField (k, v.sortKeys) (sortFields fs) = _
      rw [ih hfs, insertField_first]
      · rfl
      · intro g hg
        obtain ⟨g', hg', rfl⟩ := List.mem_map.mp hg
        exact hf g' hg'

mutual

/-- A canonical value is its own canonical form. -/
theorem sortKeys_idem : ∀ v : Json, Value v → v.sortKeys.sortKeys = v.sortKeys
  | .null, _ => rfl
  | .bool _, _ => rfl
  | .int _, _ => rfl
  | .float _, _ => rfl
  | .str _, _ => rfl
  | .arr items, h => congrArg Json.arr (sortItems_idem items h)
  | .obj fields, h => by
      refine congrArg Json.obj ((sortFields_of_inOrder (sortFields_inOrder h.1)).trans ?_)
      refine (List.map_congr_left (fun f hf => ?_)).trans (List.map_id _)
      obtain ⟨g, hg, rfl⟩ := mem_sortFields hf
      exact congrArg (Prod.mk g.1) (sorted_idem fields h.2 g hg)

theorem sortItems_idem : ∀ xs : List Json, ValueItems xs → sortItems (sortItems xs) = sortItems xs
  | [], _ => rfl
  | x :: xs, h => congrArg₂ List.cons (sortKeys_idem x h.1) (sortItems_idem xs h.2)

theorem sorted_idem : ∀ fs : List (Text × Json), ValueFields fs →
    ∀ f ∈ fs, f.2.sortKeys.sortKeys = f.2.sortKeys
  | [], _, f, hf => absurd hf List.not_mem_nil
  | (k, v) :: fs, h, f, hf => by
      rcases List.mem_cons.mp hf with rfl | hf
      · exact sortKeys_idem v h.1.2
      · exact sorted_idem fs h.2 f hf

end

/-! ## Canonical documents are distinct -/

theorem plainFields_iff (fs : List (Text × Json)) : PlainFields fs ↔ ∀ f ∈ fs, f.2.Plain := by
  induction fs with
  | nil => exact ⟨fun _ f hf => absurd hf List.not_mem_nil, fun _ => trivial⟩
  | cons f fs ih =>
      obtain ⟨k, v⟩ := f
      show v.Plain ∧ PlainFields fs ↔ _
      rw [ih, List.forall_mem_cons]

mutual

theorem plain_sortKeys : ∀ v : Json, v.Plain → v.sortKeys.Plain
  | .null, h => h
  | .bool _, h => h
  | .int _, h => h
  | .float _, h => h
  | .str _, h => h
  | .arr items, h => plain_sortItems items h
  | .obj fields, h => by
      refine ⟨hasDuplicate_sortFields h.1, (plainFields_iff _).mpr (fun f hf => ?_)⟩
      obtain ⟨g, hg, rfl⟩ := mem_sortFields hf
      exact plain_sorted fields h.2 g hg

theorem plain_sortItems : ∀ xs : List Json, PlainItems xs → PlainItems (sortItems xs)
  | [], _ => trivial
  | x :: xs, h => ⟨plain_sortKeys x h.1, plain_sortItems xs h.2⟩

theorem plain_sorted : ∀ fs : List (Text × Json), PlainFields fs → ∀ f ∈ fs, f.2.sortKeys.Plain
  | [], _, f, hf => absurd hf List.not_mem_nil
  | (k, v) :: fs, h, f, hf => by
      rcases List.mem_cons.mp hf with rfl | hf
      · exact plain_sortKeys v h.1
      · exact plain_sorted fs h.2 f hf

end

theorem render_injective {v w : Json} (hv : v.Plain) (hw : w.Plain) (h : render v = render w) :
    v = w := by
  have hempty : ∀ c ∈ ([] : Text), isSpace c = true := fun c hc => absurd hc List.not_mem_nil
  have hread := parseDocument_render v hv hempty
  rw [h, parseDocument_render w hw hempty] at hread
  exact (Except.ok.inj hread).symm

theorem encodeUtf8_injective {s t : Text} {raw : Bytes} (hs : encodeUtf8 s = some raw)
    (ht : encodeUtf8 t = some raw) : s = t :=
  Option.some.inj ((decodeUtf8_encodeUtf8 hs).symm.trans (decodeUtf8_encodeUtf8 ht))

/-- **Two values with one canonical document are one dictionary.** -/
theorem dumps_injective {v w : Json} (hv : v.Plain) (hw : w.Plain) {raw : Bytes}
    (h : dumps v = some raw) (h' : dumps w = some raw) : v.sortKeys = w.sortKeys :=
  render_injective (plain_sortKeys v hv) (plain_sortKeys w hw) (encodeUtf8_injective h h')

/-! ## What can be encoded -/

/-- The document of a value has no lone surrogate. -/
def Encodable (v : Json) : Prop := ∀ c ∈ render v.sortKeys, Scalar c

theorem encodable_iff {v : Json} : Encodable v ↔ ∃ raw, dumps v = some raw := by
  unfold Encodable dumps encodeUtf8
  constructor
  · intro h
    exact ⟨_, if_pos h⟩
  · rintro ⟨raw, h⟩
    split at h
    next hall => exact hall
    next => exact absurd h nofun

def EncodableFields : List (Text × Json) → Prop
  | [] => True
  | f :: fs => Encodable f.2 ∧ EncodableFields fs

theorem encodableFields_iff (fs : List (Text × Json)) :
    EncodableFields fs ↔ ∀ f ∈ fs, Encodable f.2 := by
  induction fs with
  | nil => exact ⟨fun _ f hf => absurd hf List.not_mem_nil, fun _ => trivial⟩
  | cons f fs ih =>
      show Encodable f.2 ∧ EncodableFields fs ↔ _
      rw [ih, List.forall_mem_cons]

/-- Characters that stand for themselves in ASCII. -/
def isPlainText (s : Text) : Bool := s.all (fun c => c < 127)

theorem scalar_of_lt {c : Nat} (h : c < 127) : Scalar c := by
  refine ⟨by omega, ?_⟩
  unfold isSurrogate
  rw [Bool.and_eq_false_iff, decide_eq_false_iff_not]
  exact .inl (by omega)

theorem encodable_string {s : Text} (h : isPlainText s = true) : ∀ c ∈ renderString s, Scalar c := by
  rw [isPlainText, List.all_eq_true] at h
  have hlt : ∀ c ∈ s, c < 127 := fun c hc => of_decide_eq_true (h c hc)
  have hwritten := written_renderString (s := s) (fun c hc => (scalar_of_lt (hlt c hc)).1)
    (fun c hc => (scalar_of_lt (hlt c hc)).2)
  exact fun c hc => (hwritten c hc).2

theorem encodable_str {s : Text} (h : isPlainText s = true) : Encodable (.str s) :=
  encodable_string h

theorem encodable_int (i : Int) : Encodable (.int i) :=
  fun c hc => scalar_of_lt (visible_renderInt i c hc).2

theorem encodable_bool (b : Bool) : Encodable (.bool b) := by
  intro c hc
  have hall : ∀ c ∈ render (.bool b), c < 127 := by cases b <;> decide
  exact scalar_of_lt (hall c hc)

theorem encodable_null : Encodable .null := by
  intro c hc
  have hall : ∀ c ∈ render .null, c < 127 := by decide
  exact scalar_of_lt (hall c hc)

theorem scalar_renderFields {fs : List (Text × Json)}
    (h : ∀ f ∈ fs, (∀ c ∈ renderString f.1, Scalar c) ∧ ∀ c ∈ render f.2, Scalar c) :
    ∀ c ∈ renderFields fs, Scalar c := by
  induction fs with
  | nil =>
      intro c hc
      rw [show c = 125 from List.mem_singleton.mp hc]
      exact scalar_of_lt (by decide)
  | cons f fs ih =>
      obtain ⟨k, v⟩ := f
      obtain ⟨hf, hfs⟩ := List.forall_mem_cons.mp h
      intro c hc
      have hc' : c ∈ 44 :: (renderString k ++ 58 :: (render v ++ renderFields fs)) := hc
      rw [List.mem_cons, List.mem_append, List.mem_cons, List.mem_append] at hc'
      rcases hc' with rfl | hc' | rfl | hc' | hc'
      · exact scalar_of_lt (by decide)
      · exact hf.1 c hc'
      · exact scalar_of_lt (by decide)
      · exact hf.2 c hc'
      · exact ih hfs c hc'

theorem encodable_obj {fs : List (Text × Json)}
    (hkeys : (fs.map Prod.fst).all isPlainText = true) (h : EncodableFields fs) :
    Encodable (.obj fs) := by
  rw [encodableFields_iff] at h
  rw [List.all_eq_true] at hkeys
  have hfields : ∀ f ∈ sortFields fs, (∀ c ∈ renderString f.1, Scalar c) ∧
      ∀ c ∈ render f.2, Scalar c := by
    intro f hf
    obtain ⟨g, hg, rfl⟩ := mem_sortFields hf
    exact ⟨encodable_string (hkeys g.1 (List.mem_map_of_mem hg)), h g hg⟩
  unfold Encodable
  show ∀ c ∈ render (.obj (sortFields fs)), Scalar c
  cases hsort : sortFields fs with
  | nil =>
      have hall : ∀ c ∈ render (.obj []), c < 127 := by decide
      exact fun c hc => scalar_of_lt (hall c hc)
  | cons f gs =>
      obtain ⟨k, v⟩ := f
      rw [hsort] at hfields
      intro c hc
      -- the fields are written as `renderFields` writes them, behind another bracket
      have hc' : c ∈ 123 :: (renderString k ++ 58 :: (render v ++ renderFields gs)) := hc
      rcases List.mem_cons.mp hc' with rfl | hc'
      · exact scalar_of_lt (by decide)
      · exact scalar_renderFields hfields c (List.mem_cons_of_mem _ hc')

/-- A field of what can be encoded can be encoded. -/
theorem Encodable.field {fs : List (Text × Json)} (h : Encodable (.obj fs)) {f : Text × Json}
    (hf : f ∈ fs) : Encodable f.2 := by
  obtain ⟨raw, hraw⟩ := encodable_iff.mp h
  exact encodable_iff.mpr (dumps_field hraw hf)

/-! ## Reading an object by its keys -/

/-- Two values are equal as Python compares them when these are. -/
def canonical (v : Json) : Text := render v.sortKeys

/-- `value[key]`; an absent key is not read. -/
def field (fs : List (Text × Json)) (key : String) : Json := (fs.lookup (ascii key)).getD .null

/-- `set(value) == set(keys)` for a dictionary, in which no key stands twice. -/
def hasKeys (fs : List (Text × Json)) (keys : List String) : Bool :=
  !hasDuplicate fs && fs.length == keys.length &&
    keys.all (fun key => (fs.lookup (ascii key)).isSome)

/-- `_object`: the fields of a dictionary with exactly these keys. -/
def object (keys : List String) (code : String) : Json → Except String (List (Text × Json))
  | .obj fs => if hasKeys fs keys then .ok fs else .error code
  | _ => .error code

theorem object_ok {keys : List String} {code : String} {v : Json} {fs : List (Text × Json)}
    (h : object keys code v = .ok fs) : v = .obj fs ∧ hasKeys fs keys = true := by
  unfold object at h
  split at h
  · split at h
    next hkeys =>
      obtain rfl := Except.ok.inj h
      exact ⟨rfl, hkeys⟩
    · exact absurd h nofun
  · exact absurd h nofun

theorem object_of {keys : List String} {fs : List (Text × Json)} (h : hasKeys fs keys = true)
    (code : String) : object keys code (.obj fs) = .ok fs := if_pos h

theorem lookup_mem {fs : List (Text × Json)} {k : Text} {v : Json} (h : fs.lookup k = some v) :
    (k, v) ∈ fs := by
  induction fs with
  | nil => exact absurd h nofun
  | cons f fs ih =>
      obtain ⟨k', v'⟩ := f
      rw [List.lookup_cons] at h
      split at h
      next heq =>
        rw [beq_iff_eq.mp heq, Option.some.inj h]
        exact List.mem_cons_self
      · exact List.mem_cons_of_mem _ (ih h)

theorem lookup_of_mem {fs : List (Text × Json)} (h : hasDuplicate fs = false) {k : Text} {v : Json}
    (hm : (k, v) ∈ fs) : fs.lookup k = some v := by
  induction fs with
  | nil => exact absurd hm List.not_mem_nil
  | cons f fs ih =>
      obtain ⟨k', v'⟩ := f
      rw [hasDuplicate_false, List.map_cons, List.nodup_cons, ← hasDuplicate_false] at h
      rw [List.lookup_cons]
      rcases List.mem_cons.mp hm with heq | hm
      · obtain ⟨rfl, rfl⟩ := Prod.mk.inj heq
        rw [beq_self_eq_true]
      · have hne : (k == k') = false := by
          refine beq_false_of_ne (fun heq => h.1 (List.mem_map.mpr ⟨(k, v), hm, heq⟩))
        rw [hne]
        exact ih h.2 hm

/-- A key of the canonical form has the canonical form of its value. -/
theorem lookup_sortFields {fs : List (Text × Json)} (h : hasDuplicate fs = false) (k : Text) :
    (sortFields fs).lookup k = (fs.lookup k).map Json.sortKeys := by
  have hsorted := hasDuplicate_sortFields h
  cases hv : fs.lookup k with
  | some v =>
      refine lookup_of_mem hsorted ?_
      exact (sortFields_perm fs).mem_iff.mpr (List.mem_map_of_mem (lookup_mem hv))
  | none =>
      cases hs : (sortFields fs).lookup k with
      | none => rfl
      | some w =>
          obtain ⟨g, hg, heq⟩ := mem_sortFields (lookup_mem hs)
          obtain ⟨rfl, -⟩ := Prod.mk.inj heq
          have hmem : (g.1, g.2) ∈ fs := hg
          rw [lookup_of_mem h hmem] at hv
          exact absurd hv nofun

theorem nodup_of_hasKeys {fs : List (Text × Json)} {keys : List String} (h : hasKeys fs keys = true) :
    hasDuplicate fs = false := by
  unfold hasKeys at h
  simp only [Bool.and_eq_true, Bool.not_eq_true'] at h
  exact h.1.1

/-! The keys and the fields of a dictionary in key order. -/

theorem hasKeys_sortFields {fs : List (Text × Json)} (h : hasDuplicate fs = false)
    (keys : List String) : hasKeys (sortFields fs) keys = hasKeys fs keys := by
  unfold hasKeys
  rw [h, hasDuplicate_sortFields h, (sortFields_perm fs).length_eq, List.length_map]
  refine congrArg _ (congrArg (List.all keys) (funext (fun key => ?_)))
  rw [lookup_sortFields h, Option.isSome_map]

theorem object_sortKeys {fs : List (Text × Json)} {keys : List String} (code : String)
    (h : hasKeys fs keys = true) : object keys code (Json.obj fs).sortKeys = .ok (sortFields fs) :=
  object_of ((hasKeys_sortFields (nodup_of_hasKeys h) keys).trans h) code

theorem field_sortFields {fs : List (Text × Json)} (h : hasDuplicate fs = false) (key : String) :
    field (sortFields fs) key = (field fs key).sortKeys := by
  unfold field
  rw [lookup_sortFields h]
  cases fs.lookup (ascii key) with
  | none => rfl
  | some v => rfl

theorem field_sorted {fs : List (Text × Json)} {keys : List String} (h : hasKeys fs keys = true)
    {key : String} {v : Json} (hv : fs.lookup (ascii key) = some v) :
    field (sortFields fs) key = v.sortKeys := by
  rw [field_sortFields (nodup_of_hasKeys h), field, hv]
  rfl

/-- `value.get(key)`; a value that is no dictionary has no keys. -/
def get (v : Json) (key : String) : Option Json :=
  match v with
  | .obj fs => fs.lookup (ascii key)
  | _ => none

theorem get_sortKeys {v : Json} (hv : Value v) (key : String) :
    get v.sortKeys key = (get v key).map Json.sortKeys := by
  cases v with
  | obj fs => exact lookup_sortFields hv.1 (ascii key)
  | _ => rfl

/-- The fields of an object with the expected keys. -/
theorem fields_perm {fs : List (Text × Json)} {keys : List String} (h : hasKeys fs keys = true)
    (hnodup : (keys.map ascii).Nodup) :
    hasDuplicate fs = false ∧ (keys.map (fun key => (ascii key, field fs key))).Perm fs := by
  unfold hasKeys at h
  rw [Bool.and_eq_true, Bool.and_eq_true, Bool.not_eq_true', beq_iff_eq, List.all_eq_true] at h
  obtain ⟨⟨hdup, hlen⟩, hall⟩ := h
  have hsub : keys.map (fun key => (ascii key, field fs key)) ⊆ fs := by
    intro f hf
    obtain ⟨key, hkey, rfl⟩ := List.mem_map.mp hf
    obtain ⟨v, hv⟩ := Option.isSome_iff_exists.mp (hall key hkey)
    unfold field
    rw [hv]
    exact lookup_mem hv
  have hnodup' : (keys.map (fun key => (ascii key, field fs key))).Nodup := by
    refine List.Nodup.of_map Prod.fst ?_
    rw [List.map_map]
    exact hnodup
  exact ⟨hdup, (hnodup'.subperm hsub).perm_of_length_le (by rw [List.length_map, hlen])⟩

/-- **An object with the expected keys** is the object that lists them in order. -/
theorem sameFields {fs : List (Text × Json)} {keys : List String} (h : hasKeys fs keys = true)
    (hnodup : (keys.map ascii).Nodup) :
    (Json.obj fs).sortKeys = (Json.obj (keys.map (fun key => (ascii key, field fs key)))).sortKeys := by
  obtain ⟨hdup, hperm⟩ := fields_perm h hnodup
  exact congrArg Json.obj (sortFields_congr hdup (hperm.symm.map _))

end JsonDict
