import VeloTransfer.JsonDictProofs

/-! # What an encoder that succeeded says of a value

    `json.dumps` followed by `encode` fails on a lone surrogate, and on an integer
    with too many digits.  So a value that was encoded is storable, and
    whether the limits of a store admit it depends on its size alone
    (`validateJson_encoded`). -/

namespace JsonLimits

open CanonicalJson JsonLine BoundedJson JsonDict

variable {n : Nat}

/-! ## Digits -/

mutual

/-- No integer has more than `n` digits. -/
def fewDigits (n : Nat) : Json → Bool
  | .int i => (decimal i.natAbs).length ≤ n
  | .arr items => fewDigitsItems n items
  | .obj fields => fewDigitsFields n fields
  | _ => true

def fewDigitsItems (n : Nat) : List Json → Bool
  | [] => true
  | x :: xs => fewDigits n x && fewDigitsItems n xs

def fewDigitsFields (n : Nat) : List (Text × Json) → Bool
  | [] => true
  | (_, v) :: fs => fewDigits n v && fewDigitsFields n fs

end

theorem fewDigitsFields_eq (fs : List (Text × Json)) :
    fewDigitsFields n fs = fs.all (fun f => fewDigits n f.2) := by
  induction fs with
  | nil => rfl
  | cons f fs ih =>
      obtain ⟨k, v⟩ := f
      show (fewDigits n v && fewDigitsFields n fs) = _
      rw [ih, List.all_cons]

mutual

theorem fewDigits_sortKeys : ∀ v : Json, fewDigits n v.sortKeys = fewDigits n v
  | .null => rfl
  | .bool _ => rfl
  | .int _ => rfl
  | .float _ => rfl
  | .str _ => rfl
  | .arr items => fewDigits_sortItems items
  | .obj fields => by
      show fewDigitsFields n (sortFields fields) = fewDigitsFields n fields
      rw [fewDigitsFields_eq, (sortFields_perm fields).all_eq, List.all_map, ← fewDigits_sorted fields]
      rfl

theorem fewDigits_sortItems : ∀ xs : List Json, fewDigitsItems n (sortItems xs) = fewDigitsItems n xs
  | [] => rfl
  | x :: xs => by
      show (fewDigits n x.sortKeys && fewDigitsItems n (sortItems xs)) = _
      rw [fewDigits_sortKeys x, fewDigits_sortItems xs]
      rfl

theorem fewDigits_sorted : ∀ fs : List (Text × Json),
    fs.all (fun f => fewDigits n f.2.sortKeys) = fewDigitsFields n fs
  | [] => rfl
  | (k, v) :: fs => by
      rw [List.all_cons, fewDigits_sorted fs, fewDigits_sortKeys v]
      rfl

end

mutual

/-- A storable value has integers of few digits. -/
theorem fewDigits_of_storable : ∀ v : Json, Storable n v → fewDigits n v = true
  | .null, _ => rfl
  | .bool _, _ => rfl
  | .int _, h => decide_eq_true h
  | .float _, _ => rfl
  | .str _, _ => rfl
  | .arr items, h => fewDigits_of_storableItems items h
  | .obj fields, h => fewDigits_of_storableFields fields h

theorem fewDigits_of_storableItems : ∀ xs : List Json, StorableItems n xs → fewDigitsItems n xs = true
  | [], _ => rfl
  | x :: xs, h => Bool.and_eq_true_iff.mpr ⟨fewDigits_of_storable x h.1, fewDigits_of_storableItems xs h.2⟩

theorem fewDigits_of_storableFields : ∀ fs : List (Text × Json), StorableFields n fs →
    fewDigitsFields n fs = true
  | [], _ => rfl
  | (_, v) :: fs, h =>
      Bool.and_eq_true_iff.mpr ⟨fewDigits_of_storable v h.1.2, fewDigits_of_storableFields fs h.2⟩

end

/-! ## Texts -/

theorem encodeUtf8_append {s t : Text} {a b : Bytes} (hs : encodeUtf8 s = some a)
    (ht : encodeUtf8 t = some b) : encodeUtf8 (s ++ t) = some (a ++ b) := by
  unfold encodeUtf8 at hs ht ⊢
  split at hs
  next hss =>
    split at ht
    next htt =>
      obtain rfl := Option.some.inj hs
      obtain rfl := Option.some.inj ht
      rw [if_pos (List.forall_mem_append.mpr ⟨hss, htt⟩), encodeUnits_append, List.map_append]
    next => exact absurd ht nofun
  next => exact absurd hs nofun

theorem scalar_of_encodeUtf8 {s : Text} {raw : Bytes} (hs : encodeUtf8 s = some raw) :
    ∀ c ∈ s, Scalar c := by
  unfold encodeUtf8 at hs
  split at hs
  next hall => exact hall
  next => exact absurd hs nofun

/-- The characters of a literal that can be encoded. -/
theorem scalar_of_renderChars {s : Text} (h : ∀ c ∈ renderChars s, Scalar c) : ∀ c ∈ s, Scalar c := by
  induction s with
  | nil => exact fun c hc => absurd hc List.not_mem_nil
  | cons d ds ih =>
      have hall : ∀ c ∈ renderChar d ++ renderChars ds, Scalar c := h
      rw [List.forall_mem_append] at hall
      intro c hc
      rcases List.mem_cons.mp hc with rfl | hc
      · -- an escaped character is below 93, any other stands for itself
        by_cases hlow : c < 93
        · exact scalar_of_lt (Nat.lt_trans hlow (by decide))
        · refine hall.1 c ?_
          have hself : renderChar c = [c] := by
            unfold renderChar
            rw [if_neg (by omega), if_neg (by omega), if_neg (by omega), if_neg (by omega),
              if_neg (by omega), if_neg (by omega), if_neg (by omega), if_neg (by omega)]
          rw [hself]
          exact List.mem_singleton_self c
      · exact ih hall.2 c hc

theorem scalar_of_renderString {s : Text} (h : ∀ c ∈ renderString s, Scalar c) :
    ∀ c ∈ s, Scalar c := by
  refine scalar_of_renderChars (fun c hc => h c ?_)
  exact List.mem_cons_of_mem _ (List.mem_append_left _ hc)

/-- The parts of an object that was encoded. -/
theorem render_obj_parts {fs : List (Text × Json)} (h : ∀ c ∈ render (.obj fs), Scalar c) :
    ∀ f ∈ fs, (∀ c ∈ renderString f.1, Scalar c) ∧ ∀ c ∈ render f.2, Scalar c := by
  have hfields : ∀ gs : List (Text × Json), (∀ c ∈ renderFields gs, Scalar c) → ∀ f ∈ gs,
      (∀ c ∈ renderString f.1, Scalar c) ∧ ∀ c ∈ render f.2, Scalar c := by
    intro gs
    induction gs with
    | nil => exact fun _ f hf => absurd hf List.not_mem_nil
    | cons g gs ih =>
        obtain ⟨k, v⟩ := g
        intro hall f hf
        have hparts : ∀ c ∈ 44 :: (renderString k ++ 58 :: (render v ++ renderFields gs)), Scalar c := hall
        simp only [List.forall_mem_cons, List.forall_mem_append] at hparts
        obtain ⟨-, hk, -, hv, hrest⟩ := hparts
        rcases List.mem_cons.mp hf with rfl | hf
        · exact ⟨hk, hv⟩
        · exact ih hrest f hf
  cases fs with
  | nil => exact fun f hf => absurd hf List.not_mem_nil
  | cons g gs =>
      obtain ⟨k, v⟩ := g
      have hparts : ∀ c ∈ 123 :: (renderString k ++ 58 :: (render v ++ renderFields gs)), Scalar c := h
      simp only [List.forall_mem_cons, List.forall_mem_append] at hparts
      obtain ⟨-, hk, -, hv, hrest⟩ := hparts
      intro f hf
      rcases List.mem_cons.mp hf with rfl | hf
      · exact ⟨hk, hv⟩
      · exact hfields gs hrest f hf

/-- The items of an array that was encoded. -/
theorem render_arr_parts {xs : List Json} (h : ∀ c ∈ render (.arr xs), Scalar c) :
    ∀ x ∈ xs, ∀ c ∈ render x, Scalar c := by
  have hitems : ∀ ys : List Json, (∀ c ∈ renderItems ys, Scalar c) →
      ∀ x ∈ ys, ∀ c ∈ render x, Scalar c := by
    intro ys
    induction ys with
    | nil => exact fun _ x hx => absurd hx List.not_mem_nil
    | cons y ys ih =>
        intro hall x hx
        have hparts : ∀ c ∈ 44 :: (render y ++ renderItems ys), Scalar c := hall
        simp only [List.forall_mem_cons, List.forall_mem_append] at hparts
        obtain ⟨-, hy, hrest⟩ := hparts
        rcases List.mem_cons.mp hx with rfl | hx
        · exact hy
        · exact ih hrest x hx
  cases xs with
  | nil => exact fun x hx => absurd hx List.not_mem_nil
  | cons y ys =>
      have hparts : ∀ c ∈ 91 :: (render y ++ renderItems ys), Scalar c := h
      simp only [List.forall_mem_cons, List.forall_mem_append] at hparts
      obtain ⟨-, hy, hrest⟩ := hparts
      intro x hx
      rcases List.mem_cons.mp hx with rfl | hx
      · exact hy
      · exact hitems ys hrest x hx

/-! ## Values -/

theorem valueItems_iff (xs : List Json) : ValueItems xs ↔ ∀ x ∈ xs, Value x := by
  induction xs with
  | nil => exact ⟨fun _ x hx => absurd hx List.not_mem_nil, fun _ => trivial⟩
  | cons x xs ih =>
      show Value x ∧ ValueItems xs ↔ _
      rw [ih, List.forall_mem_cons]

theorem storableItems_iff (xs : List Json) : StorableItems n xs ↔ ∀ x ∈ xs, Storable n x := by
  induction xs with
  | nil => exact ⟨fun _ x hx => absurd hx List.not_mem_nil, fun _ => trivial⟩
  | cons x xs ih =>
      show Storable n x ∧ StorableItems n xs ↔ _
      rw [ih, List.forall_mem_cons]

mutual

/-- **A plain value that was encoded** can be held and stored. -/
theorem sound_of_render : ∀ v : Json, v.Plain → fewDigits n v = true → (∀ c ∈ render v, Scalar c) →
    Value v ∧ Storable n v
  | .null, _, _, _ => ⟨trivial, trivial⟩
  | .bool _, _, _, _ => ⟨trivial, trivial⟩
  | .int i, _, hd, _ =>
      have hshort : (decimal i.natAbs).length ≤ n := of_decide_eq_true hd
      ⟨trivial, hshort⟩
  | .float _, hp, _, _ => ⟨hp, trivial⟩
  | .str _, _, _, h =>
      have hs := scalar_of_renderString h
      ⟨fun c hc => (hs c hc).1, fun c hc => (hs c hc).2⟩
  | .arr items, hp, hd, h => sound_of_items items hp hd (render_arr_parts h)
  | .obj fields, hp, hd, h =>
      have hfields := sound_of_fields fields hp.2 hd (render_obj_parts h)
      ⟨⟨hp.1, hfields.1⟩, hfields.2⟩

theorem sound_of_items : ∀ xs : List Json, PlainItems xs → fewDigitsItems n xs = true →
    (∀ x ∈ xs, ∀ c ∈ render x, Scalar c) → ValueItems xs ∧ StorableItems n xs
  | [], _, _, _ => ⟨trivial, trivial⟩
  | x :: xs, hp, hd, h => by
      obtain ⟨hx, hxs⟩ := List.forall_mem_cons.mp h
      obtain ⟨hdx, hdxs⟩ := Bool.and_eq_true_iff.mp hd
      obtain ⟨hv, hs⟩ := sound_of_render x hp.1 hdx hx
      obtain ⟨hvs, hss⟩ := sound_of_items xs hp.2 hdxs hxs
      exact ⟨⟨hv, hvs⟩, hs, hss⟩

theorem sound_of_fields : ∀ fs : List (Text × Json), PlainFields fs → fewDigitsFields n fs = true →
    (∀ f ∈ fs, (∀ c ∈ renderString f.1, Scalar c) ∧ ∀ c ∈ render f.2, Scalar c) →
    ValueFields fs ∧ StorableFields n fs
  | [], _, _, _ => ⟨trivial, trivial⟩
  | (k, v) :: fs, hp, hd, h => by
      obtain ⟨⟨hk, hv⟩, hfs⟩ := List.forall_mem_cons.mp h
      obtain ⟨hdv, hdfs⟩ := Bool.and_eq_true_iff.mp hd
      have hks := scalar_of_renderString hk
      obtain ⟨hval, hs⟩ := sound_of_render v hp.1 hdv hv
      obtain ⟨hvals, hss⟩ := sound_of_fields fs hp.2 hdfs hfs
      exact ⟨⟨⟨fun c hc => (hks c hc).1, hval⟩, hvals⟩, ⟨fun c hc => (hks c hc).2, hs⟩, hss⟩

end

mutual

/-- A value is storable when its canonical form is. -/
theorem storable_of_sortKeys : ∀ v : Json, Storable n v.sortKeys → Storable n v
  | .null, h => h
  | .bool _, h => h
  | .int _, h => h
  | .float _, h => h
  | .str _, h => h
  | .arr items, h => storable_of_sortItems items h
  | .obj fields, h => by
      refine storable_of_sorted fields (fun f hf => ?_)
      exact (storableFields_iff (sortFields fields)).mp h (f.1, f.2.sortKeys)
        ((sortFields_perm fields).mem_iff.mpr (List.mem_map_of_mem hf))

theorem storable_of_sortItems : ∀ xs : List Json, StorableItems n (sortItems xs) → StorableItems n xs
  | [], _ => trivial
  | x :: xs, h => ⟨storable_of_sortKeys x h.1, storable_of_sortItems xs h.2⟩

theorem storable_of_sorted : ∀ fs : List (Text × Json),
    (∀ f ∈ fs, SoundText f.1 ∧ Storable n f.2.sortKeys) → StorableFields n fs
  | [], _ => trivial
  | (k, v) :: fs, h => by
      obtain ⟨⟨hk, hv⟩, hfs⟩ := List.forall_mem_cons.mp h
      exact ⟨⟨hk, storable_of_sortKeys v hv⟩, storable_of_sorted fs hfs⟩

end

mutual

/-- A plain value is one that Python can hold when its canonical form is. -/
theorem value_of_sortKeys : ∀ v : Json, v.Plain → Value v.sortKeys → Value v
  | .null, _, h => h
  | .bool _, _, h => h
  | .int _, _, h => h
  | .float _, _, h => h
  | .str _, _, h => h
  | .arr items, hp, h => value_of_sortItems items hp h
  | .obj fields, hp, h => by
      refine ⟨hp.1, value_of_sorted fields hp.2 (fun f hf => ?_)⟩
      exact (valueFields_iff (sortFields fields)).mp h.2 (f.1, f.2.sortKeys)
        ((sortFields_perm fields).mem_iff.mpr (List.mem_map_of_mem hf))

theorem value_of_sortItems : ∀ xs : List Json, PlainItems xs → ValueItems (sortItems xs) → ValueItems xs
  | [], _, _ => trivial
  | x :: xs, hp, h => ⟨value_of_sortKeys x hp.1 h.1, value_of_sortItems xs hp.2 h.2⟩

theorem value_of_sorted : ∀ fs : List (Text × Json), PlainFields fs →
    (∀ f ∈ fs, PyText f.1 ∧ Value f.2.sortKeys) → ValueFields fs
  | [], _, _ => trivial
  | (k, v) :: fs, hp, h => by
      obtain ⟨⟨hk, hv⟩, hfs⟩ := List.forall_mem_cons.mp h
      exact ⟨⟨hk, value_of_sortKeys v hp.1 hv⟩, value_of_sorted fs hp.2 hfs⟩

end

/-! ## The limits of a store -/

/-- The characters of a document that was encoded, and its length. -/
theorem render_of_dumps {v : Json} {raw : Bytes} (h : dumps v = some raw) :
    (∀ c ∈ render v.sortKeys, Scalar c) ∧ raw.length = units (render v.sortKeys) := by
  unfold dumps encodeUtf8 at h
  split at h
  next hall =>
    obtain rfl := Option.some.inj h
    exact ⟨hall, List.length_map _⟩
  next => exact absurd h nofun

/-- **A value that was encoded** can be held, and can be stored. -/
theorem sound_of_dumps {v : Json} {raw : Bytes} (hp : v.Plain) (hd : fewDigits n v = true)
    (h : dumps v = some raw) : Value v ∧ Storable n v ∧ raw.length = cost v := by
  obtain ⟨hscalar, hlength⟩ := render_of_dumps h
  obtain ⟨hv, hs⟩ := sound_of_render v.sortKeys (plain_sortKeys v hp)
    ((fewDigits_sortKeys v).trans hd) hscalar
  refine ⟨value_of_sortKeys v hp hv, storable_of_sortKeys v hs, ?_⟩
  rw [hlength, units_render _ hv, cost_sortKeys]

/-- **The limits admit a value that was encoded** exactly when its nodes, its depth and
    its bytes fit. -/
theorem validateJson_encoded {l : Limits} {v : Json} {raw : Bytes} (hp : v.Plain)
    (hd : fewDigits l.maxDigits v = true) (h : dumps v = some raw) :
    validateJson l v = none ↔ height v ≤ l.maxDepth ∧ nodes v ≤ l.maxNodes ∧ raw.length ≤ l.maxBytes := by
  obtain ⟨-, hs, hlength⟩ := sound_of_dumps hp hd h
  rw [validateJson_ok, hlength]
  exact ⟨fun h => h.2, fun h => ⟨hs, h⟩⟩

end JsonLimits
