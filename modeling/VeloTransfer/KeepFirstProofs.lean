import Mathlib

/-! # A dictionary that keeps the first value of a key

    Items come one after the other; the first value of a key is kept, and a later one
    has to be the same.  What is said of the dictionary is said of the items:

    * `keep_iff` — an item is taken exactly when it agrees with the items before it;
    * `Holds.step` — the dictionary behind it holds the first value of each key;
    * `firsts_perm`, `lookup_same` — the keys and the values depend on which items there
      are, not on how often or in which order. -/

namespace KeepFirst

variable {α β ε : Type} [DecidableEq α] {same : β → β → Bool} {e : ε}

/-- The keys, in the order in which they first stand. -/
def firsts (keys : List α) : List α := keys.reverse.dedup.reverse

/-- `dict.get`. -/
abbrev get (d : List (α × β)) (k : α) : Option β := d.lookup k

/-- The value of a key that is new is kept; that of a known one must be the same. -/
def keep (same : β → β → Bool) (e : ε) (d : List (α × β)) (k : α) (v : β) : Except ε (List (α × β)) :=
  match get d k with
  | none => .ok (d ++ [(k, v)])
  | some previous => if same previous v then .ok d else .error e

/-- `dict.pop`: the dictionary without the key. -/
def pop (d : List (α × β)) (k : α) : List (α × β) := d.filter fun f => f.1 ≠ k

/-- The dictionary holds the first value of each key. -/
structure Holds (d items : List (α × β)) : Prop where
  lookup : ∀ k, get d k = get items k
  keys : d.map Prod.fst = firsts (items.map Prod.fst)

/-- The values of one key are the same. -/
def Agree (same : β → β → Bool) (items : List (α × β)) : Prop :=
  ∀ a ∈ items, ∀ b ∈ items, a.1 = b.1 → same a.2 b.2 = true

/-- The same items, in any order and any number. -/
def SameMembers {γ : Type} (xs ys : List γ) : Prop := ∀ x, x ∈ xs ↔ x ∈ ys

/-! ## The keys -/

section Keys

variable {keys keys' : List α} {k : α}

theorem mem_firsts : k ∈ firsts keys ↔ k ∈ keys := by
  rw [firsts, List.mem_reverse, List.mem_dedup, List.mem_reverse]

theorem firsts_nodup (keys : List α) : (firsts keys).Nodup := List.nodup_reverse.mpr (List.nodup_dedup _)

theorem firsts_old (h : k ∈ keys) : firsts (keys ++ [k]) = firsts keys := by
  rw [firsts, List.reverse_concat, List.dedup_cons_of_mem (List.mem_reverse.mpr h)]
  rfl

theorem firsts_new (h : k ∉ keys) : firsts (keys ++ [k]) = firsts keys ++ [k] := by
  rw [firsts, List.reverse_concat, List.dedup_cons_of_notMem fun hk => h (List.mem_reverse.mp hk),
    List.reverse_cons]
  rfl

/-- **Which keys there are** does not depend on the order. -/
theorem firsts_perm (h : SameMembers keys keys') : (firsts keys).Perm (firsts keys') :=
  (List.perm_ext_iff_of_nodup (firsts_nodup _) (firsts_nodup _)).mpr fun k => by
    rw [mem_firsts, mem_firsts]
    exact h k

end Keys

/-! ## The values -/

section Lookup

variable {items items' d : List (α × β)} {k : α} {v : β}

theorem lookup_mem (h : get items k = some v) : (k, v) ∈ items := by
  obtain ⟨before, behind, rfl, -⟩ := List.lookup_eq_some_iff.mp h
  exact List.mem_append_right _ List.mem_cons_self

/-- A key that stands in the items has a value there. -/
theorem exists_lookup (h : (k, v) ∈ items) : ∃ w, get items k = some w := by
  cases hlookup : get items k with
  | some w => exact ⟨w, rfl⟩
  | none =>
      have hne := List.lookup_eq_none_iff.mp hlookup (k, v) h
      exact absurd (beq_self_eq_true k) (by simp at hne)

theorem lookup_none (h : get items k = none) : k ∉ items.map Prod.fst := by
  intro hk
  obtain ⟨⟨k', v⟩, hmem, rfl⟩ := List.mem_map.mp hk
  obtain ⟨w, hw⟩ := exists_lookup hmem
  exact absurd (h.symm.trans hw) nofun

theorem lookup_concat (k' : α) :
    get (items ++ [(k, v)]) k' = (get items k').or (if k' = k then some v else none) := by
  unfold get
  rw [List.lookup_append, List.lookup_cons, List.lookup_nil]
  by_cases hk : k' = k
  · rw [if_pos hk, beq_iff_eq.mpr hk]
  · rw [if_neg hk, beq_eq_false_iff_ne.mpr hk]

/-- The values of agreeing items are the same, whichever come first. -/
theorem lookup_same (hagree : Agree same items) (hmembers : SameMembers items items')
    (h : get items k = some v) : ∃ w, get items' k = some w ∧ same v w = true := by
  have hv := lookup_mem h
  obtain ⟨w, hw⟩ := exists_lookup ((hmembers _).mp hv)
  exact ⟨w, hw, hagree _ hv _ ((hmembers _).mpr (lookup_mem hw)) rfl⟩

/-- Without a key the dictionary has the values of the others. -/
theorem get_pop {k' : α} (hk : k' ≠ k) : get (pop d k) k' = get d k' := by
  induction d with
  | nil => rfl
  | cons f d ih =>
      obtain ⟨j, v⟩ := f
      unfold get pop at ih ⊢
      by_cases hj : j = k
      · have hj' : (k' == j) = false := beq_eq_false_iff_ne.mpr fun h => hk (h.trans hj)
        rw [List.filter_cons_of_neg (by simp [hj]), List.lookup_cons, hj']
        exact ih
      · rw [List.filter_cons_of_pos (by simp [hj]), List.lookup_cons, List.lookup_cons]
        cases k' == j with
        | true => rfl
        | false => exact ih

theorem pop_new (h : get d k = none) : pop d k = d :=
  List.filter_eq_self.mpr fun f hf => decide_eq_true fun hk => lookup_none h (List.mem_map.mpr ⟨f, hf, hk⟩)

/-- In a dictionary no key stands twice. -/
theorem get_of_mem (hnodup : (d.map Prod.fst).Nodup) (h : (k, v) ∈ d) : get d k = some v := by
  induction d with
  | nil => exact absurd h List.not_mem_nil
  | cons f d ih =>
      obtain ⟨j, w⟩ := f
      obtain ⟨hj, hnodup⟩ := List.nodup_cons.mp hnodup
      unfold get at ih ⊢
      rw [List.lookup_cons]
      rcases List.mem_cons.mp h with heq | h
      · obtain ⟨rfl, rfl⟩ := Prod.mk.inj heq
        rw [beq_self_eq_true]
      · have hne : (k == j) = false := beq_eq_false_iff_ne.mpr fun hk =>
          hj (List.mem_map.mpr ⟨(k, v), h, hk⟩)
        rw [hne]
        exact ih hnodup h

end Lookup

/-! ## One item -/

section Step

variable {items d d' : List (α × β)} {k : α} {v : β}

theorem Holds.nil : Holds ([] : List (α × β)) [] := ⟨fun _ => rfl, rfl⟩

theorem Holds.nodup (h : Holds d items) : (d.map Prod.fst).Nodup := h.keys ▸ firsts_nodup _

/-- What the dictionary holds came as an item. -/
theorem Holds.get_mem (h : Holds d items) (hv : (k, v) ∈ d) : get items k = some v :=
  (h.lookup k).symm.trans (get_of_mem h.nodup hv)

/-- What an item that is taken leaves. -/
theorem keep_eq (hd : keep same e d k v = .ok d') : d' = if (get d k).isNone then d ++ [(k, v)] else d := by
  unfold keep at hd
  cases hlookup : get d k with
  | none =>
      rw [hlookup] at hd
      exact (Except.ok.inj hd).symm
  | some previous =>
      rw [hlookup] at hd
      dsimp only at hd
      by_cases hv : same previous v = true
      · rw [if_pos hv] at hd
        exact (Except.ok.inj hd).symm
      · rw [if_neg hv] at hd
        exact absurd hd nofun

/-- **An item is taken exactly when** it agrees with those before it. -/
theorem keep_iff (hsame : Equivalence fun a b => same a b = true) (h : Holds d items) (hagree : Agree same items) :
    (∃ d', keep same e d k v = .ok d') ↔ ∀ a ∈ items, a.1 = k → same a.2 v = true := by
  unfold keep
  rw [h.lookup]
  cases hlookup : get items k with
  | none =>
      refine ⟨fun _ a ha hk => ?_, fun _ => ⟨_, rfl⟩⟩
      exact absurd (List.mem_map.mpr ⟨a, ha, hk⟩) (lookup_none hlookup)
  | some previous =>
      have hprevious := lookup_mem hlookup
      dsimp only
      by_cases hv : same previous v = true
      · rw [if_pos hv]
        refine ⟨fun _ a ha hk => ?_, fun _ => ⟨_, rfl⟩⟩
        exact hsame.trans (hagree a ha _ hprevious hk) hv
      · rw [if_neg hv]
        exact ⟨fun ⟨_, hd⟩ => absurd hd nofun, fun hall => absurd (hall _ hprevious rfl) hv⟩

/-- **Behind the item** the dictionary holds the first value of each key. -/
theorem Holds.step (h : Holds d items) (hd : keep same e d k v = .ok d') : Holds d' (items ++ [(k, v)]) := by
  rw [keep_eq hd, h.lookup]
  cases hlookup : get items k with
  | none =>
      refine ⟨fun k' => ?_, ?_⟩
      · show get (d ++ [(k, v)]) k' = _
        rw [lookup_concat, lookup_concat, h.lookup]
      · show (d ++ [(k, v)]).map Prod.fst = _
        rw [List.map_append, h.keys, List.map_append]
        exact (firsts_new (lookup_none hlookup)).symm
  | some previous =>
      refine ⟨fun k' => ?_, ?_⟩
      · show get d k' = _
        rw [lookup_concat, h.lookup]
        by_cases hk : k' = k
        · rw [hk, hlookup]
          rfl
        · rw [if_neg hk, Option.or_none]
      · show d.map Prod.fst = _
        rw [List.map_append, h.keys]
        exact (firsts_old (List.mem_map_of_mem (lookup_mem hlookup))).symm

omit [DecidableEq α] in
theorem Agree.step (hsame : Equivalence fun a b => same a b = true) (hagree : Agree same items)
    (hv : ∀ a ∈ items, a.1 = k → same a.2 v = true) : Agree same (items ++ [(k, v)]) := by
  intro a ha b hb hkey
  rcases List.mem_append.mp ha with ha | ha <;> rcases List.mem_append.mp hb with hb | hb
  · exact hagree a ha b hb hkey
  · obtain rfl := List.mem_singleton.mp hb
    exact hv a ha hkey
  · obtain rfl := List.mem_singleton.mp ha
    exact hsame.symm (hv b hb hkey.symm)
  · obtain rfl := List.mem_singleton.mp ha
    obtain rfl := List.mem_singleton.mp hb
    exact hsame.refl v

end Step

end KeepFirst
