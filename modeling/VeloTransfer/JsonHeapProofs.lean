import VeloTransfer.JsonLimitsProofs
import VeloTransfer.ExceptProofs

/-! # The account of an object of the heap

    `_validate_json` is given a Python object, not a tree: containers hold
    references, a list may hold itself, and a key or a member may be of any
    type.  Here the walk goes over such a heap and is compared with the encoder:

    * `Denotes` — the JSON tree that a reference stands for, if it has one;
    * `walk_denotes` — on such a reference the walk is the walk of the tree;
    * `denotes_of_walk` — a walk that succeeds was over a tree;
    * `account_exact` — accepted is what has an encoding within the limits, of the
      bytes that were charged. -/

namespace JsonHeap

open CanonicalJson JsonLine BoundedJson JsonLimits ExceptRules

abbrev Ref := Nat

/-- An object as `type(item)` tells it apart.  A number with a fraction is its
    `repr`; a key that is not a `str` is `none`. -/
inductive Node where
  | none
  | bool (b : Bool)
  | int (i : Int)
  | float (token : Text)
  | nonFinite
  | str (s : Text)
  | list (items : List Ref)
  | dict (fields : List (Option Text × Ref))
  | other
deriving Repr, DecidableEq

/-- What the interpreter guarantees of an object: code points, the `repr` of a
    finite number, and no key twice in a dictionary. -/
def Node.Sound : Node → Prop
  | .float token => FloatToken token
  | .str s => PyText s
  | .dict fields =>
      (∀ f ∈ fields, ∀ k, f.1 = some k → PyText k) ∧ (fields.filterMap Prod.fst).Nodup
  | _ => True

/-- The objects of a process. -/
structure Heap where
  node : Ref → Node
  sound : ∀ r, (node r).Sound

/-! ## The walk -/

/-- `visit`, with `room` levels of the depth limit left.  A reference that leads
    back to itself runs out of room. -/
def Heap.walk (h : Heap) (l : Limits) : Nat → Ref → Account → Accounting
  | 0, _, _ => .error "state_budget_exceeded"
  | room + 1, r, a => do
      let a ← l.enter (l.maxDepth - room) a
      match h.node r with
      | .none => l.charge 4 a
      | .bool b => l.charge (if b then 4 else 5) a
      | .int i => l.intSize i a
      | .float token => l.charge token.length a
      | .str s => l.stringSize s a
      | .list items => do
          members (h.walk l room) items (← l.open items.length a)
      | .dict fields => do
          entries (h.walk l room) fields (← l.open fields.length a)
      | .nonFinite => .error "invalid_state"
      | .other => .error "invalid_state"
where
  /-- The loop over the members of a list. -/
  members (visit : Ref → Account → Accounting) : List Ref → Account → Accounting
    | [], a => .ok a
    | r :: rs, a => do members visit rs (← visit r a)
  /-- The loop over the items of a dictionary. -/
  entries (visit : Ref → Account → Accounting) : List (Option Text × Ref) → Account → Accounting
    | [], a => .ok a
    | (none, _) :: _, _ => .error "invalid_state"
    | (some k, r) :: fs, a => do
        entries visit fs (← visit r (← l.charge 1 (← l.stringSize k a)))

/-- The account of a whole object. -/
def Heap.account (h : Heap) (l : Limits) (r : Ref) : Accounting :=
  h.walk l (l.maxDepth + 1) r ⟨0, 0⟩

/-- `_validate_json`; the code of its error, if any. -/
def Heap.validateJson (h : Heap) (l : Limits) (r : Ref) : Option String :=
  match h.account l r with
  | .ok _ => none
  | .error code => some code

/-! ## Trees of the heap -/

mutual

/-- The JSON tree that a reference stands for. -/
inductive Denotes (h : Heap) : Ref → Json → Prop
  | none {r : Ref} : h.node r = .none → Denotes h r .null
  | bool {r : Ref} {b : Bool} : h.node r = .bool b → Denotes h r (.bool b)
  | int {r : Ref} {i : Int} : h.node r = .int i → Denotes h r (.int i)
  | float {r : Ref} {token : Text} : h.node r = .float token → Denotes h r (.float token)
  | str {r : Ref} {s : Text} : h.node r = .str s → Denotes h r (.str s)
  | list {r : Ref} {items : List Ref} {xs : List Json} :
      h.node r = .list items → DenotesItems h items xs → Denotes h r (.arr xs)
  | dict {r : Ref} {fields : List (Option Text × Ref)} {fs : List (Text × Json)} :
      h.node r = .dict fields → DenotesFields h fields fs → Denotes h r (.obj fs)

inductive DenotesItems (h : Heap) : List Ref → List Json → Prop
  | nil : DenotesItems h [] []
  | cons {r : Ref} {rs : List Ref} {x : Json} {xs : List Json} :
      Denotes h r x → DenotesItems h rs xs → DenotesItems h (r :: rs) (x :: xs)

inductive DenotesFields (h : Heap) : List (Option Text × Ref) → List (Text × Json) → Prop
  | nil : DenotesFields h [] []
  | cons {k : Text} {r : Ref} {fields : List (Option Text × Ref)} {v : Json}
      {fs : List (Text × Json)} :
      Denotes h r v → DenotesFields h fields fs →
        DenotesFields h ((some k, r) :: fields) ((k, v) :: fs)

end

variable {h : Heap}

mutual

/-- A reference stands for one tree at most. -/
theorem Denotes.unique {r : Ref} {v w : Json} (hv : Denotes h r v) (hw : Denotes h r w) :
    v = w := by
  cases hv with
  | none hr => cases hw <;> simp_all
  | bool hr => cases hw <;> simp_all
  | int hr => cases hw <;> simp_all
  | float hr => cases hw <;> simp_all
  | str hr => cases hw <;> simp_all
  | list hr hitems =>
      cases hw with
      | list hr' hitems' =>
          obtain rfl := Node.list.inj (hr.symm.trans hr')
          rw [DenotesItems.unique hitems hitems']
      | _ hr' => exact absurd (hr.symm.trans hr') nofun
  | dict hr hfields =>
      cases hw with
      | dict hr' hfields' =>
          obtain rfl := Node.dict.inj (hr.symm.trans hr')
          rw [DenotesFields.unique hfields hfields']
      | _ hr' => exact absurd (hr.symm.trans hr') nofun

theorem DenotesItems.unique {rs : List Ref} {xs ys : List Json} (hx : DenotesItems h rs xs)
    (hy : DenotesItems h rs ys) : xs = ys := by
  cases hx with
  | nil => cases hy; rfl
  | cons hv hrest =>
      cases hy with
      | cons hw hrest' => rw [Denotes.unique hv hw, DenotesItems.unique hrest hrest']

theorem DenotesFields.unique {fields : List (Option Text × Ref)} {fs gs : List (Text × Json)}
    (hf : DenotesFields h fields fs) (hg : DenotesFields h fields gs) : fs = gs := by
  cases hf with
  | nil => cases hg; rfl
  | cons hv hrest =>
      cases hg with
      | cons hw hrest' => rw [Denotes.unique hv hw, DenotesFields.unique hrest hrest']

end

theorem DenotesItems.length {rs : List Ref} {xs : List Json} (hx : DenotesItems h rs xs) :
    rs.length = xs.length := by
  induction rs generalizing xs with
  | nil => cases hx; rfl
  | cons r rs ih =>
      cases hx with
      | cons _ hrest => exact congrArg (· + 1) (ih hrest)

theorem DenotesFields.keys {fields : List (Option Text × Ref)} {fs : List (Text × Json)}
    (hf : DenotesFields h fields fs) : fields.map Prod.fst = fs.map (fun f => some f.1) := by
  induction fields generalizing fs with
  | nil => cases hf; rfl
  | cons f fields ih =>
      cases hf with
      | cons _ hrest => exact congrArg (_ :: ·) (ih hrest)

theorem DenotesFields.length {fields : List (Option Text × Ref)} {fs : List (Text × Json)}
    (hf : DenotesFields h fields fs) : fields.length = fs.length := by
  have hlen := congrArg List.length hf.keys
  rwa [List.length_map, List.length_map] at hlen

/-- The keys of a dictionary of the heap are code points, and none is there twice. -/
theorem DenotesFields.sound {fields : List (Option Text × Ref)} {fs : List (Text × Json)}
    (hf : DenotesFields h fields fs) (hsound : (Node.dict fields).Sound) :
    hasDuplicate fs = false ∧ ∀ f ∈ fs, PyText f.1 := by
  have hkeys := hf.keys
  constructor
  · rw [hasDuplicate_false]
    have hnodup : ((fields.map Prod.fst).filterMap id).Nodup := by
      rw [List.filterMap_map]
      exact hsound.2
    rw [hkeys, List.filterMap_map] at hnodup
    rwa [show (id ∘ fun f : Text × Json => some f.1) = some ∘ Prod.fst from rfl,
      List.filterMap_eq_map] at hnodup
  · intro f hmem
    have hkey : some f.1 ∈ fields.map Prod.fst := hkeys ▸ List.mem_map_of_mem hmem
    obtain ⟨g, hg, hgk⟩ := List.mem_map.mp hkey
    exact hsound.1 g hg f.1 hgk

mutual

/-- The tree of a reference is a value as Python builds it. -/
theorem Denotes.value {r : Ref} {v : Json} (hv : Denotes h r v) : Value v := by
  cases hv with
  | none hr => exact trivial
  | bool hr => exact trivial
  | int hr => exact trivial
  | float hr =>
      have hsound := h.sound r
      rwa [hr] at hsound
  | str hr =>
      have hsound := h.sound r
      rwa [hr] at hsound
  | list hr hitems => exact DenotesItems.value hitems
  | dict hr hfields =>
      have hsound := h.sound r
      rw [hr] at hsound
      obtain ⟨hnodup, hkeys⟩ := hfields.sound hsound
      exact ⟨hnodup, DenotesFields.value hfields hkeys⟩

theorem DenotesItems.value {rs : List Ref} {xs : List Json} (hx : DenotesItems h rs xs) :
    ValueItems xs := by
  cases hx with
  | nil => exact trivial
  | cons hv hrest => exact ⟨Denotes.value hv, DenotesItems.value hrest⟩

theorem DenotesFields.value {fields : List (Option Text × Ref)} {fs : List (Text × Json)}
    (hf : DenotesFields h fields fs) (hkeys : ∀ f ∈ fs, PyText f.1) : ValueFields fs := by
  cases hf with
  | nil => exact trivial
  | cons hv hrest =>
      exact ⟨⟨hkeys _ List.mem_cons_self, Denotes.value hv⟩,
        DenotesFields.value hrest (fun f hmem => hkeys f (List.mem_cons_of_mem _ hmem))⟩

end

/-! ## The walk of a tree of the heap -/

variable {l : Limits}

/-- Below the depth limit no node is entered. -/
theorem visit_deep {depth : Nat} (hdepth : l.maxDepth < depth) (v : Json) (a : Account) :
    l.visit depth v a = .error "state_budget_exceeded" := by
  have henter : l.enter depth a = .error "state_budget_exceeded" := if_pos (Or.inr hdepth)
  cases v <;> (unfold Limits.visit; rw [henter]; rfl)

mutual

/-- **On a reference that stands for a tree the walk is the walk of the tree.** -/
theorem walk_denotes {r : Ref} {v : Json} (hv : Denotes h r v) {room : Nat}
    (hroom : room ≤ l.maxDepth + 1) (a : Account) :
    h.walk l room r a = l.visit (l.maxDepth + 1 - room) v a := by
  cases room with
  | zero => exact (visit_deep (Nat.lt_succ_self _) v a).symm
  | succ room =>
      have hdepth : l.maxDepth + 1 - (room + 1) = l.maxDepth - room := by omega
      rw [hdepth]
      unfold Heap.walk
      cases hv with
      | none hr => rw [hr]; rfl
      | bool hr => rw [hr]; rfl
      | int hr => rw [hr]; rfl
      | float hr => rw [hr]; rfl
      | str hr => rw [hr]; rfl
      | list hr hitems =>
          rw [hr]
          unfold Limits.visit
          refine bind_congr (fun b => ?_)
          show (l.open _ b >>= _) = (l.open _ b >>= _)
          rw [hitems.length]
          refine bind_congr (fun c => ?_)
          rw [members_denotes hitems (by omega), show l.maxDepth + 1 - room
            = l.maxDepth - room + 1 by omega]
      | dict hr hfields =>
          rw [hr]
          unfold Limits.visit
          refine bind_congr (fun b => ?_)
          show (l.open _ b >>= _) = (l.open _ b >>= _)
          rw [hfields.length]
          refine bind_congr (fun c => ?_)
          rw [entries_denotes hfields (by omega), show l.maxDepth + 1 - room
            = l.maxDepth - room + 1 by omega]

theorem members_denotes {rs : List Ref} {xs : List Json} (hx : DenotesItems h rs xs) {room : Nat}
    (hroom : room ≤ l.maxDepth + 1) (a : Account) :
    Heap.walk.members (h.walk l room) rs a = l.visitItems (l.maxDepth + 1 - room) xs a := by
  cases hx with
  | nil => rfl
  | cons hv hrest =>
      unfold Heap.walk.members Limits.visitItems
      rw [walk_denotes hv hroom]
      exact bind_congr (fun b => members_denotes hrest hroom b)

theorem entries_denotes {fields : List (Option Text × Ref)} {fs : List (Text × Json)}
    (hf : DenotesFields h fields fs) {room : Nat} (hroom : room ≤ l.maxDepth + 1) (a : Account) :
    Heap.walk.entries l (h.walk l room) fields a
      = l.visitFields (l.maxDepth + 1 - room) fs a := by
  cases hf with
  | nil => rfl
  | cons hv hrest =>
      unfold Heap.walk.entries Limits.visitFields
      refine bind_congr (fun b => bind_congr (fun c => ?_))
      rw [walk_denotes hv hroom]
      exact bind_congr (fun d => entries_denotes hrest hroom d)

end

theorem denotesItems_of_members {visit : Ref → Account → Accounting}
    (hvisit : ∀ r a a', visit r a = .ok a' → ∃ v, Denotes h r v) {rs : List Ref} {a a' : Account}
    (hok : Heap.walk.members visit rs a = .ok a') : ∃ xs, DenotesItems h rs xs := by
  induction rs generalizing a with
  | nil => exact ⟨[], .nil⟩
  | cons r rs ih =>
      obtain ⟨b, hr, hrest⟩ := bind_ok hok
      obtain ⟨x, hx⟩ := hvisit r a b hr
      obtain ⟨xs, hxs⟩ := ih hrest
      exact ⟨x :: xs, .cons hx hxs⟩

theorem denotesFields_of_entries {visit : Ref → Account → Accounting}
    (hvisit : ∀ r a a', visit r a = .ok a' → ∃ v, Denotes h r v)
    {fields : List (Option Text × Ref)} {a a' : Account}
    (hok : Heap.walk.entries l visit fields a = .ok a') : ∃ fs, DenotesFields h fields fs := by
  induction fields generalizing a with
  | nil => exact ⟨[], .nil⟩
  | cons f fields ih =>
      obtain ⟨k, r⟩ := f
      cases k with
      | none => exact absurd hok nofun
      | some k =>
          obtain ⟨b, -, hok⟩ := bind_ok hok
          obtain ⟨c, -, hok⟩ := bind_ok hok
          obtain ⟨d, hr, hrest⟩ := bind_ok hok
          obtain ⟨v, hv⟩ := hvisit r c d hr
          obtain ⟨fs, hfs⟩ := ih hrest
          exact ⟨(k, v) :: fs, .cons hv hfs⟩

/-- **A walk that succeeds was over a tree**: nothing in it leads back, is of
    another type, or has another key than a text. -/
theorem denotes_of_walk {room : Nat} {r : Ref} {a a' : Account}
    (hok : h.walk l room r a = .ok a') : ∃ v, Denotes h r v := by
  induction room generalizing r a a' with
  | zero => exact absurd hok nofun
  | succ room ih =>
      unfold Heap.walk at hok
      obtain ⟨b, -, hok⟩ := bind_ok hok
      cases hr : h.node r with
      | none => exact ⟨_, .none hr⟩
      | bool _ => exact ⟨_, .bool hr⟩
      | int _ => exact ⟨_, .int hr⟩
      | float _ => exact ⟨_, .float hr⟩
      | str _ => exact ⟨_, .str hr⟩
      | nonFinite =>
          rw [hr] at hok
          exact absurd hok nofun
      | other =>
          rw [hr] at hok
          exact absurd hok nofun
      | list items =>
          rw [hr] at hok
          obtain ⟨c, -, hok⟩ := bind_ok hok
          obtain ⟨xs, hxs⟩ := denotesItems_of_members (fun _ _ _ => ih) hok
          exact ⟨_, .list hr hxs⟩
      | dict fields =>
          rw [hr] at hok
          obtain ⟨c, -, hok⟩ := bind_ok hok
          obtain ⟨fs, hfs⟩ := denotesFields_of_entries (fun _ _ _ => ih) hok
          exact ⟨_, .dict hr hfs⟩

/-! ## The encoder

    `json.dumps` fails on an integer that the interpreter will not write out,
    and `str.encode` on a lone surrogate. -/

/-- `canonical_json`. -/
def canonicalJson (digits : Nat) (v : Json) : Option Bytes :=
  if fewDigits digits v then dumps v else none

variable {digits : Nat}

/-- What an encoding that was made says of the value. -/
theorem storable_of_canonicalJson {v : Json} (hv : Value v) {raw : Bytes}
    (hraw : canonicalJson digits v = some raw) :
    Storable digits v ∧ raw.length = cost v ∧ dumps v = some raw := by
  unfold canonicalJson at hraw
  by_cases hd : fewDigits digits v = true
  · rw [if_pos hd] at hraw
    obtain ⟨-, hs, hlen⟩ := sound_of_dumps (plain_of_value v hv) hd hraw
    exact ⟨hs, hlen, hraw⟩
  · rw [if_neg hd] at hraw
    exact absurd hraw nofun

/-- **A value has an encoding exactly when it can be stored.** -/
theorem canonicalJson_iff {v : Json} (hv : Value v) :
    (∃ raw, canonicalJson digits v = some raw) ↔ Storable digits v := by
  constructor
  · rintro ⟨raw, hraw⟩
    exact (storable_of_canonicalJson hv hraw).1
  · intro hs
    obtain ⟨raw, hraw, -⟩ := dumps_of_storable hv hs
    exact ⟨raw, (if_pos (fewDigits_of_storable v hs)).trans hraw⟩

/-! ## Equal values -/

mutual

/-- `==` of two values: dictionaries are compared without regard to the order of
    their keys. -/
inductive Equal : Json → Json → Prop
  | null : Equal .null .null
  | bool (b : Bool) : Equal (.bool b) (.bool b)
  | int (i : Int) : Equal (.int i) (.int i)
  | float (token : Text) : Equal (.float token) (.float token)
  | str (s : Text) : Equal (.str s) (.str s)
  | arr {xs ys : List Json} : EqualItems xs ys → Equal (.arr xs) (.arr ys)
  | obj {fs gs hs : List (Text × Json)} :
      EqualFields fs gs → hs.Perm gs → Equal (.obj fs) (.obj hs)

inductive EqualItems : List Json → List Json → Prop
  | nil : EqualItems [] []
  | cons {x y : Json} {xs ys : List Json} :
      Equal x y → EqualItems xs ys → EqualItems (x :: xs) (y :: ys)

inductive EqualFields : List (Text × Json) → List (Text × Json) → Prop
  | nil : EqualFields [] []
  | cons {k : Text} {v w : Json} {fs gs : List (Text × Json)} :
      Equal v w → EqualFields fs gs → EqualFields ((k, v) :: fs) ((k, w) :: gs)

end

mutual

/-- Sorting the keys of a value gives an equal value. -/
theorem equal_sortKeys : ∀ v : Json, Equal v v.sortKeys
  | .null => .null
  | .bool b => .bool b
  | .int i => .int i
  | .float token => .float token
  | .str s => .str s
  | .arr items => .arr (equalItems_sortItems items)
  | .obj fields => .obj (equalFields_sorted fields) (sortFields_perm fields)

theorem equalItems_sortItems : ∀ xs : List Json, EqualItems xs (sortItems xs)
  | [] => .nil
  | x :: xs => .cons (equal_sortKeys x) (equalItems_sortItems xs)

theorem equalFields_sorted : ∀ fs : List (Text × Json),
    EqualFields fs (fs.map (fun f => (f.1, f.2.sortKeys)))
  | [] => .nil
  | (_, v) :: fs => .cons (equal_sortKeys v) (equalFields_sorted fs)

end

/-! ## The account is exact -/

/-- The limits of a walk, met by a tree and its encoding. -/
structure Fits (l : Limits) (v : Json) (raw : Bytes) : Prop where
  nodes : nodes v ≤ l.maxNodes
  depth : height v ≤ l.maxDepth
  bytes : raw.length ≤ l.maxBytes

theorem walk_root {r : Ref} {v : Json} (hv : Denotes h r v) :
    h.account l r = l.visit 0 v ⟨0, 0⟩ := by
  have hwalk := walk_denotes (l := l) hv (Nat.le_refl (l.maxDepth + 1)) ⟨0, 0⟩
  rwa [Nat.sub_self] at hwalk

/-- A tree is accounted for exactly when its encoding exists and fits. -/
theorem account_ok_iff {r : Ref} {v : Json} (hv : Denotes h r v) (a : Account) :
    h.account l r = .ok a ↔
      ∃ raw, canonicalJson l.maxDigits v = some raw ∧ Fits l v raw ∧
        a = ⟨raw.length, nodes v⟩ := by
  have hpays := pays_visit (l := l) 0 v ⟨0, 0⟩ a (Nat.zero_le _) (Nat.zero_le _)
  simp only [Nat.zero_add] at hpays
  rw [walk_root hv, hpays]
  constructor
  · rintro ⟨⟨hs, hdepth⟩, hbytes, hnodes, rfl⟩
    obtain ⟨raw, hraw⟩ := (canonicalJson_iff hv.value).mpr hs
    have hlen := (storable_of_canonicalJson hv.value hraw).2.1
    exact ⟨raw, hraw, ⟨hnodes, hdepth, hlen ▸ hbytes⟩, by rw [hlen]⟩
  · rintro ⟨raw, hraw, hfits, rfl⟩
    obtain ⟨hs, hlen, -⟩ := storable_of_canonicalJson hv.value hraw
    exact ⟨⟨hs, hfits.depth⟩, hlen ▸ hfits.bytes, hfits.nodes, by rw [hlen]⟩

/-- **What is accepted**: an object that is a tree and has an encoding within the
    limits; the account is then of the tree's nodes and the encoding's bytes. -/
theorem account_iff (h : Heap) (l : Limits) (r : Ref) (a : Account) :
    h.account l r = .ok a ↔
      ∃ v raw, Denotes h r v ∧ canonicalJson l.maxDigits v = some raw ∧ Fits l v raw ∧
        a = ⟨raw.length, nodes v⟩ := by
  constructor
  · intro hok
    obtain ⟨v, hv⟩ := denotes_of_walk hok
    obtain ⟨raw, hrest⟩ := (account_ok_iff hv a).mp hok
    exact ⟨v, raw, hv, hrest⟩
  · rintro ⟨v, raw, hv, hrest⟩
    exact (account_ok_iff hv a).mpr ⟨raw, hrest⟩

theorem validateJson_none_iff (h : Heap) (l : Limits) (r : Ref) :
    h.validateJson l r = none ↔ ∃ a, h.account l r = .ok a := by
  unfold Heap.validateJson
  cases h.account l r with
  | ok a => exact ⟨fun _ => ⟨a, rfl⟩, fun _ => rfl⟩
  | error code => exact ⟨nofun, fun ⟨_, hok⟩ => absurd hok nofun⟩

/-- **The account of a value is exact**, for every object and all limits: what
    passes is what is a tree with an encoding within the limits, the bytes that
    were charged are those of the encoding, and the encoding is read back as an
    equal value. -/
theorem account_exact (h : Heap) (l : Limits) (r : Ref) :
    (h.validateJson l r = none ↔
      ∃ v raw, Denotes h r v ∧ canonicalJson l.maxDigits v = some raw ∧ Fits l v raw) ∧
    ∀ a, h.account l r = .ok a →
      ∃ v raw back, Denotes h r v ∧ canonicalJson l.maxDigits v = some raw ∧
        raw.length = a.used ∧ loads raw = .ok back ∧ Equal v back := by
  constructor
  · rw [validateJson_none_iff]
    constructor
    · rintro ⟨a, hok⟩
      obtain ⟨v, raw, hv, hraw, hfits, -⟩ := (account_iff h l r a).mp hok
      exact ⟨v, raw, hv, hraw, hfits⟩
    · rintro ⟨v, raw, hv, hraw, hfits⟩
      exact ⟨_, (account_iff h l r _).mpr ⟨v, raw, hv, hraw, hfits, rfl⟩⟩
  · intro a hok
    obtain ⟨v, raw, hv, hraw, -, rfl⟩ := (account_iff h l r a).mp hok
    obtain ⟨hs, -, hdumps⟩ := storable_of_canonicalJson hv.value hraw
    exact ⟨v, raw, v.sortKeys, hv, hraw, rfl, loads_dumps_value hv.value hs hdumps,
      equal_sortKeys v⟩

end JsonHeap
