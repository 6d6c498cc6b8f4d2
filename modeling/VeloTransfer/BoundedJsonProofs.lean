import VeloTransfer.JsonLineProofs

/-! # Bounded JSON — the account of a value before it is encoded

    `validateJson` is `_validate_json`: it walks a value once and charges what
    its canonical encoding will take, under a limit on bytes, on nodes and on
    depth.  The account is compared with the encoder:

    * `validateJson_ok` — the walk accepts exactly the values that can be
      stored and whose nodes, depth and encoded size are within the limits;
    * `dumps_of_storable` — such a value has an encoding, of exactly the size
      that was charged;
    * `loads_dumps_value` — decoding it gives the value back. -/

namespace BoundedJson

open CanonicalJson JsonLine

/-- The limits of a walk.  `maxDigits` is the interpreter's own limit on the
    digits of an integer that is written as text. -/
structure Limits where
  maxBytes : Nat
  maxNodes : Nat
  maxDepth : Nat
  maxDigits : Nat
deriving Repr, DecidableEq

/-- The two counters of a walk. -/
structure Account where
  used : Nat
  nodes : Nat
deriving Repr, DecidableEq

abbrev Accounting := Except String Account

def Limits.charge (l : Limits) (amount : Nat) (a : Account) : Accounting :=
  if a.used + amount > l.maxBytes then .error "state_budget_exceeded"
  else .ok { a with used := a.used + amount }

/-- What one character of a string takes. -/
def charSize (c : Nat) : Nat :=
  if c = 34 ∨ c = 92 ∨ c = 8 ∨ c = 12 ∨ c = 10 ∨ c = 13 ∨ c = 9 then 2
  else if c < 32 then 6
  else if c < 128 then 1
  else if c < 2048 then 2
  else if c < 65536 then 3
  else 4

def Limits.charges (l : Limits) : Text → Account → Accounting
  | [], a => .ok a
  | c :: cs, a =>
      if isSurrogate c then .error "invalid_state"
      else do
        let a ← l.charge (charSize c) a
        l.charges cs a

def Limits.stringSize (l : Limits) (s : Text) (a : Account) : Accounting := do
  let a ← l.charge 2 a
  l.charges s a

/-- `int.bit_length`. -/
def bitLength (i : Int) : Nat := if i = 0 then 0 else Nat.log2 i.natAbs + 1

def Limits.intSize (l : Limits) (i : Int) (a : Account) : Accounting :=
  if bitLength i > l.maxBytes * 4 then .error "state_budget_exceeded"
  else if (decimal i.natAbs).length > l.maxDigits then .error "state_budget_exceeded"
  else l.charge (renderInt i).length a

/-- A new node at a depth. -/
def Limits.enter (l : Limits) (depth : Nat) (a : Account) : Accounting :=
  if a.nodes + 1 > l.maxNodes ∨ depth > l.maxDepth then .error "state_budget_exceeded"
  else .ok { a with nodes := a.nodes + 1 }

/-- The brackets and commas of a container of `n` members. -/
def Limits.open (l : Limits) (n : Nat) (a : Account) : Accounting :=
  if n > l.maxNodes - a.nodes then .error "state_budget_exceeded"
  else l.charge (2 + (n - 1)) a

mutual

/-- `visit`. -/
def Limits.visit (l : Limits) (depth : Nat) : Json → Account → Accounting
  | .null, a => do l.charge 4 (← l.enter depth a)
  | .bool b, a => do l.charge (if b then 4 else 5) (← l.enter depth a)
  | .int i, a => do l.intSize i (← l.enter depth a)
  | .float token, a => do l.charge token.length (← l.enter depth a)
  | .str s, a => do l.stringSize s (← l.enter depth a)
  | .arr items, a => do l.visitItems (depth + 1) items (← l.open items.length (← l.enter depth a))
  | .obj fields, a => do
      l.visitFields (depth + 1) fields (← l.open fields.length (← l.enter depth a))

def Limits.visitItems (l : Limits) (depth : Nat) : List Json → Account → Accounting
  | [], a => .ok a
  | x :: xs, a => do l.visitItems depth xs (← l.visit depth x a)

def Limits.visitFields (l : Limits) (depth : Nat) : List (Text × Json) → Account → Accounting
  | [], a => .ok a
  | (k, v) :: fs, a => do
      l.visitFields depth fs (← l.visit depth v (← l.charge 1 (← l.stringSize k a)))

end

/-- `_validate_json`; the code of its error, if any. -/
def validateJson (l : Limits) (v : Json) : Option String :=
  match l.visit 0 v ⟨0, 0⟩ with
  | .ok _ => none
  | .error code => some code

/-! ## What a value takes -/

def textSize (s : Text) : Nat := (s.map charSize).sum

mutual

/-- The number of nodes of a value. -/
def nodes : Json → Nat
  | .arr items => 1 + nodesItems items
  | .obj fields => 1 + nodesFields fields
  | _ => 1

def nodesItems : List Json → Nat
  | [] => 0
  | x :: xs => nodes x + nodesItems xs

def nodesFields : List (Text × Json) → Nat
  | [] => 0
  | (_, v) :: fs => nodes v + nodesFields fs

end

mutual

/-- How deep a value is nested. -/
def height : Json → Nat
  | .arr items => heightItems items
  | .obj fields => heightFields fields
  | _ => 0

def heightItems : List Json → Nat
  | [] => 0
  | x :: xs => max (1 + height x) (heightItems xs)

def heightFields : List (Text × Json) → Nat
  | [] => 0
  | (_, v) :: fs => max (1 + height v) (heightFields fs)

end

mutual

/-- The bytes of the canonical encoding. -/
def cost : Json → Nat
  | .null => 4
  | .bool b => if b then 4 else 5
  | .int i => (renderInt i).length
  | .float token => token.length
  | .str s => 2 + textSize s
  | .arr items => 2 + (items.length - 1) + costItems items
  | .obj fields => 2 + (fields.length - 1) + costFields fields

def costItems : List Json → Nat
  | [] => 0
  | x :: xs => cost x + costItems xs

def costFields : List (Text × Json) → Nat
  | [] => 0
  | (k, v) :: fs => (2 + textSize k) + 1 + cost v + costFields fs

end

def SoundText (s : Text) : Prop := ∀ c ∈ s, isSurrogate c = false

mutual

/-- No lone surrogate in a text, and no integer beyond the digit limit. -/
def Storable (digits : Nat) : Json → Prop
  | .int i => (decimal i.natAbs).length ≤ digits
  | .str s => SoundText s
  | .arr items => StorableItems digits items
  | .obj fields => StorableFields digits fields
  | _ => True

def StorableItems (digits : Nat) : List Json → Prop
  | [] => True
  | x :: xs => Storable digits x ∧ StorableItems digits xs

def StorableFields (digits : Nat) : List (Text × Json) → Prop
  | [] => True
  | (k, v) :: fs => (SoundText k ∧ Storable digits v) ∧ StorableFields digits fs

end

/-! ## The walk charges what a value takes -/

variable {l : Limits}

/-- From an account within the limits, `m` succeeds exactly when `good` holds and
    its charges fit, and then it has made exactly these charges. -/
def Pays (l : Limits) (m : Account → Accounting) (good : Prop) (amount count : Nat) : Prop :=
  ∀ a a', a.used ≤ l.maxBytes → a.nodes ≤ l.maxNodes →
    (m a = .ok a' ↔ good ∧ a.used + amount ≤ l.maxBytes ∧ a.nodes + count ≤ l.maxNodes ∧
      a' = ⟨a.used + amount, a.nodes + count⟩)

theorem pays_nothing : Pays l .ok True 0 0 := by
  intro a a' hused hnodes
  constructor
  · intro h
    exact ⟨trivial, hused, hnodes, (Except.ok.inj h).symm⟩
  · rintro ⟨-, -, -, rfl⟩
    rfl

theorem pays_charge (amount : Nat) : Pays l (l.charge amount) True amount 0 := by
  intro a a' _ hnodes
  unfold Limits.charge
  by_cases h : a.used + amount > l.maxBytes
  · rw [if_pos h]
    exact ⟨nofun, fun hfits => absurd hfits.2.1 (Nat.not_le.mpr h)⟩
  · rw [if_neg h]
    constructor
    · intro hok
      exact ⟨trivial, Nat.not_lt.mp h, hnodes, (Except.ok.inj hok).symm⟩
    · rintro ⟨-, -, -, rfl⟩
      rfl

theorem pays_enter (depth : Nat) : Pays l (l.enter depth) (depth ≤ l.maxDepth) 0 1 := by
  intro a a' hused _
  unfold Limits.enter
  by_cases h : a.nodes + 1 > l.maxNodes ∨ depth > l.maxDepth
  · rw [if_pos h]
    refine ⟨nofun, fun hfits => ?_⟩
    rcases h with h | h
    · exact absurd hfits.2.2.1 (Nat.not_le.mpr h)
    · exact absurd hfits.1 (Nat.not_le.mpr h)
  · rw [if_neg h]
    rw [not_or, Nat.not_lt, Nat.not_lt] at h
    constructor
    · intro hok
      exact ⟨h.2, hused, h.1, (Except.ok.inj hok).symm⟩
    · rintro ⟨-, -, -, rfl⟩
      rfl

/-- One charge after the other. -/
theorem Pays.bind {m m' : Account → Accounting} {good good' : Prop} {x x' n n' : Nat}
    (hm : Pays l m good x n) (hm' : Pays l m' good' x' n') :
    Pays l (fun a => m a >>= m') (good ∧ good') (x + x') (n + n') := by
  intro a a' hused hnodes
  have hfirst := hm a
  show m a >>= m' = .ok a' ↔ _
  cases hma : m a with
  | error code =>
      refine ⟨nofun, fun h => ?_⟩
      have h' := (hfirst _ hused hnodes).mpr ⟨h.1.1, by omega, by omega, rfl⟩
      rw [hma] at h'
      exact absurd h' nofun
  | ok b =>
      obtain ⟨hgood, hfit, hfit', rfl⟩ := (hfirst b hused hnodes).mp hma
      show m' _ = .ok a' ↔ _
      rw [hm' _ a' hfit hfit']
      constructor
      · rintro ⟨hgood', h1, h2, rfl⟩
        exact ⟨⟨hgood, hgood'⟩, by rw [← Nat.add_assoc]; exact h1,
          by rw [← Nat.add_assoc]; exact h2, by rw [Nat.add_assoc, Nat.add_assoc]⟩
      · rintro ⟨⟨-, hgood'⟩, h1, h2, rfl⟩
        exact ⟨hgood', by rw [Nat.add_assoc]; exact h1, by rw [Nat.add_assoc]; exact h2,
          by rw [Nat.add_assoc, Nat.add_assoc]⟩

theorem Pays.congr {m : Account → Accounting} {good good' : Prop} {x x' n n' : Nat}
    (hm : Pays l m good x n) (hgood : good ↔ good') (hx : x = x') (hn : n = n') :
    Pays l m good' x' n' := by
  subst hx hn
  intro a a' hused hnodes
  rw [hm a a' hused hnodes, hgood]

/-- A refused walk, and one that is refused only when a condition fails. -/
theorem Pays.guard {m : Account → Accounting} {good : Prop} {x n : Nat} {c : Prop} [Decidable c]
    (hm : Pays l m good x n) (code : String) :
    Pays l (fun a => if c then .error code else m a) (¬ c ∧ good) x n := by
  intro a a' hused hnodes
  show (if c then Except.error code else m a) = .ok a' ↔ _
  by_cases hc : c
  · rw [if_pos hc]
    exact ⟨nofun, fun h => absurd hc h.1.1⟩
  · rw [if_neg hc, hm a a' hused hnodes, and_iff_right hc]

theorem pays_charges (s : Text) : Pays l (l.charges s) (SoundText s) (textSize s) 0 := by
  induction s with
  | nil => exact pays_nothing.congr ⟨fun _ c hc => absurd hc List.not_mem_nil, fun _ => trivial⟩ rfl rfl
  | cons c cs ih =>
      have hrest := ((pays_charge (charSize c)).bind ih).guard (c := isSurrogate c = true)
        "invalid_state"
      refine hrest.congr ?_ rfl rfl
      rw [true_and, Bool.not_eq_true]
      constructor
      · rintro ⟨hc, hcs⟩ d hd
        rcases List.mem_cons.mp hd with rfl | hd
        · exact hc
        · exact hcs d hd
      · intro h
        exact ⟨h c List.mem_cons_self, fun d hd => h d (List.mem_cons_of_mem _ hd)⟩

theorem pays_stringSize (s : Text) : Pays l (l.stringSize s) (SoundText s) (2 + textSize s) 0 :=
  ((pays_charge 2).bind (pays_charges s)).congr (Iff.of_eq (true_and _)) rfl rfl

/-- The limit on the bits of an integer only refuses what is too long anyway. -/
theorem bitLength_le (i : Int) : bitLength i ≤ 4 * (decimal i.natAbs).length := by
  unfold bitLength
  split
  · exact Nat.zero_le _
  next hi =>
    have hne : i.natAbs ≠ 0 := Int.natAbs_ne_zero.mpr hi
    have hlt : i.natAbs < 2 ^ (4 * (decimal i.natAbs).length) := by
      have h : i.natAbs < 10 ^ (decimal i.natAbs).length := by
        have := ofDigits_lt (decimal_digits i.natAbs) 0
        rwa [ofDigits_decimal, Nat.zero_add, Nat.one_mul] at this
      refine Nat.lt_of_lt_of_le h ?_
      rw [Nat.pow_mul]
      exact Nat.pow_le_pow_left (by decide) _
    exact (Nat.log2_lt hne).mpr hlt
where
  ofDigits_lt : ∀ {ds : Text}, (∀ c ∈ ds, isDigit c = true) → ∀ n,
      ofDigits n ds < (n + 1) * 10 ^ ds.length := by
    intro ds
    induction ds with
    | nil => intro _ n; show n < (n + 1) * 1; omega
    | cons d ds ih =>
        intro hds n
        have hd : digitValue d < 10 := by
          have := hds d List.mem_cons_self
          unfold isDigit at this
          unfold digitValue
          simp only [Bool.and_eq_true, decide_eq_true_eq] at this
          omega
        have hrest := ih (fun c hc => hds c (List.mem_cons_of_mem _ hc)) (n * 10 + digitValue d)
        show ofDigits (n * 10 + digitValue d) ds < _
        refine Nat.lt_of_lt_of_le hrest ?_
        rw [List.length_cons, Nat.pow_succ, Nat.mul_comm (10 ^ ds.length), ← Nat.mul_assoc]
        exact Nat.mul_le_mul_right _ (by omega)

theorem decimal_le_renderInt (i : Int) : (decimal i.natAbs).length ≤ (renderInt i).length := by
  unfold renderInt
  split
  · exact Nat.le_succ _
  · exact Nat.le_refl _

theorem pays_intSize (i : Int) :
    Pays l (l.intSize i) ((decimal i.natAbs).length ≤ l.maxDigits) (renderInt i).length 0 := by
  have h := ((pays_charge (renderInt i).length (l := l)).guard
    (c := (decimal i.natAbs).length > l.maxDigits) "state_budget_exceeded").guard
    (c := bitLength i > l.maxBytes * 4) "state_budget_exceeded"
  intro a a' hused hnodes
  refine (h a a' hused hnodes).trans ?_
  rw [and_true, Nat.not_lt, Nat.not_lt]
  constructor
  · rintro ⟨⟨-, hd⟩, hfit⟩
    exact ⟨hd, hfit⟩
  · rintro ⟨hd, hfit⟩
    refine ⟨⟨?_, hd⟩, hfit⟩
    have h1 := bitLength_le i
    have h2 := decimal_le_renderInt i
    omega

/-- A container: the early look at its length refuses nothing that its members
    would not be refused for. -/
theorem pays_open {m : Account → Accounting} {good : Prop} {x n k : Nat} (hm : Pays l m good x n)
    (hk : k ≤ n) : Pays l (fun a => l.open k a >>= m) good (2 + (k - 1) + x) n := by
  have h := (pays_charge (l := l) (2 + (k - 1))).bind hm
  intro a a' hused hnodes
  have hcharged := h a a' hused hnodes
  rw [true_and, Nat.zero_add] at hcharged
  rw [← hcharged]
  show l.open k a >>= m = .ok a' ↔ l.charge (2 + (k - 1)) a >>= m = .ok a'
  unfold Limits.open
  by_cases hlong : k > l.maxNodes - a.nodes
  · rw [if_pos hlong]
    refine ⟨nofun, fun hok => ?_⟩
    have := (hcharged.mp hok).2.2.1
    omega
  · rw [if_neg hlong]

theorem items_le_nodes (xs : List Json) : xs.length ≤ nodesItems xs := by
  induction xs with
  | nil => exact Nat.le_refl _
  | cons x xs ih =>
      have : 1 ≤ nodes x := by cases x <;> simp [nodes]
      show xs.length + 1 ≤ nodes x + nodesItems xs
      omega

theorem fields_le_nodes (fs : List (Text × Json)) : fs.length ≤ nodesFields fs := by
  induction fs with
  | nil => exact Nat.le_refl _
  | cons f fs ih =>
      obtain ⟨k, v⟩ := f
      have : 1 ≤ nodes v := by cases v <;> simp [nodes]
      show fs.length + 1 ≤ nodes v + nodesFields fs
      omega

/-- A node that is entered, and then the rest of its walk; the depth is known to
    be within the limit there. -/
theorem pays_node {depth : Nat} {m : Account → Accounting} {good : Prop} {x n : Nat}
    (hm : depth ≤ l.maxDepth → Pays l m good x n) :
    Pays l (fun a => l.enter depth a >>= m) (depth ≤ l.maxDepth ∧ good) x (1 + n) := by
  by_cases hd : depth ≤ l.maxDepth
  · exact ((pays_enter depth).bind (hm hd)).congr Iff.rfl (Nat.zero_add _) rfl
  · intro a a' hused hnodes
    refine ⟨fun h => ?_, fun h => absurd h.1.1 hd⟩
    change l.enter depth a >>= m = .ok a' at h
    rw [show l.enter depth a = .error "state_budget_exceeded" from
      if_pos (Or.inr (Nat.not_le.mp hd))] at h
    exact absurd h nofun

theorem shallow_iff {p : Prop} {depth h limit : Nat} (hle : depth ≤ depth + h) :
    depth ≤ limit ∧ p ∧ depth + h ≤ limit ↔ p ∧ depth + h ≤ limit :=
  ⟨fun h => h.2, fun h => ⟨Nat.le_trans hle h.2, h⟩⟩

theorem deeper_iff {p q : Prop} {depth h hs limit : Nat} :
    (p ∧ depth + 1 + h ≤ limit) ∧ q ∧ depth + hs ≤ limit ↔
      (p ∧ q) ∧ depth + max (1 + h) hs ≤ limit := by
  constructor
  · rintro ⟨⟨hp, h1⟩, hq, h2⟩
    exact ⟨⟨hp, hq⟩, by omega⟩
  · rintro ⟨⟨hp, hq⟩, h1⟩
    exact ⟨⟨hp, by omega⟩, hq, by omega⟩

theorem pays_leaf {depth : Nat} {m : Account → Accounting} {good : Prop} {x : Nat}
    (hm : Pays l m good x 0) :
    Pays l (fun a => l.enter depth a >>= m) (good ∧ depth + 0 ≤ l.maxDepth) x 1 :=
  (pays_node (fun _ => hm)).congr and_comm rfl rfl

mutual

/-- **The account of a walk**: what is charged, and when the walk succeeds. -/
theorem pays_visit (depth : Nat) : ∀ v : Json,
    Pays l (l.visit depth v) (Storable l.maxDigits v ∧ depth + height v ≤ l.maxDepth) (cost v)
      (nodes v)
  | .null => (pays_leaf (pays_charge 4)).congr Iff.rfl rfl rfl
  | .bool b => (pays_leaf (pays_charge (if b then 4 else 5))).congr Iff.rfl rfl rfl
  | .int i => (pays_leaf (pays_intSize i)).congr Iff.rfl rfl rfl
  | .float token => (pays_leaf (pays_charge token.length)).congr Iff.rfl rfl rfl
  | .str s => (pays_leaf (pays_stringSize s)).congr Iff.rfl rfl rfl
  | .arr items =>
      (pays_node (fun hd => pays_open (pays_visitItems hd items) (items_le_nodes items))).congr
        (shallow_iff (Nat.le_add_right _ _)) rfl rfl
  | .obj fields =>
      (pays_node (fun hd => pays_open (pays_visitFields hd fields) (fields_le_nodes fields))).congr
        (shallow_iff (Nat.le_add_right _ _)) rfl rfl

theorem pays_visitItems {depth : Nat} (hd : depth ≤ l.maxDepth) : ∀ xs : List Json,
    Pays l (l.visitItems (depth + 1) xs)
      (StorableItems l.maxDigits xs ∧ depth + heightItems xs ≤ l.maxDepth)
      (costItems xs) (nodesItems xs)
  | [] => pays_nothing.congr ⟨fun _ => ⟨trivial, hd⟩, fun _ => trivial⟩ rfl rfl
  | x :: xs => ((pays_visit (depth + 1) x).bind (pays_visitItems hd xs)).congr deeper_iff rfl rfl

theorem pays_visitFields {depth : Nat} (hd : depth ≤ l.maxDepth) : ∀ fs : List (Text × Json),
    Pays l (l.visitFields (depth + 1) fs)
      (StorableFields l.maxDigits fs ∧ depth + heightFields fs ≤ l.maxDepth)
      (costFields fs) (nodesFields fs)
  | [] => pays_nothing.congr ⟨fun _ => ⟨trivial, hd⟩, fun _ => trivial⟩ rfl rfl
  | (k, v) :: fs =>
      ((pays_stringSize k).bind ((pays_charge 1).bind ((pays_visit (depth + 1) v).bind
        (pays_visitFields hd fs)))).congr
        (by
          rw [true_and]
          exact (and_assoc.symm.trans (and_congr_left' and_assoc.symm)).trans deeper_iff)
        (by show _ = (2 + textSize k) + 1 + cost v + costFields fs; omega)
        (by show _ = nodes v + nodesFields fs; omega)

end

/-- **`_validate_json` accepts exactly** the values that can be stored and whose
    nodes, depth and encoded size are within the limits. -/
theorem validateJson_ok (l : Limits) (v : Json) :
    validateJson l v = none ↔
      Storable l.maxDigits v ∧ height v ≤ l.maxDepth ∧ nodes v ≤ l.maxNodes ∧
        cost v ≤ l.maxBytes := by
  have h := pays_visit (l := l) 0 v
  unfold validateJson
  cases hv : l.visit 0 v ⟨0, 0⟩ with
  | error code =>
      refine ⟨nofun, fun ⟨hs, hd, hn, hc⟩ => ?_⟩
      have h' := (h ⟨0, 0⟩ _ (Nat.zero_le _) (Nat.zero_le _)).mpr
        ⟨⟨hs, (Nat.zero_add _).symm ▸ hd⟩, (Nat.zero_add _).symm ▸ hc,
          (Nat.zero_add _).symm ▸ hn, rfl⟩
      rw [hv] at h'
      exact absurd h' nofun
  | ok a =>
      obtain ⟨⟨hs, hd⟩, hc, hn, -⟩ := (h ⟨0, 0⟩ a (Nat.zero_le _) (Nat.zero_le _)).mp hv
      refine ⟨fun _ => ⟨hs, ?_, ?_, ?_⟩, fun _ => rfl⟩
      · rwa [Nat.zero_add] at hd
      · rwa [Nat.zero_add] at hn
      · rwa [Nat.zero_add] at hc

/-! ## The encoder writes what was charged -/

/-- The code points of a `str`. -/
def PyText (s : Text) : Prop := ∀ c ∈ s, c < 0x110000

mutual

/-- A value as Python builds it: code points below the limit, fractional numbers
    as their tokens, no key twice. -/
def Value : Json → Prop
  | .float token => FloatToken token
  | .str s => PyText s
  | .arr items => ValueItems items
  | .obj fields => hasDuplicate fields = false ∧ ValueFields fields
  | _ => True

def ValueItems : List Json → Prop
  | [] => True
  | x :: xs => Value x ∧ ValueItems xs

def ValueFields : List (Text × Json) → Prop
  | [] => True
  | (k, v) :: fs => (PyText k ∧ Value v) ∧ ValueFields fs

end

theorem encodeUnits_append (s t : Text) : encodeUnits (s ++ t) = encodeUnits s ++ encodeUnits t := by
  induction s with
  | nil => rfl
  | cons c cs ih =>
      show utf8Units c ++ encodeUnits (cs ++ t) = (utf8Units c ++ encodeUnits cs) ++ encodeUnits t
      rw [ih, List.append_assoc]

/-- The bytes of a text. -/
def units (s : Text) : Nat := (encodeUnits s).length

theorem units_append (s t : Text) : units (s ++ t) = units s + units t := by
  rw [units, encodeUnits_append, List.length_append]
  rfl

theorem units_cons (c : Nat) (s : Text) : units (c :: s) = (utf8Units c).length + units s :=
  List.length_append

theorem units_ascii {s : Text} (h : ∀ c ∈ s, c < 127) : units s = s.length := by
  rw [units, encodeUnits_visible h]

/-- An escaped character takes what it is charged. -/
theorem units_renderChar (c : Nat) : units (renderChar c) = charSize c := by
  unfold renderChar charSize
  split <;> rename_i h1
  · subst h1; rfl
  split <;> rename_i h2
  · subst h2; rfl
  split <;> rename_i h3
  · subst h3; rfl
  split <;> rename_i h4
  · subst h4; rfl
  split <;> rename_i h5
  · subst h5; rfl
  split <;> rename_i h6
  · subst h6; rfl
  split <;> rename_i h7
  · subst h7; rfl
  rw [if_neg (c := c = 34 ∨ c = 92 ∨ c = 8 ∨ c = 12 ∨ c = 10 ∨ c = 13 ∨ c = 9) (by omega)]
  by_cases h32 : c < 32
  · rw [if_pos h32, if_pos h32]
    have hd : ∀ n, n < 16 → hexDigit n < 127 := by
      intro n hn
      unfold hexDigit
      split <;> omega
    refine units_ascii (fun d hdm => ?_)
    simp only [List.mem_cons, List.not_mem_nil, or_false] at hdm
    rcases hdm with rfl | rfl | rfl | rfl | rfl | rfl
    · decide
    · decide
    · decide
    · decide
    · exact hd _ (by omega)
    · exact hd _ (by omega)
  · rw [if_neg h32, if_neg h32]
    show (utf8Units c ++ []).length = _
    rw [List.append_nil]
    unfold utf8Units
    split
    · rfl
    split
    · rfl
    split
    · rfl
    · rfl

theorem units_renderChars (s : Text) : units (renderChars s) = textSize s := by
  induction s with
  | nil => rfl
  | cons c cs ih =>
      show units (renderChar c ++ renderChars cs) = charSize c + textSize cs
      rw [units_append, units_renderChar, ih]

theorem textSize_printable {s : Text} (h : ∀ c ∈ s, Printable c) : textSize s = s.length := by
  have hchars := renderChars_printable h
  have hunits := units_renderChars s
  rw [hchars, units_ascii (fun c hc => (h c hc).2.1)] at hunits
  exact hunits.symm

theorem units_renderString (s : Text) : units (renderString s) = 2 + textSize s := by
  show units (34 :: (renderChars s ++ [34])) = _
  rw [units_cons, units_append, units_renderChars]
  show 1 + (textSize s + 1) = _
  omega

theorem units_renderInt (i : Int) : units (renderInt i) = (renderInt i).length :=
  units_ascii (fun c hc => (visible_renderInt i c hc).2)

mutual

/-- The rendered text takes what was charged. -/
theorem units_render : ∀ v : Json, Value v → units (render v) = cost v
  | .null, _ => rfl
  | .bool true, _ => rfl
  | .bool false, _ => rfl
  | .int i, _ => units_renderInt i
  | .float _, hv => units_ascii (fun c hc => (hv.ascii c hc).2)
  | .str s, _ => units_renderString s
  | .arr [], _ => rfl
  | .arr (x :: xs), hv => by
      show units (91 :: (render x ++ renderItems xs)) = 2 + xs.length + (cost x + costItems xs)
      rw [units_cons, units_append, units_render x hv.1, units_renderItems xs hv.2]
      show 1 + (cost x + (1 + xs.length + costItems xs)) = _
      omega
  | .obj [], _ => rfl
  | .obj ((k, v) :: fs), hv => by
      show units (123 :: (renderString k ++ 58 :: (render v ++ renderFields fs)))
        = 2 + fs.length + ((2 + textSize k) + 1 + cost v + costFields fs)
      rw [units_cons, units_append, units_cons, units_append, units_renderString,
        units_render v hv.2.1.2, units_renderFields fs hv.2.2]
      show 1 + (2 + textSize k + (1 + (cost v + (1 + fs.length + costFields fs)))) = _
      omega

theorem units_renderItems : ∀ xs : List Json, ValueItems xs →
    units (renderItems xs) = 1 + xs.length + costItems xs
  | [], _ => rfl
  | x :: xs, hv => by
      show units (44 :: (render x ++ renderItems xs)) = 1 + (xs.length + 1) + (cost x + costItems xs)
      rw [units_cons, units_append, units_render x hv.1, units_renderItems xs hv.2]
      show 1 + (cost x + (1 + xs.length + costItems xs)) = _
      omega

theorem units_renderFields : ∀ fs : List (Text × Json), ValueFields fs →
    units (renderFields fs) = 1 + fs.length + costFields fs
  | [], _ => rfl
  | (k, v) :: fs, hv => by
      show units (44 :: (renderString k ++ 58 :: (render v ++ renderFields fs)))
        = 1 + (fs.length + 1) + ((2 + textSize k) + 1 + cost v + costFields fs)
      rw [units_cons, units_append, units_cons, units_append, units_renderString,
        units_render v hv.1.2, units_renderFields fs hv.2]
      show 1 + (2 + textSize k + (1 + (cost v + (1 + fs.length + costFields fs)))) = _
      omega

end

/-! ## Sorting the keys changes no account -/

theorem insertField_perm (f : Text × Json) (fs : List (Text × Json)) :
    (insertField f fs).Perm (f :: fs) := by
  induction fs with
  | nil => exact List.Perm.refl _
  | cons g gs ih =>
      unfold insertField
      split
      · exact (ih.cons g).trans (List.Perm.swap f g gs)
      · exact List.Perm.refl _

/-- The sorted fields are the fields, each with its sorted value, in some order. -/
theorem sortFields_perm (fs : List (Text × Json)) :
    (sortFields fs).Perm (fs.map (fun f => (f.1, f.2.sortKeys))) := by
  induction fs with
  | nil => exact List.Perm.refl _
  | cons f fs ih =>
      obtain ⟨k, v⟩ := f
      exact (insertField_perm _ _).trans (ih.cons _)

theorem costFields_eq (fs : List (Text × Json)) :
    costFields fs = (fs.map (fun f => (2 + textSize f.1) + 1 + cost f.2)).sum := by
  induction fs with
  | nil => rfl
  | cons f fs ih =>
      obtain ⟨k, v⟩ := f
      show _ + costFields fs = _
      rw [ih]
      rfl

theorem sortItems_length (xs : List Json) : (sortItems xs).length = xs.length := by
  induction xs with
  | nil => rfl
  | cons x xs ih =>
      show (sortItems xs).length + 1 = _
      rw [ih]
      rfl

mutual

theorem cost_sortKeys : ∀ v : Json, cost v.sortKeys = cost v
  | .null => rfl
  | .bool _ => rfl
  | .int _ => rfl
  | .float _ => rfl
  | .str _ => rfl
  | .arr items => by
      show 2 + ((sortItems items).length - 1) + costItems (sortItems items) = _
      rw [sortItems_length, costItems_sortItems items]
      rfl
  | .obj fields => by
      show 2 + ((sortFields fields).length - 1) + costFields (sortFields fields) = _
      have hperm := sortFields_perm fields
      rw [hperm.length_eq, List.length_map, costFields_eq, (hperm.map _).sum_nat, List.map_map,
        costFields_sorted fields]
      rfl

theorem costItems_sortItems : ∀ xs : List Json, costItems (sortItems xs) = costItems xs
  | [] => rfl
  | x :: xs => by
      show cost x.sortKeys + costItems (sortItems xs) = cost x + costItems xs
      rw [cost_sortKeys x, costItems_sortItems xs]

theorem costFields_sorted : ∀ fs : List (Text × Json),
    (fs.map ((fun f => (2 + textSize f.1) + 1 + cost f.2) ∘ (fun f => (f.1, f.2.sortKeys)))).sum
      = costFields fs
  | [] => rfl
  | (k, v) :: fs => by
      rw [List.map_cons, List.sum_cons, costFields_sorted fs]
      show (2 + textSize k) + 1 + cost v.sortKeys + costFields fs = _
      rw [cost_sortKeys v]
      rfl

end

theorem nodesFields_eq (fs : List (Text × Json)) :
    nodesFields fs = (fs.map (fun f => nodes f.2)).sum := by
  induction fs with
  | nil => rfl
  | cons f fs ih =>
      obtain ⟨k, v⟩ := f
      show nodes v + nodesFields fs = _
      rw [ih]
      rfl

theorem heightFields_eq (fs : List (Text × Json)) :
    heightFields fs = (fs.map (fun f => 1 + height f.2)).foldr max 0 := by
  induction fs with
  | nil => rfl
  | cons f fs ih =>
      obtain ⟨k, v⟩ := f
      show max (1 + height v) (heightFields fs) = _
      rw [ih]
      rfl

theorem foldr_max_perm {xs ys : List Nat} (h : xs.Perm ys) : xs.foldr max 0 = ys.foldr max 0 := by
  induction h with
  | nil => rfl
  | cons x _ ih => rw [List.foldr_cons, List.foldr_cons, ih]
  | swap x y l =>
      rw [List.foldr_cons, List.foldr_cons, List.foldr_cons, List.foldr_cons]
      omega
  | trans _ _ ih ih' => exact ih.trans ih'

mutual

theorem nodes_sortKeys : ∀ v : Json, nodes v.sortKeys = nodes v
  | .null => rfl
  | .bool _ => rfl
  | .int _ => rfl
  | .float _ => rfl
  | .str _ => rfl
  | .arr items => congrArg (1 + ·) (nodesItems_sortItems items)
  | .obj fields => by
      show 1 + nodesFields (sortFields fields) = 1 + nodesFields fields
      rw [nodesFields_eq, ((sortFields_perm fields).map _).sum_nat, List.map_map,
        nodesFields_sorted fields]

theorem nodesItems_sortItems : ∀ xs : List Json, nodesItems (sortItems xs) = nodesItems xs
  | [] => rfl
  | x :: xs => by
      show nodes x.sortKeys + nodesItems (sortItems xs) = nodes x + nodesItems xs
      rw [nodes_sortKeys x, nodesItems_sortItems xs]

theorem nodesFields_sorted : ∀ fs : List (Text × Json),
    (fs.map ((fun f => nodes f.2) ∘ (fun f => (f.1, f.2.sortKeys)))).sum = nodesFields fs
  | [] => rfl
  | (k, v) :: fs => by
      rw [List.map_cons, List.sum_cons, nodesFields_sorted fs]
      show nodes v.sortKeys + nodesFields fs = _
      rw [nodes_sortKeys v]
      rfl

end

mutual

theorem height_sortKeys : ∀ v : Json, height v.sortKeys = height v
  | .null => rfl
  | .bool _ => rfl
  | .int _ => rfl
  | .float _ => rfl
  | .str _ => rfl
  | .arr items => heightItems_sortItems items
  | .obj fields => by
      show heightFields (sortFields fields) = heightFields fields
      rw [heightFields_eq, foldr_max_perm ((sortFields_perm fields).map _), List.map_map,
        heightFields_sorted fields]

theorem heightItems_sortItems : ∀ xs : List Json, heightItems (sortItems xs) = heightItems xs
  | [] => rfl
  | x :: xs => by
      show max (1 + height x.sortKeys) (heightItems (sortItems xs)) = _
      rw [height_sortKeys x, heightItems_sortItems xs]
      rfl

theorem heightFields_sorted : ∀ fs : List (Text × Json),
    (fs.map ((fun f => 1 + height f.2) ∘ (fun f => (f.1, f.2.sortKeys)))).foldr max 0
      = heightFields fs
  | [] => rfl
  | (k, v) :: fs => by
      rw [List.map_cons, List.foldr_cons, heightFields_sorted fs]
      show max (1 + height v.sortKeys) (heightFields fs) = _
      rw [height_sortKeys v]
      rfl

end

/-! ## What is stored is encoded and read back -/

/-- No code point of a rendered text is null, and every one can be encoded. -/
def Written (s : Text) : Prop := ∀ c ∈ s, 0 < c ∧ Scalar c

instance (s : Text) : Decidable (Written s) :=
  inferInstanceAs (Decidable (∀ c ∈ s, 0 < c ∧ Scalar c))

theorem written_append {s t : Text} : Written (s ++ t) ↔ Written s ∧ Written t := by
  constructor
  · intro h
    exact ⟨fun c hc => h c (List.mem_append_left _ hc), fun c hc => h c (List.mem_append_right _ hc)⟩
  · rintro ⟨hs, ht⟩ c hc
    rcases List.mem_append.mp hc with hc | hc
    · exact hs c hc
    · exact ht c hc

theorem written_cons {c : Nat} {s : Text} : Written (c :: s) ↔ (0 < c ∧ Scalar c) ∧ Written s := by
  rw [← List.singleton_append, written_append]
  exact and_congr_left' ⟨fun h => h c List.mem_cons_self, fun h d hd =>
    List.mem_singleton.mp hd ▸ h⟩

theorem written_ascii {s : Text} (h : ∀ c ∈ s, 0 < c ∧ c < 127) : Written s := by
  intro c hc
  have := h c hc
  refine ⟨this.1, by omega, ?_⟩
  unfold isSurrogate
  simp only [Bool.and_eq_false_iff, decide_eq_false_iff_not]
  omega

theorem written_renderChars {s : Text} (hs : PyText s) (hsound : SoundText s) :
    Written (renderChars s) := by
  induction s with
  | nil => exact fun c hc => absurd hc List.not_mem_nil
  | cons c cs ih =>
      have hc : Scalar c := ⟨hs c List.mem_cons_self, hsound c List.mem_cons_self⟩
      refine written_append.mpr ⟨?_, ih (fun d hd => hs d (List.mem_cons_of_mem _ hd))
        (fun d hd => hsound d (List.mem_cons_of_mem _ hd))⟩
      unfold renderChar
      have hd : ∀ n, n < 16 → 0 < hexDigit n ∧ hexDigit n < 127 := by
        intro n hn
        unfold hexDigit
        split <;> omega
      split
      · decide
      split
      · decide
      split
      · decide
      split
      · decide
      split
      · decide
      split
      · decide
      split
      · decide
      split
      next h32 =>
        refine written_ascii (fun d hdm => ?_)
        simp only [List.mem_cons, List.not_mem_nil, or_false] at hdm
        rcases hdm with rfl | rfl | rfl | rfl | rfl | rfl
        · decide
        · decide
        · decide
        · decide
        · exact hd _ (by omega)
        · exact hd _ (by omega)
      next h32 =>
        intro d hdm
        rw [List.mem_singleton] at hdm
        subst hdm
        exact ⟨by omega, hc⟩

theorem written_renderString {s : Text} (hs : PyText s) (hsound : SoundText s) :
    Written (renderString s) :=
  written_cons.mpr ⟨by decide, written_append.mpr ⟨written_renderChars hs hsound, by decide⟩⟩

variable {digits : Nat}

mutual

theorem written_render : ∀ v : Json, Value v → Storable digits v → Written (render v)
  | .null, _, _ => by decide
  | .bool true, _, _ => by decide
  | .bool false, _, _ => by decide
  | .int i, _, _ => written_ascii (fun c hc =>
      have h := visible_renderInt i c hc
      ⟨Nat.lt_of_lt_of_le (by decide) h.1, h.2⟩)
  | .float _, hv, _ => written_ascii hv.ascii
  | .str _, hv, hs => written_renderString hv hs
  | .arr [], _, _ => by decide
  | .arr (x :: xs), hv, hs =>
      written_cons.mpr ⟨by decide, written_append.mpr
        ⟨written_render x hv.1 hs.1, written_renderItems xs hv.2 hs.2⟩⟩
  | .obj [], _, _ => by decide
  | .obj ((k, v) :: fs), hv, hs =>
      written_cons.mpr ⟨by decide, written_append.mpr
        ⟨written_renderString hv.2.1.1 hs.1.1, written_cons.mpr ⟨by decide, written_append.mpr
          ⟨written_render v hv.2.1.2 hs.1.2, written_renderFields fs hv.2.2 hs.2⟩⟩⟩⟩

theorem written_renderItems : ∀ xs : List Json, ValueItems xs → StorableItems digits xs →
    Written (renderItems xs)
  | [], _, _ => by decide
  | x :: xs, hv, hs =>
      written_cons.mpr ⟨by decide, written_append.mpr
        ⟨written_render x hv.1 hs.1, written_renderItems xs hv.2 hs.2⟩⟩

theorem written_renderFields : ∀ fs : List (Text × Json), ValueFields fs →
    StorableFields digits fs → Written (renderFields fs)
  | [], _, _ => by decide
  | (k, v) :: fs, hv, hs =>
      written_cons.mpr ⟨by decide, written_append.mpr
        ⟨written_renderString hv.1.1 hs.1.1, written_cons.mpr ⟨by decide, written_append.mpr
          ⟨written_render v hv.1.2 hs.1.2, written_renderFields fs hv.2 hs.2⟩⟩⟩⟩

end

/-- The members of the fields of an object. -/
theorem storableFields_iff (fs : List (Text × Json)) :
    StorableFields digits fs ↔ ∀ f ∈ fs, SoundText f.1 ∧ Storable digits f.2 := by
  induction fs with
  | nil => exact ⟨fun _ f hf => absurd hf List.not_mem_nil, fun _ => trivial⟩
  | cons f fs ih =>
      obtain ⟨k, v⟩ := f
      show (SoundText k ∧ Storable digits v) ∧ StorableFields digits fs ↔ _
      rw [ih, List.forall_mem_cons]

theorem valueFields_iff (fs : List (Text × Json)) :
    ValueFields fs ↔ ∀ f ∈ fs, PyText f.1 ∧ Value f.2 := by
  induction fs with
  | nil => exact ⟨fun _ f hf => absurd hf List.not_mem_nil, fun _ => trivial⟩
  | cons f fs ih =>
      obtain ⟨k, v⟩ := f
      show (PyText k ∧ Value v) ∧ ValueFields fs ↔ _
      rw [ih, List.forall_mem_cons]

theorem hasDuplicate_false (fs : List (Text × Json)) :
    hasDuplicate fs = false ↔ (fs.map Prod.fst).Nodup := by
  induction fs with
  | nil => exact ⟨fun _ => List.nodup_nil, fun _ => rfl⟩
  | cons f fs ih =>
      obtain ⟨k, v⟩ := f
      rw [hasDuplicate, Bool.or_eq_false_iff, ih, List.map_cons, List.nodup_cons]
      refine and_congr_left' ?_
      rw [List.any_eq_false, List.mem_map, not_exists]
      refine forall_congr' (fun g => ?_)
      rw [beq_iff_eq, not_and]

theorem hasDuplicate_sortFields {fs : List (Text × Json)} (h : hasDuplicate fs = false) :
    hasDuplicate (sortFields fs) = false := by
  rw [hasDuplicate_false] at h ⊢
  have hperm := (sortFields_perm fs).map Prod.fst
  rw [List.map_map] at hperm
  exact hperm.nodup_iff.mpr h

theorem mem_sortFields {fs : List (Text × Json)} {f : Text × Json} (hf : f ∈ sortFields fs) :
    ∃ g ∈ fs, f = (g.1, g.2.sortKeys) := by
  obtain ⟨g, hg, rfl⟩ := List.mem_map.mp ((sortFields_perm fs).mem_iff.mp hf)
  exact ⟨g, hg, rfl⟩

mutual

theorem value_sortKeys : ∀ v : Json, Value v → Value v.sortKeys
  | .null, h => h
  | .bool _, h => h
  | .int _, h => h
  | .float _, h => h
  | .str _, h => h
  | .arr items, h => value_sortItems items h
  | .obj fields, h => by
      refine ⟨hasDuplicate_sortFields h.1, (valueFields_iff _).mpr (fun f hf => ?_)⟩
      obtain ⟨g, hg, rfl⟩ := mem_sortFields hf
      exact ⟨((valueFields_iff fields).mp h.2 g hg).1, value_sorted fields h.2 g hg⟩

theorem value_sortItems : ∀ xs : List Json, ValueItems xs → ValueItems (sortItems xs)
  | [], _ => trivial
  | x :: xs, h => ⟨value_sortKeys x h.1, value_sortItems xs h.2⟩

theorem value_sorted : ∀ fs : List (Text × Json), ValueFields fs → ∀ f ∈ fs, Value f.2.sortKeys
  | [], _, f, hf => absurd hf List.not_mem_nil
  | (k, v) :: fs, h, f, hf => by
      rcases List.mem_cons.mp hf with rfl | hf
      · exact value_sortKeys v h.1.2
      · exact value_sorted fs h.2 f hf

end

mutual

theorem storable_sortKeys : ∀ v : Json, Storable digits v → Storable digits v.sortKeys
  | .null, h => h
  | .bool _, h => h
  | .int _, h => h
  | .float _, h => h
  | .str _, h => h
  | .arr items, h => storable_sortItems items h
  | .obj fields, h => by
      refine (storableFields_iff _).mpr (fun f hf => ?_)
      obtain ⟨g, hg, rfl⟩ := mem_sortFields hf
      exact ⟨((storableFields_iff fields).mp h g hg).1, storable_sorted fields h g hg⟩

theorem storable_sortItems : ∀ xs : List Json, StorableItems digits xs →
    StorableItems digits (sortItems xs)
  | [], _ => trivial
  | x :: xs, h => ⟨storable_sortKeys x h.1, storable_sortItems xs h.2⟩

theorem storable_sorted : ∀ fs : List (Text × Json), StorableFields digits fs →
    ∀ f ∈ fs, Storable digits f.2.sortKeys
  | [], _, f, hf => absurd hf List.not_mem_nil
  | (k, v) :: fs, h, f, hf => by
      rcases List.mem_cons.mp hf with rfl | hf
      · exact storable_sortKeys v h.1.2
      · exact storable_sorted fs h.2 f hf

end

/-- **What can be stored has an encoding**, of exactly the size that is charged. -/
theorem dumps_of_storable {v : Json} (hv : Value v) (hs : Storable digits v) :
    ∃ raw, dumps v = some raw ∧ raw.length = cost v := by
  have hwritten := written_render v.sortKeys (value_sortKeys v hv) (storable_sortKeys v hs)
  refine ⟨(encodeUnits (render v.sortKeys)).map UInt8.ofNat,
    if_pos (fun c hc => (hwritten c hc).2), ?_⟩
  rw [List.length_map]
  exact (units_render _ (value_sortKeys v hv)).trans (cost_sortKeys v)

/-- The canonical form of a value passes where the value passes. -/
theorem validateJson_sortKeys {l : Limits} {v : Json} (h : validateJson l v = none) :
    validateJson l v.sortKeys = none := by
  rw [validateJson_ok] at h ⊢
  rw [nodes_sortKeys, height_sortKeys, cost_sortKeys]
  exact ⟨storable_sortKeys v h.1, h.2⟩

theorem plain_of_value : ∀ v : Json, Value v → v.Plain
  | .null, _ => trivial
  | .bool _, _ => trivial
  | .int _, _ => trivial
  | .float _, h => h
  | .str _, _ => trivial
  | .arr items, h => plainItems items h
  | .obj fields, h => ⟨h.1, plainFields fields h.2⟩
where
  plainItems : ∀ xs : List Json, ValueItems xs → PlainItems xs
    | [], _ => trivial
    | x :: xs, h => ⟨plain_of_value x h.1, plainItems xs h.2⟩
  plainFields : ∀ fs : List (Text × Json), ValueFields fs → PlainFields fs
    | [], _ => trivial
    | (_, v) :: fs, h => ⟨plain_of_value v h.1.2, plainFields fs h.2⟩

/-- The bytes of a written text that starts with an ASCII character are taken for
    UTF-8: no byte order mark, and no null byte among the first two. -/
theorem looksUtf8_written {c : Nat} {cs : Text} (hc : c < 127) (h : Written (c :: cs)) :
    looksUtf8 ((encodeUnits (c :: cs)).map UInt8.ofNat) = true := by
  have hunits : ∀ b ∈ encodeUnits (c :: cs), 0 < b ∧ b < 256 := by
    intro b hb
    exact ⟨positive h b hb, encodeUnits_lt (fun d hd => (h d hd).2.1) b hb⟩
  have hhead : encodeUnits (c :: cs) = c :: encodeUnits cs := by
    show utf8Units c ++ encodeUnits cs = _
    rw [utf8Units, if_pos (by omega)]
    rfl
  rw [hhead] at hunits ⊢
  cases htail : encodeUnits cs with
  | nil => exact oneByte (UInt8.ofNat c)
  | cons d ds =>
      rw [htail] at hunits
      have hc0 := hunits c List.mem_cons_self
      have hd0 := hunits d (List.mem_cons_of_mem _ List.mem_cons_self)
      have hcne : ∀ n, n < 256 → n ≠ c → UInt8.ofNat c ≠ UInt8.ofNat n := by
        intro n hn hne heq
        have := congrArg UInt8.toNat heq
        rw [UInt8.toNat_ofNat', UInt8.toNat_ofNat', Nat.mod_eq_of_lt hc0.2,
          Nat.mod_eq_of_lt hn] at this
        exact hne this.symm
      have hdne : UInt8.ofNat d ≠ 0 := by
        intro heq
        have hzero : (UInt8.ofNat d).toNat = 0 := congrArg UInt8.toNat heq
        rw [UInt8.toNat_ofNat', Nat.mod_eq_of_lt hd0.2] at hzero
        exact absurd hzero (Nat.ne_of_gt hd0.1)
      exact twoBytes _ _ _ (hcne 0xef (by decide) (by omega)) (hcne 0xff (by decide) (by omega))
        (hcne 0xfe (by decide) (by omega)) (hcne 0 (by decide) (by omega)) hdne
where
  positive : ∀ {s : Text}, Written s → ∀ b ∈ encodeUnits s, 0 < b := by
    intro s
    induction s with
    | nil => intro _ b hb; exact absurd hb List.not_mem_nil
    | cons c cs ih =>
        intro h b hb
        rcases List.mem_append.mp hb with hb | hb
        · have hc := (h c List.mem_cons_self).1
          unfold utf8Units at hb
          split at hb
          · rw [List.mem_singleton] at hb
            omega
          split at hb
          · simp only [List.mem_cons, List.not_mem_nil, or_false] at hb
            omega
          split at hb
          · simp only [List.mem_cons, List.not_mem_nil, or_false] at hb
            omega
          · simp only [List.mem_cons, List.not_mem_nil, or_false] at hb
            omega
        · exact ih (fun d hd => h d (List.mem_cons_of_mem _ hd)) b hb
  oneByte : ∀ a : UInt8, looksUtf8 [a] = true := by
    intro a
    unfold looksUtf8
    split <;> simp_all
  twoBytes : ∀ (a b : UInt8) (bs : Bytes), a ≠ 0xef → a ≠ 0xff → a ≠ 0xfe → a ≠ 0 → b ≠ 0 →
      looksUtf8 (a :: b :: bs) = true := by
    intro a b bs h1 h2 h3 h4 h5
    unfold looksUtf8
    split
    next heq => exact absurd (List.cons.inj heq).1 h1
    next heq => exact absurd (List.cons.inj heq).1 h2
    next heq => exact absurd (List.cons.inj heq).1 h3
    next heq =>
      obtain ⟨rfl, heq'⟩ := List.cons.inj heq
      obtain ⟨rfl, -⟩ := List.cons.inj heq'
      rw [bne_iff_ne.mpr h4, bne_iff_ne.mpr h5]
      rfl
    · rfl

/-- A rendered value starts with an ASCII character. -/
theorem render_ascii_head (v : Json) (hv : v.Plain) : ∃ c cs, render v = c :: cs ∧ c < 127 := by
  cases v with
  | null => exact ⟨110, ascii "ull", rfl, by decide⟩
  | bool b =>
      cases b with
      | true => exact ⟨116, ascii "rue", rfl, by decide⟩
      | false => exact ⟨102, ascii "alse", rfl, by decide⟩
  | int i =>
      obtain ⟨c, cs, heq, -⟩ := render_head (.int i) hv
      exact ⟨c, cs, heq, (visible_renderInt i c (by
        rw [show renderInt i = c :: cs from heq]; exact List.mem_cons_self)).2⟩
  | float t =>
      obtain ⟨c, cs, heq, -⟩ := FloatToken.head hv
      exact ⟨c, cs, heq, (FloatToken.ascii hv c (by rw [heq]; exact List.mem_cons_self)).2⟩
  | str s => exact ⟨34, renderChars s ++ [34], rfl, by decide⟩
  | arr xs =>
      cases xs with
      | nil => exact ⟨91, [93], rfl, by decide⟩
      | cons x xs => exact ⟨91, render x ++ renderItems xs, rfl, by decide⟩
  | obj fs =>
      cases fs with
      | nil => exact ⟨123, [125], rfl, by decide⟩
      | cons f fs => exact ⟨123, _, rfl, by decide⟩

/-- **Reading back**: what was dumped is loaded back, with its keys in order. -/
theorem loads_dumps_value {v : Json} (hv : Value v) (hs : Storable digits v) {raw : Bytes}
    (hraw : dumps v = some raw) : loads raw = .ok v.sortKeys := by
  have hv' := value_sortKeys v hv
  have hwritten := written_render v.sortKeys hv' (storable_sortKeys v hs)
  have hplain := plain_of_value _ hv'
  have hraw' : encodeUtf8 (render v.sortKeys ++ []) = some raw := by
    rw [List.append_nil]
    exact hraw
  refine loads_dumps hplain (fun c hc => absurd hc List.not_mem_nil) hraw' ?_
  obtain ⟨c, cs, heq, hc⟩ := render_ascii_head v.sortKeys hplain
  rw [heq] at hwritten
  have hbytes : raw = (encodeUnits (render v.sortKeys)).map UInt8.ofNat := by
    have h := hraw
    rw [dumps, encodeUtf8] at h
    split at h
    · exact (Option.some.inj h).symm
    · cases h
  rw [hbytes, heq]
  exact looksUtf8_written hc hwritten

/-! ## The codes of the validator -/

/-- The errors that a walk can end with. -/
def StateCode (code : String) : Prop := code = "state_budget_exceeded" ∨ code = "invalid_state"

def Coded (m : Account → Accounting) : Prop := ∀ a code, m a = .error code → StateCode code

section Codes

variable {l : Limits}

theorem coded_bind {m m' : Account → Accounting} (hm : Coded m) (hm' : Coded m') :
    Coded (fun a => m a >>= m') := by
  intro a code h
  have h : (m a >>= m') = .error code := h
  cases hr : m a with
  | error code' =>
      rw [hr] at h
      obtain rfl := Except.error.inj h
      exact hm a _ hr
  | ok a' =>
      rw [hr] at h
      exact hm' a' _ h

theorem coded_guard {m : Account → Accounting} {c : Account → Prop} [DecidablePred c]
    (hm : Coded m) : Coded (fun a => if c a then .error "state_budget_exceeded" else m a) := by
  intro a code h
  have h : (if c a then .error "state_budget_exceeded" else m a) = .error code := h
  by_cases hc : c a
  · rw [if_pos hc] at h
    exact Or.inl (Except.error.inj h).symm
  · rw [if_neg hc] at h
    exact hm a _ h

theorem coded_ok {f : Account → Account} : Coded (fun a => .ok (f a)) := fun _ _ h => absurd h nofun

theorem coded_charge (amount : Nat) : Coded (l.charge amount) := coded_guard coded_ok

theorem coded_charges : ∀ s : Text, Coded (l.charges s)
  | [] => coded_ok
  | c :: cs => by
      intro a code h
      unfold Limits.charges at h
      by_cases hc : isSurrogate c = true
      · rw [if_pos hc] at h
        exact Or.inr (Except.error.inj h).symm
      · rw [if_neg hc] at h
        exact coded_bind (coded_charge _) (coded_charges cs) a _ h

theorem coded_stringSize (s : Text) : Coded (l.stringSize s) :=
  coded_bind (coded_charge 2) (coded_charges s)

theorem coded_enter (depth : Nat) : Coded (l.enter depth) := coded_guard coded_ok

theorem coded_intSize (i : Int) : Coded (l.intSize i) :=
  coded_guard (coded_guard (coded_charge _))

theorem coded_open (n : Nat) : Coded (l.open n) := coded_guard (coded_charge _)

mutual

theorem coded_visit (depth : Nat) : ∀ v : Json, Coded (l.visit depth v)
  | .null => coded_bind (coded_enter depth) (coded_charge 4)
  | .bool _ => coded_bind (coded_enter depth) (coded_charge _)
  | .int i => coded_bind (coded_enter depth) (coded_intSize i)
  | .float _ => coded_bind (coded_enter depth) (coded_charge _)
  | .str s => coded_bind (coded_enter depth) (coded_stringSize s)
  | .arr items => coded_bind (coded_enter depth)
      (coded_bind (coded_open _) (coded_visitItems (depth + 1) items))
  | .obj fields => coded_bind (coded_enter depth)
      (coded_bind (coded_open _) (coded_visitFields (depth + 1) fields))

theorem coded_visitItems (depth : Nat) : ∀ xs : List Json, Coded (l.visitItems depth xs)
  | [] => coded_ok
  | x :: xs => coded_bind (coded_visit depth x) (coded_visitItems depth xs)

theorem coded_visitFields (depth : Nat) : ∀ fs : List (Text × Json), Coded (l.visitFields depth fs)
  | [] => coded_ok
  | (k, v) :: fs => coded_bind (coded_stringSize k) (coded_bind (coded_charge 1)
      (coded_bind (coded_visit depth v) (coded_visitFields depth fs)))

end

theorem validateJson_code {v : Json} {code : String} (h : validateJson l v = some code) :
    StateCode code := by
  unfold validateJson at h
  split at h
  · exact absurd h nofun
  next hvisit =>
    obtain rfl := Option.some.inj h
    exact coded_visit 0 v _ _ hvisit

end Codes

/-! ## Parts of an encoded document -/

/-- The rendered fields hold the rendered value of each field. -/
theorem mem_renderFields {fs : List (Text × Json)} {f : Text × Json} (hf : f ∈ fs) {c : Nat}
    (hc : c ∈ render f.2) : c ∈ renderFields fs := by
  induction fs with
  | nil => exact absurd hf List.not_mem_nil
  | cons g gs ih =>
      obtain ⟨k, v⟩ := g
      show c ∈ 44 :: (renderString k ++ 58 :: (render v ++ renderFields gs))
      refine List.mem_cons_of_mem _ (List.mem_append_right _ (List.mem_cons_of_mem _ ?_))
      rcases List.mem_cons.mp hf with rfl | hf
      · exact List.mem_append_left _ hc
      · exact List.mem_append_right _ (ih hf)

theorem mem_render_obj {fs : List (Text × Json)} {f : Text × Json} (hf : f ∈ fs) {c : Nat}
    (hc : c ∈ render f.2) : c ∈ render (.obj fs) := by
  cases fs with
  | nil => exact absurd hf List.not_mem_nil
  | cons g gs =>
      obtain ⟨k, v⟩ := g
      show c ∈ 123 :: (renderString k ++ 58 :: (render v ++ renderFields gs))
      refine List.mem_cons_of_mem _ (List.mem_append_right _ (List.mem_cons_of_mem _ ?_))
      rcases List.mem_cons.mp hf with rfl | hf
      · exact List.mem_append_left _ hc
      · exact List.mem_append_right _ (mem_renderFields hf hc)

/-- A field of a document that can be encoded can be encoded. -/
theorem dumps_field {fs : List (Text × Json)} {raw : Bytes} (h : dumps (.obj fs) = some raw)
    {f : Text × Json} (hf : f ∈ fs) : ∃ raw', dumps f.2 = some raw' := by
  unfold dumps encodeUtf8 at h ⊢
  split at h
  next hall =>
    refine ⟨_, if_pos (fun c hc => hall c ?_)⟩
    have hmem : (f.1, f.2.sortKeys) ∈ sortFields fs :=
      (sortFields_perm fs).mem_iff.mpr (List.mem_map_of_mem hf)
    exact mem_render_obj hmem hc
  next => exact absurd h nofun

end BoundedJson
