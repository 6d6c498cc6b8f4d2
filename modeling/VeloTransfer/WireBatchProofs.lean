import VeloTransfer.WireFrameProofs

/-! # The frames of a batch

    A request to push or to pull chunks, and the answers to both.  Whatever the limits
    of the interpreters on the two sides, these frames fit: the headers are short, and
    their integers have few digits.

    `encode_framed` — such a frame is written the same way by every interpreter, and
    read back by every interpreter. -/

namespace TransferWire

open CanonicalJson JsonDict JsonLine JsonLimits BoundedJson ByteFrame

/-! ## Headers -/

/-- One chunk of a push, in the header of a frame. -/
def pushItem (count : Nat) (sha : Text) : Json :=
  .obj [(ascii "count", .int count), (ascii "chunk_sha256", .str sha)]

def pushHeader (items : List Json) : Json := .obj [(ascii "chunks", .arr items)]

/-- One chunk that was read. -/
def pullItem (offset count : Nat) (sha : Text) : Json :=
  .obj [(ascii "offset", .int offset), (ascii "count", .int count), (ascii "chunk_sha256", .str sha)]

def successHeader (result : Json) : Json :=
  .obj [(ascii "status", .str (ascii "success")), (ascii "result", result)]

def pushAnswer (verified accepted : Nat) : Json :=
  successHeader (.obj [(ascii "verified_offset", .int verified), (ascii "accepted", .int accepted)])

def pullAnswer (verified : Nat) (items : List Json) : Json :=
  successHeader (.obj [(ascii "verified_offset", .int verified), (ascii "chunks", .arr items)])

def errorAnswer (code : Text) : Json :=
  .obj [(ascii "status", .str (ascii "error")), (ascii "error", .obj [(ascii "code", .str code)])]

/-! ## Lengths -/

/-- The integers of a batch have at most so many digits. -/
def DIGITS : Nat := 640

theorem renderItems_length {xs : List Json} {bound : Nat} (h : ∀ x ∈ xs, (render x).length ≤ bound) :
    (renderItems xs).length ≤ xs.length * (bound + 1) + 1 := by
  induction xs with
  | nil => simp [renderItems]
  | cons x xs ih =>
      have hx := h x List.mem_cons_self
      have hxs := ih (fun y hy => h y (List.mem_cons_of_mem _ hy))
      have hmul : (xs.length + 1) * (bound + 1) = xs.length * (bound + 1) + (bound + 1) := Nat.succ_mul ..
      simp only [renderItems, List.length_cons, List.length_append]
      omega

theorem render_arr_length {xs : List Json} {bound : Nat} (h : ∀ x ∈ xs, (render x).length ≤ bound) :
    (render (.arr xs)).length ≤ xs.length * (bound + 1) + 2 := by
  cases xs with
  | nil => exact (by decide : (render (.arr [])).length ≤ 2).trans (by omega)
  | cons x xs =>
      have hx := h x List.mem_cons_self
      have hxs := renderItems_length (fun y hy => h y (List.mem_cons_of_mem _ hy))
      have hmul : (xs.length + 1) * (bound + 1) = xs.length * (bound + 1) + (bound + 1) := Nat.succ_mul ..
      simp only [render, List.length_cons, List.length_append]
      omega

theorem renderInt_length {n k : Nat} (hk : 0 < k) (h : n < 10 ^ k) : (renderInt n).length ≤ k := by
  rw [renderInt, if_neg (by omega)]
  exact decimal_length hk h

theorem renderString_hex {s : Text} (h : Sha256.isHex s = true) : (renderString s).length = 66 := by
  rw [renderString_length (printable_hex h)]
  rw [Sha256.isHex, Bool.and_eq_true, beq_iff_eq] at h
  rw [h.1]

/-- What the text of a string takes. -/
theorem renderString_names : (renderString (ascii "count")).length = 7 ∧
    (renderString (ascii "chunk_sha256")).length = 14 ∧ (renderString (ascii "offset")).length = 8 ∧
    (renderString (ascii "chunks")).length = 8 ∧ (renderString (ascii "status")).length = 8 ∧
    (renderString (ascii "success")).length = 9 ∧ (renderString (ascii "result")).length = 8 ∧
    (renderString (ascii "verified_offset")).length = 17 ∧ (renderString (ascii "accepted")).length = 10 ∧
    (renderString (ascii "error")).length = 7 ∧ (renderString (ascii "code")).length = 6 := by
  decide

section Lengths

variable {offset count verified accepted : Nat} {sha code : Text} {items : List Json}

theorem pushItem_length (hcount : count < 10 ^ 129) (hsha : Sha256.isHex sha = true) :
    (render (pushItem count sha)).length ≤ 400 := by
  have hc := renderInt_length (by decide) hcount
  simp only [pushItem, render, renderFields, List.length_cons, List.length_append, List.length_nil,
    renderString_hex hsha, renderString_names]
  omega

theorem pullItem_length (hoffset : offset < 10 ^ 129) (hcount : count < 10 ^ 129) (hsha : Sha256.isHex sha = true) :
    (render (pullItem offset count sha)).length ≤ 400 := by
  have ho := renderInt_length (by decide) hoffset
  have hc := renderInt_length (by decide) hcount
  simp only [pullItem, render, renderFields, List.length_cons, List.length_append, List.length_nil,
    renderString_hex hsha, renderString_names]
  omega

theorem items_length (h : ∀ x ∈ items, (render x).length ≤ 400) (hfew : items.length ≤ 64) :
    (render (.arr items)).length ≤ 25666 := by
  have hitems := render_arr_length h
  have hmul : items.length * 401 ≤ 64 * 401 := Nat.mul_le_mul_right 401 hfew
  omega

theorem pushHeader_length (h : ∀ x ∈ items, (render x).length ≤ 400) (hfew : items.length ≤ 64) :
    (render (pushHeader items)).length ≤ HEADER_LIMIT := by
  have hitems := items_length h hfew
  have hlimit : HEADER_LIMIT = 1048576 := rfl
  simp only [pushHeader, render, renderFields, List.length_cons, List.length_append, List.length_nil,
    renderString_names]
  omega

theorem pullAnswer_length (hverified : verified < 10 ^ 129) (h : ∀ x ∈ items, (render x).length ≤ 400)
    (hfew : items.length ≤ 64) : (render (pullAnswer verified items)).length ≤ HEADER_LIMIT := by
  have hv := renderInt_length (by decide) hverified
  have hitems := items_length h hfew
  have hlimit : HEADER_LIMIT = 1048576 := rfl
  simp only [pullAnswer, successHeader, render, renderFields, List.length_cons, List.length_append,
    List.length_nil, renderString_names]
  omega

theorem pushAnswer_length (hverified : verified < 10 ^ 129) (haccepted : accepted < 10 ^ 129) :
    (render (pushAnswer verified accepted)).length ≤ HEADER_LIMIT := by
  have hv := renderInt_length (by decide) hverified
  have ha := renderInt_length (by decide) haccepted
  have hlimit : HEADER_LIMIT = 1048576 := rfl
  simp only [pushAnswer, successHeader, render, renderFields, List.length_cons, List.length_append,
    List.length_nil, renderString_names]
  omega

theorem errorAnswer_length (hcode : code ∈ CODES) : (render (errorAnswer code)).length ≤ HEADER_LIMIT := by
  have hc := renderString_length (printable_code hcode)
  have hshort := (plain_code hcode).1
  have hlimit : HEADER_LIMIT = 1048576 := rfl
  simp only [errorAnswer, render, renderFields, List.length_cons, List.length_append, List.length_nil,
    renderString_names]
  omega

end Lengths

/-! ## Digits -/

section Digits

variable {n offset count verified accepted : Nat} {sha code : Text} {items : List Json}

theorem fewDigits_int (hn : DIGITS ≤ n) (h : count < 10 ^ 129) : fewDigits n (.int count) = true := by
  have hlength : (decimal count).length ≤ 129 := decimal_length (by decide) h
  have hdigits : DIGITS = 640 := rfl
  exact decide_eq_true (show (decimal (Int.natAbs (count : Int))).length ≤ n by
    rw [Int.natAbs_natCast]
    omega)

theorem fewDigits_items (h : ∀ x ∈ items, fewDigits n x = true) : fewDigits n (.arr items) = true := by
  induction items with
  | nil => rfl
  | cons x xs ih =>
      exact Bool.and_eq_true_iff.mpr ⟨h x List.mem_cons_self, ih fun y hy => h y (List.mem_cons_of_mem _ hy)⟩

theorem fewDigits_obj {fs : List (Text × Json)} (h : ∀ f ∈ fs, fewDigits n f.2 = true) :
    fewDigits n (.obj fs) = true :=
  (fewDigitsFields_eq fs).trans (List.all_eq_true.mpr h)

end Digits

/-! ## Frames -/

/-- The frame of a header and a payload. -/
def frameOf (header : Json) (payload : Bytes) : Bytes :=
  MAGIC ++ littleEndian 4 ((render header).map UInt8.ofNat).length ++ (render header).map UInt8.ofNat ++ payload

section Frames

variable {py : Interpreter} {component : Component} {header : Json} {payload : Bytes}

/-- **A frame that fits** is written the same way by every interpreter, and read back by
    every interpreter. -/
theorem encode_framed (hexact : Exact component header payload) (hdigits : fewDigits py.digits header = true)
    (hshort : (render header).length ≤ HEADER_LIMIT) (hsmall : payload.length ≤ BATCH_LIMIT) :
    encode py header payload component = .ok (frameOf header payload) := by
  have hascii : ∀ c ∈ render header, c < 127 :=
    fun c hc => (visible_render header (exact_tame hexact).printable c hc).2
  have hdumps : jsonDumps py header = .ok ((render header).map UInt8.ofNat) := by
    rw [jsonDumps, if_pos hdigits, encodeUtf8_visible hascii]
  refine encode_iff.mpr ⟨_, hexact, hdumps, rfl, ?_, ?_⟩
  · rw [List.length_map]
    exact hshort
  · have hframe : (frameOf header payload).length = 8 + (render header).length + payload.length := by
      simp only [frameOf, List.length_append, littleEndian_length, List.length_map]
      rfl
    have hlimits : HEADER_LIMIT = 1048576 ∧ BATCH_LIMIT = 67108864 ∧ BODY_LIMIT = 104857600 := ⟨rfl, rfl, rfl⟩
    omega

/-- A frame that every interpreter writes and reads back. -/
def Fits (component : Component) (header : Json) (payload : Bytes) : Prop :=
  ∀ py : Interpreter, DIGITS ≤ py.digits → encode py header payload component = .ok (frameOf header payload) ∧
    decode py (frameOf header payload) component = .ok (header, payload)

theorem fits_of_exact (hexact : Exact component header payload)
    (hdigits : ∀ n, DIGITS ≤ n → fewDigits n header = true) (hshort : (render header).length ≤ HEADER_LIMIT)
    (hsmall : payload.length ≤ BATCH_LIMIT) : Fits component header payload := by
  intro py hpy
  have hencode := encode_framed hexact (hdigits _ hpy) hshort hsmall
  exact ⟨hencode, decode_encode hencode⟩

end Frames

/-! ## Batches -/

/-- The parts of a batch, none of them empty or too long, and not too many of them. -/
structure Sized (parts : List Bytes) : Prop where
  few : parts.length ≤ 64
  sized : ∀ p ∈ parts, 1 ≤ p.length ∧ p.length ≤ CHUNK_LIMIT
  small : parts.flatten.length ≤ BATCH_LIMIT

def pushItems (parts : List Bytes) : List Json := parts.map fun p => pushItem p.length (Sha256.hexdigest p)

/-- The items of parts that follow one another from an offset. -/
def pullItems : Nat → List Bytes → List Json
  | _, [] => []
  | offset, p :: ps => pullItem offset p.length (Sha256.hexdigest p) :: pullItems (offset + p.length) ps

/-- Where each of the parts lies. -/
def placed : Nat → List Bytes → List Chunk
  | _, [] => []
  | offset, p :: ps => { offset := some offset, bytes := p } :: placed (offset + p.length) ps

section Batches

variable {parts : List Bytes} {offset verified accepted : Nat} {code : Text}

theorem sized_lt (h : Sized parts) : ∀ p ∈ parts, p.length < 10 ^ 129 := fun p hp =>
  Nat.lt_of_le_of_lt (h.sized p hp).2 (by decide)

theorem pushItems_told (h : Sized parts) : List.Forall₂ (ItemOf .pushRequest) (pushItems parts)
    (parts.map fun p => { offset := none, bytes := p }) := by
  rw [pushItems, List.forall₂_map_left_iff, List.forall₂_map_right_iff, List.forall₂_same]
  intro p hp
  exact ⟨⟨_, rfl, rfl, rfl, rfl, nofun⟩, fun _ => rfl, (h.sized p hp).1, (h.sized p hp).2⟩

theorem push_flat : parts.flatten = (parts.map fun p => ({ offset := none, bytes := p } : Chunk)).flatMap Chunk.bytes := by
  rw [List.flatMap_map, List.flatMap_id']

theorem push_chain : List.IsChain Follows (parts.map fun p => ({ offset := none, bytes := p } : Chunk)) := by
  induction parts with
  | nil => exact .nil
  | cons p ps ih =>
      cases ps with
      | nil => exact .singleton _
      | cons q qs => exact .cons_cons nofun ih

theorem exact_push (h : Sized parts) (hsome : parts ≠ []) :
    Exact .pushRequest (pushHeader (pushItems parts)) parts.flatten := by
  refine .pushRequest rfl rfl ⟨pushItems_told h, push_flat, push_chain, ?_, h.small⟩
  rw [pushItems, List.length_map]
  exact ⟨List.length_pos_iff.mpr hsome, h.few⟩

theorem pullItems_length : (pullItems offset parts).length = parts.length := by
  induction parts generalizing offset with
  | nil => rfl
  | cons p ps ih => exact congrArg Nat.succ ih

theorem pullItems_told (h : ∀ p ∈ parts, 1 ≤ p.length ∧ p.length ≤ CHUNK_LIMIT) :
    List.Forall₂ (ItemOf .pullResponse) (pullItems offset parts) (placed offset parts) := by
  induction parts generalizing offset with
  | nil => exact .nil
  | cons p ps ih =>
      refine .cons ?_ (ih fun q hq => h q (List.mem_cons_of_mem _ hq))
      have hp := h p List.mem_cons_self
      exact ⟨⟨_, rfl, rfl, rfl, rfl, fun _ => ⟨_, rfl, Int.natCast_nonneg _, rfl⟩⟩, fun hne => absurd rfl hne, hp.1, hp.2⟩

theorem placed_flat : parts.flatten = (placed offset parts).flatMap Chunk.bytes := by
  induction parts generalizing offset with
  | nil => rfl
  | cons p ps ih => exact congrArg (p ++ ·) ih

theorem placed_chain : List.IsChain Follows (placed offset parts) := by
  induction parts generalizing offset with
  | nil => exact .nil
  | cons p ps ih =>
      cases ps with
      | nil => exact .singleton _
      | cons q qs =>
          refine .cons_cons (fun o ho => ?_) ih
          obtain rfl := Option.some.inj ho
          rfl

theorem exact_pull (h : Sized parts) :
    Exact .pullResponse (pullAnswer verified (pullItems offset parts)) parts.flatten := by
  refine .pullResponse rfl rfl rfl rfl rfl (Int.natCast_nonneg _) rfl
    ⟨pullItems_told h.sized, placed_flat, placed_chain, ?_, h.small⟩
  rw [pullItems_length]
  exact ⟨Nat.zero_le _, h.few⟩

/-! ## The frames of a batch fit -/

theorem pushItems_short (h : Sized parts) : ∀ x ∈ pushItems parts, (render x).length ≤ 400 := by
  intro x hx
  obtain ⟨p, hp, rfl⟩ := List.mem_map.mp hx
  exact pushItem_length (sized_lt h p hp) (Sha256.isHex_hexdigest p)

theorem pullItems_short (h : ∀ p ∈ parts, p.length < 10 ^ 129) (hend : offset + parts.flatten.length < 10 ^ 129) :
    ∀ x ∈ pullItems offset parts, (render x).length ≤ 400 := by
  induction parts generalizing offset with
  | nil => exact nofun
  | cons p ps ih =>
      rw [List.flatten_cons, List.length_append] at hend
      intro x hx
      rcases List.mem_cons.mp hx with rfl | hx
      · exact pullItem_length (by omega) (h p List.mem_cons_self) (Sha256.isHex_hexdigest p)
      · exact ih (fun q hq => h q (List.mem_cons_of_mem _ hq)) (by omega) x hx

theorem pushItems_digits {n : Nat} (hn : DIGITS ≤ n) (h : Sized parts) :
    ∀ x ∈ pushItems parts, fewDigits n x = true := by
  intro x hx
  obtain ⟨p, hp, rfl⟩ := List.mem_map.mp hx
  refine fewDigits_obj fun f hf => ?_
  rcases List.mem_cons.mp hf with rfl | hf
  · exact fewDigits_int hn (sized_lt h p hp)
  · obtain rfl := List.mem_singleton.mp hf
    rfl

theorem pullItems_digits {n : Nat} (hn : DIGITS ≤ n) (h : ∀ p ∈ parts, p.length < 10 ^ 129)
    (hend : offset + parts.flatten.length < 10 ^ 129) : ∀ x ∈ pullItems offset parts, fewDigits n x = true := by
  induction parts generalizing offset with
  | nil => exact nofun
  | cons p ps ih =>
      rw [List.flatten_cons, List.length_append] at hend
      intro x hx
      rcases List.mem_cons.mp hx with rfl | hx
      · refine fewDigits_obj fun f hf => ?_
        rcases List.mem_cons.mp hf with rfl | hf
        · exact fewDigits_int hn (by omega)
        · rcases List.mem_cons.mp hf with rfl | hf
          · exact fewDigits_int hn (h p List.mem_cons_self)
          · obtain rfl := List.mem_singleton.mp hf
            rfl
      · exact ih (fun q hq => h q (List.mem_cons_of_mem _ hq)) (by omega) x hx

theorem fits_pullRequest : Fits .pullRequest (.obj []) [] :=
  fits_of_exact .pullRequest (fun _ _ => rfl) (by decide) (Nat.zero_le _)

theorem fits_push (h : Sized parts) (hsome : parts ≠ []) :
    Fits .pushRequest (pushHeader (pushItems parts)) parts.flatten := by
  refine fits_of_exact (exact_push h hsome) (fun n hn => ?_) ?_ h.small
  · refine fewDigits_obj fun f hf => ?_
    obtain rfl := List.mem_singleton.mp hf
    exact fewDigits_items (pushItems_digits hn h)
  · refine pushHeader_length (pushItems_short h) ?_
    rw [pushItems, List.length_map]
    exact h.few

theorem fits_successHeader {component : Component} {result : List (Text × Json)} {payload : Bytes}
    (hexact : Exact component (successHeader (.obj result)) payload)
    (hdigits : ∀ n, DIGITS ≤ n → ∀ f ∈ result, fewDigits n f.2 = true)
    (hshort : (render (successHeader (.obj result))).length ≤ HEADER_LIMIT) (hsmall : payload.length ≤ BATCH_LIMIT) :
    Fits component (successHeader (.obj result)) payload := by
  refine fits_of_exact hexact (fun n hn => fewDigits_obj fun f hf => ?_) hshort hsmall
  rcases List.mem_cons.mp hf with rfl | hf
  · rfl
  · obtain rfl := List.mem_singleton.mp hf
    exact fewDigits_obj (hdigits n hn)

theorem fits_pushAnswer (hverified : verified < 10 ^ 129) (hsome : 1 ≤ accepted) (hfew : accepted ≤ 64) :
    Fits .pushResponse (pushAnswer verified accepted) [] := by
  have haccepted : accepted < 10 ^ 129 := Nat.lt_of_le_of_lt hfew (by decide)
  refine fits_successHeader (.pushResponse rfl rfl rfl rfl rfl (Int.natCast_nonneg _) rfl (by omega) (by omega))
    (fun n hn f hf => ?_) (pushAnswer_length hverified haccepted) (Nat.zero_le _)
  rcases List.mem_cons.mp hf with rfl | hf
  · exact fewDigits_int hn hverified
  · obtain rfl := List.mem_singleton.mp hf
    exact fewDigits_int hn haccepted

theorem fits_pullAnswer (h : Sized parts) (hverified : verified < 10 ^ 129)
    (hend : offset + parts.flatten.length < 10 ^ 129) :
    Fits .pullResponse (pullAnswer verified (pullItems offset parts)) parts.flatten := by
  refine fits_successHeader (exact_pull h) (fun n hn f hf => ?_)
    (pullAnswer_length hverified (pullItems_short (sized_lt h) hend) (by rw [pullItems_length]; exact h.few)) h.small
  rcases List.mem_cons.mp hf with rfl | hf
  · exact fewDigits_int hn hverified
  · obtain rfl := List.mem_singleton.mp hf
    exact fewDigits_items (pullItems_digits hn (sized_lt h) hend)

theorem fits_errorAnswer (h : code ∈ CODES) : Fits .errorResponse (errorAnswer code) [] := by
  refine fits_of_exact (.errorResponse rfl rfl rfl rfl rfl h) (fun n _ => fewDigits_obj fun f hf => ?_)
    (errorAnswer_length h) (Nat.zero_le _)
  rcases List.mem_cons.mp hf with rfl | hf
  · rfl
  · obtain rfl := List.mem_singleton.mp hf
    rfl

end Batches

end TransferWire
