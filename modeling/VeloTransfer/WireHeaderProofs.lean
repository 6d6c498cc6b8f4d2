import VeloTransfer.WireFrameProofs

/-! # The headers of a binary request

    A binary request says in its headers what a call of the tool says in its arguments.
    A header is one line of ASCII, and carries neither a comma nor blanks around it.

    * `oneHeader_sent` — a text that a header can carry is read back as it was;
    * `requestHeaders_sent` — so is what a request says, where its offset has at most
      128 digits;
    * `requestHeaders_read` — and nothing else is read at all. -/

namespace TransferWire

open CanonicalJson JsonDict ExceptRules

/-! ## Headers -/

abbrev Headers := List (Bytes × Bytes)

def textOf (bs : Bytes) : Text := bs.map UInt8.toNat

/-- `bytes.lower`. -/
def lower (bs : Bytes) : Bytes := bs.map fun b => if 65 ≤ b ∧ b ≤ 90 then b + 32 else b

/-- What `str.strip` takes off, among the ASCII characters. -/
def isBlank (c : Nat) : Bool := (9 ≤ c && c ≤ 13) || (28 ≤ c && c ≤ 32)

def strip (t : Text) : Text := ((t.dropWhile isBlank).reverse.dropWhile isBlank).reverse

/-- The values under a name, which is compared without regard to case. -/
def valuesOf (headers : Headers) (name : String) : List Bytes :=
  (headers.filter fun h => textOf (lower h.1) == ascii name).map Prod.snd

/-- A value as a text: ASCII, not empty, without a comma and without blanks around it. -/
def headerText (value : Bytes) : Except Failure Text := do
  refuseIf (value.any (fun b => 128 ≤ b) = true)
  refuseIf (textOf value = [] ∨ strip (textOf value) ≠ textOf value ∨ 44 ∈ textOf value)
  pure (textOf value)

/-- `one_header`. -/
def oneHeader (headers : Headers) (name : String) (required : Bool) : Except Failure (Option Text) :=
  match valuesOf headers name with
  | [] => if required then refuse else .ok none
  | [value] => do
      let text ← headerText value
      pure (some text)
  | _ => refuse

/-- `one_header`, of a header that has to be there. -/
def requiredHeader (headers : Headers) (name : String) : Except Failure Text := do
  let value ← oneHeader headers name true
  pure (value.getD [])

inductive Direction where
  | push
  | pull
deriving Repr, DecidableEq

def Direction.name : Direction → String
  | .push => "push"
  | .pull => "pull"

def directionOf (t : Text) : Except Failure Direction :=
  if t = ascii "push" then .ok .push
  else if t = ascii "pull" then .ok .pull
  else refuse

/-- `0|[1-9][0-9]*`. -/
def isDecimal : Text → Bool
  | [] => false
  | [48] => true
  | c :: cs => 49 ≤ c && c ≤ 57 && cs.all isDigit

/-- A number in a header. -/
def numberOf (raw : Text) (minimum : Nat) (maximum : Option Nat) : Except Failure Nat := do
  refuseIf (raw.length > 128 ∨ isDecimal raw = false)
  refuseIf (ofDigits 0 raw < minimum ∨ maximum.any (fun m => decide (m < ofDigits 0 raw)) = true)
  pure (ofDigits 0 raw)

/-- A number that the requests of one direction have to name, and the others must not. -/
def pullNumber (headers : Headers) (direction : Direction) (name : String) (maximum : Nat) :
    Except Failure (Option Nat) := do
  let raw ← oneHeader headers name (direction = .pull)
  match direction, raw with
  | .push, none => pure none
  | .push, some _ => refuse
  | .pull, raw => do
      let n ← numberOf (raw.getD []) 1 (some maximum)
      pure (some n)

/-- What the headers of a binary request say. -/
structure ChunkHeaders where
  direction : Direction
  transferId : Text
  requestDigest : Text
  offset : Nat
  countPerChunk : Option Nat
  chunkCount : Option Nat
deriving Repr, DecidableEq

/-- `request_headers`. -/
def requestHeaders (headers : Headers) : Except Failure ChunkHeaders := do
  let direction ← requiredHeader headers "x-velo-direction"
  let direction ← directionOf direction
  let transferId ← requiredHeader headers "x-velo-transfer-id"
  let requestDigest ← requiredHeader headers "x-velo-request-digest"
  refuseIf (¬ (1 ≤ transferId.length ∧ transferId.length ≤ 128))
  refuseIf (Sha256.isHex requestDigest = false)
  let offset ← requiredHeader headers "x-velo-offset"
  let offset ← numberOf offset 0 none
  let countPerChunk ← pullNumber headers direction "x-velo-count-per-chunk" CHUNK_LIMIT
  let chunkCount ← pullNumber headers direction "x-velo-chunk-count" 64
  pure { direction, transferId, requestDigest, offset, countPerChunk, chunkCount }

/-! ## What a client sends -/

def headerBytes (t : Text) : Bytes := t.map UInt8.ofNat

/-- The headers of a request, from their names and values. -/
def headersOf (pairs : List (String × Text)) : Headers :=
  pairs.map fun p => (headerBytes (ascii p.1), headerBytes p.2)

/-- The headers of a binary request that say what it asks. -/
def askedPairs (h : ChunkHeaders) : List (String × Text) :=
  [("x-velo-direction", ascii h.direction.name), ("x-velo-transfer-id", h.transferId),
    ("x-velo-request-digest", h.requestDigest), ("x-velo-offset", decimal h.offset)]

def countPairs (h : ChunkHeaders) : List (String × Text) :=
  (h.countPerChunk.toList.map fun n => ("x-velo-count-per-chunk", decimal n)) ++
  (h.chunkCount.toList.map fun n => ("x-velo-chunk-count", decimal n))

/-- The names of the headers of a binary request, with the version of the protocol or
    without. -/
def sentNames (direction : Direction) (versioned : Bool) : List String :=
  ["Mcp-Session-Id", "X-MCP-Server-Instance", "Content-Type", "x-velo-direction", "x-velo-transfer-id",
    "x-velo-request-digest", "x-velo-offset"] ++
  (if versioned then ["Mcp-Protocol-Version"] else []) ++
  match direction with
  | .push => []
  | .pull => ["x-velo-count-per-chunk", "x-velo-chunk-count"]

/-- A text that a header can carry. -/
structure Sendable (t : Text) : Prop where
  ascii : ∀ c ∈ t, c < 128
  some : t ≠ []
  trimmed : strip t = t
  single : 44 ∉ t

/-- Characters from `-` on and below the last one need no care. -/
structure Plain (t : Text) : Prop where
  some : t ≠ []
  visible : ∀ c ∈ t, 45 ≤ c ∧ c < 127

/-- What a request says can be carried, and is what its direction allows. -/
structure ChunkHeaders.Carried (h : ChunkHeaders) : Prop where
  transferId : Sendable h.transferId
  short : h.transferId.length ≤ 128
  requestDigest : Sha256.isHex h.requestDigest = true
  offset : h.offset < 10 ^ 128
  pushed : h.direction = .push → h.countPerChunk = none ∧ h.chunkCount = none
  pulled : h.direction = .pull → ∃ count chunks, h.countPerChunk = some count ∧ h.chunkCount = some chunks ∧
    (1 ≤ count ∧ count ≤ CHUNK_LIMIT) ∧ 1 ≤ chunks ∧ chunks ≤ 64

/-- Whether a name that is sent is the name that is asked for. -/
def sameName (sent name : String) : Bool := textOf (lower (headerBytes (ascii sent))) == ascii name

theorem textOf_headerBytes {t : Text} (h : ∀ c ∈ t, c < 128) : textOf (headerBytes t) = t := by
  rw [textOf, headerBytes, List.map_map]
  refine (List.map_congr_left fun c hc => ?_).trans (List.map_id t)
  have hc := h c hc
  show (UInt8.ofNat c).toNat = c
  rw [UInt8.toNat_ofNat', Nat.mod_eq_of_lt (by omega)]

theorem headerText_sent {t : Text} (h : Sendable t) : headerText (headerBytes t) = .ok t := by
  have hascii : ¬ (headerBytes t).any (fun b => 128 ≤ b) = true := by
    intro hany
    obtain ⟨b, hb, hlarge⟩ := List.any_eq_true.mp hany
    obtain ⟨c, hc, rfl⟩ := List.mem_map.mp hb
    have hc := h.ascii c hc
    have hnat : 128 ≤ (UInt8.ofNat c).toNat := UInt8.le_iff_toNat_le.mp (of_decide_eq_true hlarge)
    rw [UInt8.toNat_ofNat', Nat.mod_eq_of_lt (by omega)] at hnat
    omega
  have hclean : ¬ (t = [] ∨ strip t ≠ t ∨ 44 ∈ t) := by
    rintro (hnil | hstrip | hcomma)
    · exact h.some hnil
    · exact hstrip h.trimmed
    · exact h.single hcomma
  rw [headerText, textOf_headerBytes h.ascii, refuseIf, if_neg hascii, refuseIf, if_neg hclean]
  rfl

/-- What is read back is what was sent, and a header can carry it. -/
theorem headerText_read {t u : Text} (hascii : ∀ c ∈ t, c < 128) (h : headerText (headerBytes t) = .ok u) :
    u = t ∧ Sendable t := by
  rw [headerText, textOf_headerBytes hascii] at h
  simp only [bind_ok_iff, refuseIf_ok, not_or, not_not] at h
  obtain ⟨-, -, -, ⟨hsome, htrimmed, hsingle⟩, h⟩ := h
  exact ⟨(Except.ok.inj h).symm, hascii, hsome, htrimmed, hsingle⟩

/-- One of the names that are sent is the name that is asked for. -/
theorem valuesOf_one {pairs : List (String × Text)} {name n : String} {t : Text}
    (hone : (pairs.map Prod.fst).filter (sameName · name) = [n]) (hmem : (n, t) ∈ pairs) :
    valuesOf (headersOf pairs) name = [headerBytes t] := by
  have hfilter : valuesOf (headersOf pairs) name =
      (pairs.filter fun p => sameName p.1 name).map fun p => headerBytes p.2 := by
    rw [valuesOf, headersOf, List.filter_map, List.map_map]
    rfl
  have hfst : (pairs.filter fun p => sameName p.1 name).map Prod.fst = [n] := by
    rw [← hone, List.filter_map]
    rfl
  have hin : (n, t) ∈ pairs.filter fun p => sameName p.1 name := by
    have hn : n ∈ (pairs.map Prod.fst).filter (sameName · name) := by
      rw [hone]
      exact List.mem_singleton_self n
    exact List.mem_filter.mpr ⟨hmem, (List.mem_filter.mp hn).2⟩
  obtain ⟨p, hp, -⟩ := List.map_eq_singleton_iff.mp hfst
  rw [hp, List.mem_singleton] at hin
  rw [hfilter, hp, ← hin]
  rfl

/-- None of the names that are sent is the name that is asked for. -/
theorem valuesOf_none {pairs : List (String × Text)} {name : String}
    (h : (pairs.map Prod.fst).filter (sameName · name) = []) : valuesOf (headersOf pairs) name = [] := by
  rw [valuesOf, headersOf, List.filter_map, List.map_map, List.map_eq_nil_iff]
  rw [List.filter_map, List.map_eq_nil_iff] at h
  exact h

/-- **A text that a header can carry is read back as it was.** -/
theorem oneHeader_sent {pairs : List (String × Text)} {name n : String} {t : Text} (required : Bool)
    (hone : (pairs.map Prod.fst).filter (sameName · name) = [n]) (hmem : (n, t) ∈ pairs) (ht : Sendable t) :
    oneHeader (headersOf pairs) name required = .ok (some t) := by
  rw [oneHeader, valuesOf_one hone hmem]
  dsimp only
  rw [headerText_sent ht]
  rfl

theorem requiredHeader_sent {pairs : List (String × Text)} {name n : String} {t : Text}
    (hone : (pairs.map Prod.fst).filter (sameName · name) = [n]) (hmem : (n, t) ∈ pairs) (ht : Sendable t) :
    requiredHeader (headersOf pairs) name = .ok t := by
  rw [requiredHeader, oneHeader_sent true hone hmem ht]
  rfl

theorem strip_of_no_blank {t : Text} (h : ∀ c ∈ t, isBlank c = false) : strip t = t := by
  have hdrop : ∀ u : Text, (∀ c ∈ u, isBlank c = false) → u.dropWhile isBlank = u := by
    intro u hu
    cases u with
    | nil => rfl
    | cons c cs => rw [List.dropWhile_cons_of_neg (by rw [hu c List.mem_cons_self]; exact Bool.false_ne_true)]
  rw [strip, hdrop t h, hdrop t.reverse (fun c hc => h c (List.mem_reverse.mp hc)), List.reverse_reverse]

theorem sendable_of_plain {t : Text} (h : Plain t) : Sendable t where
  ascii := fun c hc => Nat.lt_succ_of_lt (h.visible c hc).2
  some := h.some
  trimmed := strip_of_no_blank fun c hc => by
    have hc := (h.visible c hc).1
    simp only [isBlank, Bool.or_eq_false_iff, Bool.and_eq_false_iff, decide_eq_false_iff_not]
    omega
  single := fun hc => absurd (h.visible 44 hc).1 (by decide)

theorem plain_decimal (n : Nat) : Plain (decimal n) := by
  obtain ⟨c, cs, hcons, -⟩ := decimal_cons n
  refine ⟨by rw [hcons]; exact nofun, fun c hc => ?_⟩
  have hdigit := decimal_digits n c hc
  simp only [isDigit, Bool.and_eq_true, decide_eq_true_eq] at hdigit
  omega

theorem plain_hex {t : Text} (h : Sha256.isHex t = true) : Plain t := by
  rw [Sha256.isHex, Bool.and_eq_true, List.all_eq_true, beq_iff_eq] at h
  refine ⟨?_, fun c hc => ?_⟩
  · rintro rfl
    cases h.1
  · have hchar := h.2 c hc
    simp only [Sha256.isHexChar, Bool.or_eq_true, Bool.and_eq_true, decide_eq_true_eq] at hchar
    omega

theorem plain_direction (d : Direction) : Plain (ascii d.name) := by
  cases d <;> exact ⟨by decide, by decide⟩

theorem sendable_decimal (n : Nat) : Sendable (decimal n) := sendable_of_plain (plain_decimal n)

theorem isDecimal_decimal (n : Nat) : isDecimal (decimal n) = true := by
  obtain ⟨c, cs, hcons, hdigit, hzero⟩ := decimal_cons n
  have hall : cs.all isDigit = true := List.all_eq_true.mpr fun d hd =>
    decimal_digits n d (by rw [hcons]; exact List.mem_cons_of_mem _ hd)
  rw [hcons]
  by_cases hc : c = 48
  · rw [hc, hzero hc]
    rfl
  · simp only [isDigit, Bool.and_eq_true, decide_eq_true_eq] at hdigit
    rw [isDecimal]
    · simp only [hall, Bool.and_true, Bool.and_eq_true, decide_eq_true_eq]
      omega
    · exact fun h _ => hc h

theorem numberOf_decimal {n minimum : Nat} {maximum : Option Nat} (hshort : n < 10 ^ 128) (hmin : minimum ≤ n)
    (hmax : ∀ m, maximum = some m → n ≤ m) : numberOf (decimal n) minimum maximum = .ok n := by
  have hwritten : ¬ ((decimal n).length > 128 ∨ isDecimal (decimal n) = false) := by
    rintro (hlong | hbad)
    · exact absurd (decimal_length (by decide) hshort) (Nat.not_le.mpr hlong)
    · exact absurd ((isDecimal_decimal n).symm.trans hbad) nofun
  have hrange : ¬ (n < minimum ∨ maximum.any (fun m => decide (m < n)) = true) := by
    rintro (hlow | hhigh)
    · exact absurd hmin (Nat.not_le.mpr hlow)
    · cases maximum with
      | none => exact absurd hhigh nofun
      | some m => exact absurd (hmax m rfl) (Nat.not_le.mpr (of_decide_eq_true hhigh))
  rw [numberOf, ofDigits_decimal, refuseIf, if_neg hwritten, refuseIf, if_neg hrange]
  rfl

theorem directionOf_name (d : Direction) : directionOf (ascii d.name) = .ok d := by
  cases d <;> rfl

/-- A number that is read has as many digits as are allowed at most. -/
theorem numberOf_read {n m minimum : Nat} {maximum : Option Nat}
    (h : numberOf (decimal n) minimum maximum = .ok m) : n < 10 ^ 128 := by
  simp only [numberOf, bind_ok_iff, refuseIf_ok, not_or, not_lt] at h
  obtain ⟨-, ⟨hlength, -⟩, -⟩ := h
  have hlt := ofDigits_lt (decimal_digits n)
  rw [ofDigits_decimal] at hlt
  exact hlt.trans_le (Nat.pow_le_pow_right (by decide) hlength)

/-- Each name that is always sent is sent once. -/
theorem sentNames_one (direction : Direction) (versioned : Bool) {name n : String}
    (h : (name, n) ∈ [("mcp-session-id", "Mcp-Session-Id"), ("x-mcp-server-instance", "X-MCP-Server-Instance"),
      ("content-type", "Content-Type"), ("x-velo-direction", "x-velo-direction"),
      ("x-velo-transfer-id", "x-velo-transfer-id"), ("x-velo-request-digest", "x-velo-request-digest"),
      ("x-velo-offset", "x-velo-offset")]) :
    (sentNames direction versioned).filter (sameName · name) = [n] := by
  simp only [List.mem_cons, Prod.mk.injEq, List.not_mem_nil, or_false] at h
  rcases h with ⟨rfl, rfl⟩ | ⟨rfl, rfl⟩ | ⟨rfl, rfl⟩ | ⟨rfl, rfl⟩ | ⟨rfl, rfl⟩ | ⟨rfl, rfl⟩ | ⟨rfl, rfl⟩ <;>
    cases direction <;> cases versioned <;> decide

/-- The numbers of a pull are sent by a pull only. -/
theorem sentNames_pull (versioned : Bool) {name : String}
    (h : name ∈ ["x-velo-count-per-chunk", "x-velo-chunk-count"]) :
    (sentNames .pull versioned).filter (sameName · name) = [name] ∧
      (sentNames .push versioned).filter (sameName · name) = [] := by
  simp only [List.mem_cons, List.not_mem_nil, or_false] at h
  rcases h with rfl | rfl <;> cases versioned <;> decide

theorem pullNumber_pushed {pairs : List (String × Text)} {versioned : Bool} {name : String} (maximum : Nat)
    (hnames : pairs.map Prod.fst = sentNames .push versioned)
    (hname : name ∈ ["x-velo-count-per-chunk", "x-velo-chunk-count"]) :
    pullNumber (headersOf pairs) .push name maximum = .ok none := by
  have hnone : valuesOf (headersOf pairs) name = [] :=
    valuesOf_none (by rw [hnames]; exact (sentNames_pull versioned hname).2)
  rw [pullNumber, oneHeader, hnone]
  rfl

theorem pullNumber_pulled {pairs : List (String × Text)} {versioned : Bool} {name : String} {n maximum : Nat}
    (hnames : pairs.map Prod.fst = sentNames .pull versioned)
    (hname : name ∈ ["x-velo-count-per-chunk", "x-velo-chunk-count"]) (hmem : (name, decimal n) ∈ pairs)
    (hmin : 1 ≤ n) (hmax : n ≤ maximum) (hsmall : maximum < 10 ^ 128) :
    pullNumber (headersOf pairs) .pull name maximum = .ok (some n) := by
  have hsent := oneHeader_sent (decide (Direction.pull = .pull))
    (by rw [hnames]; exact (sentNames_pull versioned hname).1) hmem (sendable_decimal n)
  have hnumber : numberOf (decimal n) 1 (some maximum) = .ok n :=
    numberOf_decimal (Nat.lt_of_le_of_lt hmax hsmall) hmin (fun m hm => Option.some.inj hm ▸ hmax)
  rw [pullNumber, hsent]
  show (numberOf (decimal n) 1 (some maximum) >>= fun n => pure (some n)) = _
  rw [hnumber]
  rfl

/-- **What a request says in its headers is read back as it was.** -/
theorem requestHeaders_sent {pairs : List (String × Text)} {versioned : Bool} {h : ChunkHeaders} (hc : h.Carried)
    (hnames : pairs.map Prod.fst = sentNames h.direction versioned) (hmem : ∀ p ∈ askedPairs h ++ countPairs h, p ∈ pairs) :
    requestHeaders (headersOf pairs) = .ok h := by
  have hsent : ∀ name t, (name, t) ∈ [("x-velo-direction", ascii h.direction.name),
      ("x-velo-transfer-id", h.transferId), ("x-velo-request-digest", h.requestDigest),
      ("x-velo-offset", decimal h.offset)] → Sendable t → requiredHeader (headersOf pairs) name = .ok t := by
    intro name t hp ht
    have hin : (name, t) ∈ pairs := hmem _ (List.mem_append_left _ hp)
    refine requiredHeader_sent (n := name) ?_ hin ht
    rw [hnames]
    refine sentNames_one _ _ ?_
    simp only [List.mem_cons, Prod.mk.injEq, List.not_mem_nil, or_false] at hp ⊢
    rcases hp with ⟨rfl, -⟩ | ⟨rfl, -⟩ | ⟨rfl, -⟩ | ⟨rfl, -⟩ <;> decide
  have hdirection := hsent "x-velo-direction" _ (by simp) (sendable_of_plain (plain_direction h.direction))
  have hid := hsent "x-velo-transfer-id" _ (by simp) hc.transferId
  have hdigest := hsent "x-velo-request-digest" _ (by simp) (sendable_of_plain (plain_hex hc.requestDigest))
  have hoffset := hsent "x-velo-offset" _ (by simp) (sendable_decimal h.offset)
  have hlength : ¬ ¬ (1 ≤ h.transferId.length ∧ h.transferId.length ≤ 128) :=
    not_not.mpr ⟨List.length_pos_iff.mpr hc.transferId.some, hc.short⟩
  have hhex : ¬ Sha256.isHex h.requestDigest = false := by
    rw [hc.requestDigest]
    exact nofun
  have hnumber : numberOf (decimal h.offset) 0 none = .ok h.offset :=
    numberOf_decimal hc.offset (Nat.zero_le _) nofun
  have hcounts : pullNumber (headersOf pairs) h.direction "x-velo-count-per-chunk" CHUNK_LIMIT = .ok h.countPerChunk ∧
      pullNumber (headersOf pairs) h.direction "x-velo-chunk-count" 64 = .ok h.chunkCount := by
    obtain ⟨direction, transferId, requestDigest, offset, countPerChunk, chunkCount⟩ := h
    cases direction with
    | push =>
        obtain ⟨rfl, rfl⟩ := hc.pushed rfl
        exact ⟨pullNumber_pushed _ hnames (by simp), pullNumber_pushed _ hnames (by simp)⟩
    | pull =>
        obtain ⟨count, chunks, rfl, rfl, ⟨hone, hmost⟩, hsome, hfew⟩ := hc.pulled rfl
        exact ⟨pullNumber_pulled hnames (by simp) (hmem _ (by simp [countPairs])) hone hmost (by decide),
          pullNumber_pulled hnames (by simp) (hmem _ (by simp [countPairs])) hsome hfew (by decide)⟩
  simp only [requestHeaders, refuseIf, hdirection, directionOf_name, hid, hdigest, hoffset, hnumber, hcounts.1,
    hcounts.2, if_neg hlength, if_neg hhex, bind, Except.bind, pure, Except.pure]

theorem requiredHeader_read {pairs : List (String × Text)} {name n : String} {t u : Text}
    (hone : (pairs.map Prod.fst).filter (sameName · name) = [n]) (hmem : (n, t) ∈ pairs)
    (hascii : ∀ c ∈ t, c < 128) (h : requiredHeader (headersOf pairs) name = .ok u) : u = t ∧ Sendable t := by
  rw [requiredHeader, oneHeader, valuesOf_one hone hmem] at h
  simp only [bind_ok_iff] at h
  obtain ⟨_, ⟨text, htext, hvalue⟩, h⟩ := h
  obtain rfl := Except.ok.inj hvalue
  obtain rfl := Except.ok.inj h
  exact headerText_read hascii htext

/-- **What is read was said by a request that headers can carry.** -/
theorem requestHeaders_read {pairs : List (String × Text)} {versioned : Bool} {h h' : ChunkHeaders}
    (hnames : pairs.map Prod.fst = sentNames h.direction versioned) (hmem : ∀ p ∈ askedPairs h, p ∈ pairs)
    (hascii : ∀ p ∈ pairs, ∀ c ∈ p.2, c < 128) (hr : requestHeaders (headersOf pairs) = .ok h') :
    Sendable h.transferId ∧ h.transferId.length ≤ 128 ∧ Sha256.isHex h.requestDigest = true ∧ h.offset < 10 ^ 128 := by
  have hread : ∀ name t u, (name, t) ∈ askedPairs h → (name, name) ∈ [("x-velo-direction", "x-velo-direction"),
      ("x-velo-transfer-id", "x-velo-transfer-id"), ("x-velo-request-digest", "x-velo-request-digest"),
      ("x-velo-offset", "x-velo-offset")] → requiredHeader (headersOf pairs) name = .ok u → u = t ∧ Sendable t := by
    intro name t u hp hname hu
    refine requiredHeader_read (n := name) ?_ (hmem _ hp) (hascii _ (hmem _ hp)) hu
    rw [hnames]
    exact sentNames_one _ _ (List.mem_cons_of_mem _ (List.mem_cons_of_mem _ (List.mem_cons_of_mem _ hname)))
  simp only [requestHeaders, bind_ok_iff, refuseIf_ok, not_not] at hr
  obtain ⟨_, -, _, -, _, hid, _, hdigest, -, hlength, -, hhex, _, hoffset, _, hnumber, -⟩ := hr
  obtain ⟨rfl, hsendable⟩ := hread "x-velo-transfer-id" h.transferId _ (by simp [askedPairs]) (by simp) hid
  obtain ⟨rfl, -⟩ := hread "x-velo-request-digest" h.requestDigest _ (by simp [askedPairs]) (by simp) hdigest
  obtain ⟨rfl, -⟩ := hread "x-velo-offset" (decimal h.offset) _ (by simp [askedPairs]) (by simp) hoffset
  exact ⟨hsendable, hlength.2, Bool.not_eq_false _ ▸ hhex, numberOf_read hnumber⟩

end TransferWire
