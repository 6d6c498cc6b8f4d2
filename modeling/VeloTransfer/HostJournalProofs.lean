import Mathlib
import VeloTransfer.JsonDictProofs
import VeloTransfer.GuestTerminalProofs

/-! # The host journal — its document

    The journal of one transfer is a canonical JSON document under a digest: a
    revision, a deadline, and data that the coordinator chooses, guarded by a
    validator over the old and the new data.

    * `encode` writes a document, `readState` reads one back;
    * `phaseData` is the validator, and `phaseData_sortKeys` says that it does not
      depend on how the data was listed;
    * `read_encode` — what was encoded is read back. -/

namespace HostJournal

open CanonicalJson JsonLine BoundedJson JsonDict Sha256 GuestTerminal

def SCHEMA : Text := ascii "velo.transfer.host-journal.v1"

/-- `_PHASES`. -/
def PHASES : List String :=
  ["CREATED", "PREPARING", "READY", "TRANSFERRING", "VERIFYING", "PUBLISHED", "CLEANING",
    "COMPLETE", "FAILED", "CONFLICT", "CANCELLED"]

/-- `_IMMUTABLE`. -/
def IMMUTABLE : List String :=
  ["guest_request", "binding", "prepare_receipt", "source_validation_receipt",
    "publication_receipt", "publish_intent"]

/-! ## Deadlines -/

/-- The digits and the decimal exponent of a fractional number's token. -/
def tokenParts (t : Text) : Nat × Int :=
  let (whole, rest) := spanDigits t
  let (fraction, rest) := match rest with
    | 46 :: ds => spanDigits ds
    | _ => ([], rest)
  let exponent : Int := match rest with
    | 101 :: 45 :: ds => - (ofDigits 0 ds : Int)
    | 101 :: 43 :: ds => ofDigits 0 ds
    | 101 :: ds => ofDigits 0 ds
    | _ => 0
  (ofDigits 0 (whole ++ fraction), exponent - fraction.length)

/-- `digits * 10 ^ exponent`. -/
def scaled (digits : Nat) (exponent : Int) : ℚ :=
  match exponent with
  | .ofNat e => mkRat (digits * 10 ^ e) 1
  | .negSucc e => mkRat digits (10 ^ (e + 1))

/-- The value of a number. -/
def numberValue : Json → ℚ
  | .int i => mkRat i 1
  | .float (45 :: t) => - scaled (tokenParts t).1 (tokenParts t).2
  | .float t => scaled (tokenParts t).1 (tokenParts t).2
  | _ => 0

/-- `_finite_deadline`; the token of a fractional number is finite. -/
def finiteDeadline : Json → Bool
  | .int i => bitLength i ≤ 53
  | .float _ => true
  | _ => false

/-! ## The data of a journal -/

/-- The value is one of these texts. -/
def isText (v : Option Json) (texts : List String) : Bool :=
  match v with
  | some (.str s) => texts.any (fun t => ascii t == s)
  | _ => false

/-- `type(value) is bool`. -/
def flag : Option Json → Option Bool
  | some (.bool b) => some b
  | _ => none

/-- `value is None`, also when the key is absent. -/
def isNone : Option Json → Bool
  | none => true
  | some .null => true
  | some _ => false

def isDict : Json → Bool
  | .obj _ => true
  | _ => false

/-- The text of a value. -/
def textOf : Option Json → Option Text
  | some (.str s) => some s
  | _ => none

/-- A fact that is not null is there in the new data, and is the same. -/
def keptFact (previous data : Json) (key : String) : Bool :=
  match get previous key with
  | none => true
  | some .null => true
  | some v =>
      match get data key with
      | none => false
      | some w => canonical v == canonical w

/-- The facts that no save may lose. -/
def keptFacts (previous data : Json) : Option String :=
  firstError [
    failsWith (flag (get previous "published_ever") = some true ∧
      flag (get data "published_ever") = some false) "published_fact_lost",
    failsWith (flag (get previous "begin_attempted") = some true ∧
      flag (get data "begin_attempted") = some false) "begin_fact_lost",
    failsWith (flag (get previous "begin_attempted") = some true ∧
      textOf (get previous "channel") ≠ textOf (get data "channel")) "channel_changed",
    failsWith (¬ IMMUTABLE.all (keptFact previous data)) "immutable_fact_changed"]

/-- The three attestations of a completion, and nothing else. -/
def completionTrue : Option Json → Bool
  | some (.obj fs) =>
      hasKeys fs ["destination_verified", "guest_cleanup_complete", "host_cleanup_complete"] &&
        fs.all (fun f => match f.2 with | .bool true => true | _ => false)
  | _ => false

/-- `_phase_data`; `previous` is the data of the state before a save. -/
def phaseData (data : Json) (previous : Option Json) (initial : Bool) : Option String :=
  firstError [
    failsWith (isText (get data "phase") PHASES = false) "invalid_phase",
    failsWith ((flag (get data "published_ever")).isNone = true ∨
      (flag (get data "begin_attempted")).isNone = true) "invalid_journal_data",
    failsWith ((get data "last_phase").isSome = true ∧
      isText (get data "last_phase") PHASES = false) "invalid_phase",
    failsWith (isNone (get data "channel") = false ∧
      isText (get data "channel") ["velo", "windows"] = false) "invalid_channel",
    failsWith (flag (get data "begin_attempted") = some true ∧
      isNone (get data "channel") = true) "invalid_channel",
    if initial then
      failsWith (isText (get data "phase") ["CREATED"] = false ∨
        flag (get data "published_ever") = some true ∨
        flag (get data "begin_attempted") = some true ∨ isNone (get data "channel") = false)
        "invalid_initial_state"
    else match previous with
      | none => none
      | some previous => keptFacts previous data,
    failsWith (isText (get data "phase") ["COMPLETE"] = true ∧
      (flag (get data "published_ever") ≠ some true ∨ isNone (get data "publication_receipt") = true ∨
        completionTrue (get data "completion") = false)) "completion_unproven"]

/-! ## Documents -/

/-- What a `HostJournal` object is constructed with, and the device of its work root. -/
structure Journal where
  device : Nat
  transferId : Text
  binding : Json
  limit : Nat
  evidenceLimit : Nat
  maxEvidenceFiles : Nat
  maxDuration : Nat
  maxDigits : Nat

/-- The budget of `_validate_json` for a number of bytes. -/
def Journal.limits (j : Journal) (maxBytes : Nat) : Limits :=
  { maxBytes := maxBytes, maxNodes := 10000, maxDepth := 32, maxDigits := j.maxDigits }

/-- A state as it is read: its document, and the parts of it. -/
structure Envelope where
  document : Json
  revision : Nat
  deadline : Json
  data : Json

def Journal.content (j : Journal) (revision : Nat) (deadline data : Json) : List (Text × Json) :=
  [(ascii "schema", .str SCHEMA), (ascii "transfer_id", .str j.transferId),
    (ascii "binding", j.binding), (ascii "deadline_monotonic", deadline),
    (ascii "revision", .int revision), (ascii "data", data)]

def Journal.sealed (j : Journal) (revision : Nat) (deadline data : Json) (digest : Text) : Json :=
  .obj (j.content revision deadline data ++ [(ascii "sha256", .str digest)])

/-- The document of a state. -/
def Journal.document (j : Journal) (revision : Nat) (deadline data : Json) : Json :=
  j.sealed revision deadline data (digestJson (.obj (j.content revision deadline data)))

/-- `_encode`. -/
def Journal.encode (j : Journal) (revision : Nat) (deadline data : Json) : Except String Bytes :=
  match validateJson (j.limits j.limit) (j.sealed revision deadline data (List.replicate 64 48)) with
  | some code => .error code
  | none =>
      match dumps (j.document revision deadline data) with
      | none => .error "UnicodeEncodeError"
      | some raw => if raw.length > j.limit then .error "state_budget_exceeded" else .ok raw

/-- `_decode`. -/
def decode (l : Limits) (raw : Bytes) : Except String Json :=
  if raw.length > l.maxBytes then .error "state_budget_exceeded"
  else
    match decodeUtf8 raw with
    | none => .error "invalid_state"
    | some cs =>
        match parseDocument cs with
        | .error .duplicateKey => .error "duplicate_state_key"
        | .error _ => .error "invalid_state"
        | .ok v =>
            match validateJson l v with
            | some code => .error code
            | none => if dumps v = some raw then .ok v else .error "invalid_state"

def envelopeFields : List String :=
  ["schema", "transfer_id", "binding", "deadline_monotonic", "revision", "data", "sha256"]

/-- The checks of `_read_state` on a decoded document. -/
def Journal.checkState (j : Journal) (v : Json) : Except String Envelope :=
  match object envelopeFields "invalid_state" v with
  | .error code => .error code
  | .ok fs =>
      match field fs "revision", field fs "sha256" with
      | .int revision, .str digest =>
          match firstError [
              failsWith (isText (some (field fs "schema")) ["velo.transfer.host-journal.v1"] = false)
                "invalid_state",
              failsWith (revision < 0) "invalid_state",
              failsWith (finiteDeadline (field fs "deadline_monotonic") = false) "invalid_state",
              failsWith (numberValue (field fs "deadline_monotonic") ≤ 0) "invalid_state",
              failsWith (isHex digest = false) "invalid_state",
              failsWith (digestJson (.obj (fs.filter (fun f => f.1 != ascii "sha256"))) ≠ digest)
                "state_hash_mismatch",
              failsWith ((textOf (some (field fs "transfer_id")) ≠ some j.transferId ∨
                canonical (field fs "binding") ≠ canonical j.binding) ∧
                isDict (field fs "binding") = true ∧ (get (field fs "binding") "host_identity").map canonical
                  ≠ (get j.binding "host_identity").map canonical) "host_identity_mismatch",
              failsWith (textOf (some (field fs "transfer_id")) ≠ some j.transferId ∨
                canonical (field fs "binding") ≠ canonical j.binding) "task_binding_conflict",
              phaseData (field fs "data") none false] with
          | some code => .error code
          | none =>
              .ok { document := v, revision := revision.toNat
                    deadline := field fs "deadline_monotonic", data := field fs "data" }
      | _, _ => .error "invalid_state"

/-- What `_read_state` makes of the bytes of the state file. -/
def Journal.readState (j : Journal) (raw : Bytes) : Except String Envelope :=
  match decode (j.limits j.limit) raw with
  | .error code => .error code
  | .ok v => j.checkState v

/-! ## The validator does not see the order of the data -/

theorem canonical_sortKeys {v : Json} (hv : Value v) : canonical v.sortKeys = canonical v := by
  unfold canonical
  rw [sortKeys_idem v hv]

theorem value_get {v w : Json} {key : String} (hv : Value v) (h : get v key = some w) : Value w := by
  cases v with
  | obj fs => exact ((valueFields_iff fs).mp hv.2 _ (lookup_mem h)).2
  | _ => exact absurd h nofun

theorem isText_sortKeys (v : Option Json) (texts : List String) :
    isText (v.map Json.sortKeys) texts = isText v texts := by
  rcases v with _ | (_ | _ | _ | _ | _ | _ | _) <;> rfl

theorem flag_sortKeys (v : Option Json) : flag (v.map Json.sortKeys) = flag v := by
  rcases v with _ | (_ | _ | _ | _ | _ | _ | _) <;> rfl

theorem isNone_sortKeys (v : Option Json) : isNone (v.map Json.sortKeys) = isNone v := by
  rcases v with _ | (_ | _ | _ | _ | _ | _ | _) <;> rfl

theorem textOf_sortKeys (v : Option Json) : textOf (v.map Json.sortKeys) = textOf v := by
  rcases v with _ | (_ | _ | _ | _ | _ | _ | _) <;> rfl

theorem completionTrue_sortKeys {v : Option Json} (hv : ∀ w, v = some w → Value w) :
    completionTrue (v.map Json.sortKeys) = completionTrue v := by
  rcases v with _ | w
  · rfl
  cases w with
  | obj fs =>
      have hdup : hasDuplicate fs = false := (hv _ rfl).1
      show (hasKeys (sortFields fs) _ && (sortFields fs).all _) = (hasKeys fs _ && fs.all _)
      rw [hasKeys_sortFields hdup, (sortFields_perm fs).all_eq, List.all_map]
      refine congrArg _ (congrArg (List.all fs) (funext (fun f => ?_)))
      obtain ⟨k, w⟩ := f
      cases w <;> rfl
  | _ => rfl

theorem keptFact_sortKeys (previous : Json) {data : Json} (hdata : Value data) (key : String) :
    keptFact previous data.sortKeys key = keptFact previous data key := by
  unfold keptFact
  rw [get_sortKeys hdata]
  cases hw : get data key with
  | none => rfl
  | some w =>
      rw [Option.map_some]
      dsimp only
      rw [canonical_sortKeys (value_get hdata hw)]

/-- **The validator does not depend on how the data was listed.** -/
theorem phaseData_sortKeys {data : Json} (hdata : Value data) (previous : Option Json)
    (initial : Bool) : phaseData data.sortKeys previous initial = phaseData data previous initial := by
  have hkept : ∀ p, keptFacts p data.sortKeys = keptFacts p data := by
    intro p
    unfold keptFacts
    rw [get_sortKeys hdata, get_sortKeys hdata, get_sortKeys hdata, flag_sortKeys, flag_sortKeys,
      textOf_sortKeys, show keptFact p data.sortKeys = keptFact p data from
        funext (keptFact_sortKeys p hdata)]
  unfold phaseData
  simp only [get_sortKeys hdata, isText_sortKeys, flag_sortKeys, isNone_sortKeys, hkept,
    Option.isSome_map, completionTrue_sortKeys (fun w hw => value_get hdata hw)]

/-! ## What is encoded is read back -/

section ReadBack

variable {j : Journal} {revision : Nat} {deadline data : Json} {raw : Bytes}

/-- The constants of a journal are values that Python can hold. -/
structure Journal.Sound (j : Journal) : Prop where
  transferId : PyText j.transferId
  binding : Value j.binding

theorem pyText_hex {s : Text} (h : isHex s = true) : PyText s := by
  rw [isHex, Bool.and_eq_true, List.all_eq_true] at h
  intro c hc
  have hchar := h.2 c hc
  simp only [isHexChar, Bool.or_eq_true, Bool.and_eq_true, decide_eq_true_eq] at hchar
  omega

/-- Plain characters take one byte each. -/
theorem textSize_plain {s : Text} (h : ∀ c ∈ s, 47 < c ∧ c < 127 ∧ c ≠ 92) :
    textSize s = s.length := by
  induction s with
  | nil => rfl
  | cons c cs ih =>
      obtain ⟨hc, hcs⟩ := List.forall_mem_cons.mp h
      have hone : charSize c = 1 := by
        unfold charSize
        rw [if_neg (by omega), if_neg (by omega), if_pos (by omega)]
      show charSize c + textSize cs = cs.length + 1
      rw [hone, ih hcs, Nat.add_comm]

theorem textSize_hex {s : Text} (h : isHex s = true) : SoundText s ∧ textSize s = 64 := by
  rw [isHex, Bool.and_eq_true, List.all_eq_true, beq_iff_eq] at h
  have hlt : ∀ c ∈ s, 47 < c ∧ c < 127 ∧ c ≠ 92 := by
    intro c hc
    have hchar := h.2 c hc
    simp only [isHexChar, Bool.or_eq_true, Bool.and_eq_true, decide_eq_true_eq] at hchar
    omega
  exact ⟨fun c hc => (scalar_of_lt (hlt c hc).2.1).2, (textSize_plain hlt).trans h.1⟩

theorem value_sealed (hj : j.Sound) (hdeadline : Value deadline) (hdata : Value data) {digest : Text}
    (hdigest : PyText digest) : Value (j.sealed revision deadline data digest) := by
  have hkey : ∀ s : String, (ascii s).all (· < 127) = true → PyText (ascii s) := by
    intro s hs c hc
    rw [List.all_eq_true] at hs
    exact Nat.lt_trans (of_decide_eq_true (hs c hc)) (by decide)
  refine ⟨rfl, ⟨hkey _ (by decide), ?_⟩, ⟨hkey _ (by decide), hj.transferId⟩,
    ⟨hkey _ (by decide), hj.binding⟩, ⟨hkey _ (by decide), hdeadline⟩,
    ⟨hkey _ (by decide), trivial⟩, ⟨hkey _ (by decide), hdata⟩, ⟨hkey _ (by decide), hdigest⟩, trivial⟩
  exact hkey "velo.transfer.host-journal.v1" (by decide)

theorem soundText_ascii {s : Text} (h : isPlainText s = true) : SoundText s := by
  rw [isPlainText, List.all_eq_true] at h
  exact fun c hc => (scalar_of_lt (of_decide_eq_true (h c hc))).2

/-- The placeholder and the digest take the same room. -/
theorem validate_sealed {l : Limits} {digest : Text} (h : isHex digest = true) :
    validateJson l (j.sealed revision deadline data (List.replicate 64 48)) = none ↔
      validateJson l (j.sealed revision deadline data digest) = none := by
  have hzero : isHex (List.replicate 64 48) = true := by decide
  have hcost : ∀ s, cost (j.sealed revision deadline data s)
      = cost (j.sealed revision deadline data []) + textSize s := by
    intro s
    simp only [Journal.sealed, Journal.content, cost, costFields, List.cons_append, List.nil_append,
      List.length_cons, textSize, List.map_nil, List.sum_nil]
    omega
  have hstorable : ∀ s, Storable l.maxDigits (j.sealed revision deadline data s) ↔
      Storable l.maxDigits (j.sealed revision deadline data []) ∧ SoundText s := by
    intro s
    have hkey : SoundText (ascii "sha256") := soundText_ascii (by decide)
    have hempty : SoundText [] := fun c hc => absurd hc List.not_mem_nil
    simp only [Journal.sealed, Journal.content, Storable, StorableFields, List.cons_append,
      List.nil_append]
    simp only [hkey, hempty, true_and, and_true]
    constructor
    · rintro ⟨h1, h2, h3, h4, h5, h6, h7⟩
      exact ⟨⟨h1, h2, h3, h4, h5, h6⟩, h7⟩
    · rintro ⟨⟨h1, h2, h3, h4, h5, h6⟩, h7⟩
      exact ⟨h1, h2, h3, h4, h5, h6, h7⟩
  obtain ⟨hsound, hsize⟩ := textSize_hex h
  obtain ⟨hsound₀, hsize₀⟩ := textSize_hex hzero
  rw [validateJson_ok, validateJson_ok, hcost, hcost digest, hsize, hsize₀, hstorable,
    hstorable digest]
  simp only [hsound, hsound₀, and_true]
  exact Iff.rfl

theorem isHex_digest {v : Json} {raw' : Bytes} (h : dumps v = some raw') :
    isHex (digestJson v) = true := by
  unfold digestJson
  rw [h]
  exact isHex_hexdigest raw'

/-- What a stored document is: encoded, within the budget, under its own digest. -/
structure Stored (j : Journal) (revision : Nat) (deadline data : Json) (raw : Bytes) : Prop where
  value : Value (j.document revision deadline data)
  valid : validateJson (j.limits j.limit) (j.document revision deadline data) = none
  dumped : dumps (j.document revision deadline data) = some raw
  length : raw.length ≤ j.limit
  digest : isHex (digestJson (.obj (j.content revision deadline data))) = true

theorem encode_ok (hj : j.Sound) (hdeadline : Value deadline) (hdata : Value data)
    (h : j.encode revision deadline data = .ok raw) : Stored j revision deadline data raw := by
  unfold Journal.encode at h
  split at h
  · exact absurd h nofun
  next hvalid =>
    split at h
    · exact absurd h nofun
    next raw' hraw =>
      split at h
      · exact absurd h nofun
      next hlen =>
        obtain rfl := Except.ok.inj h
        have hzero : isHex (List.replicate 64 48) = true := by decide
        have hvalue : Value (j.sealed revision deadline data (List.replicate 64 48)) :=
          value_sealed hj hdeadline hdata (pyText_hex hzero)
        have hstorable := ((validateJson_ok _ _).mp hvalid).1
        -- the content is the sealed document without its last field
        have hcontent : Value (.obj (j.content revision deadline data)) ∧
            Storable j.maxDigits (.obj (j.content revision deadline data)) := by
          obtain ⟨hdup, v1, v2, v3, v4, v5, v6, -⟩ := hvalue
          obtain ⟨s1, s2, s3, s4, s5, s6, -⟩ := hstorable
          exact ⟨⟨rfl, v1, v2, v3, v4, v5, v6, trivial⟩, s1, s2, s3, s4, s5, s6, trivial⟩
        obtain ⟨raw'', hraw'', -⟩ := dumps_of_storable hcontent.1 hcontent.2
        have hhex := isHex_digest hraw''
        exact { value := value_sealed hj hdeadline hdata (pyText_hex hhex)
                valid := (validate_sealed hhex).mp hvalid
                dumped := hraw
                length := Nat.le_of_not_lt hlen
                digest := hhex }

theorem loads_ok {raw : Bytes} {v : Json} (h : loads raw = .ok v) :
    ∃ cs, decodeUtf8 raw = some cs ∧ parseDocument cs = .ok v := by
  unfold loads at h
  split at h
  · split at h
    next cs hcs => exact ⟨cs, hcs, h⟩
    · exact absurd h nofun
  · exact absurd h nofun

/-- **A value within the budget is decoded from its canonical document.** -/
theorem decode_dumps {l : Limits} {v : Json} (hv : Value v) (hvalid : validateJson l v = none)
    (hraw : dumps v = some raw) (hlen : raw.length ≤ l.maxBytes) : decode l raw = .ok v.sortKeys := by
  obtain ⟨cs, hcs, hparse⟩ := loads_ok (loads_dumps_value hv ((validateJson_ok l v).mp hvalid).1 hraw)
  unfold decode
  rw [if_neg (Nat.not_lt.mpr hlen), hcs]
  dsimp only
  rw [hparse]
  dsimp only
  rw [validateJson_sortKeys hvalid]
  dsimp only
  refine if_pos ?_
  unfold dumps
  rw [sortKeys_idem v hv]
  exact hraw

theorem sortKeys_deadline {v : Json} (h : finiteDeadline v = true) : v.sortKeys = v := by
  cases v with
  | arr xs => exact absurd h nofun
  | obj fs => exact absurd h nofun
  | _ => rfl

/-- The checks on a document whose fields are known. -/
theorem checkState_of {fs : List (Text × Json)} {digest : Text}
    (hkeys : hasKeys fs envelopeFields = true) (hrevision : field fs "revision" = .int revision)
    (hsha : field fs "sha256" = .str digest) (hschema : field fs "schema" = .str SCHEMA)
    (hid : field fs "transfer_id" = .str j.transferId)
    (hbinding : canonical (field fs "binding") = canonical j.binding)
    (hdeadline : field fs "deadline_monotonic" = deadline) (hdata : field fs "data" = data)
    (hdigest : digestJson (.obj (fs.filter (fun f => f.1 != ascii "sha256"))) = digest)
    (hhex : isHex digest = true) (hfinite : finiteDeadline deadline = true)
    (hpositive : 0 < numberValue deadline) (hphase : phaseData data none false = none) :
    j.checkState (.obj fs) = .ok { document := .obj fs, revision := revision
                                   deadline := deadline, data := data } := by
  have hpinned : ¬ (textOf (some (field fs "transfer_id")) ≠ some j.transferId ∨
      canonical (field fs "binding") ≠ canonical j.binding) := by
    rw [hid, not_or]
    exact ⟨not_not.mpr rfl, not_not.mpr hbinding⟩
  unfold Journal.checkState
  rw [object_of hkeys]
  dsimp only
  rw [hrevision, hsha]
  dsimp only
  rw [failsWith_none.mpr (show ¬ isText (some (field fs "schema")) _ = false by rw [hschema]; decide),
    failsWith_none.mpr (show ¬ ((revision : Int) < 0) by omega),
    failsWith_none.mpr (show ¬ finiteDeadline (field fs "deadline_monotonic") = false by
      rw [hdeadline, hfinite]; exact nofun),
    failsWith_none.mpr (show ¬ numberValue (field fs "deadline_monotonic") ≤ 0 by
      rw [hdeadline]; exact not_le.mpr hpositive),
    failsWith_none.mpr (show ¬ isHex digest = false by rw [hhex]; exact nofun),
    failsWith_none.mpr (not_not.mpr hdigest), failsWith_none.mpr (fun h => hpinned h.1),
    failsWith_none.mpr hpinned, hdata, hphase, hdeadline]
  rfl

/-- **Reading back**: what was encoded is read as the canonical form of it. -/
theorem read_encode (hfinite : finiteDeadline deadline = true)
    (hpositive : 0 < numberValue deadline) (hdata : Value data)
    (hphase : phaseData data none false = none) (h : Stored j revision deadline data raw) :
    j.readState raw = .ok { document := (j.document revision deadline data).sortKeys
                            revision := revision, deadline := deadline, data := data.sortKeys } := by
  obtain ⟨hdup, v1, v2, v3, v4, v5, v6, -⟩ := h.value
  have hcontent : digestJson (.obj (sortFields (j.content revision deadline data)))
      = digestJson (.obj (j.content revision deadline data)) := by
    have hvalue : Value (.obj (j.content revision deadline data)) :=
      ⟨rfl, v1, v2, v3, v4, v5, v6, trivial⟩
    unfold digestJson dumps
    rw [show (Json.obj (sortFields (j.content revision deadline data))).sortKeys
      = (Json.obj (j.content revision deadline data)).sortKeys from sortKeys_idem _ hvalue]
  unfold Journal.readState
  rw [decode_dumps h.value h.valid h.dumped h.length]
  exact checkState_of rfl rfl rfl rfl rfl (canonical_sortKeys v3.2) (sortKeys_deadline hfinite) rfl
    hcontent h.digest hfinite hpositive ((phaseData_sortKeys hdata none false).trans hphase)

end ReadBack

end HostJournal
