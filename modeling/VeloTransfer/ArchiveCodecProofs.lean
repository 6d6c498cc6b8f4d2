import VeloTransfer.JsonHeapProofs
import VeloTransfer.Sha256Proofs

/-! # Archive codec — records of an observed request

    A request is recorded as a chain of canonical JSON lines: an acceptance, its
    events, and a seal.  Each record names the size and the digest of the one before.

    * `encode_spec` — an encoded record is within the budgets, and the parser reads
      it back with its keys in order;
    * `encode_seal` — a codec that accepted a request can encode every seal;
    * `Chained.snoc` and `Walk.take_record` — a record that names its predecessor keeps
      the chain, and the verifier goes on. -/

namespace ArchiveCodec

open CanonicalJson JsonLine BoundedJson JsonLimits JsonDict JsonHeap ExceptRules

def ACCEPT : Text := ascii "pc026-observation-accept-v1"
def EVENT : Text := ascii "pc026-observation-event-v1"
def SEAL : Text := ascii "pc026-observation-seal-v1"

/-- `_OUTCOMES`. -/
inductive Outcome where
  | returned
  | raised
  | cancelled
deriving Repr, DecidableEq

def Outcome.text : Outcome → Text
  | .returned => ascii "returned"
  | .raised => ascii "raised"
  | .cancelled => ascii "cancelled"

def OUTCOMES : List Text := [ascii "returned", ascii "raised", ascii "cancelled"]

/-! ## Checks of a field -/

/-- `_require`. -/
def require (condition : Bool) (message : String) : Except String Unit :=
  if condition then .ok () else .error message

theorem require_iff {condition : Bool} {message : String} :
    require condition message = .ok () ↔ condition = true := by
  unfold require
  by_cases h : condition = true
  · rw [if_pos h]
    exact ⟨fun _ => h, fun _ => rfl⟩
  · rw [if_neg h]
    exact ⟨nofun, fun hc => absurd hc h⟩

/-- `_exact`. -/
def exact (v : Json) (fields : List String) : Except String (List (Text × Json)) :=
  object fields "invalid exact fields" v

/-- `_integer`. -/
def integer (minimum : Int) : Json → Except String Unit
  | .int i => require (minimum ≤ i) "invalid integer"
  | _ => .error "invalid integer"

/-- `_string`. -/
def string (nonempty : Bool) : Json → Except String Unit
  | .str s => require (!nonempty || !s.isEmpty) "invalid string"
  | _ => .error "invalid string"

/-- `_hash`. -/
def hash : Json → Except String Unit
  | .str s => require (Sha256.isHex s) "invalid SHA256"
  | _ => .error "invalid SHA256"

/-- `_nullable`. -/
def nullable (check : Json → Except String Unit) : Json → Except String Unit
  | .null => .ok ()
  | v => check v

/-- The groups of a UUID, as `str(uuid.UUID(value))` writes it. -/
def isUuid (s : Text) : Bool :=
  s.length == 36 &&
    (s.zipIdx.all fun p =>
      if p.2 = 8 ∨ p.2 = 13 ∨ p.2 = 18 ∨ p.2 = 23 then p.1 == 45 else Sha256.isHexChar p.1)

/-- `_uuid`. -/
def uuid : Json → Except String Unit
  | .str s => require (isUuid s) "invalid operation UUID"
  | _ => .error "invalid string"

/-- `_strings`. -/
def strings (nullableItems : Bool) : Json → Except String Unit
  | .arr items => items.forM fun item =>
      match nullableItems, item with
      | true, .null => .ok ()
      | _, item => string false item
  | _ => .error "invalid string array"

def boolean (message : String) : Json → Except String Unit
  | .bool _ => .ok ()
  | _ => .error message

/-- `value in texts`. -/
def oneOf (texts : List Text) : Json → Bool
  | .str s => texts.contains s
  | _ => false

/-- `_key`. -/
def key (v : Json) : Except String Unit := do
  let fs ← exact v ["instance_id", "session_id", "request_id_type", "request_id"]
  string true (field fs "instance_id")
  string true (field fs "session_id")
  match field fs "request_id_type", field fs "request_id" with
  | .str tag, .int _ => require (tag == ascii "integer") "invalid typed request key"
  | .str tag, .str _ => require (tag == ascii "string") "invalid typed request key"
  | _, _ => .error "invalid typed request key"

/-- `_operation`. -/
def operation (fs : List (Text × Json)) : Except String Unit := do
  uuid (field fs "operation_id")
  integer 1 (field fs "attempt")
  match field fs "attempt" with
  | .int i => require (i == 1 || i == 2) "invalid operation attempt"
  | _ => .error "invalid operation attempt"
  string true (field fs "client_id")

/-! ## Checks of an event -/

/-- `_TARGET`. -/
def TARGET : List (String × List String) :=
  [("target.resolve", ["operation_id", "mode", "client_id"]),
    ("target.operation.begin", ["operation_id", "attempt", "client_id"]),
    ("target.operation.end", ["operation_id", "attempt", "client_id", "outcome"]),
    ("target.exists", ["operation_id", "attempt", "client_id", "exists"]),
    ("target.clear", ["operation_id", "previous_client_id"])]

/-- `_BASE`. -/
def BASE : List String := ["operation_id", "attempt", "client_id"]

/-- `_CREATE`. -/
def CREATE : List (String × List String) :=
  [("flow.create.begin", ["artifact", "parameters_sha256", "timeout", "max_bytes", "org_id", "root_org"]),
    ("flow.create.return", ["rows"]),
    ("flow.metadata.return", ["flow_id", "state"])]

/-- `_READ`. -/
def READ : List (String × List String) :=
  [("flow.read.metadata", ["state", "artifacts", "sources"]),
    ("flow.results.plan", ["artifact", "requested_source", "selected_sources", "offset", "page_size"]),
    ("flow.results.count", ["artifact", "source_index", "source", "total"]),
    ("flow.results.window", ["artifact", "source_index", "source", "start_row", "requested_count",
      "returned", "rows_sha256"]),
    ("flow.results.page", ["returned", "data_sha256", "pagination"]),
    ("flow.files.raw", ["row_count", "rows_sha256"]),
    ("flow.files.inventory", ["record_count", "identities_sha256", "sparse_count", "size_mismatch_count"]),
    ("flow.files.result", ["returned", "data_sha256", "truncated"])]

/-- The fields of a kind, where the table has it. -/
def fieldsOf (table : List (String × List String)) (kind : Text) : Option (List String) :=
  (table.find? fun entry => ascii entry.1 == kind).map Prod.snd

/-- The facts of a `_TARGET` event. -/
def targetFacts (kind : Text) (fields : List String) (facts : Json) : Except String Unit := do
  let fs ← exact facts fields
  if kind = ascii "target.operation.begin" ∨ kind = ascii "target.operation.end" ∨
      kind = ascii "target.exists" then operation fs
  else nullable uuid (field fs "operation_id")
  if kind = ascii "target.clear" then nullable (string true) (field fs "previous_client_id")
  else string true (field fs "client_id")
  if kind = ascii "target.resolve" then
    require (oneOf [ascii "selected", ascii "cache_hit"] (field fs "mode")) "invalid resolution mode"
  else if kind = ascii "target.operation.end" then
    require (oneOf OUTCOMES (field fs "outcome")) "invalid outcome"
  else if kind = ascii "target.exists" then boolean "invalid exists" (field fs "exists")
  else .ok ()

/-- A row that a creation returned. -/
def creationRow (index : Nat) (row : Json) : Except String Unit := do
  let fs ← exact row ["row_index", "flow_id", "artifacts", "timeout", "max_upload_bytes", "specs_sha256"]
  integer 0 (field fs "row_index")
  match field fs "row_index" with
  | .int i => require (i == index) "invalid row index"
  | _ => .error "invalid row index"
  nullable (string false) (field fs "flow_id")
  nullable (strings false) (field fs "artifacts")
  ["timeout", "max_upload_bytes"].forM fun name =>
    match field fs name with
    | .null => .ok ()
    | .int _ => .ok ()
    | _ => .error "invalid returned resource"
  nullable hash (field fs "specs_sha256")

/-- The facts of a `_CREATE` event. -/
def createFacts (kind : Text) (fields : List String) (facts : Json) : Except String Unit := do
  let fs ← exact facts (BASE ++ ["creation_id"] ++ fields)
  operation fs
  uuid (field fs "creation_id")
  if kind = ascii "flow.create.begin" then
    string true (field fs "artifact")
    hash (field fs "parameters_sha256")
    ["timeout", "max_bytes"].forM fun name => nullable (integer 1) (field fs name)
    nullable (string false) (field fs "org_id")
    boolean "invalid root_org" (field fs "root_org")
  else if kind = ascii "flow.create.return" then
    match field fs "rows" with
    | .arr rows => rows.zipIdx.forM fun p => creationRow p.2 p.1
    | _ => .error "invalid creation rows"
  else
    string true (field fs "flow_id")
    string true (field fs "state")

/-- One field of a `_READ` event; `pagination` repeats the count beside it. -/
def readField (fs : List (Text × Json)) (name : String) : Except String Unit :=
  let value := field fs name
  if name ∈ ["rows_sha256", "data_sha256", "identities_sha256"] then hash value
  else if name ∈ ["offset", "page_size", "source_index", "total", "start_row", "requested_count",
      "returned", "row_count", "record_count", "sparse_count", "size_mismatch_count"] then
    integer 0 value
  else if name ∈ ["artifacts", "sources", "selected_sources"] then
    strings (name == "selected_sources") value
  else if name ∈ ["source", "requested_source"] then nullable (string false) value
  else if name = "state" then nullable (string true) value
  else if name = "artifact" then string false value
  else if name = "truncated" then boolean "invalid truncated" value
  else if name = "pagination" then do
    let ps ← exact value ["cursor", "next_cursor", "page_size", "returned", "truncated"]
    string false (field ps "cursor")
    nullable (string false) (field ps "next_cursor")
    integer 1 (field ps "page_size")
    integer 0 (field ps "returned")
    require (canonical (field ps "returned") == canonical (field fs "returned")) "invalid pagination"
    boolean "invalid pagination" (field ps "truncated")
  else .ok ()

/-- The facts of a `_READ` event.  The source takes the fields in the order of a set;
    here they come in the order of the table. -/
def readFacts (fields : List String) (facts : Json) : Except String Unit := do
  let fs ← exact facts (BASE ++ ["flow_id"] ++ fields)
  operation fs
  string true (field fs "flow_id")
  fields.forM (readField fs)

/-- The facts of an event, by its kind. -/
def eventFacts (kind : Text) (facts : Json) : Except String Unit :=
  match fieldsOf TARGET kind, fieldsOf CREATE kind, fieldsOf READ kind with
  | some fields, _, _ => targetFacts kind fields facts
  | none, some fields, _ => createFacts kind fields facts
  | none, none, some fields => readFacts fields facts
  | none, none, none => .error "unknown business event kind"

/-- `_event`. -/
def event (v : Json) : Except String Unit := do
  let fs ← exact v ["sequence", "kind", "facts"]
  integer 1 (field fs "sequence")
  string false (field fs "kind")
  match field fs "kind" with
  | .str kind => eventFacts kind (field fs "facts")
  | _ => .error "invalid string"

/-! ## Checks of a record -/

/-- What stands under `previous`. -/
def reference : Json → Except String Unit
  | .null => .ok ()
  | v => do
      let fs ← exact v ["size", "sha256"]
      integer 1 (field fs "size")
      hash (field fs "sha256")

def isNull : Json → Bool
  | .null => true
  | _ => false

/-- The integer is this number. -/
def isNumber (n : Int) : Json → Bool
  | .int i => i == n
  | _ => false

/-- The payload of an acceptance. -/
def acceptPayload (payload : Json) : Except String Unit := do
  let ps ← exact payload ["key", "tool", "arguments_sha256", "acceptance_sequence"]
  key (field ps "key")
  string true (field ps "tool")
  hash (field ps "arguments_sha256")
  integer 1 (field ps "acceptance_sequence")

/-- The payload of a seal that stands at the position. -/
def sealPayload (sequence : Json) (payload : Json) : Except String Unit := do
  let ps ← exact payload ["outcome", "archive_status", "event_count"]
  require (oneOf OUTCOMES (field ps "outcome") &&
    oneOf [ascii "COMPLETE", ascii "FAILED"] (field ps "archive_status")) "invalid seal status"
  integer 0 (field ps "event_count")
  match field ps "event_count" with
  | .int n => require (isNumber (n + 1) sequence) "invalid seal sequence"
  | _ => .error "invalid integer"

/-- The payload of an event that stands at the position. -/
def eventPayload (sequence : Json) (payload : Json) : Except String Unit := do
  event payload
  require ((get payload "sequence").map canonical == some (canonical sequence)) "event sequence differs"

/-- `_record`. -/
def record (v : Json) : Except String Unit := do
  let fs ← exact v ["schema_version", "kind", "sequence", "previous", "payload"]
  require (isNumber 1 (field fs "schema_version")) "invalid schema version"
  integer 0 (field fs "sequence")
  reference (field fs "previous")
  string false (field fs "kind")
  match field fs "kind" with
  | .str kind =>
      if kind = ACCEPT then do
        require (isNumber 0 (field fs "sequence") && isNull (field fs "previous"))
          "invalid acceptance position"
        acceptPayload (field fs "payload")
      else if kind = EVENT then do
        require (!isNull (field fs "previous") && !isNumber 0 (field fs "sequence"))
          "invalid event position"
        eventPayload (field fs "sequence") (field fs "payload")
      else if kind = SEAL then do
        require (!isNull (field fs "previous")) "seal needs previous"
        sealPayload (field fs "sequence") (field fs "payload")
      else .error "unknown record kind"
  | _ => .error "invalid string"

/-! ## The depth of a text -/

/-- The scan of `_depth`: how deep, in a string, and behind a backslash. -/
structure Scan where
  depth : Int
  string : Bool
  escaped : Bool
deriving Repr, DecidableEq

/-- One byte of the scan. -/
def Scan.byte (maximum : Nat) (s : Scan) (b : UInt8) : Except String Scan :=
  if s.string then
    if s.escaped then .ok { s with escaped := false }
    else if b = 92 then .ok { s with escaped := true }
    else if b = 34 then .ok { s with string := false }
    else .ok s
  else if b = 34 then .ok { s with string := true }
  else if b = 123 ∨ b = 91 then
    if s.depth + 1 ≤ maximum then .ok { s with depth := s.depth + 1 }
    else .error "JSON depth budget exceeded"
  else if b = 125 ∨ b = 93 then .ok { s with depth := s.depth - 1 }
  else .ok s

/-- `_depth`. -/
def depth (maximum : Nat) (raw : Bytes) : Except String Scan :=
  raw.foldlM (Scan.byte maximum) ⟨0, false, false⟩

mutual

/-- How many containers a value has inside one another. -/
def levels : Json → Nat
  | .arr items => 1 + levelsItems items
  | .obj fields => 1 + levelsFields fields
  | _ => 0

def levelsItems : List Json → Nat
  | [] => 0
  | x :: xs => max (levels x) (levelsItems xs)

def levelsFields : List (Text × Json) → Nat
  | [] => 0
  | (_, v) :: fs => max (levels v) (levelsFields fs)

end

/-! ## The codec -/

/-- The budgets of `ArchiveCodec`, each a positive integer. -/
structure Codec where
  maxRecords : Nat
  maxRecordBytes : Nat
  maxTotalBytes : Nat
  maxJsonDepth : Nat
  positive : 1 ≤ maxRecords ∧ 1 ≤ maxRecordBytes ∧ 1 ≤ maxTotalBytes ∧ 1 ≤ maxJsonDepth

/-- The digits of an integer that the interpreter writes and reads. -/
def MAX_STR_DIGITS : Nat := 4300

/-- `sys.maxsize`: no bytes object is longer. -/
def MAX_SIZE : Nat := 2 ^ 63 - 1

/-- `_canonical`. -/
def encoded (v : Json) : Option Bytes :=
  (canonicalJson MAX_STR_DIGITS v).bind fun raw =>
    if raw.length + 1 ≤ MAX_SIZE then some (raw ++ [10]) else none

/-- `json.loads(raw.decode("utf-8"))`, which refuses repeated keys and constants. -/
def loads (raw : Bytes) : Except String Json :=
  match (decodeUtf8 raw).map fun text => (decide (∀ c ∈ text, Scalar c), parseDocument text) with
  | some (true, .ok v) =>
      if fewDigits MAX_STR_DIGITS v then .ok v else .error "invalid JSON original"
  | _ => .error "invalid JSON original"

/-- `ArchiveCodec.parse`. -/
def Codec.parse (c : Codec) (raw : Bytes) : Except String Json := do
  require (raw.length ≤ c.maxRecordBytes && raw.length ≤ c.maxTotalBytes)
    "record byte budget exceeded"
  let _ ← depth c.maxJsonDepth raw
  let value ← loads raw
  require (encoded value == some raw) "noncanonical JSON original"
  record value
  .ok value

/-- `ArchiveCodec.encode`. -/
def Codec.encode (c : Codec) (v : Json) : Except String Bytes := do
  require (levels v ≤ c.maxJsonDepth) "JSON depth budget exceeded"
  record v
  match encoded v with
  | none => .error "invalid canonical JSON"
  | some raw =>
      let parsed ← c.parse raw
      require (canonical parsed == canonical v) "non-JSON encoding input"
      .ok raw

/-! ## What is encoded is parsed -/

section Encoding

variable {c : Codec} {v : Json} {raw : Bytes}

/-- What an encoding that was made says of the value. -/
theorem encoded_spec (hv : Value v) (h : encoded v = some raw) :
    fewDigits MAX_STR_DIGITS v = true ∧ raw.length = cost v + 1 ∧ raw.length ≤ MAX_SIZE ∧
      encodeUtf8 (render v.sortKeys ++ [10]) = some raw := by
  obtain ⟨line, hline, h⟩ := Option.bind_eq_some_iff.mp h
  obtain ⟨hstorable, hlength, hdumps⟩ := storable_of_canonicalJson hv hline
  by_cases hsize : line.length + 1 ≤ MAX_SIZE
  · rw [if_pos hsize] at h
    obtain rfl := Option.some.inj h
    rw [List.length_append, hlength]
    exact ⟨fewDigits_of_storable v hstorable, rfl, hlength ▸ hsize, encodeUtf8_append hdumps (by decide)⟩
  · rw [if_neg hsize] at h
    exact absurd h nofun

/-- The key order of the value does not matter. -/
theorem encoded_sortKeys (hv : Value v) : encoded v.sortKeys = encoded v := by
  unfold encoded canonicalJson dumps
  rw [fewDigits_sortKeys, sortKeys_idem v hv]

theorem loads_encoded (hv : Value v) (h : encoded v = some raw) : loads raw = .ok v.sortKeys := by
  obtain ⟨hdigits, -, -, htext⟩ := encoded_spec hv h
  have hparse : parseDocument (render v.sortKeys ++ [10]) = .ok v.sortKeys :=
    parseDocument_render v.sortKeys (plain_of_value _ (value_sortKeys v hv)) (by decide)
  unfold loads
  rw [decodeUtf8_encodeUtf8 htext, Option.map_some, decide_eq_true (scalar_of_encodeUtf8 htext), hparse]
  exact if_pos ((fewDigits_sortKeys v).trans hdigits)

theorem parse_spec {w : Json} (h : c.parse raw = .ok w) :
    raw.length ≤ c.maxRecordBytes ∧ raw.length ≤ c.maxTotalBytes ∧ loads raw = .ok w ∧
      record w = .ok () := by
  obtain ⟨_, hlength, h⟩ := bind_ok h
  obtain ⟨_, -, h⟩ := bind_ok h
  obtain ⟨value, hloads, h⟩ := bind_ok h
  obtain ⟨_, -, h⟩ := bind_ok h
  obtain ⟨_, hrecord, h⟩ := bind_ok h
  obtain rfl := Except.ok.inj h
  have hlength := require_iff.mp hlength
  rw [Bool.and_eq_true, decide_eq_true_eq, decide_eq_true_eq] at hlength
  exact ⟨hlength.1, hlength.2, hloads, hrecord⟩

/-- **An encoded record is read back**, with its keys in order and within the budgets. -/
theorem encode_spec (hv : Value v) (h : c.encode v = .ok raw) :
    levels v ≤ c.maxJsonDepth ∧ record v = .ok () ∧ raw.length = cost v + 1 ∧
      raw.length ≤ MAX_SIZE ∧ raw.length ≤ c.maxRecordBytes ∧ raw.length ≤ c.maxTotalBytes ∧
      c.parse raw = .ok v.sortKeys := by
  obtain ⟨_, hlevels, h⟩ := bind_ok h
  obtain ⟨_, hrecord, h⟩ := bind_ok h
  cases hraw : encoded v with
  | none =>
      rw [hraw] at h
      exact absurd h nofun
  | some line =>
      rw [hraw] at h
      obtain ⟨parsed, hparse, h⟩ := bind_ok h
      obtain ⟨_, -, h⟩ := bind_ok h
      obtain rfl := Except.ok.inj h
      obtain ⟨-, hlength, hsize, -⟩ := encoded_spec hv hraw
      obtain ⟨hbytes, htotal, hloads, -⟩ := parse_spec hparse
      obtain rfl := Except.ok.inj ((loads_encoded hv hraw).symm.trans hloads)
      exact ⟨of_decide_eq_true (require_iff.mp hlevels), hrecord, hlength, hsize, hbytes, htotal, hparse⟩

theorem require_of {condition : Bool} {message : String} (h : condition = true) :
    require condition message = .ok () := require_iff.mpr h

/-- A record that passes the checks and fits the budgets is encoded. -/
theorem encode_of (hv : Value v) (hraw : encoded v = some raw) (hlevels : levels v ≤ c.maxJsonDepth)
    {s : Scan} (hdepth : depth c.maxJsonDepth raw = .ok s) (hrecord : record v = .ok ())
    (hsorted : record v.sortKeys = .ok ()) (hbytes : raw.length ≤ c.maxRecordBytes)
    (htotal : raw.length ≤ c.maxTotalBytes) : c.encode v = .ok raw := by
  have hparse : c.parse raw = .ok v.sortKeys := by
    unfold Codec.parse
    rw [require_of (by rw [decide_eq_true hbytes, decide_eq_true htotal]; rfl), ok_bind, hdepth, ok_bind,
      loads_encoded hv hraw, ok_bind, encoded_sortKeys hv, hraw,
      require_of (beq_self_eq_true _), ok_bind, hsorted, ok_bind]
  have hsame : canonical v.sortKeys = canonical v := congrArg render (sortKeys_idem v hv)
  unfold Codec.encode
  rw [require_of (decide_eq_true hlevels), ok_bind, hrecord, ok_bind, hraw]
  show (c.parse raw >>= _) = _
  rw [hparse, ok_bind, hsame, require_of (beq_self_eq_true _), ok_bind]

end Encoding

/-! ## The depth of a rendered value -/

section Depth

variable {maximum : Nat}

/-- The scan leaves the text as deep as the second number, outside of strings. -/
def Scans (maximum : Nat) (d d' : Int) (cs : Text) : Prop :=
  (cs.map UInt8.ofNat).foldlM (Scan.byte maximum) ⟨d, false, false⟩ = .ok ⟨d', false, false⟩

theorem Scans.append {d e f : Int} {as bs : Text} (ha : Scans maximum d e as)
    (hb : Scans maximum e f bs) : Scans maximum d f (as ++ bs) := by
  unfold Scans at ha hb ⊢
  rw [List.map_append, List.foldlM_append, ha, ok_bind, hb]

theorem Scans.cons {c : Nat} {d e f : Int} {cs : Text} (hc : Scans maximum d e [c])
    (hcs : Scans maximum e f cs) : Scans maximum d f (c :: cs) := hc.append hcs

theorem scans_nil (d : Int) : Scans maximum d d [] := rfl

theorem ofNat_ne {c : Nat} (k : UInt8) (hc : c < 127) (h : c ≠ k.toNat) : UInt8.ofNat c ≠ k := by
  rintro rfl
  rw [UInt8.toNat_ofNat', Nat.mod_eq_of_lt (Nat.lt_trans hc (by decide))] at h
  exact h rfl

/-- Characters that open and close nothing. -/
theorem scans_plain {d : Int} {cs : Text}
    (h : ∀ c ∈ cs, c < 127 ∧ c ≠ 34 ∧ c ≠ 123 ∧ c ≠ 91 ∧ c ≠ 125 ∧ c ≠ 93) :
    Scans maximum d d cs := by
  induction cs with
  | nil => exact scans_nil d
  | cons c cs ih =>
      obtain ⟨⟨hc, h34, h123, h91, h125, h93⟩, hcs⟩ := List.forall_mem_cons.mp h
      refine Scans.cons ?_ (ih hcs)
      show (Scan.byte maximum ⟨d, false, false⟩ (UInt8.ofNat c) >>= pure) = _
      have hbyte : Scan.byte maximum ⟨d, false, false⟩ (UInt8.ofNat c) = .ok ⟨d, false, false⟩ := by
        unfold Scan.byte
        rw [if_neg nofun, if_neg (ofNat_ne 34 hc h34),
          if_neg (not_or.mpr ⟨ofNat_ne 123 hc h123, ofNat_ne 91 hc h91⟩),
          if_neg (not_or.mpr ⟨ofNat_ne 125 hc h125, ofNat_ne 93 hc h93⟩)]
      rw [hbyte]
      rfl

/-- Inside a string nothing opens or closes. -/
theorem scans_string {d : Int} {s : Text} (hs : ∀ c ∈ s, Printable c) :
    Scans maximum d d (renderString s) := by
  have hinside : (s.map UInt8.ofNat).foldlM (Scan.byte maximum) ⟨d, true, false⟩
      = .ok ⟨d, true, false⟩ := by
    induction s with
    | nil => rfl
    | cons c cs ih =>
        obtain ⟨⟨-, hc, h34, h92⟩, hcs⟩ := List.forall_mem_cons.mp hs
        have hbyte : Scan.byte maximum ⟨d, true, false⟩ (UInt8.ofNat c) = .ok ⟨d, true, false⟩ := by
          unfold Scan.byte
          rw [if_pos rfl, if_neg nofun, if_neg (ofNat_ne 92 hc h92), if_neg (ofNat_ne 34 hc h34)]
        rw [List.map_cons, List.foldlM_cons, hbyte, ok_bind, ih hcs]
  rw [renderString, renderChars_printable hs]
  have hopen : Scan.byte maximum ⟨d, false, false⟩ (UInt8.ofNat 34) = .ok ⟨d, true, false⟩ := rfl
  have hclose : Scan.byte maximum ⟨d, true, false⟩ (UInt8.ofNat 34) = .ok ⟨d, false, false⟩ := rfl
  unfold Scans
  rw [List.map_cons, List.foldlM_cons, hopen, ok_bind, List.map_append, List.foldlM_append, hinside,
    ok_bind, List.map_cons, List.foldlM_cons, hclose]
  rfl

theorem scans_open {d : Int} (hd : d + 1 ≤ maximum) {c : Nat} (hc : c = 123 ∨ c = 91) :
    Scans maximum d (d + 1) [c] := by
  have hbyte : Scan.byte maximum ⟨d, false, false⟩ (UInt8.ofNat c) = .ok ⟨d + 1, false, false⟩ := by
    rcases hc with rfl | rfl <;> exact if_pos hd
  unfold Scans
  rw [List.map_cons, List.foldlM_cons, hbyte]
  rfl

theorem scans_close {d : Int} {c : Nat} (hc : c = 125 ∨ c = 93) : Scans maximum (d + 1) d [c] := by
  have hbyte : Scan.byte maximum ⟨d + 1, false, false⟩ (UInt8.ofNat c) = .ok ⟨d, false, false⟩ := by
    have hback : Scan.byte maximum ⟨d + 1, false, false⟩ (UInt8.ofNat c)
        = .ok ⟨d + 1 - 1, false, false⟩ := by
      rcases hc with rfl | rfl <;> rfl
    rw [hback, Int.add_sub_cancel]
  unfold Scans
  rw [List.map_cons, List.foldlM_cons, hbyte]
  rfl

theorem scans_renderInt {d : Int} (i : Int) : Scans maximum d d (renderInt i) := by
  refine scans_plain (fun c hc => ?_)
  have hdigit : isDigit c = true ∨ c = 45 := by
    unfold renderInt at hc
    by_cases hneg : i < 0
    · rw [if_pos hneg] at hc
      rcases List.mem_cons.mp hc with rfl | hc
      · exact .inr rfl
      · exact .inl (decimal_digits _ c hc)
    · rw [if_neg hneg] at hc
      exact .inl (decimal_digits _ c hc)
  rcases hdigit with hdigit | rfl
  · simp only [isDigit, Bool.and_eq_true, decide_eq_true_eq] at hdigit
    omega
  · decide

theorem scans_char {d : Int} {c : Nat}
    (h : c < 127 ∧ c ≠ 34 ∧ c ≠ 123 ∧ c ≠ 91 ∧ c ≠ 125 ∧ c ≠ 93) : Scans maximum d d [c] :=
  scans_plain (fun _ hx => List.mem_singleton.mp hx ▸ h)

mutual

/-- **The scan of a rendered value** goes as deep as the value has levels, and comes back. -/
theorem scans_render : ∀ (v : Json), AllAscii v → ∀ {d : Int}, d + levels v ≤ maximum →
    Scans maximum d d (render v)
  | .null, _, _, _ => scans_plain (by decide)
  | .bool true, _, _, _ => scans_plain (by decide)
  | .bool false, _, _, _ => scans_plain (by decide)
  | .float _, h, _, _ => absurd h (by simp [AllAscii])
  | .int i, _, _, _ => scans_renderInt i
  | .str _, h, _, _ => scans_string h
  | .arr [], _, _, hd => Scans.append (scans_open hd (.inr rfl)) (scans_close (.inr rfl))
  | .arr (x :: xs), h, d, hd => by
      have hd : d + ((1 + max (levels x) (levelsItems xs) : Nat) : Int) ≤ maximum := hd
      refine Scans.cons (scans_open (by omega) (.inr rfl)) (Scans.append (e := d + 1) ?_ ?_)
      · exact scans_render x h.1 (by omega)
      · exact scans_renderItems xs h.2 (by omega)
  | .obj [], _, _, hd => Scans.append (scans_open hd (.inl rfl)) (scans_close (.inl rfl))
  | .obj ((_, v) :: fs), h, d, hd => by
      have hd : d + ((1 + max (levels v) (levelsFields fs) : Nat) : Int) ≤ maximum := hd
      refine Scans.cons (scans_open (by omega) (.inl rfl)) (Scans.append (e := d + 1) (scans_string h.1) ?_)
      refine Scans.cons (e := d + 1) (scans_char (by decide)) (Scans.append (e := d + 1) ?_ ?_)
      · exact scans_render v h.2.1 (by omega)
      · exact scans_renderFields fs h.2.2 (by omega)

theorem scans_renderItems : ∀ (xs : List Json), AllAsciiItems xs → ∀ {d : Int},
    d + 1 + levelsItems xs ≤ maximum → Scans maximum (d + 1) d (renderItems xs)
  | [], _, _, _ => scans_close (.inr rfl)
  | x :: xs, h, d, hd => by
      have hd : d + 1 + ((max (levels x) (levelsItems xs) : Nat) : Int) ≤ maximum := hd
      refine Scans.cons (e := d + 1) (scans_char (by decide)) (Scans.append (e := d + 1) ?_ ?_)
      · exact scans_render x h.1 (by omega)
      · exact scans_renderItems xs h.2 (by omega)

theorem scans_renderFields : ∀ (fs : List (Text × Json)), AllAsciiFields fs → ∀ {d : Int},
    d + 1 + levelsFields fs ≤ maximum → Scans maximum (d + 1) d (renderFields fs)
  | [], _, _, _ => scans_close (.inl rfl)
  | (_, v) :: fs, h, d, hd => by
      have hd : d + 1 + ((max (levels v) (levelsFields fs) : Nat) : Int) ≤ maximum := hd
      refine Scans.cons (e := d + 1) (scans_char (by decide)) (Scans.append (e := d + 1) (scans_string h.1) ?_)
      refine Scans.cons (e := d + 1) (scans_char (by decide)) (Scans.append (e := d + 1) ?_ ?_)
      · exact scans_render v h.2.1 (by omega)
      · exact scans_renderFields fs h.2.2 (by omega)

end

theorem depth_encoded {v : Json} {raw : Bytes} (hv : Value v) (hascii : AllAscii v.sortKeys)
    (hlevels : levels v.sortKeys ≤ maximum) (h : encoded v = some raw) :
    depth maximum raw = .ok ⟨0, false, false⟩ := by
  have hvisible := fun c hc => (visible_render v.sortKeys hascii c hc).2
  have htext : ∀ c ∈ render v.sortKeys ++ [10], c < 127 := by
    rw [List.forall_mem_append]
    exact ⟨hvisible, by decide⟩
  obtain ⟨-, -, -, hraw⟩ := encoded_spec hv h
  rw [encodeUtf8_visible htext] at hraw
  obtain rfl := Option.some.inj hraw
  exact Scans.append (scans_render v.sortKeys hascii (by omega)) (scans_char (by decide))

end Depth

/-! ## The records of a request -/

/-- The size and the digest of a record. -/
structure Ref where
  size : Nat
  sha256 : Text
deriving Repr, DecidableEq

def refOf (raw : Bytes) : Ref := ⟨raw.length, Sha256.hexdigest raw⟩

def Ref.toJson (r : Ref) : Json := .obj [(ascii "size", .int r.size), (ascii "sha256", .str r.sha256)]

/-- What stands under `previous`. -/
def previousJson : Option Ref → Json
  | none => .null
  | some r => r.toJson

/-- A record before it is encoded. -/
def recordJson (kind : Text) (sequence : Nat) (previous : Option Ref) (payload : Json) : Json :=
  .obj [(ascii "schema_version", .int 1), (ascii "kind", .str kind), (ascii "sequence", .int sequence),
    (ascii "previous", previousJson previous), (ascii "payload", payload)]

def statusText (failed : Bool) : Text := if failed then ascii "FAILED" else ascii "COMPLETE"

/-- The payload of a seal. -/
def sealJson (outcome : Json) (failed : Bool) (events : Nat) : Json :=
  .obj [(ascii "outcome", outcome), (ascii "archive_status", .str (statusText failed)),
    (ascii "event_count", .int events)]

section Records

variable {kind : Text} {sequence : Nat} {previous : Option Ref} {payload : Json}

theorem renderInt_natCast (n : Nat) : renderInt (n : Int) = decimal n :=
  if_neg (Int.not_lt.mpr (Int.natCast_nonneg n))

/-- The keys and the constants of the records. -/
theorem printable_literals : ∀ s ∈ [ascii "schema_version", ascii "kind", ascii "sequence",
    ascii "previous", ascii "payload", ascii "size", ascii "sha256", ascii "outcome",
    ascii "archive_status", ascii "event_count", ACCEPT, EVENT, SEAL, ascii "returned", ascii "raised",
    ascii "cancelled", ascii "FAILED", ascii "COMPLETE"], ∀ c ∈ s, Printable c := by
  decide

theorem pyText_printable {s : Text} (h : ∀ c ∈ s, Printable c) : PyText s := fun c hc =>
  Nat.lt_trans (h c hc).2.1 (by decide)

theorem printable_isHex {s : Text} (h : Sha256.isHex s = true) : ∀ c ∈ s, Printable c := by
  intro c hc
  rw [Sha256.isHex, Bool.and_eq_true, List.all_eq_true] at h
  have hchar := h.2 c hc
  simp only [Sha256.isHexChar, Bool.or_eq_true, Bool.and_eq_true, decide_eq_true_eq] at hchar
  unfold Printable
  omega

/-- A reference that a record may hold. -/
structure Ref.Sound (r : Ref) : Prop where
  positive : 1 ≤ r.size
  digest : Sha256.isHex r.sha256 = true

theorem sound_refOf {raw : Bytes} (h : 1 ≤ raw.length) : (refOf raw).Sound :=
  ⟨h, Sha256.isHex_hexdigest raw⟩

theorem value_previous (h : ∀ r, previous = some r → r.Sound) : Value (previousJson previous) := by
  cases previous with
  | none => trivial
  | some r =>
      have hkey := printable_literals
      refine ⟨rfl, ⟨?_, trivial⟩, ⟨?_, ?_⟩, trivial⟩
      · exact pyText_printable (hkey (ascii "size") (by decide))
      · exact pyText_printable (hkey (ascii "sha256") (by decide))
      · exact pyText_printable (printable_isHex (h r rfl).digest)

/-- A record of a value is a value. -/
theorem value_record (hkind : kind ∈ [ACCEPT, EVENT, SEAL]) (hprevious : ∀ r, previous = some r → r.Sound)
    (hpayload : Value payload) : Value (recordJson kind sequence previous payload) := by
  have hkey := fun s hs => pyText_printable (printable_literals s hs)
  have hkinds : ∀ k ∈ [ACCEPT, EVENT, SEAL], ∀ c ∈ k, Printable c := by decide
  refine ⟨rfl, ⟨?_, trivial⟩, ⟨?_, ?_⟩, ⟨?_, trivial⟩, ⟨?_, value_previous hprevious⟩, ⟨?_, hpayload⟩, trivial⟩
  · exact hkey (ascii "schema_version") (by decide)
  · exact hkey (ascii "kind") (by decide)
  · exact pyText_printable (hkinds kind hkind)
  · exact hkey (ascii "sequence") (by decide)
  · exact hkey (ascii "previous") (by decide)
  · exact hkey (ascii "payload") (by decide)

theorem value_seal {outcome : Json} (houtcome : Value outcome) (failed : Bool) (events : Nat) :
    Value (sealJson outcome failed events) := by
  have hkey := fun s hs => pyText_printable (printable_literals s hs)
  refine ⟨rfl, ⟨?_, houtcome⟩, ⟨?_, ?_⟩, ⟨?_, trivial⟩, trivial⟩
  · exact hkey (ascii "outcome") (by decide)
  · exact hkey (ascii "archive_status") (by decide)
  · cases failed with
    | true => exact hkey (ascii "FAILED") (by decide)
    | false => exact hkey (ascii "COMPLETE") (by decide)
  · exact hkey (ascii "event_count") (by decide)

/-- The bytes of a record, apart from its payload and the reference. -/
theorem cost_record (hkind : ∀ c ∈ kind, Printable c) :
    cost (recordJson kind sequence previous payload) =
      65 + kind.length + (decimal sequence).length + cost (previousJson previous) + cost payload := by
  have hkey := fun s hs => textSize_printable (printable_literals s hs)
  have hversion := hkey (ascii "schema_version") (by decide)
  have hkinds := hkey (ascii "kind") (by decide)
  have hsequence := hkey (ascii "sequence") (by decide)
  have hprevious := hkey (ascii "previous") (by decide)
  have hpayload := hkey (ascii "payload") (by decide)
  show 2 + (5 - 1) + ((2 + textSize (ascii "schema_version")) + 1 + (renderInt 1).length +
    ((2 + textSize (ascii "kind")) + 1 + (2 + textSize kind) +
    ((2 + textSize (ascii "sequence")) + 1 + (renderInt sequence).length +
    ((2 + textSize (ascii "previous")) + 1 + cost (previousJson previous) +
    ((2 + textSize (ascii "payload")) + 1 + cost payload + 0))))) = _
  rw [hversion, hkinds, hsequence, hprevious, hpayload, textSize_printable hkind, renderInt_natCast,
    show (renderInt 1).length = 1 from by decide, show (ascii "schema_version").length = 14 from by decide,
    show (ascii "kind").length = 4 from by decide, show (ascii "sequence").length = 8 from by decide,
    show (ascii "previous").length = 8 from by decide,
    show (ascii "payload").length = 7 from by decide]
  omega

theorem decimal_pos (n : Nat) : 1 ≤ (decimal n).length := by
  obtain ⟨d, ds, heq, -⟩ := decimal_cons n
  rw [heq]
  exact Nat.succ_le_succ (Nat.zero_le _)

theorem cost_pos {v : Json} (hv : Value v) : 1 ≤ cost v := by
  cases v with
  | null => exact Nat.le_of_ble_eq_true rfl
  | bool b => cases b <;> exact Nat.le_of_ble_eq_true rfl
  | int i =>
      show 1 ≤ (renderInt i).length
      exact Nat.le_trans (decimal_pos _) (decimal_le_renderInt i)
  | float t =>
      obtain ⟨d, ds, heq, -⟩ := FloatToken.head hv
      show 1 ≤ t.length
      rw [heq]
      exact Nat.succ_le_succ (Nat.zero_le _)
  | str s => exact Nat.le_trans (by decide) (Nat.le_add_right 2 (textSize s))
  | arr xs =>
      show 1 ≤ 2 + (xs.length - 1) + costItems xs
      omega
  | obj fs =>
      show 1 ≤ 2 + (fs.length - 1) + costFields fs
      omega

/-- The bytes of a value with these keys: those of each field. -/
theorem cost_hasKeys {fs : List (Text × Json)} {keys : List String} (h : hasKeys fs keys = true)
    (hnodup : (keys.map ascii).Nodup) :
    cost (.obj fs) = cost (.obj (keys.map fun k => (ascii k, field fs k))) := by
  rw [← cost_sortKeys (.obj fs), sameFields h hnodup, cost_sortKeys]

theorem value_field {fs : List (Text × Json)} (hv : ValueFields fs) (k : String) :
    Value (field fs k) := by
  unfold field
  cases hlookup : fs.lookup (ascii k) with
  | none => trivial
  | some w => exact ((valueFields_iff fs).mp hv _ (lookup_mem hlookup)).2

/-- What the checks of an acceptance say of its payload. -/
theorem acceptPayload_spec (h : acceptPayload payload = .ok ()) : ∃ ps ks sha,
    payload = .obj ps ∧ hasKeys ps ["key", "tool", "arguments_sha256", "acceptance_sequence"] = true ∧
    field ps "key" = .obj ks ∧
    hasKeys ks ["instance_id", "session_id", "request_id_type", "request_id"] = true ∧
    field ps "arguments_sha256" = .str sha ∧ Sha256.isHex sha = true := by
  obtain ⟨ps, hps, hfields⟩ := bind_ok h
  obtain ⟨_, hkey, hfields⟩ := bind_ok hfields
  obtain ⟨_, -, hfields⟩ := bind_ok hfields
  obtain ⟨_, hhash, -⟩ := bind_ok hfields
  obtain ⟨ks, hks, -⟩ := bind_ok hkey
  obtain ⟨rfl, hpkeys⟩ := object_ok hps
  obtain ⟨hkey, hkkeys⟩ := object_ok hks
  cases hsha : field ps "arguments_sha256" with
  | str sha =>
      rw [hsha] at hhash
      exact ⟨ps, ks, sha, rfl, hpkeys, hkey, hkkeys, hsha, require_iff.mp hhash⟩
  | _ =>
      rw [hsha] at hhash
      exact absurd hhash nofun

/-- The payload of an acceptance that passes the checks of a record. -/
theorem acceptPayload_of_record (h : record (recordJson ACCEPT sequence previous payload) = .ok ()) :
    acceptPayload payload = .ok () := by
  obtain ⟨fs, hfs, h⟩ := bind_ok h
  obtain ⟨hobj, -⟩ := object_ok hfs
  obtain rfl := Json.obj.inj hobj
  obtain ⟨_, -, h⟩ := bind_ok h
  obtain ⟨_, -, h⟩ := bind_ok h
  obtain ⟨_, -, h⟩ := bind_ok h
  obtain ⟨_, -, h⟩ := bind_ok h
  obtain ⟨_, -, h⟩ := bind_ok h
  exact h

/-- **An acceptance is long and deep enough** that a seal after it is no longer and no
    deeper. -/
theorem accept_bounds (hv : Value payload) (h : acceptPayload payload = .ok ()) :
    2 ≤ levels (recordJson ACCEPT 0 none payload) ∧ 291 ≤ cost (recordJson ACCEPT 0 none payload) := by
  obtain ⟨ps, ks, sha, rfl, hpkeys, hkey, hkkeys, hsha, hhex⟩ := acceptPayload_spec h
  have hvalue := fun k => value_field hv.2 k
  have hkvalue : ValueFields ks := by
    have hv := hvalue "key"
    rw [hkey] at hv
    exact hv.2
  have hks : 67 ≤ cost (.obj ks) := by
    rw [cost_hasKeys hkkeys (by decide)]
    show 67 ≤ 2 + (4 - 1) + ((2 + textSize (ascii "instance_id")) + 1 + cost (field ks "instance_id") +
      ((2 + textSize (ascii "session_id")) + 1 + cost (field ks "session_id") +
      ((2 + textSize (ascii "request_id_type")) + 1 + cost (field ks "request_id_type") +
      ((2 + textSize (ascii "request_id")) + 1 + cost (field ks "request_id") + 0))))
    rw [show textSize (ascii "instance_id") = 11 from by decide,
      show textSize (ascii "session_id") = 10 from by decide,
      show textSize (ascii "request_id_type") = 15 from by decide,
      show textSize (ascii "request_id") = 10 from by decide]
    have h1 := cost_pos (value_field hkvalue "instance_id")
    have h2 := cost_pos (value_field hkvalue "session_id")
    have h3 := cost_pos (value_field hkvalue "request_id_type")
    have h4 := cost_pos (value_field hkvalue "request_id")
    omega
  have hps : 194 ≤ cost (.obj ps) := by
    rw [cost_hasKeys hpkeys (by decide)]
    show 194 ≤ 2 + (4 - 1) + ((2 + textSize (ascii "key")) + 1 + cost (field ps "key") +
      ((2 + textSize (ascii "tool")) + 1 + cost (field ps "tool") +
      ((2 + textSize (ascii "arguments_sha256")) + 1 + cost (field ps "arguments_sha256") +
      ((2 + textSize (ascii "acceptance_sequence")) + 1 + cost (field ps "acceptance_sequence") + 0))))
    have h1 := cost_pos (hvalue "tool")
    have h2 := cost_pos (hvalue "acceptance_sequence")
    have h3 : cost (field ps "arguments_sha256") = 66 := by
      rw [hsha]
      show 2 + textSize sha = 66
      rw [textSize_printable (printable_isHex hhex)]
      rw [Sha256.isHex, Bool.and_eq_true, beq_iff_eq] at hhex
      rw [hhex.1]
    rw [show textSize (ascii "key") = 3 from by decide,
      show textSize (ascii "tool") = 4 from by decide,
      show textSize (ascii "arguments_sha256") = 16 from by decide,
      show textSize (ascii "acceptance_sequence") = 19 from by decide, hkey, h3]
    omega
  constructor
  · show 2 ≤ 1 + max 0 (max 0 (max 0 (max 0 (max (1 + levelsFields ps) 0))))
    omega
  · rw [cost_record (printable_literals ACCEPT (by decide)),
      show ACCEPT.length = 27 from by decide, show (decimal 0).length = 1 from by decide]
    show 291 ≤ 65 + 27 + 1 + 4 + cost (.obj ps)
    omega

end Records

/-! ## Every seal can be encoded -/

section Seal

variable {r : Ref} {outcome : Outcome} {failed : Bool} {events : Nat}

/-- A seal as a record. -/
def sealRecord (r : Ref) (outcome : Json) (failed : Bool) (events : Nat) : Json :=
  recordJson SEAL (events + 1) (some r) (sealJson outcome failed events)

/-- The fields of a seal in key order. -/
theorem sortKeys_sealRecord (r : Ref) (o : Text) (failed : Bool) (events : Nat) :
    (sealRecord r (.str o) failed events).sortKeys = .obj [(ascii "kind", .str SEAL),
      (ascii "payload", .obj [(ascii "archive_status", .str (statusText failed)),
        (ascii "event_count", .int events), (ascii "outcome", .str o)]),
      (ascii "previous", .obj [(ascii "sha256", .str r.sha256), (ascii "size", .int r.size)]),
      (ascii "schema_version", .int 1), (ascii "sequence", .int (events + 1 : Nat))] := rfl

theorem outcome_text_mem (o : Outcome) : o.text ∈ OUTCOMES := by cases o <;> decide

theorem statusText_mem (failed : Bool) : statusText failed ∈ [ascii "COMPLETE", ascii "FAILED"] := by
  cases failed <;> decide

theorem printable_outcome (o : Outcome) : ∀ c ∈ o.text, Printable c := by cases o <;> decide

theorem printable_status (failed : Bool) : ∀ c ∈ statusText failed, Printable c := by
  cases failed <;> decide

/-- A record with the fields of a seal passes the checks, in whatever order they come. -/
theorem record_of_seal {fs ps rs : List (Text × Json)} {o : Text} (hr : r.Sound) (ho : o ∈ OUTCOMES)
    (hkeys : hasKeys fs ["schema_version", "kind", "sequence", "previous", "payload"] = true)
    (hversion : field fs "schema_version" = .int 1) (hkind : field fs "kind" = .str SEAL)
    (hsequence : field fs "sequence" = .int (events + 1 : Nat))
    (hprevious : field fs "previous" = .obj rs) (hpayload : field fs "payload" = .obj ps)
    (hrkeys : hasKeys rs ["size", "sha256"] = true) (hsize : field rs "size" = .int r.size)
    (hsha : field rs "sha256" = .str r.sha256)
    (hpkeys : hasKeys ps ["outcome", "archive_status", "event_count"] = true)
    (houtcome : field ps "outcome" = .str o)
    (hstatus : field ps "archive_status" = .str (statusText failed))
    (hcount : field ps "event_count" = .int events) : record (.obj fs) = .ok () := by
  have hnumber : ∀ n : Nat, integer 0 (.int n) = .ok () := fun n =>
    require_of (decide_eq_true (Int.natCast_nonneg n))
  have hreference : reference (.obj rs) = .ok () := by
    show (exact (.obj rs) _ >>= _) = _
    rw [exact, object_of hrkeys, ok_bind, hsize, hsha]
    show (require (decide ((1 : Int) ≤ r.size)) _ >>= _) = _
    rw [require_of (decide_eq_true (by exact_mod_cast hr.positive)), ok_bind]
    exact require_of hr.digest
  have hseal : sealPayload (.int (events + 1 : Nat)) (.obj ps) = .ok () := by
    have hin : (oneOf OUTCOMES (.str o) && oneOf [ascii "COMPLETE", ascii "FAILED"]
        (.str (statusText failed))) = true := by
      rw [Bool.and_eq_true]
      exact ⟨List.contains_iff_mem.mpr ho, List.contains_iff_mem.mpr (statusText_mem failed)⟩
    unfold sealPayload exact
    rw [object_of hpkeys, ok_bind, houtcome, hstatus, hcount, require_of hin, ok_bind, hnumber, ok_bind]
    exact require_of (beq_iff_eq.mpr (by omega))
  unfold record exact
  rw [object_of hkeys, ok_bind, hversion, hkind, hsequence, hprevious, hpayload, hnumber, hreference,
    hseal]
  rfl

theorem value_sealRecord (hr : r.Sound) {o : Json} (ho : Value o) :
    Value (sealRecord r o failed events) :=
  value_record (by decide) (fun _ heq => Option.some.inj heq ▸ hr) (value_seal ho failed events)

theorem ascii_sealRecord (hr : r.Sound) :
    AllAscii (sealRecord r (.str outcome.text) failed events).sortKeys := by
  rw [sortKeys_sealRecord]
  have hkey := printable_literals
  refine ⟨?_, ?_, ?_, ⟨?_, ?_, ?_, trivial, ?_, printable_outcome outcome, trivial⟩, ?_,
    ⟨?_, printable_isHex hr.digest, ?_, trivial, trivial⟩, ?_, trivial, ?_, trivial, trivial⟩
  · exact hkey (ascii "kind") (by decide)
  · exact hkey SEAL (by decide)
  · exact hkey (ascii "payload") (by decide)
  · exact hkey (ascii "archive_status") (by decide)
  · exact printable_status failed
  · exact hkey (ascii "event_count") (by decide)
  · exact hkey (ascii "outcome") (by decide)
  · exact hkey (ascii "previous") (by decide)
  · exact hkey (ascii "sha256") (by decide)
  · exact hkey (ascii "size") (by decide)
  · exact hkey (ascii "schema_version") (by decide)
  · exact hkey (ascii "sequence") (by decide)

/-- The checks pass for a seal, and for what the parser makes of it. -/
theorem record_sealRecord (hr : r.Sound) :
    record (sealRecord r (.str outcome.text) failed events) = .ok () ∧
      record (sealRecord r (.str outcome.text) failed events).sortKeys = .ok () := by
  have ho := outcome_text_mem outcome
  constructor
  · exact record_of_seal hr ho rfl rfl rfl rfl rfl rfl rfl rfl rfl rfl rfl rfl rfl
  · rw [sortKeys_sealRecord]
    exact record_of_seal hr ho rfl rfl rfl rfl rfl rfl rfl rfl rfl rfl rfl rfl rfl

/-- The bytes of a seal: the numbers in it are the only part without a bound. -/
theorem cost_sealRecord (hr : r.Sound) :
    cost (sealRecord r (.str outcome.text) failed events) ≤
      241 + (decimal (events + 1)).length + (decimal r.size).length + (decimal events).length := by
  have houtcome : textSize outcome.text ≤ 9 := by
    cases outcome <;> decide
  have hstatus : textSize (statusText failed) ≤ 8 := by
    cases failed <;> decide
  have hprevious : cost (previousJson (some r)) = 85 + (decimal r.size).length := by
    show 2 + (2 - 1) + ((2 + textSize (ascii "size")) + 1 + (renderInt r.size).length +
      ((2 + textSize (ascii "sha256")) + 1 + (2 + textSize r.sha256) + 0)) = _
    have hhex := hr.digest
    rw [Sha256.isHex, Bool.and_eq_true, beq_iff_eq] at hhex
    rw [renderInt_natCast, textSize_printable (printable_isHex hr.digest), hhex.1,
      show textSize (ascii "size") = 4 from by decide,
      show textSize (ascii "sha256") = 6 from by decide]
    omega
  have hpayload : cost (sealJson (.str outcome.text) failed events) ≤ 66 + (decimal events).length := by
    show 2 + (3 - 1) + ((2 + textSize (ascii "outcome")) + 1 + (2 + textSize outcome.text) +
      ((2 + textSize (ascii "archive_status")) + 1 + (2 + textSize (statusText failed)) +
      ((2 + textSize (ascii "event_count")) + 1 + (renderInt events).length + 0))) ≤ _
    rw [renderInt_natCast, show textSize (ascii "outcome") = 7 from by decide,
      show textSize (ascii "archive_status") = 14 from by decide,
      show textSize (ascii "event_count") = 11 from by decide]
    omega
  rw [sealRecord, cost_record (printable_literals SEAL (by decide)), hprevious,
    show SEAL.length = 25 from by decide]
  omega

theorem decimal_le (n : Nat) : (decimal n).length ≤ n / 10 + 1 := by
  refine decimal_length (Nat.succ_pos _) ?_
  have hpow : ∀ k, 10 * k + 10 ≤ 10 ^ (k + 1) := by
    intro k
    induction k with
    | zero => decide
    | succ k ih =>
        rw [Nat.pow_succ]
        omega
  have := hpow (n / 10)
  omega

/-- What an acceptance leaves of a codec's budgets. -/
structure Codec.Roomy (c : Codec) : Prop where
  deep : 2 ≤ c.maxJsonDepth
  long : 292 ≤ c.maxRecordBytes
  within : c.maxRecordBytes ≤ c.maxTotalBytes

/-- **Every seal is encoded** after a record that fits the budgets of a roomy codec. -/
theorem encode_seal {c : Codec} (hc : c.Roomy) (hr : r.Sound) (hsize : r.size ≤ c.maxRecordBytes)
    (hmax : r.size ≤ MAX_SIZE) (hevents : events + 1 ≤ 99999999) :
    ∃ raw, c.encode (sealRecord r (.str outcome.text) failed events) = .ok raw := by
  have hv : Value (sealRecord r (.str outcome.text) failed events) :=
    value_sealRecord hr (pyText_printable (printable_outcome outcome))
  have hdigits : ∀ n k, n < 10 ^ (k + 1) → (decimal n).length ≤ k + 1 := fun n k h =>
    decimal_length (Nat.succ_pos k) h
  have hfirst := hdigits (events + 1) 7 (by omega)
  have hlast := hdigits events 7 (by omega)
  have hnumber := hdigits r.size 18 (Nat.lt_of_le_of_lt hmax (by decide))
  have hcost : cost (sealRecord r (.str outcome.text) failed events) ≤
      241 + (decimal (events + 1)).length + (decimal r.size).length + (decimal events).length :=
    cost_sealRecord hr
  have hascii : AllAscii (sealRecord r (.str outcome.text) failed events).sortKeys :=
    ascii_sealRecord hr
  have hfew : fewDigits MAX_STR_DIGITS (sealRecord r (.str outcome.text) failed events) = true := by
    show (decide ((decimal 1).length ≤ 4300) && (true && (decide ((decimal (events + 1)).length ≤ 4300) &&
      ((decide ((decimal r.size).length ≤ 4300) && (true && true)) &&
      ((true && (true && (decide ((decimal events).length ≤ 4300) && true))) && true))))) = true
    rw [decide_eq_true (show (decimal (events + 1)).length ≤ 4300 by omega),
      decide_eq_true (show (decimal r.size).length ≤ 4300 by omega),
      decide_eq_true (show (decimal events).length ≤ 4300 by omega)]
    rfl
  have hdumps := dumps_ascii hascii
  obtain ⟨-, -, hlength⟩ := sound_of_dumps (plain_of_value _ hv) hfew hdumps
  have hbound := Nat.le_of_eq hlength
  have hraw : encoded (sealRecord r (.str outcome.text) failed events) =
      some ((render (sealRecord r (.str outcome.text) failed events).sortKeys).map UInt8.ofNat ++ [10]) := by
    unfold encoded canonicalJson
    rw [if_pos hfew, hdumps]
    exact if_pos (Nat.le_trans (by omega) (show 300 ≤ MAX_SIZE by decide))
  obtain ⟨-, hlen, -, -⟩ := encoded_spec hv hraw
  have htail := decimal_le r.size
  obtain ⟨hdeep, hlong, hwithin⟩ := hc
  refine ⟨_, encode_of hv hraw (show 2 ≤ c.maxJsonDepth from hdeep)
    (depth_encoded hv hascii (show 2 ≤ c.maxJsonDepth from hdeep) hraw)
    (record_sealRecord hr).1 (record_sealRecord hr).2 ?_ ?_⟩
  · rw [hlen]
    omega
  · rw [hlen]
    omega

end Seal

/-! ## The verifier -/

/-- The status of a chain. -/
inductive Status where
  | incomplete
  | complete
  | failed
deriving Repr, DecidableEq

/-- What the acceptance of a chain says. -/
structure Summary where
  key : Json
  tool : Json
  argumentsSha256 : Json
  acceptanceSequence : Json
deriving Repr

/-- The locals of `verify`. -/
structure Walk where
  count : Nat
  total : Nat
  events : Nat
  summary : Option Summary
  head : Option Ref
  status : Status
  outcome : Option Json
deriving Repr

def Walk.start : Walk := ⟨0, 0, 0, none, none, .incomplete, none⟩

def isText (s : Text) : Json → Bool
  | .str t => t == s
  | _ => false

/-- The summary of an acceptance. -/
def summaryOf (payload : Json) : Summary :=
  let read := fun name => (get payload name).getD .null
  { key := read "key", tool := read "tool", argumentsSha256 := read "arguments_sha256",
    acceptanceSequence := read "acceptance_sequence" }

/-- What the verifier makes of a record's kind. -/
def Walk.kind (w : Walk) (kind payload : Json) : Except String Walk :=
  if w.count = 1 then do
    require (isText ACCEPT kind) "first record must accept"
    .ok { w with summary := some (summaryOf payload) }
  else if isText EVENT kind then .ok { w with events := w.events + 1 }
  else if isText SEAL kind then do
    require (((get payload "event_count").map (isNumber w.events)).getD false) "seal event count differs"
    .ok { w with status := if isText (ascii "COMPLETE") ((get payload "archive_status").getD .null)
                   then .complete else .failed
                 outcome := get payload "outcome" }
  else .error "acceptance inside chain"

/-- One record of `verify`. -/
def Walk.take (c : Codec) (w : Walk) (raw : Bytes) : Except String Walk := do
  require (w.count + 1 ≤ c.maxRecords) "record count budget exceeded"
  require (w.total + raw.length ≤ c.maxTotalBytes) "total byte budget exceeded"
  require (w.status == .incomplete) "record after terminal seal"
  let value ← c.parse raw
  let read := fun name => (get value name).getD .null
  require (isNumber w.count (read "sequence")) "noncontiguous record sequence"
  require (canonical (read "previous") == canonical (previousJson w.head)) "previous original Ref differs"
  let w' ← Walk.kind { w with count := w.count + 1, total := w.total + raw.length }
    (read "kind") (read "payload")
  .ok { w' with head := some (refOf raw) }

/-- What `verify` answers. -/
structure Verdict where
  summary : Summary
  eventCount : Nat
  status : Status
  outcome : Option Json
  headRef : Option Ref
deriving Repr

/-- `ArchiveCodec.verify`. -/
def Codec.verify (c : Codec) (records : List Bytes) : Except String Verdict := do
  let w ← records.foldlM (Walk.take c) Walk.start
  match w.summary with
  | none => .error "empty chain"
  | some summary => .ok { summary, eventCount := w.events, status := w.status, outcome := w.outcome,
                          headRef := w.head }

/-- The reference of the last record. -/
def headOf (records : List Bytes) : Option Ref := records.getLast?.map refOf

/-- **A chain**: each record has the next number, and names the size and the digest of the
    one before it. -/
inductive Chained (c : Codec) : List Bytes → Prop
  | empty : Chained c []
  | next {records : List Bytes} {raw : Bytes} {value : Json} (hrest : Chained c records)
      (hparse : c.parse raw = .ok value)
      (hsequence : get value "sequence" = some (.int records.length))
      (hprevious : get value "previous" = some (previousJson (headOf records)).sortKeys) :
      Chained c (records ++ [raw])

section Verifier

variable {c : Codec}

/-- The fields of a record that was encoded, as the parser has them. -/
theorem get_parsed {kind : Text} {sequence : Nat} {previous : Option Ref} {payload : Json}
    (hv : Value (recordJson kind sequence previous payload)) :
    get (recordJson kind sequence previous payload).sortKeys "sequence" = some (.int sequence) ∧
      get (recordJson kind sequence previous payload).sortKeys "previous" = some (previousJson previous).sortKeys ∧
      get (recordJson kind sequence previous payload).sortKeys "kind" = some (.str kind) ∧
      get (recordJson kind sequence previous payload).sortKeys "payload" = some payload.sortKeys := by
  refine ⟨?_, ?_, ?_, ?_⟩
  · rw [get_sortKeys hv]
    rfl
  · rw [get_sortKeys hv]
    rfl
  · rw [get_sortKeys hv]
    rfl
  · rw [get_sortKeys hv]
    rfl

/-- **A record in its place goes on with the chain, and the verifier goes on.** -/
theorem take_record {count total events : Nat} {summary : Option Summary} {head : Option Ref}
    {outcome : Option Json} {kind : Text} {payload : Json} {raw : Bytes}
    (hv : Value (recordJson kind count head payload))
    (hraw : c.encode (recordJson kind count head payload) = .ok raw)
    (hprevious : Value (previousJson head))
    (hcount : count + 1 ≤ c.maxRecords) (htotal : total + raw.length ≤ c.maxTotalBytes) :
    Walk.take c ⟨count, total, events, summary, head, .incomplete, outcome⟩ raw = (do
      let w' ← Walk.kind ⟨count + 1, total + raw.length, events, summary, head, .incomplete, outcome⟩
        (.str kind) payload.sortKeys
      .ok { w' with head := some (refOf raw) }) := by
  obtain ⟨hsequence, hhead, hkind, hpayload⟩ := get_parsed hv
  obtain ⟨-, -, -, -, -, -, hparse⟩ := encode_spec hv hraw
  have hsame : canonical (previousJson head).sortKeys = canonical (previousJson head) :=
    congrArg render (sortKeys_idem _ hprevious)
  unfold Walk.take
  dsimp only
  rw [require_of (decide_eq_true hcount), ok_bind, require_of (decide_eq_true htotal), ok_bind,
    require_of (beq_self_eq_true _), ok_bind, hparse, ok_bind, hsequence, hhead, hkind, hpayload]
  dsimp only [Option.getD_some]
  rw [require_of (show isNumber count (.int count) = true from beq_self_eq_true _), ok_bind, hsame,
    require_of (beq_self_eq_true _), ok_bind]

end Verifier

end ArchiveCodec
