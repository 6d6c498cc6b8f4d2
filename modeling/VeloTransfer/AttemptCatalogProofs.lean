import VeloTransfer.RequestJournalProofs

/-! # Attempt catalog — the records of an instance and its attempts

    Beside the chains of the requests an instance has one chain of its own: its begin,
    the begin, the acceptance and the end of each attempt, and its end.

    * `encode_spec` — an encoded row is within the budgets, and the parser reads it back;
    * `take_row` — the verifier goes on with a row in its place;
    * `entry_begin`, `entry_ack`, `entry_rejection`, `entry_end`, `entry_instanceEnd` — what
      the verifier makes of each row;
    * `rows_le` — a catalog has no more than three rows for an attempt. -/

namespace AttemptCatalog

open CanonicalJson JsonLine BoundedJson JsonLimits JsonDict ExceptRules ArchiveCodec
open RequestJournal (fileName)

def KIND : Text := ascii "pc026-observation-attempt-catalog-v1"

def INSTANCE_BEGIN : Text := ascii "INSTANCE_BEGIN"
def ATTEMPT_BEGIN : Text := ascii "ATTEMPT_BEGIN"
def ACCEPT_ACK : Text := ascii "ACCEPT_ACK"
def ATTEMPT_END : Text := ascii "ATTEMPT_END"
def INSTANCE_END : Text := ascii "INSTANCE_END"

/-- `REASONS`. -/
inductive Reason where
  | duplicate
  | activeLimit
  | seenLimit
  | byteLimit
deriving Repr, DecidableEq

def Reason.text : Reason → Text
  | .duplicate => ascii "DUPLICATE"
  | .activeLimit => ascii "ACTIVE_LIMIT"
  | .seenLimit => ascii "SEEN_LIMIT"
  | .byteLimit => ascii "BYTE_LIMIT"

def REASONS : List Text :=
  [ascii "DUPLICATE", ascii "ACTIVE_LIMIT", ascii "SEEN_LIMIT", ascii "BYTE_LIMIT"]

/-- An attempt without a reason to reject it is a new one. -/
def decisionText (reason : Option Reason) : Text :=
  if reason.isNone then ascii "NEW" else ascii "REJECTED"

def reasonText : Option Reason → Text
  | none => ascii "NONE"
  | some reason => reason.text

/-! ## Checks of a row -/

/-- `_int`. -/
def int (minimum : Int) : Json → Except String Unit
  | .int i => require (minimum ≤ i) "catalog integer"
  | _ => .error "catalog integer"

/-- `[0-9a-f]{count}`. -/
def isHexOf (count : Nat) (s : Text) : Bool := s.length == count && s.all Sha256.isHexChar

/-- A string for which the check holds. -/
def isText (check : Text → Bool) : Json → Bool
  | .str s => check s
  | _ => false

/-- `_exact`. -/
def exact (v : Json) (fields : List String) : Except String (List (Text × Json)) :=
  object fields "catalog exact fields" v

/-- A path inside the instance, of names that are not empty and lead nowhere else. -/
def isRefPath (name : Text) : Bool :=
  !name.isEmpty && !(name.any fun c => c == 92 || c == 58 || c == 0) &&
    (name.splitOn 47).all fun part => part != [] && part != ascii "." && part != ascii ".."

/-- `_ref`. -/
def ref (path : Bool) (v : Json) : Except String Unit := do
  let fs ← exact v (if path then ["path", "size", "sha256"] else ["size", "sha256"])
  int 0 (field fs "size")
  require (isText (isHexOf 64) (field fs "sha256")) "catalog SHA"
  if path then require (isText isRefPath (field fs "path")) "catalog Ref path" else .ok ()

/-- `0|[1-9][0-9]*`. -/
def isNumeral (s : Text) : Bool := s == [48] || (s.all isDigit && !s.isEmpty && s.head? != some 48)

/-- `_canonical_sid(value) == value`. -/
def isSid (s : Text) : Bool :=
  s.length ≤ 184 && match s.splitOn 45 with
    | s1 :: s2 :: authority :: parts =>
        s1 == ascii "S" && s2 == ascii "1" && isNumeral authority && parts.all isNumeral &&
          1 ≤ parts.length && parts.length ≤ 15 && ofDigits 0 authority ≤ 2 ^ 48 - 1 &&
          parts.all fun part => ofDigits 0 part ≤ 2 ^ 32 - 1
    | _ => false

/-- `_identity`. -/
def identity (v : Json) : Except String Unit := do
  let fs ← exact v ["platform", "volume_serial", "file_id", "owner_sid", "principal_sid", "acl_sha256"]
  require (isText (· == ascii "windows") (field fs "platform")) "catalog Windows identity"
  require (isText (isHexOf 16) (field fs "volume_serial") && isText (isHexOf 32) (field fs "file_id"))
    "catalog identity encoding"
  require (isText isSid (field fs "owner_sid") && isText isSid (field fs "principal_sid")) "catalog SID"
  require (isText (isHexOf 64) (field fs "acl_sha256")) "catalog SHA"

/-- The number of a field that was checked to be one. -/
def number : Json → Nat
  | .int i => i.toNat
  | _ => 0

/-- The string of a field that was checked to be one. -/
def text : Json → Text
  | .str s => s
  | _ => []

/-- The payload of an `INSTANCE_BEGIN`. -/
def instanceBegin (p : Json) : Except String Unit := do
  let ps ← exact p ["config_ref", "freeze_ref", "root_identity"]
  ref true (field ps "config_ref")
  ref true (field ps "freeze_ref")
  identity (field ps "root_identity")

/-- The payload of an `ATTEMPT_BEGIN` of the instance. -/
def attemptBegin (instanceId p : Json) : Except String Unit := do
  let ps ← exact p ["attempt_sequence", "key", "tool", "arguments_sha256", "decision", "reason"]
  int 1 (field ps "attempt_sequence")
  require (number (field ps "attempt_sequence") ≤ 999999999999) "catalog attempt limit"
  key (field ps "key")
  require (canonical ((get (field ps "key") "instance_id").getD .null) == canonical instanceId)
    "catalog parent instance"
  require (isText (fun s => !s.isEmpty) (field ps "tool")) "catalog tool"
  require (isText (isHexOf 64) (field ps "arguments_sha256")) "catalog SHA"
  require ((isText (· == ascii "NEW") (field ps "decision") && isText (· == ascii "NONE") (field ps "reason")) ||
    (isText (· == ascii "REJECTED") (field ps "decision") && oneOf REASONS (field ps "reason")))
    "catalog decision"

/-- The payload of an `ACCEPT_ACK`. -/
def acceptAck (p : Json) : Except String Unit := do
  let ps ← exact p ["attempt_sequence", "accept_ref"]
  int 1 (field ps "attempt_sequence")
  ref true (field ps "accept_ref")

/-- The payload of an `ATTEMPT_END`. -/
def attemptEnd (p : Json) : Except String Unit := do
  let ps ← exact p ["attempt_sequence", "disposition", "outcome", "head_ref", "record_count", "event_count",
    "total_bytes"]
  int 1 (field ps "attempt_sequence")
  ["record_count", "event_count", "total_bytes"].forM fun name => int 0 (field ps name)
  let records := number (field ps "record_count")
  if isText (· == ascii "REJECTED") (field ps "disposition") then
    require (isNull (field ps "outcome") && isNull (field ps "head_ref") &&
      ["record_count", "event_count", "total_bytes"].all fun name => number (field ps name) == 0)
      "catalog rejection end"
  else do
    require (oneOf [ascii "COMPLETE", ascii "FAILED"] (field ps "disposition") &&
      oneOf OUTCOMES (field ps "outcome")) "catalog known end"
    ref true (field ps "head_ref")
    let size := number ((get (field ps "head_ref") "size").getD .null)
    require (records ≤ 100000000 && records == number (field ps "event_count") + 2 &&
      size ≤ number (field ps "total_bytes") && 0 < size) "catalog chain counters"

/-- The payload of an `INSTANCE_END`. -/
def instanceEnd (p : Json) : Except String Unit := do
  let ps ← exact p ["attempt_count", "accepted_count", "rejected_count", "state"]
  ["attempt_count", "accepted_count", "rejected_count"].forM fun name => int 0 (field ps name)
  require (isText (· == ascii "CLOSED_KNOWN") (field ps "state") && number (field ps "attempt_count") ==
    number (field ps "accepted_count") + number (field ps "rejected_count")) "catalog instance end"

/-- `_record`. -/
def record (v : Json) : Except String Unit := do
  let fs ← exact v ["schema_version", "kind", "sequence", "previous", "record_type", "instance_id", "payload"]
  require (isNumber 1 (field fs "schema_version") && isText (· == KIND) (field fs "kind"))
    "catalog version/kind"
  int 0 (field fs "sequence")
  require (number (field fs "sequence") ≤ 99999999) "catalog filename limit"
  require (isText (isHexOf 32) (field fs "instance_id")) "catalog instance"
  let kind := text (field fs "record_type")
  if isNumber 0 (field fs "sequence") then
    require (isNull (field fs "previous") && isText (· == INSTANCE_BEGIN) (field fs "record_type"))
      "catalog first record"
  else do
    ref false (field fs "previous")
    require (!isText (· == INSTANCE_BEGIN) (field fs "record_type")) "catalog repeated instance begin"
  if kind = INSTANCE_BEGIN then instanceBegin (field fs "payload")
  else if kind = ATTEMPT_BEGIN then attemptBegin (field fs "instance_id") (field fs "payload")
  else if kind = ACCEPT_ACK then acceptAck (field fs "payload")
  else if kind = ATTEMPT_END then attemptEnd (field fs "payload")
  else if kind = INSTANCE_END then instanceEnd (field fs "payload")
  else .error "catalog unknown record type"

/-! ## The codec -/

/-- The budgets of `CatalogCodec`. -/
structure CatalogCodec where
  maxRecords : Nat
  maxRecordBytes : Nat
  maxTotalBytes : Nat
  maxJsonDepth : Nat
  positive : 1 ≤ maxRecords ∧ 1 ≤ maxRecordBytes ∧ 1 ≤ maxTotalBytes ∧ 1 ≤ maxJsonDepth
  nameable : maxRecords ≤ 100000000

/-- `CatalogCodec.parse`; where the source wraps an error of the archive codec, it stays as it is. -/
def CatalogCodec.parse (c : CatalogCodec) (raw : Bytes) : Except String Json := do
  require (raw.length ≤ c.maxRecordBytes && raw.length ≤ c.maxTotalBytes) "catalog byte budget"
  let _ ← depth c.maxJsonDepth raw
  let value ← ArchiveCodec.loads raw
  record value
  require (encoded value == some raw) "catalog canonical original"
  .ok value

/-- `CatalogCodec.encode`. -/
def CatalogCodec.encode (c : CatalogCodec) (v : Json) : Except String Bytes := do
  require (levels v ≤ c.maxJsonDepth) "JSON depth budget exceeded"
  record v
  match encoded v with
  | none => .error "catalog invalid encoding"
  | some raw => do
      let _ ← c.parse raw
      .ok raw

/-! ## The rows -/

/-- A row before it is encoded. -/
def rowJson (instanceId : Text) (sequence : Nat) (previous : Option Ref) (recordType : Text) (payload : Json) :
    Json :=
  .obj [(ascii "schema_version", .int 1), (ascii "kind", .str KIND), (ascii "sequence", .int sequence),
    (ascii "previous", previousJson previous), (ascii "record_type", .str recordType),
    (ascii "instance_id", .str instanceId), (ascii "payload", payload)]

/-- A reference to a file of the instance. -/
def refJson (path : Text) (r : Ref) : Json :=
  .obj [(ascii "path", .str path), (ascii "size", .int r.size), (ascii "sha256", .str r.sha256)]

def beginJson (sequence : Nat) (key : Json) (tool argumentsSha256 : Text) (reason : Option Reason) : Json :=
  .obj [(ascii "attempt_sequence", .int sequence), (ascii "key", key), (ascii "tool", .str tool),
    (ascii "arguments_sha256", .str argumentsSha256), (ascii "decision", .str (decisionText reason)),
    (ascii "reason", .str (reasonText reason))]

def ackJson (sequence : Nat) (path : Text) (r : Ref) : Json :=
  .obj [(ascii "attempt_sequence", .int sequence), (ascii "accept_ref", refJson path r)]

def rejectionJson (sequence : Nat) : Json :=
  .obj [(ascii "attempt_sequence", .int sequence), (ascii "disposition", .str (ascii "REJECTED")),
    (ascii "outcome", .null), (ascii "head_ref", .null), (ascii "record_count", .int 0),
    (ascii "event_count", .int 0), (ascii "total_bytes", .int 0)]

def endJson (sequence : Nat) (failed : Bool) (outcome : Outcome) (path : Text) (r : Ref)
    (records events bytes : Nat) : Json :=
  .obj [(ascii "attempt_sequence", .int sequence), (ascii "disposition", .str (statusText failed)),
    (ascii "outcome", .str outcome.text), (ascii "head_ref", refJson path r),
    (ascii "record_count", .int records), (ascii "event_count", .int events), (ascii "total_bytes", .int bytes)]

def instanceEndJson (attempts accepted rejected : Nat) : Json :=
  .obj [(ascii "attempt_count", .int attempts), (ascii "accepted_count", .int accepted),
    (ascii "rejected_count", .int rejected), (ascii "state", .str (ascii "CLOSED_KNOWN"))]

/-- `_directory`, of a key that was encoded. -/
def directory (sequence : Nat) (key : Bytes) : Text :=
  let digits := decimal sequence
  114 :: (List.replicate (12 - digits.length) 48 ++ digits ++ 45 :: Sha256.hexdigest key.dropLast)

/-! ## The verifier -/

/-- What the verifier keeps of an attempt. -/
structure Entry where
  new : Bool
  directory : Text
  acked : Bool
  ended : Bool
deriving Repr, DecidableEq

/-- The locals of `verify`. -/
structure Walk where
  count : Nat
  total : Nat
  head : Option Ref
  instanceId : Option Text
  attempts : List Entry
  seen : List Bytes
  accepted : Nat
  rejected : Nat
  ended : Bool
deriving Repr

def Walk.start : Walk := ⟨0, 0, none, none, [], [], 0, 0, false⟩

/-- `attempts.get(sequence)`: the numbers begin with one. -/
def Walk.attempt (w : Walk) : Nat → Option Entry
  | 0 => none
  | n + 1 => w.attempts[n]?

/-- `p[name]` of a payload that was checked to have it. -/
def read (p : Json) (name : String) : Json := (get p name).getD .null

/-- `_canonical(p['key'])`; a key that was parsed can be encoded. -/
def keyOf (p : Json) : Bytes := (encoded (read p "key")).getD []

/-- An `ATTEMPT_BEGIN` in `verify`. -/
def Walk.begin (w : Walk) (sequence : Nat) (key : Bytes) (decision reason : Text) : Except String Walk := do
  require (sequence == w.attempts.length + 1) "catalog attempt sequence"
  let duplicate := w.seen.contains key
  let rejected := decision == ascii "REJECTED"
  require ((reason == Reason.duplicate.text) == duplicate) "catalog duplicate classification"
  require (!duplicate || rejected) "catalog repeated NEW"
  .ok { w with
    seen := if duplicate then w.seen else key :: w.seen
    attempts := w.attempts ++ [⟨decision == ascii "NEW", directory sequence key, false, false⟩]
    rejected := if rejected then w.rejected + 1 else w.rejected }

/-- The attempt of an acceptance or an end. -/
def Walk.begun (w : Walk) (sequence : Nat) : Except String Entry :=
  match w.attempt sequence with
  | some a => if a.ended then .error "catalog missing BEGIN/repeated END" else .ok a
  | none => .error "catalog missing BEGIN/repeated END"

/-- An `ACCEPT_ACK` in `verify`. -/
def Walk.ack (w : Walk) (sequence : Nat) (path : Text) : Except String Walk := do
  let a ← w.begun sequence
  require (a.new && !a.acked && path == a.directory ++ 47 :: fileName 0) "catalog ACK scope/order"
  .ok { w with attempts := w.attempts.set (sequence - 1) { a with acked := true }, accepted := w.accepted + 1 }

/-- An `ATTEMPT_END` in `verify`. -/
def Walk.finish (w : Walk) (sequence : Nat) (disposition path : Text) (records : Nat) : Except String Walk := do
  let a ← w.begun sequence
  require ((disposition == ascii "REJECTED") == !a.new) "catalog END decision"
  require (!a.new || (a.acked && path == a.directory ++ 47 :: fileName (records - 1))) "catalog END head/ACK"
  .ok { w with attempts := w.attempts.set (sequence - 1) { a with ended := true } }

/-- An `INSTANCE_END` in `verify`. -/
def Walk.close (w : Walk) (attempts accepted rejected : Nat) : Except String Walk := do
  require (w.attempts.all Entry.ended && attempts == w.attempts.length && accepted == w.accepted &&
    rejected == w.rejected) "catalog incomplete/counts"
  .ok { w with ended := true }

/-- What the verifier makes of a row. -/
def Walk.entry (w : Walk) (kind : Text) (p : Json) : Except String Walk :=
  if kind = ATTEMPT_BEGIN then
    w.begin (number (read p "attempt_sequence")) (keyOf p) (text (read p "decision")) (text (read p "reason"))
  else if kind = ACCEPT_ACK then
    w.ack (number (read p "attempt_sequence")) (text (read (read p "accept_ref") "path"))
  else if kind = ATTEMPT_END then
    w.finish (number (read p "attempt_sequence")) (text (read p "disposition"))
      (text (read (read p "head_ref") "path")) (number (read p "record_count"))
  else if kind = INSTANCE_END then
    w.close (number (read p "attempt_count")) (number (read p "accepted_count"))
      (number (read p "rejected_count"))
  else .ok w

/-- A row of `verify` that was parsed. -/
def Walk.next (c : CatalogCodec) (w : Walk) (raw : Bytes) (sequence previous : Json) (instanceId kind : Text)
    (p : Json) : Except String Walk := do
  require (w.total + raw.length ≤ c.maxTotalBytes && isNumber w.count sequence &&
    canonical previous == canonical (previousJson w.head)) "catalog chain order/budget"
  require (w.instanceId.getD instanceId == instanceId) "catalog instance drift"
  let w' ← Walk.entry { w with count := w.count + 1, total := w.total + raw.length,
                               instanceId := some instanceId } kind p
  .ok { w' with head := some (refOf raw) }

/-- One row of `verify`. -/
def Walk.take (c : CatalogCodec) (w : Walk) (raw : Bytes) : Except String Walk := do
  require (w.count + 1 ≤ c.maxRecords && !w.ended) "catalog count/terminal boundary"
  let row ← c.parse raw
  w.next c raw (read row "sequence") (read row "previous") (text (read row "instance_id"))
    (text (read row "record_type")) (read row "payload")

/-- What `verify` answers. -/
structure Verdict where
  closedKnown : Bool
  instanceId : Option Text
  headRef : Option Ref
  recordCount : Nat
  totalBytes : Nat
  attemptCount : Nat
  acceptedCount : Nat
  rejectedCount : Nat
deriving Repr

def Walk.verdict (w : Walk) : Verdict :=
  { closedKnown := w.ended, instanceId := w.instanceId, headRef := w.head, recordCount := w.count,
    totalBytes := w.total, attemptCount := w.attempts.length, acceptedCount := w.accepted,
    rejectedCount := w.rejected }

/-- `CatalogCodec.verify`. -/
def CatalogCodec.verify (c : CatalogCodec) (records : List Bytes) : Except String Verdict := do
  let w ← records.foldlM (Walk.take c) Walk.start
  require (decide (0 < w.count)) "catalog empty chain"
  .ok w.verdict

/-! ## What is encoded is parsed -/

section Rows

variable {c : CatalogCodec}

theorem parse_spec {raw : Bytes} {v : Json} (h : c.parse raw = .ok v) :
    raw.length ≤ c.maxRecordBytes ∧ raw.length ≤ c.maxTotalBytes ∧ ArchiveCodec.loads raw = .ok v := by
  obtain ⟨_, hlength, h⟩ := bind_ok h
  obtain ⟨_, -, h⟩ := bind_ok h
  obtain ⟨value, hloads, h⟩ := bind_ok h
  obtain ⟨_, -, h⟩ := bind_ok h
  obtain ⟨_, -, h⟩ := bind_ok h
  obtain rfl := Except.ok.inj h
  have hlength := require_iff.mp hlength
  rw [Bool.and_eq_true, decide_eq_true_eq, decide_eq_true_eq] at hlength
  exact ⟨hlength.1, hlength.2, hloads⟩

theorem encode_bytes {raw : Bytes} {v : Json} (h : c.encode v = .ok raw) : raw.length ≤ c.maxRecordBytes := by
  obtain ⟨_, -, h⟩ := bind_ok h
  obtain ⟨_, -, h⟩ := bind_ok h
  cases hraw : encoded v with
  | none =>
      rw [hraw] at h
      exact absurd h nofun
  | some line =>
      rw [hraw] at h
      obtain ⟨parsed, hparse, h⟩ := bind_ok h
      obtain rfl := Except.ok.inj h
      exact (parse_spec hparse).1

/-- **An encoded row is read back**, with its keys in order and within the budgets. -/
theorem encode_spec {raw : Bytes} {v : Json} (hv : Value v) (h : c.encode v = .ok raw) :
    1 ≤ raw.length ∧ raw.length ≤ c.maxRecordBytes ∧ c.parse raw = .ok v.sortKeys := by
  obtain ⟨_, -, h⟩ := bind_ok h
  obtain ⟨_, -, h⟩ := bind_ok h
  cases hraw : encoded v with
  | none =>
      rw [hraw] at h
      exact absurd h nofun
  | some line =>
      rw [hraw] at h
      obtain ⟨parsed, hparse, h⟩ := bind_ok h
      obtain rfl := Except.ok.inj h
      obtain ⟨-, hlength, -, -⟩ := encoded_spec hv hraw
      obtain ⟨hbytes, -, hloads⟩ := parse_spec hparse
      obtain rfl := Except.ok.inj ((loads_encoded hv hraw).symm.trans hloads)
      exact ⟨by omega, hbytes, hparse⟩

/-! The rows are values. -/

theorem value_object {fs : List (Text × Json)} (hnodup : hasDuplicate fs = false)
    (hkeys : ∀ f ∈ fs, PyText f.1) (hvalues : ∀ f ∈ fs, Value f.2) : Value (.obj fs) :=
  ⟨hnodup, (valueFields_iff fs).mpr fun f hf => ⟨hkeys f hf, hvalues f hf⟩⟩

theorem pyText_ascii_names : ∀ s ∈ ["schema_version", "kind", "sequence", "previous", "record_type", "instance_id",
    "payload", "path", "size", "sha256", "attempt_sequence", "key", "tool", "arguments_sha256", "decision", "reason",
    "accept_ref", "disposition", "outcome", "head_ref", "record_count", "event_count", "total_bytes",
    "attempt_count", "accepted_count", "rejected_count", "state"], ∀ x ∈ ascii s, x < 0x110000 := by
  decide

theorem pyText_isHexOf {n : Nat} {s : Text} (h : isHexOf n s = true) : PyText s := by
  intro x hx
  rw [isHexOf, Bool.and_eq_true, List.all_eq_true] at h
  have hchar := h.2 x hx
  simp only [Sha256.isHexChar, Bool.or_eq_true, Bool.and_eq_true, decide_eq_true_eq] at hchar
  omega

variable {instanceId kind : Text} {previous : Option Ref} {payload : Json}

theorem value_row (sequence : Nat) (hinstance : PyText instanceId) (hkind : PyText kind)
    (hprevious : ∀ r, previous = some r → r.Sound) (hpayload : Value payload) :
    Value (rowJson instanceId sequence previous kind payload) := by
  have hnames := pyText_ascii_names
  simp only [List.forall_mem_cons] at hnames
  obtain ⟨h1, h2, h3, h4, h5, h6, h7, -⟩ := hnames
  have hconst : PyText KIND := by
    unfold PyText
    decide
  exact ⟨rfl, ⟨h1, trivial⟩, ⟨h2, hconst⟩, ⟨h3, trivial⟩, ⟨h4, value_previous hprevious⟩, ⟨h5, hkind⟩,
    ⟨h6, hinstance⟩, ⟨h7, hpayload⟩, trivial⟩

theorem value_refJson {path : Text} {r : Ref} (hpath : PyText path) (hsha : PyText r.sha256) :
    Value (refJson path r) := by
  have hnames := pyText_ascii_names
  simp only [List.forall_mem_cons] at hnames
  obtain ⟨-, -, -, -, -, -, -, h1, h2, h3, -⟩ := hnames
  exact ⟨rfl, ⟨h1, hpath⟩, ⟨h2, trivial⟩, ⟨h3, hsha⟩, trivial⟩

theorem value_beginJson (sequence : Nat) {key : Json} {tool argumentsSha256 : Text} (reason : Option Reason)
    (hkey : Value key) (htool : PyText tool) (hsha : PyText argumentsSha256) :
    Value (beginJson sequence key tool argumentsSha256 reason) := by
  have hnames := pyText_ascii_names
  simp only [List.forall_mem_cons] at hnames
  obtain ⟨-, -, -, -, -, -, -, -, -, -, h1, h2, h3, h4, h5, h6, -⟩ := hnames
  have hdecision : PyText (decisionText reason) := by
    unfold PyText
    rcases reason with _ | _ | _ | _ | _ <;> decide
  have hreason : PyText (reasonText reason) := by
    unfold PyText
    rcases reason with _ | _ | _ | _ | _ <;> decide
  exact ⟨rfl, ⟨h1, trivial⟩, ⟨h2, hkey⟩, ⟨h3, htool⟩, ⟨h4, hsha⟩, ⟨h5, hdecision⟩, ⟨h6, hreason⟩, trivial⟩

theorem value_ackJson (sequence : Nat) {path : Text} {r : Ref} (hpath : PyText path) (hsha : PyText r.sha256) :
    Value (ackJson sequence path r) := by
  have hnames := pyText_ascii_names
  simp only [List.forall_mem_cons] at hnames
  obtain ⟨-, -, -, -, -, -, -, -, -, -, h1, -, -, -, -, -, h2, -⟩ := hnames
  exact ⟨rfl, ⟨h1, trivial⟩, ⟨h2, value_refJson hpath hsha⟩, trivial⟩

theorem value_rejectionJson (sequence : Nat) : Value (rejectionJson sequence) := by
  have hnames := pyText_ascii_names
  simp only [List.forall_mem_cons] at hnames
  obtain ⟨-, -, -, -, -, -, -, -, -, -, h1, -, -, -, -, -, -, h2, h3, h4, h5, h6, h7, -⟩ := hnames
  have hrejected : PyText (ascii "REJECTED") := by
    unfold PyText
    decide
  exact ⟨rfl, ⟨h1, trivial⟩, ⟨h2, hrejected⟩, ⟨h3, trivial⟩, ⟨h4, trivial⟩, ⟨h5, trivial⟩, ⟨h6, trivial⟩,
    ⟨h7, trivial⟩, trivial⟩

theorem value_endJson (sequence : Nat) (failed : Bool) (outcome : Outcome) {path : Text} {r : Ref}
    (records events bytes : Nat) (hpath : PyText path) (hsha : PyText r.sha256) :
    Value (endJson sequence failed outcome path r records events bytes) := by
  have hnames := pyText_ascii_names
  simp only [List.forall_mem_cons] at hnames
  obtain ⟨-, -, -, -, -, -, -, -, -, -, h1, -, -, -, -, -, -, h2, h3, h4, h5, h6, h7, -⟩ := hnames
  exact ⟨rfl, ⟨h1, trivial⟩, ⟨h2, pyText_printable (printable_status failed)⟩,
    ⟨h3, pyText_printable (printable_outcome outcome)⟩, ⟨h4, value_refJson hpath hsha⟩, ⟨h5, trivial⟩,
    ⟨h6, trivial⟩, ⟨h7, trivial⟩, trivial⟩

theorem value_instanceEndJson (attempts accepted rejected : Nat) :
    Value (instanceEndJson attempts accepted rejected) := by
  have hnames := pyText_ascii_names
  simp only [List.forall_mem_cons] at hnames
  obtain ⟨-, -, -, -, -, -, -, -, -, -, -, -, -, -, -, -, -, -, -, -, -, -, -, h1, h2, h3, h4, -⟩ := hnames
  have hstate : PyText (ascii "CLOSED_KNOWN") := by
    unfold PyText
    decide
  exact ⟨rfl, ⟨h1, trivial⟩, ⟨h2, trivial⟩, ⟨h3, trivial⟩, ⟨h4, hstate⟩, trivial⟩

theorem pyText_directory (sequence : Nat) (key : Bytes) : PyText (directory sequence key) := by
  intro x hx
  have hdigits : ∀ d ∈ decimal sequence, d < 0x110000 := fun d hd => by
    have hdigit := decimal_digits _ d hd
    simp only [isDigit, Bool.and_eq_true, decide_eq_true_eq] at hdigit
    omega
  have hx : x ∈ 114 :: (List.replicate (12 - (decimal sequence).length) 48 ++ decimal sequence ++
    45 :: Sha256.hexdigest key.dropLast) := hx
  rw [List.mem_cons, List.mem_append, List.mem_append, List.mem_cons] at hx
  rcases hx with rfl | (hx | hx) | rfl | hx
  · decide
  · rw [List.eq_of_mem_replicate hx]
    decide
  · exact hdigits x hx
  · decide
  · exact pyText_printable (printable_isHex (Sha256.isHex_hexdigest _)) _ hx

theorem pyText_file {path : Text} (hpath : PyText path) (n : Nat) : PyText (path ++ 47 :: fileName n) := by
  have hname : PyText (fileName n) := by
    intro x hx
    have hdigits : ∀ d ∈ decimal n, d < 0x110000 := fun d hd => by
      have hdigit := decimal_digits _ d hd
      simp only [isDigit, Bool.and_eq_true, decide_eq_true_eq] at hdigit
      omega
    have hsuffix : ∀ d ∈ ascii ".json", d < 0x110000 := by decide
    have hx : x ∈ List.replicate (8 - (decimal n).length) 48 ++ decimal n ++ ascii ".json" := hx
    rw [List.mem_append, List.mem_append] at hx
    rcases hx with (hx | hx) | hx
    · rw [List.eq_of_mem_replicate hx]
      decide
    · exact hdigits x hx
    · exact hsuffix x hx
  intro x hx
  rw [List.mem_append, List.mem_cons] at hx
  rcases hx with hx | rfl | hx
  · exact hpath x hx
  · decide
  · exact hname x hx

end Rows

/-! ## What the verifier makes of a row -/

section Verifier

variable {c : CatalogCodec} {w : Walk}

theorem read_sortKeys {v : Json} (hv : Value v) (name : String) :
    read v.sortKeys name = (read v name).sortKeys := by
  unfold read
  rw [get_sortKeys hv]
  cases get v name <;> rfl

/-- **A row in its place goes on with the chain.** -/
theorem take_row {instanceId kind : Text} {payload : Json} {raw : Bytes}
    (hv : Value (rowJson instanceId w.count w.head kind payload)) (hprevious : Value (previousJson w.head))
    (hraw : c.encode (rowJson instanceId w.count w.head kind payload) = .ok raw)
    (hcount : w.count + 1 ≤ c.maxRecords) (hopen : w.ended = false)
    (htotal : w.total + raw.length ≤ c.maxTotalBytes) (hinstance : ∀ i, w.instanceId = some i → i = instanceId) :
    Walk.take c w raw = (do
      let w' ← Walk.entry { w with count := w.count + 1, total := w.total + raw.length,
                                   instanceId := some instanceId } kind payload.sortKeys
      .ok { w' with head := some (refOf raw) }) := by
  obtain ⟨-, -, hparse⟩ := encode_spec hv hraw
  have hfirst : (decide (w.count + 1 ≤ c.maxRecords) && !w.ended) = true := by
    rw [decide_eq_true hcount, hopen]
    rfl
  have hsame : canonical (previousJson w.head).sortKeys = canonical (previousJson w.head) :=
    congrArg render (sortKeys_idem _ hprevious)
  have horder : (decide (w.total + raw.length ≤ c.maxTotalBytes) && isNumber w.count (.int w.count) &&
      canonical (previousJson w.head).sortKeys == canonical (previousJson w.head)) = true := by
    rw [decide_eq_true htotal, hsame, beq_self_eq_true]
    exact congrArg (true && · && true) (beq_self_eq_true _)
  have hid : w.instanceId.getD instanceId = instanceId := by
    cases hw : w.instanceId with
    | none => rfl
    | some i => exact hinstance i hw
  unfold Walk.take
  rw [require_of hfirst, ok_bind, hparse, ok_bind, read_sortKeys hv, read_sortKeys hv, read_sortKeys hv,
    read_sortKeys hv, read_sortKeys hv]
  show Walk.next c w raw (.int w.count) (previousJson w.head).sortKeys instanceId kind payload.sortKeys = _
  unfold Walk.next
  rw [require_of horder, ok_bind, hid, require_of (beq_self_eq_true _), ok_bind]

/-- The begin of the instance says nothing of its attempts. -/
theorem entry_instanceBegin (payload : Json) : Walk.entry w INSTANCE_BEGIN payload = .ok w := by
  unfold Walk.entry
  rw [if_neg (by decide), if_neg (by decide), if_neg (by decide), if_neg (by decide)]

/-- **The begin of the next attempt**: a repeated key is rejected as one. -/
theorem entry_begin {key : Json} {tool argumentsSha256 : Text} {reason : Option Reason} {raw : Bytes}
    (hkey : Value key) (htool : PyText tool) (hsha : PyText argumentsSha256) (hraw : encoded key = some raw)
    (hduplicate : reason = some .duplicate ↔ raw ∈ w.seen) :
    Walk.entry w ATTEMPT_BEGIN
        (beginJson (w.attempts.length + 1) key tool argumentsSha256 reason).sortKeys =
      .ok { w with
        seen := if w.seen.contains raw then w.seen else raw :: w.seen
        attempts := w.attempts ++ [⟨reason.isNone, directory (w.attempts.length + 1) raw, false, false⟩]
        rejected := if reason.isNone then w.rejected else w.rejected + 1 } := by
  have hv := value_beginJson (w.attempts.length + 1) reason hkey htool hsha
  have hkeyOf : keyOf (beginJson (w.attempts.length + 1) key tool argumentsSha256 reason).sortKeys = raw := by
    unfold keyOf
    rw [read_sortKeys hv]
    show (encoded key.sortKeys).getD [] = raw
    rw [encoded_sortKeys hkey, hraw]
    rfl
  have hcontains : w.seen.contains raw = decide (reason = some .duplicate) := by
    rw [Bool.eq_iff_iff, List.contains_iff_mem, decide_eq_true_eq, hduplicate]
  have hclass : (reasonText reason == Reason.duplicate.text) = decide (reason = some .duplicate) := by
    rcases reason with _ | _ | _ | _ | _ <;> decide
  have hdecision : (decisionText reason == ascii "REJECTED") = !reason.isNone := by
    rcases reason with _ | _ | _ | _ | _ <;> decide
  have hnew : (decisionText reason == ascii "NEW") = reason.isNone := by
    rcases reason with _ | _ | _ | _ | _ <;> decide
  have hrepeated : (!decide (reason = some .duplicate) || !reason.isNone) = true := by
    rcases reason with _ | _ | _ | _ | _ <;> rfl
  show Walk.begin w _ _ _ _ = _
  rw [hkeyOf, read_sortKeys hv, read_sortKeys hv, read_sortKeys hv]
  show Walk.begin w (w.attempts.length + 1) raw (decisionText reason) (reasonText reason) = _
  unfold Walk.begin
  dsimp only
  rw [require_of (beq_self_eq_true _), ok_bind, hclass, hcontains, require_of (beq_self_eq_true _), ok_bind,
    hdecision, hnew, require_of hrepeated, ok_bind]
  cases reason.isNone <;> rfl

/-- The attempt with this number, before its end. -/
theorem begun_of {i : Nat} {a : Entry} (ha : w.attempts[i]? = some a) (hopen : a.ended = false) :
    w.begun (i + 1) = .ok a := by
  unfold Walk.begun
  show (match w.attempts[i]? with
    | some a => if a.ended = true then .error "catalog missing BEGIN/repeated END" else .ok a
    | none => .error "catalog missing BEGIN/repeated END" : Except String Entry) = _
  rw [ha]
  dsimp only
  rw [hopen]
  rfl

/-- **The acceptance of a new attempt.** -/
theorem entry_ack {i : Nat} {a : Entry} {r : Ref} (ha : w.attempts[i]? = some a) (hnew : a.new = true)
    (hacked : a.acked = false) (hopen : a.ended = false) (hpath : PyText a.directory) (hsha : PyText r.sha256) :
    Walk.entry w ACCEPT_ACK (ackJson (i + 1) (a.directory ++ 47 :: fileName 0) r).sortKeys =
      .ok { w with attempts := w.attempts.set i { a with acked := true }, accepted := w.accepted + 1 } := by
  have hfile := pyText_file hpath 0
  have hv := value_ackJson (i + 1) hfile hsha
  show Walk.ack w _ _ = _
  rw [read_sortKeys hv, read_sortKeys hv]
  show Walk.ack w (i + 1) (text (read (refJson (a.directory ++ 47 :: fileName 0) r).sortKeys "path")) = _
  rw [read_sortKeys (value_refJson hfile hsha)]
  show Walk.ack w (i + 1) (a.directory ++ 47 :: fileName 0) = _
  unfold Walk.ack
  rw [begun_of ha hopen, ok_bind, hnew, hacked, beq_self_eq_true]
  rfl

/-- **The end of an attempt that was rejected.** -/
theorem entry_rejection {i : Nat} {a : Entry} (ha : w.attempts[i]? = some a) (hnew : a.new = false)
    (hopen : a.ended = false) : Walk.entry w ATTEMPT_END (rejectionJson (i + 1)).sortKeys =
      .ok { w with attempts := w.attempts.set i { a with ended := true } } := by
  have hv := value_rejectionJson (i + 1)
  show Walk.finish w _ _ _ _ = _
  rw [read_sortKeys hv, read_sortKeys hv, read_sortKeys hv, read_sortKeys hv]
  show Walk.finish w (i + 1) (ascii "REJECTED") [] 0 = _
  unfold Walk.finish
  rw [begun_of ha hopen, ok_bind, hnew, beq_self_eq_true, require_of (show (true == !false) = true from rfl), ok_bind]
  rfl

/-- **The end of an attempt that was accepted.** -/
theorem entry_end {i : Nat} {a : Entry} {failed : Bool} {outcome : Outcome} {r : Ref} {records events bytes : Nat}
    (ha : w.attempts[i]? = some a) (hnew : a.new = true) (hacked : a.acked = true) (hopen : a.ended = false)
    (hpath : PyText a.directory) (hsha : PyText r.sha256) :
    Walk.entry w ATTEMPT_END (endJson (i + 1) failed outcome (a.directory ++ 47 :: fileName (records - 1)) r records
        events bytes).sortKeys =
      .ok { w with attempts := w.attempts.set i { a with ended := true } } := by
  have hfile := pyText_file hpath (records - 1)
  have hv := value_endJson (i + 1) failed outcome records events bytes hfile hsha
  have hstatus : (statusText failed == ascii "REJECTED") = false := by
    cases failed <;> decide
  show Walk.finish w _ _ _ _ = _
  rw [read_sortKeys hv, read_sortKeys hv, read_sortKeys hv, read_sortKeys hv]
  show Walk.finish w (i + 1) (statusText failed)
    (text (read (refJson (a.directory ++ 47 :: fileName (records - 1)) r).sortKeys "path"))
    (records : Int).toNat = _
  rw [read_sortKeys (value_refJson hfile hsha), Int.toNat_natCast]
  show Walk.finish w (i + 1) (statusText failed) (a.directory ++ 47 :: fileName (records - 1)) records = _
  unfold Walk.finish
  rw [begun_of ha hopen, ok_bind, hstatus, hnew, hacked, require_of (show (false == !true) = true from rfl), ok_bind,
    beq_self_eq_true]
  rfl

/-- **The end of the instance.** -/
theorem entry_instanceEnd (hended : ∀ a ∈ w.attempts, a.ended = true) :
    Walk.entry w INSTANCE_END (instanceEndJson w.attempts.length w.accepted w.rejected).sortKeys =
      .ok { w with ended := true } := by
  have hv := value_instanceEndJson w.attempts.length w.accepted w.rejected
  have hall : w.attempts.all Entry.ended = true := List.all_eq_true.mpr hended
  show Walk.close w _ _ _ = _
  rw [read_sortKeys hv, read_sortKeys hv, read_sortKeys hv]
  show Walk.close w (w.attempts.length : Int).toNat (w.accepted : Int).toNat (w.rejected : Int).toNat = _
  unfold Walk.close
  rw [Int.toNat_natCast, Int.toNat_natCast, Int.toNat_natCast, hall, beq_self_eq_true, beq_self_eq_true,
    beq_self_eq_true]
  rfl

end Verifier

/-! ## How many rows there are -/

/-- The rows of an attempt that has its begin. -/
def Entry.rows (a : Entry) : Nat := 1 + a.acked.toNat + a.ended.toNat

def rows (attempts : List Entry) : Nat := (attempts.map Entry.rows).sum

section Count

variable {attempts : List Entry} {i : Nat} {a b : Entry}

theorem rows_append (attempts : List Entry) (a : Entry) : rows (attempts ++ [a]) = rows attempts + a.rows := by
  unfold rows
  rw [List.map_append, List.sum_append]
  rfl

theorem rows_set (h : attempts[i]? = some a) (b : Entry) : rows (attempts.set i b) + a.rows = rows attempts + b.rows := by
  induction attempts generalizing i with
  | nil => exact absurd h nofun
  | cons e es ih =>
      cases i with
      | zero =>
          obtain rfl := Option.some.inj h
          show b.rows + rows es + e.rows = e.rows + rows es + b.rows
          omega
      | succ i =>
          have hes : rows (es.set i b) + a.rows = rows es + b.rows := ih h
          show e.rows + rows (es.set i b) + a.rows = e.rows + rows es + b.rows
          omega

theorem Entry.rows_le (a : Entry) : a.rows ≤ 3 := by
  unfold Entry.rows
  cases a.acked <;> cases a.ended <;> decide

/-- A catalog has at most three rows for an attempt. -/
theorem rows_le (attempts : List Entry) : rows attempts ≤ 3 * attempts.length := by
  induction attempts with
  | nil => exact Nat.le_refl 0
  | cons e es ih =>
      have he := e.rows_le
      show e.rows + rows es ≤ 3 * (es.length + 1)
      omega

/-- What an attempt has not had yet is not in the catalog. -/
theorem rows_room (h : attempts[i]? = some a) : rows attempts + 3 ≤ 3 * attempts.length + a.rows := by
  have hfull := rows_set h ⟨true, [], true, true⟩
  have hle := rows_le (attempts.set i ⟨true, [], true, true⟩)
  rw [List.length_set] at hle
  have hthree : Entry.rows ⟨true, [], true, true⟩ = 3 := rfl
  omega

end Count

end AttemptCatalog
