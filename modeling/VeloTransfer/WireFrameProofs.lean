import Mathlib
import VeloTransfer.ByteFrameProofs
import VeloTransfer.JsonLengthProofs
import VeloTransfer.JsonLimitsProofs
import VeloTransfer.Sha256Proofs
import VeloTransfer.ExceptProofs

/-! # The wire format of chunks — VBT1

    A frame is a mark, the length of a JSON header, the header, and a payload.  The
    header says what the frame is and how the payload is cut into chunks; the payload
    is the chunks, one after the other.

    * `validate_iff`, `decode_iff` — a frame is accepted exactly where its parts are
      what the header says, with nothing missing and nothing left;
    * `wire_exact` — what was encoded is decoded as it was, what is decoded can be
      encoded again, and everything else is refused with the one error of the format. -/

namespace TransferWire

open CanonicalJson BoundedJson JsonDict JsonLine JsonLimits ByteFrame ExceptRules

abbrev Bytes := List UInt8

/-! ## Limits and codes -/

def MAGIC : Bytes := [86, 66, 84, 49]

def HEADER_LIMIT : Nat := 1048576

def CHUNK_LIMIT : Nat := 1048576

def BATCH_LIMIT : Nat := 67108864

def BODY_LIMIT : Nat := 104857600

/-- The error codes of the contract. -/
def codeNames : List String :=
  ["abort_requires_resume", "action_conflict", "action_not_allowed", "action_precondition_failed",
    "action_retry_exhausted", "adapter_cleanup_pending", "atomic_primitive_unavailable",
    "atomic_publish_failed", "authentication_denied", "bad_host", "batch_not_allowed", "begin_fact_lost",
    "begin_retry_exhausted", "body_too_large", "budget_outside_policy", "bundle_exists",
    "capabilities_disabled", "channel_changed", "channel_unconfigured", "chunk_budget_exceeded",
    "chunk_budget_or_deadline", "chunk_conflict", "chunk_hash_mismatch", "chunk_offset_conflict",
    "chunk_outcome_unresolved", "chunk_precondition_failed", "chunk_replay_conflict", "chunk_too_large",
    "cleanup_failed", "cleanup_incomplete", "cleanup_ownership_conflict", "cleanup_ownership_unknown",
    "command_too_long", "completion_unproven", "connection_failed", "control_ack_invalid",
    "coordinator_state_conflict", "cross_parent", "cross_volume", "deadline_exceeded", "deadline_or_cancelled",
    "deadline_outside_policy", "destination_changed", "destination_exists", "destination_parent_changed",
    "destination_unavailable", "destination_verification_conflict", "destination_verification_invalid",
    "disk_budget_exceeded", "disk_probe_failed", "duplicate_json_key", "duplicate_policy_key",
    "duplicate_result_key", "duplicate_state_key", "evidence_changed", "evidence_collection_exceeded",
    "evidence_conflict", "evidence_durability_unknown", "evidence_reconcile_required", "evidence_unavailable",
    "evidence_write_failed", "expansion_budget_exceeded", "file_count_exceeded", "guest_cleanup_unproven",
    "guest_identity_changed", "guest_offset_conflict", "guest_operation_conflict", "guest_package_conflict",
    "guest_package_unavailable", "guest_phase_conflict", "guest_status_binding_conflict",
    "guest_terminal_missing", "helper_response", "host_cleanup_incomplete", "host_cleanup_intent_conflict",
    "host_cleanup_io_failed", "host_cleanup_not_authorized", "host_cleanup_ownership_conflict",
    "host_cleanup_ownership_unknown", "host_cleanup_package_changed", "host_cleanup_proof_conflict",
    "host_cleanup_stage_residue", "host_cleanup_unknown_residue", "host_content_fact_conflict",
    "host_identity_mismatch", "host_identity_unavailable", "host_package_durability_unknown",
    "host_package_ownership_conflict", "host_package_reconcile_required", "host_package_unavailable",
    "host_pull_binding_conflict", "host_pull_state_conflict", "host_push_state_conflict", "host_rejected",
    "identity_mismatch", "immutable_fact_changed", "incompatible_server", "insecure_permissions",
    "instance_changed", "internal_error", "invalid_action_input", "invalid_arguments", "invalid_binding",
    "invalid_budget", "invalid_channel", "invalid_chunk", "invalid_chunk_range", "invalid_deadline",
    "invalid_destination", "invalid_digest", "invalid_direction", "invalid_directory_identity",
    "invalid_evidence_name", "invalid_evidence_ref", "invalid_evidence_refs", "invalid_expected_identity",
    "invalid_frame", "invalid_host_identity", "invalid_initial_state", "invalid_journal",
    "invalid_journal_data", "invalid_json", "invalid_local_path", "invalid_manifest", "invalid_operation",
    "invalid_output_access_mode", "invalid_package", "invalid_package_identity", "invalid_path_purpose",
    "invalid_phase", "invalid_policy", "invalid_policy_file", "invalid_protocol_value", "invalid_receipt_id",
    "invalid_relative_path", "invalid_request", "invalid_result_budget", "invalid_result_channel",
    "invalid_result_cleanup", "invalid_result_destination", "invalid_result_digest", "invalid_result_direction",
    "invalid_result_evidence", "invalid_result_fact", "invalid_result_file", "invalid_result_json",
    "invalid_result_number", "invalid_result_package", "invalid_result_path", "invalid_result_phase",
    "invalid_result_resumed_bytes", "invalid_result_stability", "invalid_result_status",
    "invalid_result_transfer_id", "invalid_result_vm_identity", "invalid_result_warnings", "invalid_resume",
    "invalid_revision", "invalid_source_path", "invalid_source_root", "invalid_source_spec",
    "invalid_spec_file", "invalid_spec_path", "invalid_stage_name", "invalid_staging_ownership",
    "invalid_state", "invalid_task_binding", "invalid_terminal_snapshot", "invalid_timeout",
    "invalid_transfer_id", "invalid_trusted_sid", "invalid_vm_epoch", "invalid_vm_identity",
    "invalid_worker_job", "invalid_worker_timeout", "link_or_reparse", "logical_budget_exceeded",
    "malformed_response", "manifest_hash_mismatch", "manifest_source_conflict", "metadata_budget_exceeded",
    "missing_tree_member", "missing_zip_member", "not_configured", "not_directory", "operation_mismatch",
    "origin_denied", "output_access_conflict", "output_access_not_verified", "output_acl_changed",
    "output_acl_deny", "output_acl_failed", "output_acl_not_verified", "output_identity_changed",
    "output_owner_changed", "package_budget_exceeded", "package_changed", "package_hash_mismatch",
    "package_incomplete", "package_reconcile_required", "package_size_mismatch", "partial_binding_conflict",
    "partial_changed", "partial_corrupt", "partial_io_failed", "partial_not_initialized",
    "partial_ownership_conflict", "partial_reconcile_required", "partial_state_invalid",
    "partial_verification_required", "path_collision", "path_outside_root", "policy_changed",
    "policy_too_large", "post_publish_io_failed", "powershell_response", "private_output_target",
    "producer_evidence_missing", "protocol_error", "publication_already_started",
    "publication_binding_conflict", "publication_outcome_unknown", "publication_reconcile_required",
    "publication_recovery_conflict", "publication_unproven", "published_destination_missing",
    "published_fact_lost", "receipt_binding_mismatch", "release_already_authorized", "release_not_authorized",
    "release_state_changed", "request_changed", "request_digest_mismatch", "request_path_outside_root",
    "request_too_large", "response_too_large", "result_budget_exceeded", "result_completion_unproven",
    "result_file_count_exceeded", "result_outcome_conflict", "result_path_collision",
    "result_publication_binding_missing", "result_publication_contradiction", "result_receipt_mismatch",
    "resume_required", "resume_requires_transfer_id", "root_changed", "schema_mismatch", "session_not_found",
    "session_required", "source_changed", "source_mapping_ambiguous", "source_root_changed",
    "source_unavailable", "source_validation_conflict", "source_validation_missing", "sources_required",
    "spec_changed", "spec_too_large", "spec_unavailable", "stage_creation_failed", "stage_exists",
    "stage_not_empty", "stage_reconcile_required", "stage_registration_failed", "staging_changed",
    "staging_not_private", "staging_sync_failed", "stale_revision", "state_budget_exceeded", "state_changed",
    "state_hash_mismatch", "storage_durability_unknown", "storage_reconcile_required", "storage_write_failed",
    "task_binding_conflict", "task_incomplete", "task_not_found", "temporary_changed", "tls_auth_failed",
    "tool_error", "tools_missing", "transfer_cancelled", "transfer_disabled", "transfer_service_closed",
    "transport_timeout", "tree_content_mismatch", "tree_type_mismatch", "unauthorized",
    "unexpected_tree_member", "unexpected_zip_member", "unsupported_host", "unsupported_media_type",
    "unsupported_source_type", "unsupported_zip_member", "untrusted_ancestor", "untrusted_owner",
    "vm_identity_mismatch", "vm_identity_unavailable", "windows_acl_changed", "windows_acl_kind_invalid",
    "windows_acl_malformed", "windows_acl_not_verified", "windows_acl_path_changed", "windows_acl_path_invalid",
    "windows_acl_path_unavailable", "windows_acl_unavailable", "windows_acl_unprotected",
    "windows_acl_unsupported", "windows_acl_untrusted_owner", "windows_acl_untrusted_read",
    "windows_acl_untrusted_write", "windows_identity_command_failed", "windows_identity_invalid",
    "windows_identity_output_limit", "windows_identity_timeout", "windows_identity_unavailable",
    "windows_platform_unsupported", "windows_token_unavailable", "worker_activation_failed",
    "worker_activation_timeout", "worker_activation_unknown", "worker_busy", "worker_failed",
    "worker_identity_unavailable", "worker_interpreter_unavailable", "worker_lock_unavailable",
    "worker_ownership_mismatch", "worker_platform_unsupported", "worker_policy_configuration_mismatch",
    "worker_result_unknown", "worker_signal_unavailable", "worker_state_changed", "worker_stop_failed",
    "worker_stop_unconfirmed", "writer_busy", "writer_lock_changed", "writer_lock_held", "writer_lock_required",
    "writer_lock_unavailable", "wrong_operating_system", "zip_member_collision", "zip_size_mismatch"]

def CODES : List Text := codeNames.map ascii

/-- What a frame carries. -/
inductive Component where
  | pullRequest
  | pushRequest
  | pullResponse
  | pushResponse
  | errorResponse
deriving Repr, DecidableEq

/-- The error of the format, or one of the encoder of JSON. -/
inductive Failure where
  | wireError (code : String)
  | valueError
deriving Repr, DecidableEq

def refuse {α : Type} : Except Failure α := .error (.wireError "invalid_frame")

def refuseIf (c : Prop) [Decidable c] : Except Failure Unit := if c then refuse else .ok ()

/-- The limits of the interpreter: the digits of an integer, and how deep the decoder
    of JSON may nest. -/
structure Interpreter where
  digits : Nat
  nesting : Nat
  roomy : 4 ≤ nesting

/-! ## JSON -/

inductive LoadsError where
  | unicodeError
  | syntaxError
  | duplicateKey
  | tooManyDigits
  | recursionError
deriving Repr, DecidableEq

/-- `raw.decode("utf-8")`. -/
def decodeStrict (raw : Bytes) : Option Text :=
  match decodeUtf8 raw with
  | some cs => if cs.any isSurrogate then none else some cs
  | none => none

/-- `json.loads`, with the hooks of the format. -/
def jsonLoads (py : Interpreter) (raw : Bytes) : Except LoadsError Json :=
  match decodeStrict raw with
  | none => .error .unicodeError
  | some cs =>
      match parseDocument cs with
      | .error .syntaxError => .error .syntaxError
      | .error .duplicateKey => .error .duplicateKey
      | .ok v =>
          if py.nesting < height v then .error .recursionError
          else if fewDigits py.digits v then .ok v
          else .error .tooManyDigits

/-- `strict_json`: each of these errors is caught. -/
def strictJson (py : Interpreter) (raw : Bytes) : Except Failure Json :=
  match jsonLoads py raw with
  | .ok v => .ok v
  | .error _ => refuse

/-- `json.dumps(header, ...).encode("utf-8")`; that no constant is written concerns
    floats only, which no header holds that was validated. -/
def jsonDumps (py : Interpreter) (header : Json) : Except Failure Bytes :=
  if fewDigits py.digits header then
    match encodeUtf8 (render header) with
    | some raw => .ok raw
    | none => .error .valueError
  else .error .valueError

/-! ## Validation -/

/-- `_object`. -/
def objectOf (keys : List String) : Json → Except Failure (List (Text × Json))
  | .obj fs => if hasKeys fs keys then .ok fs else refuse
  | _ => refuse

/-- `_integer`. -/
def integerOf (minimum : Int) (maximum : Option Int) : Json → Except Failure Int
  | .int i => if i < minimum ∨ maximum.any (fun m => decide (m < i)) = true then refuse else .ok i
  | _ => refuse

/-- `_digest`. -/
def digestOf : Json → Except Failure Text
  | .str s => if Sha256.isHex s then .ok s else refuse
  | _ => refuse

/-- `value == text`, for a value of any type. -/
def isText (v : Json) (s : Text) : Bool :=
  match v with
  | .str t => t == s
  | _ => false

/-- The keys of an item. -/
def itemKeys : Component → List String
  | .pushRequest => ["count", "chunk_sha256"]
  | _ => ["offset", "count", "chunk_sha256"]

/-- Where an item ends; in a response the items follow one another. -/
def endOf (component : Component) (fs : List (Text × Json)) (count : Int) (previousEnd : Option Int) :
    Except Failure (Option Int) :=
  if component = .pullResponse then do
    let offset ← integerOf 0 none (field fs "offset")
    refuseIf (previousEnd.any (fun e => offset != e) = true)
    pure (some (offset + count))
  else pure previousEnd

/-- The loop over the items, from the place in the payload where the next one starts. -/
def validateItems (component : Component) (payload : Bytes) : List Json → Nat → Option Int → Except Failure Unit
  | [], cursor, _ => refuseIf (cursor ≠ payload.length)
  | item :: items, cursor, previousEnd => do
      let fs ← objectOf (itemKeys component) item
      let count ← integerOf 1 (some CHUNK_LIMIT) (field fs "count")
      let digest ← digestOf (field fs "chunk_sha256")
      let previousEnd ← endOf component fs count previousEnd
      let fin := cursor + count.toNat
      refuseIf (fin > payload.length ∨ Sha256.hexdigest ((payload.drop cursor).take count.toNat) ≠ digest)
      validateItems component payload items fin previousEnd

/-- The checks on a list of items. -/
def validateChunks (component : Component) (minimum : Nat) (items : Json) (payload : Bytes) : Except Failure Unit :=
  match items with
  | .arr items => do
      refuseIf (¬ (minimum ≤ items.length ∧ items.length ≤ 64) ∨ payload.length > BATCH_LIMIT)
      validateItems component payload items 0 none
  | _ => refuse

/-- `validate`. -/
def validate (header : Json) (payload : Bytes) : Component → Except Failure Unit
  | .pullRequest => do
      let _ ← objectOf [] header
      refuseIf (payload ≠ [])
  | .errorResponse => do
      let fs ← objectOf ["status", "error"] header
      let error ← objectOf ["code"] (field fs "error")
      match field error "code" with
      | .str code => refuseIf (isText (field fs "status") (ascii "error") = false ∨ code ∉ CODES ∨ payload ≠ [])
      | _ => refuse
  | .pushResponse => do
      let fs ← objectOf ["status", "result"] header
      let result ← objectOf ["verified_offset", "accepted"] (field fs "result")
      refuseIf (isText (field fs "status") (ascii "success") = false ∨ payload ≠ [])
      let _ ← integerOf 0 none (field result "verified_offset")
      let _ ← integerOf 1 (some 64) (field result "accepted")
  | .pushRequest => do
      let fs ← objectOf ["chunks"] header
      validateChunks .pushRequest 1 (field fs "chunks") payload
  | .pullResponse => do
      let fs ← objectOf ["status", "result"] header
      let result ← objectOf ["verified_offset", "chunks"] (field fs "result")
      refuseIf (isText (field fs "status") (ascii "success") = false)
      let _ ← integerOf 0 none (field result "verified_offset")
      validateChunks .pullResponse 0 (field result "chunks") payload

/-! ## Frames -/

/-- `parse`. -/
def parse (py : Interpreter) (body : Bytes) : Except Failure (Json × Bytes) := do
  refuseIf (body.length > BODY_LIMIT ∨ body.length < 8 ∨ body.take 4 ≠ MAGIC)
  let size := ofLittleEndian ((body.drop 4).take 4)
  refuseIf (size > HEADER_LIMIT ∨ 8 + size > body.length)
  let header ← strictJson py ((body.drop 8).take size)
  match header with
  | .obj fs => pure (.obj fs, body.drop (8 + size))
  | _ => refuse

/-- `decode`. -/
def decode (py : Interpreter) (body : Bytes) (component : Component) : Except Failure (Json × Bytes) := do
  let parsed ← parse py body
  validate parsed.1 parsed.2 component
  pure parsed

/-- `encode`. -/
def encode (py : Interpreter) (header : Json) (payload : Bytes) (component : Component) : Except Failure Bytes := do
  validate header payload component
  let raw ← jsonDumps py header
  refuseIf (raw.length > HEADER_LIMIT ∨ 8 + raw.length + payload.length > BODY_LIMIT)
  pure (MAGIC ++ littleEndian 4 raw.length ++ raw ++ payload)

/-! ## What a frame is -/

/-- A chunk: its bytes, and in a response where they lie in the file. -/
structure Chunk where
  offset : Option Int
  bytes : Bytes

/-- The item says what the chunk is. -/
structure ItemOf (component : Component) (item : Json) (chunk : Chunk) : Prop where
  fields : ∃ fs, item = .obj fs ∧ hasKeys fs (itemKeys component) = true ∧
    field fs "count" = .int chunk.bytes.length ∧ field fs "chunk_sha256" = .str (Sha256.hexdigest chunk.bytes) ∧
    (component = .pullResponse → ∃ offset, chunk.offset = some offset ∧ 0 ≤ offset ∧ field fs "offset" = .int offset)
  sent : component ≠ .pullResponse → chunk.offset = none
  some : 1 ≤ chunk.bytes.length
  small : chunk.bytes.length ≤ CHUNK_LIMIT

/-- The second chunk lies right behind the first. -/
def Follows (a b : Chunk) : Prop := ∀ offset, a.offset = some offset → b.offset = some (offset + a.bytes.length)

/-- The payload is cut into the chunks that the items tell, in their order. -/
structure Partition (component : Component) (minimum : Nat) (items : List Json) (payload : Bytes)
    (chunks : List Chunk) : Prop where
  told : List.Forall₂ (ItemOf component) items chunks
  exact : payload = chunks.flatMap Chunk.bytes
  contiguous : List.IsChain Follows chunks
  several : minimum ≤ items.length ∧ items.length ≤ 64
  bounded : payload.length ≤ BATCH_LIMIT

/-- **A frame of each kind**: its header, and the payload that belongs to it. -/
inductive Exact : Component → Json → Bytes → Prop
  | pullRequest : Exact .pullRequest (.obj []) []
  | errorResponse {fs error : List (Text × Json)} {code : Text} (hkeys : hasKeys fs ["status", "error"] = true)
      (hstatus : field fs "status" = .str (ascii "error")) (herror : field fs "error" = .obj error)
      (hone : hasKeys error ["code"] = true) (hcode : field error "code" = .str code) (hknown : code ∈ CODES) :
      Exact .errorResponse (.obj fs) []
  | pushResponse {fs result : List (Text × Json)} {verified accepted : Int}
      (hkeys : hasKeys fs ["status", "result"] = true) (hstatus : field fs "status" = .str (ascii "success"))
      (hresult : field fs "result" = .obj result) (htwo : hasKeys result ["verified_offset", "accepted"] = true)
      (hverified : field result "verified_offset" = .int verified) (hfrom : 0 ≤ verified)
      (haccepted : field result "accepted" = .int accepted) (hsome : 1 ≤ accepted) (hfew : accepted ≤ 64) :
      Exact .pushResponse (.obj fs) []
  | pushRequest {fs : List (Text × Json)} {items : List Json} {payload : Bytes} {chunks : List Chunk}
      (hkeys : hasKeys fs ["chunks"] = true) (hitems : field fs "chunks" = .arr items)
      (hparts : Partition .pushRequest 1 items payload chunks) : Exact .pushRequest (.obj fs) payload
  | pullResponse {fs result : List (Text × Json)} {verified : Int} {items : List Json} {payload : Bytes}
      {chunks : List Chunk} (hkeys : hasKeys fs ["status", "result"] = true)
      (hstatus : field fs "status" = .str (ascii "success")) (hresult : field fs "result" = .obj result)
      (htwo : hasKeys result ["verified_offset", "chunks"] = true)
      (hverified : field result "verified_offset" = .int verified) (hfrom : 0 ≤ verified)
      (hitems : field result "chunks" = .arr items) (hparts : Partition .pullResponse 0 items payload chunks) :
      Exact .pullResponse (.obj fs) payload

/-! ## What the checks let through -/

section Checks

variable {α β : Type}

@[simp] theorem refuse_ok {a : α} : ¬ (refuse : Except Failure α) = .ok a := nofun

@[simp] theorem refuseIf_ok {c : Prop} [Decidable c] {u : Unit} : refuseIf c = .ok u ↔ ¬ c := by
  unfold refuseIf
  by_cases hc : c
  · rw [if_pos hc]
    exact ⟨fun h => absurd h nofun, fun h => absurd hc h⟩
  · rw [if_neg hc]
    exact ⟨fun _ => hc, fun _ => rfl⟩

theorem objectOf_ok {keys : List String} {v : Json} {fs : List (Text × Json)} :
    objectOf keys v = .ok fs ↔ v = .obj fs ∧ hasKeys fs keys = true := by
  unfold objectOf
  constructor
  · intro h
    split at h
    · split at h
      next hkeys =>
        obtain rfl := Except.ok.inj h
        exact ⟨rfl, hkeys⟩
      · exact absurd h nofun
    · exact absurd h nofun
  · rintro ⟨rfl, hkeys⟩
    exact if_pos hkeys

theorem integerOf_ok {minimum : Int} {maximum : Option Int} {v : Json} {i : Int} :
    integerOf minimum maximum v = .ok i ↔ v = .int i ∧ minimum ≤ i ∧ ∀ m, maximum = some m → i ≤ m := by
  unfold integerOf
  constructor
  · intro h
    split at h
    next j =>
      split at h
      · exact absurd h nofun
      next hout =>
        obtain rfl := Except.ok.inj h
        rw [not_or] at hout
        refine ⟨rfl, Int.not_lt.mp hout.1, fun m hm => Int.not_lt.mp (fun hlt => hout.2 ?_)⟩
        rw [hm]
        exact decide_eq_true hlt
    · exact absurd h nofun
  · rintro ⟨rfl, hmin, hmax⟩
    refine if_neg ?_
    rintro (hlt | hany)
    · exact absurd hmin (Int.not_le.mpr hlt)
    · cases maximum with
      | none => exact absurd hany nofun
      | some m => exact absurd (hmax m rfl) (Int.not_le.mpr (of_decide_eq_true hany))

theorem digestOf_ok {v : Json} {s : Text} : digestOf v = .ok s ↔ v = .str s ∧ Sha256.isHex s = true := by
  unfold digestOf
  constructor
  · intro h
    split at h
    · split at h
      next hhex =>
        obtain rfl := Except.ok.inj h
        exact ⟨rfl, hhex⟩
      · exact absurd h nofun
    · exact absurd h nofun
  · rintro ⟨rfl, hhex⟩
    exact if_pos hhex

theorem isText_iff {v : Json} {s : Text} : isText v s = true ↔ v = .str s := by
  cases v with
  | str t =>
      show (t == s) = true ↔ _
      rw [beq_iff_eq]
      exact ⟨fun h => congrArg Json.str h, fun h => Json.str.inj h⟩
  | _ => exact ⟨fun h => absurd h nofun, fun h => absurd h nofun⟩

/-- The end of an item is known in a response, and is where the next one starts. -/
theorem endOf_ok {component : Component} {fs : List (Text × Json)} {count : Int} {previous next : Option Int} :
    endOf component fs count previous = .ok next ↔
      (component = .pullResponse → ∃ offset, field fs "offset" = .int offset ∧ 0 ≤ offset ∧
        (∀ e, previous = some e → offset = e) ∧ next = some (offset + count)) ∧
      (component ≠ .pullResponse → next = previous) := by
  unfold endOf
  by_cases hpull : component = .pullResponse
  · rw [if_pos hpull]
    simp only [bind_ok_iff, integerOf_ok, refuseIf_ok]
    constructor
    · rintro ⟨offset, ⟨hoffset, hfrom, -⟩, u, hsame, h⟩
      refine ⟨fun _ => ⟨offset, hoffset, hfrom, fun e he => ?_, (Except.ok.inj h).symm⟩, fun hne => absurd hpull hne⟩
      rw [he] at hsame
      simpa using hsame
    · rintro ⟨h, -⟩
      obtain ⟨offset, hoffset, hfrom, hsame, rfl⟩ := h hpull
      refine ⟨offset, ⟨hoffset, hfrom, fun _ hm => absurd hm nofun⟩, (), ?_, rfl⟩
      cases previous with
      | none => exact nofun
      | some e =>
          rw [hsame e rfl]
          simp
  · rw [if_neg hpull]
    constructor
    · intro h
      exact ⟨fun h' => absurd h' hpull, fun _ => (Except.ok.inj h).symm⟩
    · rintro ⟨-, h⟩
      rw [h hpull]
      rfl

end Checks

/-! ## The loop over the items -/

section Loop

variable {component : Component} {payload : Bytes}

/-- The next chunk starts where the last one ended. -/
def StartsAt (previous : Option Int) (chunks : List Chunk) : Prop :=
  ∀ chunk, chunks.head? = some chunk → ∀ e, previous = some e → chunk.offset = some e

/-- The check on the place of an item, as a statement about its chunk. -/
theorem endOf_chunk {fs : List (Text × Json)} {count : Int} {previous next : Option Int}
    (hprevious : component ≠ .pullResponse → previous = none) :
    endOf component fs count previous = .ok next ↔ ∃ o : Option Int,
      (component = .pullResponse → ∃ offset, o = some offset ∧ 0 ≤ offset ∧ field fs "offset" = .int offset) ∧
      (component ≠ .pullResponse → o = none) ∧ (∀ e, previous = some e → o = some e) ∧
      next = o.map (· + count) := by
  rw [endOf_ok]
  by_cases hpull : component = .pullResponse
  · constructor
    · rintro ⟨h, -⟩
      obtain ⟨offset, hoffset, hfrom, hsame, rfl⟩ := h hpull
      exact ⟨some offset, fun _ => ⟨offset, rfl, hfrom, hoffset⟩, fun hne => absurd hpull hne,
        fun e he => congrArg some (hsame e he), rfl⟩
    · rintro ⟨o, h, -, hsame, rfl⟩
      obtain ⟨offset, rfl, hfrom, hoffset⟩ := h hpull
      exact ⟨fun _ => ⟨offset, hoffset, hfrom, fun e he => Option.some.inj (hsame e he), rfl⟩,
        fun hne => absurd hpull hne⟩
  · constructor
    · rintro ⟨-, h⟩
      refine ⟨none, fun h' => absurd h' hpull, fun _ => rfl, fun e he => ?_, (h hpull).trans (hprevious hpull)⟩
      exact absurd ((hprevious hpull).symm.trans he) nofun
    · rintro ⟨o, -, h, -, rfl⟩
      exact ⟨fun h' => absurd h' hpull, fun _ => by rw [h hpull, hprevious hpull]; rfl⟩

/-- **The loop accepts exactly** the items that cut the rest of the payload. -/
theorem validateItems_iff {items : List Json} {cursor : Nat} {previous : Option Int} {u : Unit}
    (hprevious : component ≠ .pullResponse → previous = none) (hcursor : cursor ≤ payload.length) :
    validateItems component payload items cursor previous = .ok u ↔ ∃ chunks,
      List.Forall₂ (ItemOf component) items chunks ∧ payload.drop cursor = chunks.flatMap Chunk.bytes ∧
      List.IsChain Follows chunks ∧ StartsAt previous chunks := by
  induction items generalizing cursor previous with
  | nil =>
      unfold validateItems
      rw [refuseIf_ok, not_not]
      constructor
      · rintro rfl
        exact ⟨[], .nil, List.drop_length, .nil, fun _ h => absurd h nofun⟩
      · rintro ⟨chunks, htold, hexact, -, -⟩
        cases htold
        exact Nat.le_antisymm hcursor (List.drop_eq_nil_iff.mp hexact)
  | cons item items ih =>
      unfold validateItems
      simp only [bind_ok_iff, objectOf_ok, integerOf_ok, digestOf_ok, endOf_chunk hprevious, refuseIf_ok, not_or, not_lt,
        not_not]
      constructor
      · rintro ⟨fs, ⟨rfl, hkeys⟩, count, ⟨hcount, hone, hlimit⟩, digest, ⟨hdigest, -⟩, next, ⟨o, hpull, hpush, hsame, rfl⟩,
          _, ⟨hroom, rfl⟩, h⟩
        obtain ⟨n, rfl⟩ := Int.eq_ofNat_of_zero_le (Int.le_trans (by decide) hone)
        have hnext : component ≠ .pullResponse → o.map (· + (n : Int)) = none := by
          intro hne
          rw [hpush hne]
          rfl
        obtain ⟨chunks, htold, hexact, hchain, hstart⟩ := (ih hnext hroom).mp h
        have hlength : ((payload.drop cursor).take n).length = n := by
          rw [List.length_take, List.length_drop]
          omega
        refine ⟨{ offset := o, bytes := (payload.drop cursor).take n } :: chunks, ?_, ?_, ?_, ?_⟩
        · refine .cons ⟨⟨fs, rfl, hkeys, ?_, hdigest, hpull⟩, hpush, ?_, ?_⟩ htold
          · rw [hcount, hlength]
          · rw [hlength]
            exact Int.ofNat_le.mp hone
          · rw [hlength]
            exact Int.ofNat_le.mp (hlimit _ rfl)
        · rw [List.flatMap_cons, ← hexact]
          show _ = (payload.drop cursor).take n ++ payload.drop (cursor + n)
          rw [← List.drop_drop, List.take_append_drop]
        · refine List.isChain_cons.mpr ⟨fun chunk hchunk offset ho => ?_, hchain⟩
          have ho : o = some offset := ho
          refine hstart chunk hchunk _ ?_
          rw [ho, hlength]
          rfl
        · intro chunk hchunk e he
          obtain rfl := Option.some.inj hchunk
          exact hsame e he
      · rintro ⟨chunks, htold, hexact, hchain, hstart⟩
        cases htold with
        | @cons _ chunk _ chunks hitem htold =>
            obtain ⟨fs, rfl, hkeys, hcount, hdigest, hpull⟩ := hitem.fields
            rw [List.flatMap_cons] at hexact
            have hlength : chunk.bytes.length ≤ payload.length - cursor := by
              rw [← List.length_drop, hexact, List.length_append]
              exact Nat.le_add_right _ _
            have hnext : component ≠ .pullResponse → chunk.offset.map (· + (chunk.bytes.length : Int)) = none := by
              intro hne
              rw [hitem.sent hne]
              rfl
            obtain ⟨hfollows, hchain⟩ := List.isChain_cons.mp hchain
            refine ⟨fs, ⟨rfl, hkeys⟩, chunk.bytes.length, ⟨hcount, Int.ofNat_le.mpr hitem.some, ?_⟩, _,
              ⟨hdigest, Sha256.isHex_hexdigest _⟩, _, ⟨chunk.offset, hpull, hitem.sent, hstart chunk rfl, rfl⟩, (),
              ⟨?_, ?_⟩, (ih hnext ?_).mpr ⟨chunks, htold, ?_, hchain, ?_⟩⟩
            · rintro m ⟨⟩
              exact Int.ofNat_le.mpr hitem.small
            · rw [Int.toNat_natCast]
              omega
            · rw [Int.toNat_natCast, hexact, List.take_left]
            · rw [Int.toNat_natCast]
              omega
            · rw [Int.toNat_natCast, ← List.drop_drop, hexact, List.drop_left]
            · intro c hc e he
              obtain ⟨offset, ho, rfl⟩ := Option.map_eq_some_iff.mp he
              exact hfollows c hc offset ho

theorem validateChunks_iff {minimum : Nat} {items : Json} {u : Unit} :
    validateChunks component minimum items payload = .ok u ↔ ∃ list chunks, items = .arr list ∧
      Partition component minimum list payload chunks := by
  cases items with
  | arr list =>
      unfold validateChunks
      simp only [bind_ok_iff, refuseIf_ok, not_or, not_lt, not_not]
      constructor
      · rintro ⟨_, ⟨hseveral, hbounded⟩, h⟩
        obtain ⟨chunks, htold, hexact, hchain, -⟩ := (validateItems_iff (fun _ => rfl) (Nat.zero_le _)).mp h
        exact ⟨list, chunks, rfl, htold, hexact, hchain, hseveral, hbounded⟩
      · rintro ⟨_, chunks, ⟨⟩, h⟩
        refine ⟨(), ⟨h.several, h.bounded⟩, (validateItems_iff (fun _ => rfl) (Nat.zero_le _)).mpr ?_⟩
        exact ⟨chunks, h.told, h.exact, h.contiguous, fun _ _ _ he => absurd he nofun⟩
  | _ => exact ⟨fun h => absurd h nofun, fun ⟨_, _, h, _⟩ => absurd h nofun⟩

end Loop

theorem hasKeys_nil {fs : List (Text × Json)} : hasKeys fs [] = true ↔ fs = [] := by
  cases fs with
  | nil => exact ⟨fun _ => rfl, fun _ => rfl⟩
  | cons f fs =>
      refine ⟨fun h => ?_, fun h => absurd h nofun⟩
      unfold hasKeys at h
      simp at h

/-- **The checks accept exactly** the frames of a kind. -/
theorem validate_iff {header : Json} {payload : Bytes} {component : Component} {u : Unit} :
    validate header payload component = .ok u ↔ Exact component header payload := by
  cases component with
  | pullRequest =>
      simp only [validate, bind_ok_iff, objectOf_ok, refuseIf_ok, hasKeys_nil, not_not]
      constructor
      · rintro ⟨_, ⟨rfl, rfl⟩, rfl⟩
        exact .pullRequest
      · rintro ⟨⟩
        exact ⟨_, ⟨rfl, rfl⟩, rfl⟩
  | errorResponse =>
      simp only [validate, bind_ok_iff, objectOf_ok]
      constructor
      · rintro ⟨fs, ⟨rfl, hkeys⟩, error, ⟨herror, hone⟩, h⟩
        split at h
        next code hcode =>
          simp only [refuseIf_ok, not_or, Bool.not_eq_false, isText_iff, not_not] at h
          obtain ⟨hstatus, hknown, rfl⟩ := h
          exact .errorResponse hkeys hstatus herror hone hcode hknown
        · exact absurd h refuse_ok
      · intro h
        cases h with
        | @errorResponse fs error code hkeys hstatus herror hone hcode hknown =>
            refine ⟨fs, ⟨rfl, hkeys⟩, error, ⟨herror, hone⟩, ?_⟩
            rw [hcode]
            simp only [refuseIf_ok, not_or, Bool.not_eq_false, isText_iff, not_not]
            exact ⟨hstatus, hknown, trivial⟩
  | pushResponse =>
      simp only [validate, bind_ok_iff, objectOf_ok, integerOf_ok, refuseIf_ok, not_or, Bool.not_eq_false, isText_iff,
        not_not]
      constructor
      · rintro ⟨fs, ⟨rfl, hkeys⟩, result, ⟨hresult, htwo⟩, _, ⟨hstatus, rfl⟩, verified, ⟨hverified, hfrom, -⟩,
          accepted, ⟨haccepted, hsome, hfew⟩, -⟩
        exact .pushResponse hkeys hstatus hresult htwo hverified hfrom haccepted hsome (hfew 64 rfl)
      · intro h
        cases h with
        | @pushResponse fs result verified accepted hkeys hstatus hresult htwo hverified hfrom haccepted hsome hfew =>
            exact ⟨fs, ⟨rfl, hkeys⟩, result, ⟨hresult, htwo⟩, (), ⟨hstatus, rfl⟩, verified, ⟨hverified, hfrom, nofun⟩,
              accepted, ⟨haccepted, hsome, fun m hm => Option.some.inj hm ▸ hfew⟩, rfl⟩
  | pushRequest =>
      simp only [validate, bind_ok_iff, objectOf_ok, validateChunks_iff]
      constructor
      · rintro ⟨fs, ⟨rfl, hkeys⟩, items, chunks, hitems, hparts⟩
        exact .pushRequest hkeys hitems hparts
      · intro h
        cases h with
        | @pushRequest fs items _ chunks hkeys hitems hparts => exact ⟨fs, ⟨rfl, hkeys⟩, items, chunks, hitems, hparts⟩
  | pullResponse =>
      simp only [validate, bind_ok_iff, objectOf_ok, integerOf_ok, refuseIf_ok, Bool.not_eq_false, isText_iff,
        validateChunks_iff]
      constructor
      · rintro ⟨fs, ⟨rfl, hkeys⟩, result, ⟨hresult, htwo⟩, _, hstatus, verified, ⟨hverified, hfrom, -⟩, items, chunks,
          hitems, hparts⟩
        exact .pullResponse hkeys hstatus hresult htwo hverified hfrom hitems hparts
      · intro h
        cases h with
        | @pullResponse fs result verified items _ chunks hkeys hstatus hresult htwo hverified hfrom hitems hparts =>
            exact ⟨fs, ⟨rfl, hkeys⟩, result, ⟨hresult, htwo⟩, (), hstatus, verified, ⟨hverified, hfrom, nofun⟩, items,
              chunks, hitems, hparts⟩

/-! ## The parts of a frame -/

section Frames

variable {py : Interpreter} {body payload raw : Bytes} {header : Json} {component : Component}

/-- The body is a mark, the length of the header, the header, and the payload. -/
structure Framed (body raw payload : Bytes) : Prop where
  exact : body = MAGIC ++ littleEndian 4 raw.length ++ raw ++ payload
  small : raw.length ≤ HEADER_LIMIT
  bounded : body.length ≤ BODY_LIMIT

theorem framed_length (h : Framed body raw payload) : body.length = 8 + raw.length + payload.length := by
  rw [h.exact]
  simp only [List.length_append, littleEndian_length]
  rfl

/-- What stands where in a framed body. -/
theorem framed_parts (h : Framed body raw payload) : body.take 4 = MAGIC ∧
    (body.drop 4).take 4 = littleEndian 4 raw.length ∧ body.drop 8 = raw ++ payload := by
  have hbody : body = MAGIC ++ (littleEndian 4 raw.length ++ (raw ++ payload)) := by
    rw [h.exact]
    simp only [List.append_assoc]
  have hfour : (littleEndian 4 raw.length).length = 4 := littleEndian_length _ _
  have hrest : body.drop 4 = littleEndian 4 raw.length ++ (raw ++ payload) := by
    rw [hbody]
    rfl
  refine ⟨?_, ?_, ?_⟩
  · rw [hbody]
    rfl
  · rw [hrest]
    exact List.take_left' hfour
  · rw [show (8 : Nat) = 4 + 4 from rfl, ← List.drop_drop, hrest]
    exact List.drop_left' hfour

/-- A body is framed around the parts that it is cut into. -/
theorem framed_cut (hbounded : body.length ≤ BODY_LIMIT) (hlong : 8 ≤ body.length) (hmagic : body.take 4 = MAGIC)
    {size : Nat} (hsize : ofLittleEndian ((body.drop 4).take 4) = size) (hsmall : size ≤ HEADER_LIMIT)
    (hroom : 8 + size ≤ body.length) : Framed body ((body.drop 8).take size) (body.drop (8 + size)) := by
  have hlength : ((body.drop 8).take size).length = size := by
    rw [List.length_take, List.length_drop]
    omega
  have hnumber : littleEndian 4 size = (body.drop 4).take 4 := by
    have hfour : ((body.drop 4).take 4).length = 4 := by
      rw [List.length_take, List.length_drop]
      omega
    have hback := littleEndian_ofLittleEndian ((body.drop 4).take 4)
    rwa [hfour, hsize] at hback
  refine ⟨?_, Nat.le_trans (Nat.le_of_eq hlength) hsmall, hbounded⟩
  calc body = body.take 4 ++ body.drop 4 := (List.take_append_drop 4 body).symm
    _ = MAGIC ++ ((body.drop 4).take 4 ++ (body.drop 4).drop 4) := by rw [hmagic, List.take_append_drop]
    _ = MAGIC ++ (littleEndian 4 size ++ body.drop 8) := by rw [hnumber, List.drop_drop]
    _ = MAGIC ++ (littleEndian 4 size ++ ((body.drop 8).take size ++ (body.drop 8).drop size)) := by
        rw [List.take_append_drop]
    _ = MAGIC ++ littleEndian 4 ((body.drop 8).take size).length ++ (body.drop 8).take size ++ body.drop (8 + size) := by
        rw [hlength, List.drop_drop]
        simp only [List.append_assoc]

/-- The header of what is decoded is a dictionary. -/
theorem exact_object (h : Exact component header payload) : ∃ fs, header = .obj fs := by
  cases h with
  | pullRequest => exact ⟨_, rfl⟩
  | errorResponse => exact ⟨_, rfl⟩
  | pushResponse => exact ⟨_, rfl⟩
  | pushRequest => exact ⟨_, rfl⟩
  | pullResponse => exact ⟨_, rfl⟩

/-- **A body is parsed exactly** where it is framed, and its header is a dictionary. -/
theorem parse_iff : parse py body = .ok (header, payload) ↔
    ∃ raw, Framed body raw payload ∧ strictJson py raw = .ok header ∧ ∃ fs, header = .obj fs := by
  unfold parse
  simp only [bind_ok_iff, refuseIf_ok, not_or, not_lt, not_not]
  constructor
  · rintro ⟨_, ⟨hbounded, hlong, hmagic⟩, _, ⟨hsize, hroom⟩, v, hjson, h⟩
    cases v with
    | obj fs =>
        obtain ⟨rfl, rfl⟩ := Prod.mk.inj (Except.ok.inj h)
        exact ⟨_, framed_cut hbounded hlong hmagic rfl hsize hroom, hjson, fs, rfl⟩
    | _ => exact absurd h refuse_ok
  · rintro ⟨raw, hframed, hjson, fs, rfl⟩
    have hlength := framed_length hframed
    obtain ⟨hmagic, hnumber, hrest⟩ := framed_parts hframed
    have hsmall : raw.length < 256 ^ 4 := Nat.lt_of_le_of_lt hframed.small (by decide)
    have hsize : ofLittleEndian ((body.drop 4).take 4) = raw.length := by
      rw [hnumber]
      exact ofLittleEndian_littleEndian hsmall
    rw [hsize]
    refine ⟨(), ⟨hframed.bounded, by omega, hmagic⟩, (), ⟨hframed.small, by omega⟩, .obj fs, ?_, ?_⟩
    · rw [hrest, List.take_left]
      exact hjson
    · rw [← List.drop_drop, hrest, List.drop_left]
      rfl

theorem decode_iff : decode py body component = .ok (header, payload) ↔
    ∃ raw, Framed body raw payload ∧ strictJson py raw = .ok header ∧ Exact component header payload := by
  unfold decode
  simp only [bind_ok_iff, validate_iff]
  constructor
  · rintro ⟨⟨header', payload'⟩, hparse, _, hexact, h⟩
    obtain ⟨rfl, rfl⟩ := Prod.mk.inj (Except.ok.inj h)
    obtain ⟨raw, hframed, hjson, -⟩ := parse_iff.mp hparse
    exact ⟨raw, hframed, hjson, hexact⟩
  · rintro ⟨raw, hframed, hjson, hexact⟩
    exact ⟨_, parse_iff.mpr ⟨raw, hframed, hjson, exact_object hexact⟩, (), hexact, rfl⟩

end Frames

/-! ## Headers -/

/-- A value that is written in printable characters and read back, nested at most
    `depth` deep. -/
structure Tame (depth : Nat) (v : Json) : Prop where
  plain : v.Plain
  printable : AllAscii v
  shallow : height v ≤ depth

theorem tame_int (i : Int) : Tame 0 (.int i) := ⟨trivial, trivial, Nat.le_refl 0⟩

theorem tame_str {s : Text} (h : ∀ c ∈ s, Printable c) : Tame 0 (.str s) := ⟨trivial, h, Nat.le_refl 0⟩

theorem Tame.deeper {m n : Nat} {v : Json} (h : Tame m v) (hle : m ≤ n) : Tame n v :=
  ⟨h.plain, h.printable, h.shallow.trans hle⟩

theorem tame_arr {depth : Nat} {xs : List Json} (h : ∀ x ∈ xs, Tame depth x) : Tame (depth + 1) (.arr xs) := by
  induction xs with
  | nil => exact ⟨trivial, trivial, Nat.zero_le _⟩
  | cons x xs ih =>
      have hx := h x List.mem_cons_self
      have hxs := ih (fun y hy => h y (List.mem_cons_of_mem _ hy))
      refine ⟨⟨hx.plain, hxs.plain⟩, ⟨hx.printable, hxs.printable⟩, ?_⟩
      have hx' := hx.shallow
      have hxs' : heightItems xs ≤ depth + 1 := hxs.shallow
      show max (1 + height x) (heightItems xs) ≤ depth + 1
      omega

/-- The fields of an object, without the condition that no key stands twice. -/
theorem tame_fields {depth : Nat} {fs : List (Text × Json)} (h : ∀ f ∈ fs, (∀ c ∈ f.1, Printable c) ∧ Tame depth f.2) :
    PlainFields fs ∧ AllAsciiFields fs ∧ heightFields fs ≤ depth + 1 := by
  induction fs with
  | nil => exact ⟨trivial, trivial, Nat.zero_le _⟩
  | cons f fs ih =>
      obtain ⟨k, v⟩ := f
      obtain ⟨hk, hv⟩ := h (k, v) List.mem_cons_self
      obtain ⟨hplain, hprintable, hshallow⟩ := ih (fun g hg => h g (List.mem_cons_of_mem _ hg))
      refine ⟨⟨hv.plain, hplain⟩, ⟨hk, hv.printable, hprintable⟩, ?_⟩
      have hv' : height v ≤ depth := hv.shallow
      show max (1 + height v) (heightFields fs) ≤ depth + 1
      omega

instance (c : Nat) : Decidable (Printable c) := inferInstanceAs (Decidable (_ ∧ _))

/-- An object with known keys is tame where the values under them are. -/
theorem tame_obj {depth : Nat} {fs : List (Text × Json)} {keys : List String} (hkeys : hasKeys fs keys = true)
    (hnodup : (keys.map ascii).Nodup) (hprintable : ∀ key ∈ keys, ∀ c ∈ ascii key, Printable c)
    (h : ∀ key ∈ keys, Tame depth (field fs key)) : Tame (depth + 1) (.obj fs) := by
  obtain ⟨hdup, hperm⟩ := fields_perm hkeys hnodup
  obtain ⟨hplain, hall, hshallow⟩ := @tame_fields depth fs (fun f hf => by
    obtain ⟨key, hkey, rfl⟩ := List.mem_map.mp (hperm.mem_iff.mpr hf)
    exact ⟨hprintable key hkey, h key hkey⟩)
  exact ⟨⟨hdup, hplain⟩, hall, hshallow⟩

theorem printable_hex {s : Text} (h : Sha256.isHex s = true) : ∀ c ∈ s, Printable c := by
  intro c hc
  unfold Sha256.isHex at h
  rw [Bool.and_eq_true, List.all_eq_true] at h
  have hchar := h.2 c hc
  unfold Sha256.isHexChar at hchar
  simp only [Bool.or_eq_true, Bool.and_eq_true, decide_eq_true_eq] at hchar
  refine ⟨?_, ?_, ?_, ?_⟩
  all_goals omega

theorem tame_item {component : Component} {item : Json} {chunk : Chunk}
    (hcomponent : component = .pushRequest ∨ component = .pullResponse) (h : ItemOf component item chunk) :
    Tame 1 item := by
  obtain ⟨fs, rfl, hkeys, hcount, hdigest, hpull⟩ := h.fields
  have hcount' : Tame 0 (field fs "count") := hcount ▸ tame_int _
  have hdigest' : Tame 0 (field fs "chunk_sha256") := hdigest ▸ tame_str (printable_hex (Sha256.isHex_hexdigest _))
  rcases hcomponent with rfl | rfl
  · refine tame_obj hkeys (by decide) (by decide) (fun key hkey => ?_)
    simp only [itemKeys, List.mem_cons, List.not_mem_nil, or_false] at hkey
    rcases hkey with rfl | rfl
    · exact hcount'
    · exact hdigest'
  · obtain ⟨offset, -, -, hoffset⟩ := hpull rfl
    have hoffset' : Tame 0 (field fs "offset") := hoffset ▸ tame_int _
    refine tame_obj hkeys (by decide) (by decide) (fun key hkey => ?_)
    simp only [itemKeys, List.mem_cons, List.not_mem_nil, or_false] at hkey
    rcases hkey with rfl | rfl | rfl
    · exact hoffset'
    · exact hcount'
    · exact hdigest'

/-- Each item tells some chunk. -/
theorem told_item {component : Component} {items : List Json} {chunks : List Chunk}
    (h : List.Forall₂ (ItemOf component) items chunks) {item : Json} (hitem : item ∈ items) :
    ∃ chunk, ItemOf component item chunk := by
  induction h with
  | nil => exact absurd hitem List.not_mem_nil
  | @cons _ chunk _ _ hfirst _ ih =>
      rcases List.mem_cons.mp hitem with rfl | hitem
      · exact ⟨chunk, hfirst⟩
      · exact ih hitem

theorem tame_items {component : Component} {minimum : Nat} {items : List Json} {payload : Bytes} {chunks : List Chunk}
    (hcomponent : component = .pushRequest ∨ component = .pullResponse)
    (h : Partition component minimum items payload chunks) : Tame 2 (.arr items) := by
  refine tame_arr (fun item hitem => ?_)
  obtain ⟨chunk, hchunk⟩ := told_item h.told hitem
  exact tame_item hcomponent hchunk

/-- A name of printable characters, and not many of them. -/
def plainName (cs : List Char) : Bool := cs.length ≤ 64 && cs.all (fun c => decide (Printable c.toNat))

/-- The names, each as its characters. -/
theorem codeNames_spelled : ∀ name ∈ codeNames, ∃ cs, name = String.ofList cs ∧ plainName cs = true := by
  unfold codeNames
  repeat refine List.forall_mem_cons.mpr ⟨⟨_, rfl, rfl⟩, ?_⟩
  exact List.forall_mem_nil _

theorem plain_code {code : Text} (h : code ∈ CODES) : code.length ≤ 64 ∧ ∀ c ∈ code, Printable c := by
  obtain ⟨name, hname, rfl⟩ := List.mem_map.mp h
  obtain ⟨cs, rfl, hplain⟩ := codeNames_spelled name hname
  obtain ⟨hlength, hall⟩ := Bool.and_eq_true_iff.mp hplain
  rw [ascii_ofList, List.length_map]
  refine ⟨of_decide_eq_true hlength, fun c hc => ?_⟩
  obtain ⟨d, hd, rfl⟩ := List.mem_map.mp hc
  exact of_decide_eq_true (List.all_eq_true.mp hall d hd)

theorem printable_code {code : Text} (h : code ∈ CODES) : ∀ c ∈ code, Printable c := (plain_code h).2

/-- An object with two known keys. -/
theorem tame_two {depth : Nat} {fs : List (Text × Json)} {k₁ k₂ : String} (hkeys : hasKeys fs [k₁, k₂] = true)
    (hne : ascii k₁ ≠ ascii k₂) (h₁ : ∀ c ∈ ascii k₁, Printable c) (h₂ : ∀ c ∈ ascii k₂, Printable c)
    (hv₁ : Tame depth (field fs k₁)) (hv₂ : Tame depth (field fs k₂)) : Tame (depth + 1) (.obj fs) := by
  refine tame_obj hkeys (by simpa using hne) (fun key hkey => ?_) (fun key hkey => ?_)
  · simp only [List.mem_cons, List.not_mem_nil, or_false] at hkey
    rcases hkey with rfl | rfl
    · exact h₁
    · exact h₂
  · simp only [List.mem_cons, List.not_mem_nil, or_false] at hkey
    rcases hkey with rfl | rfl
    · exact hv₁
    · exact hv₂

/-- **The header of a frame** is written in printable characters and read back. -/
theorem exact_tame {component : Component} {header : Json} {payload : Bytes} (h : Exact component header payload) :
    Tame 4 header := by
  have hword : ∀ {fs : List (Text × Json)} {word : String}, (∀ c ∈ ascii word, Printable c) →
      field fs "status" = .str (ascii word) → Tame 0 (field fs "status") :=
    fun hprintable hstatus => hstatus ▸ tame_str hprintable
  cases h with
  | pullRequest => exact (@tame_obj 0 [] [] rfl (by decide) nofun nofun : Tame 1 (.obj [])).deeper (by decide)
  | @errorResponse fs error code hkeys hstatus herror hone hcode hknown =>
      have herror' : Tame 1 (field fs "error") := by
        rw [herror]
        refine tame_obj hone (by decide) (by decide) (fun key hkey => ?_)
        obtain rfl := List.mem_singleton.mp hkey
        exact hcode ▸ tame_str (printable_code hknown)
      exact (tame_two hkeys (by decide) (by decide) (by decide) ((hword (by decide) hstatus).deeper (by decide))
        herror').deeper (by decide)
  | @pushResponse fs result verified accepted hkeys hstatus hresult htwo hverified _ haccepted _ _ =>
      have hresult' : Tame 1 (field fs "result") :=
        hresult ▸ tame_two htwo (by decide) (by decide) (by decide) (hverified ▸ tame_int _) (haccepted ▸ tame_int _)
      exact (tame_two hkeys (by decide) (by decide) (by decide) ((hword (by decide) hstatus).deeper (by decide))
        hresult').deeper (by decide)
  | @pushRequest fs items payload chunks hkeys hitems hparts =>
      refine (@tame_obj 2 _ _ hkeys (by decide) (by decide) (fun key hkey => ?_)).deeper (by decide)
      obtain rfl := List.mem_singleton.mp hkey
      exact hitems ▸ tame_items (Or.inl rfl) hparts
  | @pullResponse fs result verified items payload chunks hkeys hstatus hresult htwo hverified _ hitems hparts =>
      have hresult' : Tame 3 (field fs "result") :=
        hresult ▸ tame_two htwo (by decide) (by decide) (by decide) ((hverified ▸ tame_int _).deeper (by decide))
          (hitems ▸ tame_items (Or.inr rfl) hparts)
      exact tame_two hkeys (by decide) (by decide) (by decide) ((hword (by decide) hstatus).deeper (by decide)) hresult'

/-! ## Round trips -/

section RoundTrips

variable {py : Interpreter} {component : Component} {header : Json} {payload raw body frame : Bytes}

theorem strictJson_ok (h : strictJson py raw = .ok header) : ∃ cs, decodeUtf8 raw = some cs ∧
    parseDocument cs = .ok header ∧ fewDigits py.digits header = true := by
  have hloads : jsonLoads py raw = .ok header := by
    unfold strictJson at h
    split at h
    next v hv => rw [hv, Except.ok.inj h]
    · exact absurd h refuse_ok
  unfold jsonLoads decodeStrict at hloads
  cases hcs : decodeUtf8 raw with
  | none =>
      rw [hcs] at hloads
      exact absurd hloads nofun
  | some cs =>
      rw [hcs] at hloads
      dsimp only at hloads
      split at hloads
      · exact absurd hloads nofun
      next ds hds =>
        split at hds
        · exact absurd hds nofun
        · obtain rfl := Option.some.inj hds
          split at hloads
          · exact absurd hloads nofun
          · exact absurd hloads nofun
          next v hparse =>
            split_ifs at hloads with hdeep hdigits
            obtain rfl := Except.ok.inj hloads
            exact ⟨cs, rfl, hparse, hdigits⟩

/-- What was written is read back as it was. -/
theorem strictJson_dumps (ht : Tame 4 header) (h : jsonDumps py header = .ok raw) :
    strictJson py raw = .ok header := by
  unfold jsonDumps at h
  split at h
  next hdigits =>
    split at h
    next raw' hraw =>
      obtain rfl := Except.ok.inj h
      have hsound : (render header).any isSurrogate = false := by
        refine List.any_eq_false.mpr (fun c hc => ?_)
        obtain ⟨-, hlt⟩ := visible_render header ht.printable c hc
        simp only [isSurrogate, Bool.and_eq_true, decide_eq_true_eq]
        omega
      have hparse : parseDocument (render header) = .ok header := by
        have hback : parseDocument (render header ++ []) = .ok header :=
          parseDocument_render header ht.plain (by intro c hc; cases hc)
        rwa [List.append_nil] at hback
      have hdecode : decodeStrict raw' = some (render header) := by
        unfold decodeStrict
        rw [decodeUtf8_encodeUtf8 hraw]
        exact if_neg (by rw [hsound]; exact Bool.false_ne_true)
      have hdeep : ¬ py.nesting < height header := Nat.not_lt.mpr (ht.shallow.trans py.roomy)
      unfold strictJson jsonLoads
      rw [hdecode]
      dsimp only
      rw [hparse]
      dsimp only
      rw [if_neg hdeep, if_pos hdigits]
    · cases h
  · cases h

theorem encode_iff : encode py header payload component = .ok frame ↔
    ∃ raw, Exact component header payload ∧ jsonDumps py header = .ok raw ∧ Framed frame raw payload := by
  unfold encode
  simp only [bind_ok_iff, validate_iff, refuseIf_ok, not_or, not_lt]
  constructor
  · rintro ⟨_, hexact, raw, hdumps, _, ⟨hsmall, hbounded⟩, h⟩
    obtain rfl := Except.ok.inj h
    refine ⟨raw, hexact, hdumps, rfl, hsmall, ?_⟩
    simp only [List.length_append, littleEndian_length]
    exact hbounded
  · rintro ⟨raw, hexact, hdumps, hframed⟩
    have hlength := framed_length hframed
    refine ⟨(), hexact, raw, hdumps, (), ⟨hframed.small, hlength ▸ hframed.bounded⟩, ?_⟩
    rw [hframed.exact]
    rfl

/-- **What was encoded is decoded as it was.** -/
theorem decode_encode (h : encode py header payload component = .ok frame) :
    decode py frame component = .ok (header, payload) := by
  obtain ⟨raw, hexact, hdumps, hframed⟩ := encode_iff.mp h
  exact decode_iff.mpr ⟨raw, hframed, strictJson_dumps (exact_tame hexact) hdumps, hexact⟩

/-- **What was decoded can be encoded again**: the new header is no longer than the old. -/
theorem encode_decode (h : decode py body component = .ok (header, payload)) :
    ∃ frame, encode py header payload component = .ok frame := by
  obtain ⟨raw, hframed, hjson, hexact⟩ := decode_iff.mp h
  obtain ⟨cs, hcs, hparse, hdigits⟩ := strictJson_ok hjson
  have ht := exact_tame hexact
  have hascii : ∀ c ∈ render header, c < 127 := fun c hc => (visible_render header ht.printable c hc).2
  have hdumps : jsonDumps py header = .ok ((render header).map UInt8.ofNat) := by
    unfold jsonDumps
    rw [if_pos hdigits, encodeUtf8_visible hascii]
  have hshort : ((render header).map UInt8.ofNat).length ≤ raw.length := by
    rw [List.length_map]
    exact (render_le_document ht.printable hparse).trans (decodeUtf8_length hcs)
  have hlength := framed_length hframed
  have hbounded := hframed.bounded
  refine ⟨_, encode_iff.mpr ⟨_, hexact, hdumps, rfl, hshort.trans hframed.small, ?_⟩⟩
  simp only [List.length_append, littleEndian_length]
  show 4 + 4 + ((render header).map UInt8.ofNat).length + payload.length ≤ BODY_LIMIT
  omega

end RoundTrips

/-! ## Refusals -/

section Refusals

variable {α β : Type}

/-- A check fails with the one error of the format. -/
def Refuses (x : Except Failure α) : Prop := ∀ e, x = .error e → e = .wireError "invalid_frame"

theorem refuses_ok {a : α} : Refuses (.ok a) := fun _ h => absurd h nofun

theorem refuses_refuse : Refuses (refuse : Except Failure α) := fun _ h => (Except.error.inj h).symm

theorem refuses_bind {x : Except Failure α} {f : α → Except Failure β} (hx : Refuses x) (hf : ∀ a, Refuses (f a)) :
    Refuses (x >>= f) := by
  cases x with
  | ok a => exact hf a
  | error e =>
      intro e' h
      obtain rfl := Except.error.inj (h : (.error e : Except Failure β) = .error e')
      exact hx e rfl

theorem refuses_refuseIf {c : Prop} [Decidable c] : Refuses (refuseIf c) := by
  unfold refuseIf
  split
  · exact refuses_refuse
  · exact refuses_ok

theorem refuses_objectOf (keys : List String) (v : Json) : Refuses (objectOf keys v) := by
  unfold objectOf
  split
  · split
    · exact refuses_ok
    · exact refuses_refuse
  · exact refuses_refuse

theorem refuses_integerOf (minimum : Int) (maximum : Option Int) (v : Json) : Refuses (integerOf minimum maximum v) := by
  unfold integerOf
  split
  · split
    · exact refuses_refuse
    · exact refuses_ok
  · exact refuses_refuse

theorem refuses_digestOf (v : Json) : Refuses (digestOf v) := by
  unfold digestOf
  split
  · split
    · exact refuses_ok
    · exact refuses_refuse
  · exact refuses_refuse

theorem refuses_endOf (component : Component) (fs : List (Text × Json)) (count : Int) (previous : Option Int) :
    Refuses (endOf component fs count previous) := by
  unfold endOf
  split
  · exact refuses_bind (refuses_integerOf _ _ _) (fun _ => refuses_bind refuses_refuseIf (fun _ => refuses_ok))
  · exact refuses_ok

theorem refuses_validateItems (component : Component) (payload : Bytes) (items : List Json) (cursor : Nat)
    (previous : Option Int) : Refuses (validateItems component payload items cursor previous) := by
  induction items generalizing cursor previous with
  | nil => exact refuses_refuseIf
  | cons item items ih =>
      refine refuses_bind (refuses_objectOf _ _) (fun fs => refuses_bind (refuses_integerOf _ _ _) (fun count => ?_))
      refine refuses_bind (refuses_digestOf _) (fun digest => refuses_bind (refuses_endOf _ _ _ _) (fun next => ?_))
      exact refuses_bind refuses_refuseIf (fun _ => ih _ _)

theorem refuses_validateChunks (component : Component) (minimum : Nat) (items : Json) (payload : Bytes) :
    Refuses (validateChunks component minimum items payload) := by
  cases items with
  | arr list => exact refuses_bind refuses_refuseIf (fun _ => refuses_validateItems _ _ _ _ _)
  | _ => exact refuses_refuse

theorem refuses_validate (header : Json) (payload : Bytes) (component : Component) :
    Refuses (validate header payload component) := by
  cases component with
  | pullRequest => exact refuses_bind (refuses_objectOf _ _) (fun _ => refuses_refuseIf)
  | errorResponse =>
      refine refuses_bind (refuses_objectOf _ _) (fun fs => refuses_bind (refuses_objectOf _ _) (fun error => ?_))
      split
      · exact refuses_refuseIf
      · exact refuses_refuse
  | pushResponse =>
      refine refuses_bind (refuses_objectOf _ _) (fun fs => refuses_bind (refuses_objectOf _ _) (fun result => ?_))
      refine refuses_bind refuses_refuseIf (fun _ => refuses_bind (refuses_integerOf _ _ _) (fun _ => ?_))
      exact refuses_bind (refuses_integerOf _ _ _) (fun _ => refuses_ok)
  | pushRequest => exact refuses_bind (refuses_objectOf _ _) (fun fs => refuses_validateChunks _ _ _ _)
  | pullResponse =>
      refine refuses_bind (refuses_objectOf _ _) (fun fs => refuses_bind (refuses_objectOf _ _) (fun result => ?_))
      refine refuses_bind refuses_refuseIf (fun _ => refuses_bind (refuses_integerOf _ _ _) (fun _ => ?_))
      exact refuses_validateChunks _ _ _ _

theorem refuses_strictJson (py : Interpreter) (raw : Bytes) : Refuses (strictJson py raw) := by
  unfold strictJson
  split
  · exact refuses_ok
  · exact refuses_refuse

theorem refuses_parse (py : Interpreter) (body : Bytes) : Refuses (parse py body) := by
  refine refuses_bind refuses_refuseIf (fun _ => refuses_bind refuses_refuseIf (fun _ => ?_))
  refine refuses_bind (refuses_strictJson _ _) (fun header => ?_)
  cases header with
  | obj fs => exact refuses_ok
  | _ => exact refuses_refuse

theorem refuses_decode (py : Interpreter) (body : Bytes) (component : Component) : Refuses (decode py body component) :=
  refuses_bind (refuses_parse py body) (fun _ => refuses_bind (refuses_validate _ _ _) (fun _ => refuses_ok))

end Refusals

/-- **The format is exact.**  What was encoded is decoded as it was; a body is decoded
    into its parts, which make it up and can be encoded again, or it is refused with the
    error of the format. -/
theorem wire_exact (py : Interpreter) (component : Component) :
    (∀ header payload frame, encode py header payload component = .ok frame →
      decode py frame component = .ok (header, payload)) ∧
    ∀ body, (∃ header payload, decode py body component = .ok (header, payload) ∧
        (∃ raw, Framed body raw payload ∧ strictJson py raw = .ok header) ∧ Exact component header payload ∧
        ∃ frame, encode py header payload component = .ok frame ∧ decode py frame component = .ok (header, payload)) ∨
      decode py body component = .error (.wireError "invalid_frame") := by
  refine ⟨fun _ _ _ h => decode_encode h, fun body => ?_⟩
  cases hbody : decode py body component with
  | error e => exact Or.inr (congrArg _ (refuses_decode py body component e hbody))
  | ok parsed =>
      obtain ⟨header, payload⟩ := parsed
      obtain ⟨raw, hframed, hjson, hexact⟩ := decode_iff.mp hbody
      obtain ⟨frame, hframe⟩ := encode_decode hbody
      exact Or.inl ⟨header, payload, rfl, ⟨raw, hframed, hjson⟩, hexact, frame, hframe, decode_encode hframe⟩

end TransferWire
