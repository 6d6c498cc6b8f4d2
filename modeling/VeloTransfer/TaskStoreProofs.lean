import VeloTransfer.InterleavingProofs
import VeloTransfer.JournalRunProofs

/-! # The task store — one state file, many writers

    A task is a directory with `state.json`, which is only ever replaced as a
    whole, through a temporary file.  Writers hold the lock file of the work root;
    readers hold nothing.  What the threads share is therefore the chain of the
    files that were put in place of one another, the newest first, how much of it
    is synced to the disk, and who holds the lock.

    The outside may let any operation fail, before or after it took effect; a
    check that has several codes has one of them here. -/

namespace TaskStore

open Interleaving CanonicalJson JsonLine BoundedJson JsonDict Sha256 GuestTerminal
open HostJournal (textOf isNone PyJson pyText_hex textSize_hex soundText_ascii isHex_digest isDict)

/-! ## Documents -/

def STATE_SCHEMA : Text := ascii "velo.transfer.store.v1"

/-- What a call raises: an error of the transfer, an error of the system, or
    another exception of Python. -/
inductive Raised where
  | error (code : String)
  | osError
  | python (name : String)
deriving Repr, DecidableEq

/-- The policy of a store, the task, and the owner entry of each of its objects.
    `floatIs` is how Python compares a fractional number with an integer. -/
structure Store where
  transferId : Text
  policyId : Text
  expectedVmUuid : Text
  maxStateBytes : Nat
  maxDigits : Nat
  owner : Nat → Json
  floatIs : Text → Int → Bool

def Store.limits (st : Store) : Limits :=
  { maxBytes := st.maxStateBytes, maxNodes := 10000, maxDepth := 32, maxDigits := st.maxDigits }

/-- `value == number`, for an integer. -/
def Store.isNumber (st : Store) (number : Int) : Json → Bool
  | .int i => i == number
  | .bool b => (if b then 1 else 0) == number
  | .float token => st.floatIs token number
  | _ => false

/-- `bool(value)`. -/
def Store.isTrue (st : Store) : Option Json → Bool
  | none => false
  | some .null => false
  | some (.bool b) => b
  | some (.int i) => i != 0
  | some (.float token) => !st.floatIs token 0
  | some (.str s) => s != []
  | some (.arr xs) => !xs.isEmpty
  | some (.obj fs) => !fs.isEmpty

def isHexText (v : Json) : Bool := ((textOf (some v)).map isHex).getD false

def prefixFields : List String :=
  ["schema", "request_digest", "worker_nonce", "verified_offset", "chunk_count", "ledger_sha256",
    "completed"]

/-- An `int` of a document. -/
def intOf : Json → Option Int
  | .int i => some i
  | _ => none

/-- `validate_prefix_verification`; the error, if any. -/
def Store.validatePrefix (st : Store) (proof worker : Option Json) (digest offset chunkCount : Json) :
    Option String :=
  if isNone proof then none
  else
    match object prefixFields "invalid_state" (proof.getD .null) with
    | .error code => some code
    | .ok fs =>
        firstError [
          failsWith (isHexText (field fs "request_digest") = false) "invalid_digest",
          failsWith (isHexText (field fs "ledger_sha256") = false) "invalid_digest",
          failsWith (textOf (some (field fs "schema"))
            ≠ some (ascii "velo.transfer.prefix-verification.v1")) "invalid_state",
          failsWith (HostJournal.flag (some (field fs "completed")) ≠ some true) "invalid_state",
          failsWith (textOf (some (field fs "request_digest")) ≠ textOf (some digest)) "invalid_state",
          failsWith (((intOf (field fs "verified_offset")).map (fun n => st.isNumber n offset)).getD false
            = false) "invalid_state",
          failsWith (((intOf (field fs "chunk_count")).map (fun n => decide (0 ≤ n) &&
            (isNone (some chunkCount) || st.isNumber n chunkCount))).getD false = false) "invalid_state",
          failsWith (textOf (worker.bind (get · "job")) ≠ some (ascii "verify_partial")) "invalid_state",
          failsWith (((textOf (some (field fs "worker_nonce"))).map (fun s => s != [] &&
            decide (textOf (worker.bind (get · "nonce")) = some s))).getD false = false) "invalid_state"]

/-- The last check of `_guest_prefix`: a proof stands only in the state of a push
    that was neither cancelled nor failed. -/
def Store.prefixStands (st : Store) (state request : Json) : Option Raised :=
  if isNone (get state "prefix_verification") then none
  else if st.isTrue (get state "cancelled") || !isNone (get state "error") then
    some (.error "invalid_state")
  else
    match get request "direction" with
    | none => some (.python "KeyError")
    | some direction =>
        if textOf (some direction) = some (ascii "push") then none else some (.error "invalid_state")

/-- `_guest_prefix`; what it raises, if anything. -/
def Store.guestPrefix (st : Store) (state : Json) : Option Raised :=
  match get state "request", get state "offset" with
  | some request, some offset =>
      if isDict request = false then none
      else
        match get request "request_digest", get state "chunk_count" with
        | some digest, some chunkCount =>
            match st.validatePrefix (get state "prefix_verification") (get state "owner") digest offset
                chunkCount with
            | some code => some (.error code)
            | none => st.prefixStands state request
        | _, _ => some (.python "KeyError")
  | _, _ => none

def bindingFields : List String :=
  ["request_digest", "policy_id", "vm_uuid", "boot_identity", "vm_epoch"]

/-- A text of a binding. -/
def isBindingText (v : Json) : Bool :=
  match v with
  | .str s => s != [] && s.length ≤ 256 && !s.contains 0
  | _ => false

/-- `_binding`; the code of its error, if any. -/
def Store.checkBinding (st : Store) (binding : Json) : Option String :=
  match object bindingFields "invalid_task_binding" binding with
  | .error code => some code
  | .ok fs =>
      firstError [
        failsWith (isHexText (field fs "request_digest") = false) "invalid_task_binding",
        failsWith (textOf (some (field fs "policy_id")) ≠ some st.policyId) "invalid_task_binding",
        failsWith (textOf (some (field fs "vm_uuid")) ≠ some st.expectedVmUuid) "vm_identity_mismatch",
        failsWith (isBindingText (field fs "vm_uuid") = false) "invalid_task_binding",
        failsWith (isBindingText (field fs "boot_identity") = false) "invalid_task_binding",
        failsWith (isBindingText (field fs "vm_epoch") = false) "invalid_task_binding"]

/-- A stored document and the parts of it that a store looks at. -/
structure Envelope where
  document : Json
  transferId : Json
  binding : Json
  revision : Nat
  state : Json

def Store.content (st : Store) (w : Nat) (binding : Json) (revision : Nat) (state : Json) :
    List (Text × Json) :=
  [(ascii "schema", .str STATE_SCHEMA), (ascii "transfer_id", .str st.transferId),
    (ascii "binding", binding), (ascii "revision", .int revision), (ascii "state", state),
    (ascii "owner", st.owner w)]

def Store.sealed (st : Store) (w : Nat) (binding : Json) (revision : Nat) (state : Json) (digest : Text) :
    Json :=
  .obj (st.content w binding revision state ++ [(ascii "sha256", .str digest)])

def Store.document (st : Store) (w : Nat) (binding : Json) (revision : Nat) (state : Json) : Json :=
  st.sealed w binding revision state (digestJson (.obj (st.content w binding revision state)))

/-- The envelope that a save writes. -/
def Store.envelope (st : Store) (w : Nat) (binding : Json) (revision : Nat) (state : Json) : Envelope :=
  { document := st.document w binding revision state, transferId := .str st.transferId
    binding := binding, revision := revision, state := state }

/-- The checks of `_encode` before the document is built. -/
def Store.checkContent (st : Store) (w : Nat) (binding : Json) (revision : Nat) (state : Json) : Option Raised :=
  match st.guestPrefix state with
  | some e => some e
  | none =>
      (validateJson st.limits (st.sealed w binding revision state (List.replicate 64 48))).map .error

/-- The end of `_encode`: the bytes of the document. -/
def Store.encode (st : Store) (w : Nat) (binding : Json) (revision : Nat) (state : Json) :
    Except Raised Bytes :=
  match dumps (st.document w binding revision state) with
  | none => .error (.python "UnicodeEncodeError")
  | some raw =>
      if raw.length > st.maxStateBytes then .error (.error "state_budget_exceeded") else .ok raw

def envelopeFields : List String :=
  ["schema", "transfer_id", "binding", "revision", "state", "owner", "sha256"]

/-- The checks of `_read` on a document. -/
def Store.checkState (st : Store) (raw : Bytes) (v : Json) : Except Raised Envelope :=
  match object envelopeFields "invalid_state" v with
  | .error code => .error (.error code)
  | .ok fs =>
      match field fs "revision", field fs "sha256" with
      | .int revision, .str digest =>
          match firstError [
              failsWith (textOf (some (field fs "schema")) ≠ some STATE_SCHEMA) "invalid_state",
              failsWith (revision < 0) "invalid_state",
              failsWith (isDict (field fs "owner") = false) "invalid_state",
              failsWith (isHex digest = false) "invalid_state",
              failsWith (digestJson (.obj (fs.filter (fun f => f.1 != ascii "sha256"))) ≠ digest)
                "state_hash_mismatch",
              failsWith (dumps v ≠ some raw) "invalid_state"] with
          | some code => .error (.error code)
          | none =>
              match st.guestPrefix (field fs "state") with
              | some e => .error e
              | none =>
                  .ok { document := v, transferId := field fs "transfer_id"
                        binding := field fs "binding", revision := revision.toNat
                        state := field fs "state" }
      | _, _ => .error (.error "invalid_state")

/-- What `_read` makes of the bytes of a state file. -/
def Store.readState (st : Store) (raw : Bytes) : Except Raised Envelope :=
  match loads raw with
  | .error .duplicateKey => .error (.error "duplicate_state_key")
  | .error _ => .error (.error "invalid_state")
  | .ok v =>
      match validateJson st.limits v with
      | some code => .error (.error code)
      | none => st.checkState raw v

/-! ## The checks do not see the order of the keys -/

section Order

variable {st : Store}

theorem textOf_sorted (v : Json) : textOf (some v.sortKeys) = textOf (some v) :=
  HostJournal.textOf_sortKeys (some v)

theorem isHexText_sorted (v : Json) : isHexText v.sortKeys = isHexText v := by
  unfold isHexText
  rw [textOf_sorted]

theorem isNumber_sorted (number : Int) (v : Json) : st.isNumber number v.sortKeys = st.isNumber number v := by
  cases v with
  | _ => rfl

theorem intOf_sorted (v : Json) : intOf v.sortKeys = intOf v := by
  cases v with
  | _ => rfl

theorem isTrue_sorted (v : Option Json) : st.isTrue (v.map Json.sortKeys) = st.isTrue v := by
  cases v with
  | none => rfl
  | some v =>
      cases v with
      | arr xs =>
          cases xs with
          | nil => rfl
          | cons x xs => rfl
      | obj fs =>
          have hlength := (sortFields_perm fs).length_eq
          rw [List.length_map] at hlength
          have hempty : (sortFields fs).isEmpty = fs.isEmpty := by
            rw [Bool.eq_iff_iff, List.isEmpty_iff_length_eq_zero, List.isEmpty_iff_length_eq_zero, hlength]
          show (!(sortFields fs).isEmpty) = !fs.isEmpty
          rw [hempty]
      | _ => rfl

theorem isDict_sorted (v : Json) : isDict v.sortKeys = isDict v := by
  cases v with
  | _ => rfl

theorem bind_get_sorted {v : Option Json} (hv : ∀ w, v = some w → Value w) (key : String) :
    (v.map Json.sortKeys).bind (get · key) = (v.bind (get · key)).map Json.sortKeys := by
  cases v with
  | none => rfl
  | some v => exact get_sortKeys (hv v rfl) key

theorem validatePrefix_sorted {proof worker : Option Json} (digest offset chunkCount : Json)
    (hproof : ∀ v, proof = some v → Value v) (hworker : ∀ v, worker = some v → Value v) :
    st.validatePrefix (proof.map Json.sortKeys) (worker.map Json.sortKeys) digest.sortKeys
      offset.sortKeys chunkCount.sortKeys = st.validatePrefix proof worker digest offset chunkCount := by
  unfold Store.validatePrefix
  rw [HostJournal.isNone_sortKeys]
  by_cases hnone : isNone proof = true
  · rw [if_pos hnone, if_pos hnone]
  · rw [if_neg hnone, if_neg hnone, bind_get_sorted hworker, bind_get_sorted hworker]
    cases proof with
    | none => rfl
    | some v =>
        cases v with
        | obj fs =>
            have hdup : hasDuplicate fs = false := (hproof _ rfl).1
            show (match object prefixFields "invalid_state" (.obj (sortFields fs)) with
              | .error code => some code
              | .ok fs => _) = _
            have hobject : ∀ code, object prefixFields code (.obj (sortFields fs))
                = if hasKeys fs prefixFields then .ok (sortFields fs) else .error code := by
              intro code
              show (if hasKeys (sortFields fs) prefixFields then _ else _) = _
              rw [hasKeys_sortFields hdup]
            have hplain : ∀ code, object prefixFields code ((some (Json.obj fs)).getD .null)
                = if hasKeys fs prefixFields then .ok fs else .error code := fun _ => rfl
            rw [hobject, hplain]
            by_cases hkeys : hasKeys fs prefixFields = true
            · rw [if_pos hkeys, if_pos hkeys]
              dsimp only
              simp only [field_sortFields hdup, isHexText_sorted, intOf_sorted, isNumber_sorted,
                textOf_sorted, HostJournal.textOf_sortKeys,
                show ∀ v : Json, HostJournal.flag (some v.sortKeys) = HostJournal.flag (some v) from
                  fun v => HostJournal.flag_sortKeys (some v),
                show ∀ v : Json, isNone (some v.sortKeys) = isNone (some v) from
                  fun v => HostJournal.isNone_sortKeys (some v)]
            · rw [if_neg hkeys, if_neg hkeys]
        | _ => rfl

theorem prefixStands_sorted {state request : Json} (hstate : Value state) (hrequest : Value request) :
    st.prefixStands state.sortKeys request.sortKeys = st.prefixStands state request := by
  unfold Store.prefixStands
  rw [get_sortKeys hstate, get_sortKeys hstate, get_sortKeys hstate, get_sortKeys hrequest,
    HostJournal.isNone_sortKeys, HostJournal.isNone_sortKeys, isTrue_sorted]
  cases get request "direction" with
  | none => rfl
  | some direction =>
      show (if _ then _ else if _ then _ else if textOf (some direction.sortKeys) = _ then _ else _) = _
      rw [textOf_sorted]

/-- The guest's proof is checked in the same way in what was read back. -/
theorem guestPrefix_sorted {state : Json} (hstate : Value state) :
    st.guestPrefix state.sortKeys = st.guestPrefix state := by
  have hget : ∀ key v, get state key = some v → Value v :=
    fun key v h => HostJournal.value_get hstate h
  unfold Store.guestPrefix
  rw [get_sortKeys hstate, get_sortKeys hstate]
  cases hrequest : get state "request" with
  | none => rfl
  | some request =>
      have hvalue := hget _ _ hrequest
      cases get state "offset" with
      | none => rfl
      | some offset =>
          dsimp only [Option.map_some]
          rw [isDict_sorted, get_sortKeys hvalue, get_sortKeys hstate]
          refine if_congr Iff.rfl rfl ?_
          cases get request "request_digest" with
          | none => rfl
          | some digest =>
              cases get state "chunk_count" with
              | none => rfl
              | some chunkCount =>
                  dsimp only [Option.map_some]
                  rw [get_sortKeys hstate, get_sortKeys hstate, validatePrefix_sorted digest offset
                    chunkCount (hget _) (hget _), prefixStands_sorted hstate hvalue]

end Order

/-! ## Reading back -/

section ReadBack

variable {st : Store} {w revision : Nat} {binding state : Json} {raw : Bytes}

/-- The constants of a store are values that Python can hold. -/
structure Store.Sound (st : Store) : Prop where
  transferId : PyText st.transferId
  owner : ∀ w, Value (st.owner w)
  ownerDict : ∀ w, isDict (st.owner w) = true

theorem value_sealed (hst : st.Sound) (hbinding : Value binding) (hstate : Value state) {digest : Text}
    (hdigest : PyText digest) : Value (st.sealed w binding revision state digest) := by
  have hkey : ∀ s : String, (ascii s).all (· < 127) = true → PyText (ascii s) := by
    intro s hs c hc
    rw [List.all_eq_true] at hs
    exact Nat.lt_trans (of_decide_eq_true (hs c hc)) (by decide)
  refine ⟨rfl, ⟨hkey _ (by decide), ?_⟩, ⟨hkey _ (by decide), hst.transferId⟩,
    ⟨hkey _ (by decide), hbinding⟩, ⟨hkey _ (by decide), trivial⟩, ⟨hkey _ (by decide), hstate⟩,
    ⟨hkey _ (by decide), hst.owner w⟩, ⟨hkey _ (by decide), hdigest⟩, trivial⟩
  exact hkey "velo.transfer.store.v1" (by decide)

/-- The placeholder and the digest take the same room. -/
theorem validate_sealed {l : Limits} {digest : Text} (h : isHex digest = true) :
    validateJson l (st.sealed w binding revision state (List.replicate 64 48)) = none ↔
      validateJson l (st.sealed w binding revision state digest) = none := by
  have hzero : isHex (List.replicate 64 48) = true := by decide
  have hcost : ∀ s, cost (st.sealed w binding revision state s)
      = cost (st.sealed w binding revision state []) + textSize s := by
    intro s
    simp only [Store.sealed, Store.content, cost, costFields, List.cons_append, List.nil_append,
      List.length_cons, textSize, List.map_nil, List.sum_nil]
    omega
  have hstorable : ∀ s, Storable l.maxDigits (st.sealed w binding revision state s) ↔
      Storable l.maxDigits (st.sealed w binding revision state []) ∧ SoundText s := by
    intro s
    have hkey : SoundText (ascii "sha256") := soundText_ascii (by decide)
    have hempty : SoundText [] := fun c hc => absurd hc List.not_mem_nil
    simp only [Store.sealed, Store.content, Storable, StorableFields, List.cons_append, List.nil_append]
    simp only [hkey, hempty, true_and, and_true]
    constructor
    · rintro ⟨h1, h2, h3, h4, h5, h6, h7⟩
      exact ⟨⟨h1, h2, h3, h4, h5, h6⟩, h7⟩
    · rintro ⟨⟨h1, h2, h3, h4, h5, h6⟩, h7⟩
      exact ⟨h1, h2, h3, h4, h5, h6, h7⟩
  obtain ⟨hsound, hsize⟩ := textSize_hex h
  obtain ⟨hsound₀, hsize₀⟩ := textSize_hex hzero
  rw [validateJson_ok, validateJson_ok, hcost, hcost digest, hsize, hsize₀, hstorable,
    hstorable digest]
  simp only [hsound, hsound₀, and_true]
  exact Iff.rfl

/-- The bytes of an envelope that was admitted and encoded. -/
structure Store.Written (st : Store) (w : Nat) (binding : Json) (revision : Nat) (state : Json)
    (raw : Bytes) : Prop where
  admitted : st.checkContent w binding revision state = none
  encoded : st.encode w binding revision state = .ok raw

theorem Store.Written.dumped (h : st.Written w binding revision state raw) :
    dumps (st.document w binding revision state) = some raw ∧ raw.length ≤ st.maxStateBytes := by
  have hencoded := h.encoded
  unfold Store.encode at hencoded
  split at hencoded
  · exact absurd hencoded nofun
  next raw' hraw =>
    split at hencoded
    · exact absurd hencoded nofun
    next hlen =>
      obtain rfl := Except.ok.inj hencoded
      exact ⟨hraw, Nat.le_of_not_lt hlen⟩

theorem Store.Written.checked (h : st.Written w binding revision state raw) :
    st.guestPrefix state = none ∧ validateJson st.limits
      (st.sealed w binding revision state (List.replicate 64 48)) = none := by
  have hadmitted := h.admitted
  unfold Store.checkContent at hadmitted
  split at hadmitted
  · exact absurd hadmitted nofun
  next hproof => exact ⟨hproof, Option.map_eq_none_iff.mp hadmitted⟩

/-- The digest that an encoded document carries is one. -/
theorem Store.Written.hex (hst : st.Sound) (hbinding : Value binding) (hstate : Value state)
    (h : st.Written w binding revision state raw) :
    isHex (digestJson (.obj (st.content w binding revision state))) = true := by
  have hzero : isHex (List.replicate 64 48) = true := by decide
  have hvalue : Value (st.sealed w binding revision state (List.replicate 64 48)) :=
    value_sealed hst hbinding hstate (pyText_hex hzero)
  have hstorable := ((validateJson_ok _ _).mp h.checked.2).1
  -- the content is the sealed document without its last field
  have hcontent : Value (.obj (st.content w binding revision state)) ∧
      Storable st.maxDigits (.obj (st.content w binding revision state)) := by
    obtain ⟨hdup, v1, v2, v3, v4, v5, v6, -⟩ := hvalue
    obtain ⟨s1, s2, s3, s4, s5, s6, -⟩ := hstorable
    exact ⟨⟨rfl, v1, v2, v3, v4, v5, v6, trivial⟩, s1, s2, s3, s4, s5, s6, trivial⟩
  obtain ⟨raw', hraw', -⟩ := dumps_of_storable hcontent.1 hcontent.2
  exact isHex_digest hraw'

/-- The checks on a document whose fields are known. -/
theorem checkState_of {v : Json} {fs : List (Text × Json)} {digest : Text} (hv : v = .obj fs)
    (hkeys : hasKeys fs envelopeFields = true) (hrevision : field fs "revision" = .int revision)
    (hsha : field fs "sha256" = .str digest) (hschema : field fs "schema" = .str STATE_SCHEMA)
    (howner : isDict (field fs "owner") = true) (hhex : isHex digest = true)
    (hdigest : digestJson (.obj (fs.filter (fun f => f.1 != ascii "sha256"))) = digest)
    (hraw : dumps v = some raw) (hproof : st.guestPrefix (field fs "state") = none) :
    st.checkState raw v = .ok { document := v, transferId := field fs "transfer_id"
                                binding := field fs "binding", revision := revision
                                state := field fs "state" } := by
  subst hv
  unfold Store.checkState
  rw [object_of hkeys]
  dsimp only
  rw [hrevision, hsha]
  dsimp only
  rw [failsWith_none.mpr (show ¬ textOf (some (field fs "schema")) ≠ some STATE_SCHEMA by
      rw [hschema]; exact not_not.mpr rfl),
    failsWith_none.mpr (show ¬ ((revision : Int) < 0) by omega),
    failsWith_none.mpr (show ¬ isDict (field fs "owner") = false by rw [howner]; exact nofun),
    failsWith_none.mpr (show ¬ isHex digest = false by rw [hhex]; exact nofun),
    failsWith_none.mpr (not_not.mpr hdigest), failsWith_none.mpr (not_not.mpr hraw)]
  dsimp only [firstError]
  rw [hproof]
  rfl

/-- What a reader finds in the bytes of an envelope: the same, in key order. -/
def Envelope.sorted (e : Envelope) : Envelope :=
  { document := e.document.sortKeys, transferId := e.transferId.sortKeys
    binding := e.binding.sortKeys, revision := e.revision, state := e.state.sortKeys }

/-- **Reading back**: the bytes that were written are read as what was written. -/
theorem readState_written (hst : st.Sound) (hbinding : Value binding) (hstate : Value state)
    (h : st.Written w binding revision state raw) :
    st.readState raw = .ok (st.envelope w binding revision state).sorted := by
  have hhex := h.hex hst hbinding hstate
  have hvalue : Value (st.document w binding revision state) :=
    value_sealed hst hbinding hstate (pyText_hex hhex)
  have hvalid : validateJson st.limits (st.document w binding revision state) = none :=
    (validate_sealed hhex).mp h.checked.2
  have hraw := h.dumped.1
  have hsorted : dumps (st.document w binding revision state).sortKeys = some raw := by
    unfold dumps
    rw [sortKeys_idem _ hvalue]
    exact hraw
  unfold Store.readState
  rw [loads_dumps_value hvalue ((validateJson_ok _ _).mp hvalid).1 hraw]
  dsimp only
  rw [validateJson_sortKeys hvalid]
  obtain ⟨hdup, v1, v2, v3, v4, v5, v6, -⟩ := hvalue
  have hcontent : digestJson (.obj (sortFields (st.content w binding revision state)))
      = digestJson (.obj (st.content w binding revision state)) := by
    have hfields : Value (.obj (st.content w binding revision state)) :=
      ⟨rfl, v1, v2, v3, v4, v5, v6, trivial⟩
    unfold digestJson dumps
    rw [show (Json.obj (sortFields (st.content w binding revision state))).sortKeys
      = (Json.obj (st.content w binding revision state)).sortKeys from sortKeys_idem _ hfields]
  exact checkState_of rfl rfl rfl rfl rfl ((isDict_sorted _).trans (hst.ownerDict w)) hhex hcontent
    hsorted ((guestPrefix_sorted hstate).trans h.checked.1)

end ReadBack

end TaskStore
