import VeloTransfer.JsonDictProofs
import VeloTransfer.TerminalRunProofs

/-! # The documents of the guest terminal

    What the mutators receive is JSON: receipts, inputs, cleanup facts.  A
    document is read into the record it stands for; one of another shape is
    refused before anything is assigned.  A record that passes its own checks is
    read back from its document as it is.

    A dictionary has no order, so the identity of a destination is kept in key
    order. -/

namespace GuestTerminal

open EffectPrograms Program CanonicalJson BoundedJson JsonDict Sha256 ExceptRules

/-! ## Shapes -/

def readText (code : String) : Json → Except String Text
  | .str s => .ok s
  | _ => .error code

/-- An `int` that is no `bool` and not negative. -/
def readNat (code : String) : Json → Except String Nat
  | .int i => if 0 ≤ i then .ok i.toNat else .error code
  | _ => .error code

/-- A field that has one admitted value. -/
def readConstant (expected : Text) (code : String) : Json → Except String Unit
  | .str s => if s = expected then .ok () else .error code
  | _ => .error code

def readTrue (code : String) : Json → Except String Unit
  | .bool true => .ok ()
  | _ => .error code

def readBool (code : String) : Json → Except String Bool
  | .bool b => .ok b
  | _ => .error code

def readDirection (code : String) : Json → Except String Direction
  | .str s =>
      if s = Direction.push.text then .ok .push
      else if s = Direction.pull.text then .ok .pull
      else .error code
  | _ => .error code

/-! ## Bindings, destinations and receipts -/

/-- `BINDING_FIELDS`. -/
def bindingFields : List String :=
  ["protocol_version", "transfer_id", "request_digest", "direction", "vm_uuid", "boot_identity",
    "vm_epoch", "policy_id", "package_size", "package_sha256", "manifest_sha256"]

/-- A binding, as `validate_binding` reads it. -/
def readBinding (v : Json) : Except String Binding := do
  let fs ← object bindingFields "invalid_binding" v
  readConstant PROTOCOL_VERSION "invalid_binding" (field fs "protocol_version")
  let transferId ← readText "invalid_binding" (field fs "transfer_id")
  let requestDigest ← readText "invalid_digest" (field fs "request_digest")
  let direction ← readDirection "invalid_binding" (field fs "direction")
  let vmUuid ← readText "invalid_protocol_value" (field fs "vm_uuid")
  let bootIdentity ← readText "invalid_protocol_value" (field fs "boot_identity")
  let vmEpoch ← readText "invalid_protocol_value" (field fs "vm_epoch")
  let policyId ← readText "invalid_protocol_value" (field fs "policy_id")
  let packageSize ← readNat "invalid_binding" (field fs "package_size")
  let packageSha256 ← readText "invalid_digest" (field fs "package_sha256")
  let manifestSha256 ← readText "invalid_digest" (field fs "manifest_sha256")
  .ok { transferId, requestDigest, direction, vmUuid, bootIdentity, vmEpoch, policyId, packageSize,
        packageSha256, manifestSha256 }

/-- The texts of a dictionary of texts. -/
def readTexts : List (Text × Json) → Except String (List (Text × Text))
  | [] => .ok []
  | (k, .str s) :: fs => do
      let rest ← readTexts fs
      .ok ((k, s) :: rest)
  | _ :: _ => .error "invalid_protocol_value"

/-- A dictionary of texts, in key order. -/
def readIdentity : Json → Except String (List (Text × Text))
  | .obj fs => if hasDuplicate fs then .error "invalid_destination" else readTexts (sortFields fs)
  | _ => .error "invalid_destination"

/-- A destination, as `validate_destination` reads it. -/
def readDestination (v : Json) : Except String Destination := do
  let fs ← object ["endpoint", "identity", "canonical_path"] "invalid_destination" v
  let endpoint ← readText "invalid_destination" (field fs "endpoint")
  let canonicalPath ← readText "invalid_protocol_value" (field fs "canonical_path")
  let identity ← readIdentity (field fs "identity")
  .ok { endpoint, identity, canonicalPath }

/-- `_directory_identity`. -/
def readDirectoryIdentity (v : Json) : Except String DirectoryIdentity := do
  let fs ← object ["device", "inode"] "invalid_directory_identity" v
  let device ← readNat "invalid_directory_identity" (field fs "device")
  let inode ← readNat "invalid_directory_identity" (field fs "inode")
  .ok { device, inode }

def readPrepare (v : Json) : Except String PrepareReceipt := do
  let fs ← object ["type", "binding", "prepare_id", "identity_digest", "prepared"]
    "invalid_receipt" v
  let binding ← readBinding (field fs "binding")
  readConstant (ascii "prepare") "receipt_binding_mismatch" (field fs "type")
  readTrue "receipt_binding_mismatch" (field fs "prepared")
  let prepareId ← readText "invalid_receipt_id" (field fs "prepare_id")
  let identityDigest ← readText "invalid_digest" (field fs "identity_digest")
  .ok { binding, prepareId, identityDigest }

def readSourceValidation (v : Json) : Except String SourceValidation := do
  let fs ← object ["type", "binding", "prepare_receipt_sha256", "identity_digest"]
    "invalid_receipt" v
  let binding ← readBinding (field fs "binding")
  readConstant (ascii "source_validation") "receipt_binding_mismatch" (field fs "type")
  let prepareReceiptSha256 ← readText "receipt_binding_mismatch" (field fs "prepare_receipt_sha256")
  let identityDigest ← readText "invalid_digest" (field fs "identity_digest")
  .ok { binding, prepareReceiptSha256, identityDigest }

def readPublication (v : Json) : Except String PublicationReceipt := do
  let fs ← object ["type", "binding", "prepare_receipt_sha256", "destination", "manifest_sha256",
    "directory_identity", "publication_id"] "invalid_receipt" v
  let binding ← readBinding (field fs "binding")
  let destination ← readDestination (field fs "destination")
  readConstant (ascii "publication") "receipt_binding_mismatch" (field fs "type")
  let prepareReceiptSha256 ← readText "receipt_binding_mismatch" (field fs "prepare_receipt_sha256")
  let manifestSha256 ← readText "receipt_binding_mismatch" (field fs "manifest_sha256")
  let directoryIdentity ← readDirectoryIdentity (field fs "directory_identity")
  let publicationId ← readText "invalid_receipt_id" (field fs "publication_id")
  .ok { binding, prepareReceiptSha256, destination, manifestSha256, directoryIdentity,
        publicationId }

/-! ## The calls as they arrive -/

/-- The inputs of an action, as `_inputs` reads them. -/
def readInputs (action : Text) (v : Json) : Except String Inputs :=
  if action = Action.prepare.text then do
    let _ ← object [] "invalid_action_input" v
    .ok .prepare
  else if action = Action.commit.text then do
    let fs ← object ["prepare_receipt", "source_validation_receipt"] "invalid_action_input" v
    let p ← readPrepare (field fs "prepare_receipt")
    let s ← readSourceValidation (field fs "source_validation_receipt")
    .ok (.commit p s)
  else if action = Action.release.text then do
    let fs ← object ["prepare_receipt", "publication_receipt"] "invalid_action_input" v
    let p ← readPrepare (field fs "prepare_receipt")
    let r ← readPublication (field fs "publication_receipt")
    .ok (.release p r)
  else .error "action_not_allowed"

def readCleanup (v : Json) : Except String Cleanup := do
  let fs ← object ["temporary_files_removed", "workers_stopped"] "invalid_cleanup" v
  let temporaryFilesRemoved ← readBool "cleanup_incomplete" (field fs "temporary_files_removed")
  let workersStopped ← readBool "cleanup_incomplete" (field fs "workers_stopped")
  .ok { temporaryFilesRemoved, workersStopped }

def readAction (action : Text) : Except String Action :=
  if action = Action.prepare.text then .ok .prepare
  else if action = Action.commit.text then .ok .commit
  else if action = Action.release.text then .ok .release
  else .error "operation_mismatch"

/-- An identifier is ASCII. -/
def readCode (code : Text) : Except String String :=
  if isIdentifier code then .ok (String.ofList (code.map Char.ofNat)) else .error "invalid_receipt_id"

/-- A call with the arguments it arrives with. -/
inductive Request where
  | beginAction (action : Text) (inputs : Json) (uuid : OperationId)
  | completePrepare (operationId : Text) (receipt : Json)
  | completeCommit (operationId : Text) (receipt : Json)
  | authorizeRelease (operationId : Text)
  | completeRelease (operationId : Text) (cleanup : Json)
  | failAction (action : Text) (operationId : Text) (code : Text)

/-- The call that a request makes. -/
def readCall : Request → Except String Call
  | .beginAction action inputs uuid => do
      let inputs ← readInputs action inputs
      .ok (.beginAction inputs uuid)
  | .completePrepare operationId receipt => do
      let receipt ← readPrepare receipt
      .ok (.completePrepare operationId receipt)
  | .completeCommit operationId receipt => do
      let receipt ← readPublication receipt
      .ok (.completeCommit operationId receipt)
  | .authorizeRelease operationId => .ok (.authorizeRelease operationId)
  | .completeRelease operationId cleanup => do
      let cleanup ← readCleanup cleanup
      .ok (.completeRelease operationId cleanup)
  | .failAction action operationId code => do
      let action ← readAction action
      let code ← readCode code
      .ok (.failAction action operationId code)

/-- A request, served: a document of the wrong shape is refused, before anything
    is assigned. -/
def serve (q : Request) : Method (Option Operation) :=
  match readCall q with
  | .ok c => perform c
  | .error code => raise code

/-- The terminal after a list of requests. -/
def serves (t : Terminal) : List Request → Terminal
  | [] => t
  | q :: qs => serves (serve q t).2 qs

/-- `GuestTerminal(binding, destination)`. -/
def construct (binding destination : Json) : Except String Terminal := do
  let b ← readBinding binding
  match validateBinding b with
  | some code => .error code
  | none => do
      let d ← readDestination destination
      match validateDestination d b.direction with
      | some code => .error code
      | none => .ok (Terminal.new b d)

/-! ## A record is read back from its document -/

theorem readBinding_toJson (b : Binding) : readBinding b.toJson = .ok b := by
  obtain ⟨_, _, direction, _, _, _, _, _, _, _⟩ := b
  cases direction <;> rfl

/-- The identity of a destination is in key order, and no key stands twice. -/
def Destination.Ordered (d : Destination) : Prop :=
  InOrder (d.identity.map (fun kv => (kv.1, Json.str kv.2)))

theorem hasDuplicate_of_inOrder {fs : List (Text × Json)} (h : InOrder fs) :
    hasDuplicate fs = false := by
  rw [hasDuplicate_false]
  refine List.pairwise_map.mpr (h.imp (fun hlt heq => ?_))
  rw [heq, keyLt_irrefl] at hlt
  cases hlt

theorem readTexts_map (kvs : List (Text × Text)) :
    readTexts (kvs.map (fun kv => (kv.1, Json.str kv.2))) = .ok kvs := by
  induction kvs with
  | nil => rfl
  | cons kv kvs ih =>
      show (readTexts (kvs.map (fun kv => (kv.1, Json.str kv.2))) >>= _) = _
      rw [ih]
      rfl

theorem readTexts_ok {fs : List (Text × Json)} {kvs : List (Text × Text)}
    (h : readTexts fs = .ok kvs) : kvs.map (fun kv => (kv.1, Json.str kv.2)) = fs := by
  induction fs generalizing kvs with
  | nil =>
      obtain rfl := Except.ok.inj h
      rfl
  | cons f fs ih =>
      obtain ⟨k, v⟩ := f
      cases v with
      | str s =>
          obtain ⟨rest, hrest, h⟩ := bind_ok h
          obtain rfl := Except.ok.inj h
          exact congrArg (List.cons (k, Json.str s)) (ih hrest)
      | null => exact absurd h nofun
      | bool b => exact absurd h nofun
      | int i => exact absurd h nofun
      | float t => exact absurd h nofun
      | arr xs => exact absurd h nofun
      | obj gs => exact absurd h nofun

theorem readDestination_toJson {d : Destination} (h : d.Ordered) :
    readDestination d.toJson = .ok d := by
  show (readIdentity (.obj (d.identity.map (fun kv => (kv.1, .str kv.2)))) >>= _) = _
  have hid : readIdentity (.obj (d.identity.map (fun kv => (kv.1, .str kv.2)))) = .ok d.identity := by
    show (if _ then _ else _) = _
    rw [hasDuplicate_of_inOrder h, if_neg Bool.false_ne_true, sortFields_of_inOrder h, List.map_map]
    exact readTexts_map d.identity
  rw [hid]
  rfl

theorem readPrepare_toJson (r : PrepareReceipt) : readPrepare r.toJson = .ok r := by
  show (readBinding r.binding.toJson >>= _) = _
  rw [readBinding_toJson]
  rfl

theorem readSourceValidation_toJson (r : SourceValidation) :
    readSourceValidation r.toJson = .ok r := by
  show (readBinding r.binding.toJson >>= _) = _
  rw [readBinding_toJson]
  rfl

theorem readPublication_toJson {r : PublicationReceipt} (h : r.destination.Ordered) :
    readPublication r.toJson = .ok r := by
  show (readBinding r.binding.toJson >>= _) = _
  rw [readBinding_toJson]
  show (readDestination r.destination.toJson >>= _) = _
  rw [readDestination_toJson h]
  rfl

/-- What of the inputs has a destination has it in key order. -/
def Inputs.Ordered : Inputs → Prop
  | .release _ r => r.destination.Ordered
  | _ => True

theorem readInputs_toJson {inputs : Inputs} (h : inputs.Ordered) :
    readInputs inputs.action.text inputs.toJson = .ok inputs := by
  cases inputs with
  | prepare => rfl
  | commit p s =>
      show (readPrepare p.toJson >>= _) = _
      rw [readPrepare_toJson]
      show (readSourceValidation s.toJson >>= _) = _
      rw [readSourceValidation_toJson]
      rfl
  | release p r =>
      show (readPrepare p.toJson >>= _) = _
      rw [readPrepare_toJson]
      show (readPublication r.toJson >>= _) = _
      rw [readPublication_toJson h]
      rfl

/-! ## What was read is the document -/

theorem readText_ok {code : String} {v : Json} {s : Text} (h : readText code v = .ok s) :
    v = .str s := by
  cases v with
  | str s' => rw [Except.ok.inj h]
  | _ => exact absurd h nofun

theorem readConstant_ok {expected : Text} {code : String} {v : Json} {u : Unit}
    (h : readConstant expected code v = .ok u) : v = .str expected := by
  cases v with
  | str s =>
      by_cases hs : s = expected
      · rw [hs]
      · exact absurd ((if_neg hs).symm.trans h) nofun
  | _ => exact absurd h nofun

theorem readNat_ok {code : String} {v : Json} {n : Nat} (h : readNat code v = .ok n) :
    v = .int n := by
  cases v with
  | int i =>
      by_cases hi : 0 ≤ i
      · rw [← Except.ok.inj ((if_pos hi).symm.trans h), Int.toNat_of_nonneg hi]
      · exact absurd ((if_neg hi).symm.trans h) nofun
  | _ => exact absurd h nofun

theorem readDirection_ok {code : String} {v : Json} {d : Direction}
    (h : readDirection code v = .ok d) : v = .str d.text := by
  cases v with
  | str s =>
      unfold readDirection at h
      dsimp only at h
      split at h
      next hs =>
        obtain rfl := Except.ok.inj h
        rw [hs]
      next =>
        split at h
        next hs =>
          obtain rfl := Except.ok.inj h
          rw [hs]
        · exact absurd h nofun
  | _ => exact absurd h nofun

/-- A binding stands for the dictionary that it was read from. -/
theorem readBinding_canonical {v : Json} {b : Binding} (h : readBinding v = .ok b) :
    canonical b.toJson = canonical v := by
  unfold readBinding at h
  obtain ⟨fs, hfs, h⟩ := bind_ok h
  obtain ⟨hv, hkeys⟩ := object_ok hfs
  obtain ⟨u, h₁, h⟩ := bind_ok h
  obtain ⟨x₂, h₂, h⟩ := bind_ok h
  obtain ⟨x₃, h₃, h⟩ := bind_ok h
  obtain ⟨x₄, h₄, h⟩ := bind_ok h
  obtain ⟨x₅, h₅, h⟩ := bind_ok h
  obtain ⟨x₆, h₆, h⟩ := bind_ok h
  obtain ⟨x₇, h₇, h⟩ := bind_ok h
  obtain ⟨x₈, h₈, h⟩ := bind_ok h
  obtain ⟨x₉, h₉, h⟩ := bind_ok h
  obtain ⟨x₁₀, h₁₀, h⟩ := bind_ok h
  obtain ⟨x₁₁, h₁₁, h⟩ := bind_ok h
  obtain rfl := Except.ok.inj h
  unfold canonical
  rw [hv, sameFields hkeys (by decide)]
  simp only [bindingFields, List.map_cons, List.map_nil, readConstant_ok h₁, readText_ok h₂,
    readText_ok h₃, readDirection_ok h₄, readText_ok h₅, readText_ok h₆, readText_ok h₇,
    readText_ok h₈, readNat_ok h₉, readText_ok h₁₀, readText_ok h₁₁]
  rfl

theorem readIdentity_ok {v : Json} {kvs : List (Text × Text)} (h : readIdentity v = .ok kvs) :
    InOrder (kvs.map (fun kv => (kv.1, Json.str kv.2))) ∧
      v.sortKeys = .obj (kvs.map (fun kv => (kv.1, Json.str kv.2))) := by
  cases v with
  | obj fs =>
      unfold readIdentity at h
      dsimp only at h
      split at h
      · exact absurd h nofun
      next hdup =>
        rw [readTexts_ok h]
        exact ⟨sortFields_inOrder (Bool.not_eq_true _ ▸ hdup), rfl⟩
  | _ => exact absurd h nofun

theorem sortKeys_texts {kvs : List (Text × Text)}
    (h : InOrder (kvs.map (fun kv => (kv.1, Json.str kv.2)))) :
    (Json.obj (kvs.map (fun kv => (kv.1, Json.str kv.2)))).sortKeys
      = .obj (kvs.map (fun kv => (kv.1, Json.str kv.2))) := by
  refine congrArg Json.obj ((sortFields_of_inOrder h).trans ?_)
  rw [List.map_map]
  rfl

theorem readDestination_ok {v : Json} {d : Destination} (h : readDestination v = .ok d) :
    d.Ordered ∧ canonical d.toJson = canonical v := by
  unfold readDestination at h
  obtain ⟨fs, hfs, h⟩ := bind_ok h
  obtain ⟨hv, hkeys⟩ := object_ok hfs
  obtain ⟨endpoint, h₁, h⟩ := bind_ok h
  obtain ⟨path, h₂, h⟩ := bind_ok h
  obtain ⟨kvs, h₃, h⟩ := bind_ok h
  obtain rfl := Except.ok.inj h
  obtain ⟨horder, hid⟩ := readIdentity_ok h₃
  refine ⟨horder, ?_⟩
  unfold canonical
  rw [hv, sameFields hkeys (by decide)]
  simp only [List.map_cons, List.map_nil, readText_ok h₁, readText_ok h₂]
  show render (Json.obj (insertField (ascii "endpoint", .str endpoint)
    (insertField (ascii "identity", (Json.obj (kvs.map (fun kv => (kv.1, Json.str kv.2)))).sortKeys)
      [(ascii "canonical_path", .str path)]))) = _
  rw [sortKeys_texts horder, ← hid]
  rfl

end GuestTerminal
