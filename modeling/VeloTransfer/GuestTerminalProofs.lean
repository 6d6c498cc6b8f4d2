import VeloTransfer.CanonicalJsonProofs
import VeloTransfer.Sha256Proofs
import VeloTransfer.ExceptProofs

/-! # The guest terminal — receipts and the replayable state machine

    The pure terminal protocol: the binding that pins a transfer, the receipts
    that the two sides exchange, and the small state machine which a guest task
    goes through once its package is fixed (prepare, commit, release).  Values
    are records here; `digestJson` is taken of the JSON object that the record
    stands for. -/

namespace GuestTerminal

open CanonicalJson Sha256 ExceptRules

/-- The exceptions of the transfer code: an `Error` with its code, or an
    `OSError` that no code of the transfer converts. -/
inductive Failure where
  | error (code : String)
  | osError
deriving Repr, DecidableEq

/-- `digest_json`: the digest of the canonical document of a value. -/
def digestJson (v : Json) : Text :=
  match dumps v with
  | some raw => hexdigest raw
  | none => []

inductive Direction where
  | pull
  | push
deriving Repr, DecidableEq

/-- `local_phase` of a guest task. -/
inductive Phase where
  | sourcePreparing
  | sourceReady
  | sourcePrepared
  | sourceReleasing
  | sourceReleased
  | sourceChanged
  | sourceFailed
  | destReceiving
  | destReceived
  | destPrepared
  | destPublished
  | destReleasing
  | destReleased
  | destFailed
deriving Repr, DecidableEq

/-- What pins one transfer to its request, its guest and its package. -/
structure Binding where
  transferId : Text
  requestDigest : Text
  direction : Direction
  vmUuid : Text
  bootIdentity : Text
  vmEpoch : Text
  policyId : Text
  packageSize : Nat
  packageSha256 : Text
  manifestSha256 : Text
deriving Repr, DecidableEq

/-- The registered destination descriptor. -/
structure Destination where
  endpoint : Text
  identity : List (Text × Text)
  canonicalPath : Text
deriving Repr, DecidableEq

structure DirectoryIdentity where
  device : Nat
  inode : Nat
deriving Repr, DecidableEq

structure PrepareReceipt where
  binding : Binding
  prepareId : Text
  identityDigest : Text
deriving Repr, DecidableEq

structure SourceValidation where
  binding : Binding
  prepareReceiptSha256 : Text
  identityDigest : Text
deriving Repr, DecidableEq

structure PublicationReceipt where
  binding : Binding
  prepareReceiptSha256 : Text
  destination : Destination
  manifestSha256 : Text
  directoryIdentity : DirectoryIdentity
  publicationId : Text
deriving Repr, DecidableEq

/-- The intent that is persisted before the publication rename. -/
structure PublishIntent where
  publication : PublicationReceipt
  parentIdentity : DirectoryIdentity
deriving Repr, DecidableEq

/-! ## The documents behind the records -/

def PROTOCOL_VERSION : Text := ascii "velo.transfer.v1"

def Direction.text : Direction → Text
  | .pull => ascii "pull"
  | .push => ascii "push"

def Binding.toJson (b : Binding) : Json :=
  .obj [(ascii "protocol_version", .str PROTOCOL_VERSION), (ascii "transfer_id", .str b.transferId),
    (ascii "request_digest", .str b.requestDigest), (ascii "direction", .str b.direction.text),
    (ascii "vm_uuid", .str b.vmUuid), (ascii "boot_identity", .str b.bootIdentity),
    (ascii "vm_epoch", .str b.vmEpoch), (ascii "policy_id", .str b.policyId),
    (ascii "package_size", .int b.packageSize), (ascii "package_sha256", .str b.packageSha256),
    (ascii "manifest_sha256", .str b.manifestSha256)]

def Destination.toJson (d : Destination) : Json :=
  .obj [(ascii "endpoint", .str d.endpoint),
    (ascii "identity", .obj (d.identity.map (fun kv => (kv.1, .str kv.2)))),
    (ascii "canonical_path", .str d.canonicalPath)]

def DirectoryIdentity.toJson (i : DirectoryIdentity) : Json :=
  .obj [(ascii "device", .int i.device), (ascii "inode", .int i.inode)]

def PrepareReceipt.toJson (r : PrepareReceipt) : Json :=
  .obj [(ascii "type", .str (ascii "prepare")), (ascii "binding", r.binding.toJson),
    (ascii "prepare_id", .str r.prepareId), (ascii "identity_digest", .str r.identityDigest),
    (ascii "prepared", .bool true)]

def SourceValidation.toJson (r : SourceValidation) : Json :=
  .obj [(ascii "type", .str (ascii "source_validation")), (ascii "binding", r.binding.toJson),
    (ascii "prepare_receipt_sha256", .str r.prepareReceiptSha256),
    (ascii "identity_digest", .str r.identityDigest)]

def PublicationReceipt.toJson (r : PublicationReceipt) : Json :=
  .obj [(ascii "type", .str (ascii "publication")), (ascii "binding", r.binding.toJson),
    (ascii "prepare_receipt_sha256", .str r.prepareReceiptSha256),
    (ascii "destination", r.destination.toJson), (ascii "manifest_sha256", .str r.manifestSha256),
    (ascii "directory_identity", r.directoryIdentity.toJson),
    (ascii "publication_id", .str r.publicationId)]

/-! ## Actions -/

inductive Action where
  | prepare
  | commit
  | release
deriving Repr, DecidableEq

def Action.text : Action → Text
  | .prepare => ascii "prepare"
  | .commit => ascii "commit"
  | .release => ascii "release"

/-- The inputs of one action; the constructor is the action. -/
inductive Inputs where
  | prepare
  | commit (prepare : PrepareReceipt) (source : SourceValidation)
  | release (prepare : PrepareReceipt) (publication : PublicationReceipt)
deriving Repr, DecidableEq

def Inputs.action : Inputs → Action
  | .prepare => .prepare
  | .commit _ _ => .commit
  | .release _ _ => .release

def Inputs.toJson : Inputs → Json
  | .prepare => .obj []
  | .commit p s =>
      .obj [(ascii "prepare_receipt", p.toJson), (ascii "source_validation_receipt", s.toJson)]
  | .release p r => .obj [(ascii "prepare_receipt", p.toJson), (ascii "publication_receipt", r.toJson)]

/-- The digest that pins the inputs of an action to a binding. -/
def inputDigest (b : Binding) (inputs : Inputs) : Text :=
  digestJson (.obj [(ascii "binding", b.toJson), (ascii "action", .str inputs.action.text),
    (ascii "inputs", inputs.toJson)])

def receiptDigest (r : Json) : Text := digestJson r

inductive OperationStatus where
  | inProgress
  | done
  | failed
deriving Repr, DecidableEq

/-- The two facts of a finished release; the protocol accepts only `true`. -/
structure Cleanup where
  temporaryFilesRemoved : Bool
  workersStopped : Bool
deriving Repr, DecidableEq

inductive OperationResult where
  | prepared (receipt : PrepareReceipt)
  | published (receipt : PublicationReceipt)
  | released (receipt : PublicationReceipt) (cleanup : Cleanup)
  | failed (code : String)
deriving Repr, DecidableEq

structure Operation where
  operationId : Text
  inputDigest : Text
  status : OperationStatus
  inputs : Inputs
  result : Option OperationResult
deriving Repr, DecidableEq

structure ReleaseAuthorization where
  operationId : Text
  publicationReceiptSha256 : Text
deriving Repr, DecidableEq

/-- The state of a `GuestTerminal`, which is also its snapshot. -/
structure Terminal where
  binding : Binding
  destination : Destination
  localPhase : Phase
  prepare : Option PrepareReceipt
  publication : Option PublicationReceipt
  releaseAuthorization : Option ReleaseAuthorization
  prepareOp : Option Operation
  commitOp : Option Operation
  releaseOp : Option Operation
deriving Repr, DecidableEq

/-- `GuestTerminal(binding, destination)`. -/
def Terminal.new (binding : Binding) (destination : Destination) : Terminal :=
  { binding := binding
    destination := destination
    localPhase := if binding.direction = .pull then .sourceReady else .destReceived
    prepare := none
    publication := none
    releaseAuthorization := none
    prepareOp := none
    commitOp := none
    releaseOp := none }

/-! ## Checks of receipts

    A check returns the code of its error; `none` is a pass. -/

/-- `_ID`. -/
def isIdentifier (s : Text) : Bool :=
  match s with
  | [] => false
  | c :: cs =>
      isAlphanumeric c && cs.length ≤ 127 &&
        cs.all (fun c => isAlphanumeric c || c == 95 || c == 46 || c == 45)
where
  isAlphanumeric (c : Nat) : Bool :=
    (65 ≤ c && c ≤ 90) || (97 ≤ c && c ≤ 122) || (48 ≤ c && c ≤ 57)

/-- The first error of a list of checks. -/
def firstError : List (Option String) → Option String
  | [] => none
  | some code :: _ => some code
  | none :: checks => firstError checks

def failsWith (c : Prop) [Decidable c] (code : String) : Option String :=
  if c then some code else none

/-- `_text`. -/
def checkText (s : Text) (limit : Nat) : Option String :=
  failsWith (s = [] ∨ s.length > limit ∨ 0 ∈ s) "invalid_protocol_value"

/-- `_digest`. -/
def checkDigest (s : Text) : Option String := failsWith (isHex s = false) "invalid_digest"

/-- `_identifier`. -/
def checkIdentifier (s : Text) : Option String :=
  failsWith (isIdentifier s = false) "invalid_receipt_id"

def validateBinding (b : Binding) : Option String :=
  firstError [failsWith (isIdentifier b.transferId = false) "invalid_binding",
    checkText b.vmUuid 256, checkText b.bootIdentity 256, checkText b.vmEpoch 256,
    checkText b.policyId 256, checkDigest b.requestDigest, checkDigest b.packageSha256,
    checkDigest b.manifestSha256]

def validateDestination (d : Destination) (direction : Direction) : Option String :=
  firstError [failsWith (d.endpoint ≠ (if direction = .pull then ascii "host" else ascii "guest"))
      "invalid_destination",
    checkText d.canonicalPath 32767,
    failsWith (d.identity = [] ∨ d.identity.length > 16) "invalid_destination",
    firstError (d.identity.flatMap (fun kv => [checkText kv.1 128, checkText kv.2 256]))]

def validatePrepare (r : PrepareReceipt) (b : Binding) : Option String :=
  firstError [validateBinding b, validateBinding r.binding,
    failsWith (r.binding ≠ b) "receipt_binding_mismatch", checkIdentifier r.prepareId,
    checkDigest r.identityDigest]

def validateSourceValidation (r : SourceValidation) (b : Binding) (p : PrepareReceipt) :
    Option String :=
  firstError [validatePrepare p b, validateBinding r.binding,
    failsWith (b.direction ≠ .push ∨ r.binding ≠ b ∨
      r.prepareReceiptSha256 ≠ receiptDigest p.toJson) "receipt_binding_mismatch",
    checkDigest r.identityDigest]

def validatePublication (r : PublicationReceipt) (b : Binding) (p : PrepareReceipt)
    (d : Destination) : Option String :=
  firstError [validatePrepare p b, validateDestination d b.direction, validateBinding r.binding,
    validateDestination r.destination b.direction,
    failsWith (r.binding ≠ b ∨ r.prepareReceiptSha256 ≠ receiptDigest p.toJson ∨
      r.destination ≠ d ∨ r.manifestSha256 ≠ b.manifestSha256) "receipt_binding_mismatch",
    checkIdentifier r.publicationId]

/-- `recover_publication`: the publication of an intent, for what was verified. -/
def recoverPublication (i : PublishIntent) (b : Binding) (p : PrepareReceipt) (d : Destination)
    (identity parent : DirectoryIdentity) (manifestSha256 : Text) : Except String PublicationReceipt :=
  match firstError [validatePublication i.publication b p d,
      failsWith (i.publication.directoryIdentity ≠ identity ∨ i.parentIdentity ≠ parent ∨
        b.manifestSha256 ≠ manifestSha256) "publication_recovery_conflict"] with
  | some code => .error code
  | none => .ok i.publication

/-! ## The state machine -/

def Terminal.op (t : Terminal) : Action → Option Operation
  | .prepare => t.prepareOp
  | .commit => t.commitOp
  | .release => t.releaseOp

def Terminal.setOp (t : Terminal) (a : Action) (o : Operation) : Terminal :=
  match a with
  | .prepare => { t with prepareOp := some o }
  | .commit => { t with commitOp := some o }
  | .release => { t with releaseOp := some o }

/-- `_inputs`. -/
def Terminal.checkInputs (t : Terminal) : Inputs → Option String
  | .prepare => none
  | .commit p s =>
      firstError [failsWith (t.binding.direction ≠ .push) "action_not_allowed",
        validatePrepare p t.binding, failsWith (some p ≠ t.prepare) "receipt_binding_mismatch",
        validateSourceValidation s t.binding p]
  | .release p r =>
      firstError [validatePrepare p t.binding,
        failsWith (some p ≠ t.prepare) "receipt_binding_mismatch",
        validatePublication r t.binding p t.destination,
        failsWith (t.binding.direction = .push ∧ some r ≠ t.publication) "receipt_binding_mismatch"]

def isInProgress (o : Option Operation) : Bool :=
  match o with
  | some o => o.status == .inProgress
  | none => false

/-- The phase in which an action may begin. -/
def Terminal.expectedPhase (t : Terminal) (a : Action) : Phase :=
  match a, t.binding.direction with
  | .prepare, .pull => .sourceReady
  | .prepare, .push => .destReceived
  | .commit, _ => .destPrepared
  | .release, .pull => .sourcePrepared
  | .release, .push => .destPublished

/-- `begin_action`: the operation, and the terminal that holds it. -/
def Terminal.beginAction (t : Terminal) (inputs : Inputs) (operationId : Text) :
    Except String (Operation × Terminal) :=
  match t.checkInputs inputs with
  | some code => .error code
  | none =>
      match t.op inputs.action with
      | some previous =>
          if previous.inputDigest ≠ inputDigest t.binding inputs then .error "action_conflict"
          else .ok (previous, t)
      | none =>
          if t.localPhase ≠ t.expectedPhase inputs.action ∨ isInProgress t.prepareOp = true ∨
              isInProgress t.commitOp = true ∨ isInProgress t.releaseOp = true then
            .error "action_precondition_failed"
          else
            let o : Operation :=
              { operationId := operationId, inputDigest := inputDigest t.binding inputs
                status := .inProgress, inputs := inputs, result := none }
            .ok (o, t.setOp inputs.action o)

/-- `_pending`. -/
def Terminal.pending (t : Terminal) (a : Action) (operationId : Text) : Except String Operation :=
  match t.op a with
  | none => .error "operation_mismatch"
  | some o =>
      if o.operationId ≠ operationId ∨ o.status ≠ .inProgress then .error "operation_mismatch"
      else .ok o

def Operation.complete (o : Operation) (result : OperationResult) : Operation :=
  { o with status := .done, result := some result }

def Terminal.isPull (t : Terminal) : Bool := t.binding.direction == .pull

def Terminal.completePrepare (t : Terminal) (operationId : Text) (receipt : PrepareReceipt) :
    Except String Terminal := do
  let o ← t.pending .prepare operationId
  match validatePrepare receipt t.binding with
  | some code => .error code
  | none =>
      .ok { t with
        prepare := some receipt
        localPhase := if t.isPull then .sourcePrepared else .destPrepared
        prepareOp := some (o.complete (.prepared receipt)) }

def Terminal.completeCommit (t : Terminal) (operationId : Text) (receipt : PublicationReceipt) :
    Except String Terminal := do
  let o ← t.pending .commit operationId
  if t.isPull = true then .error "action_not_allowed"
  else
    match t.prepare with
    | none => .error "invalid_receipt"
    | some p =>
        match validatePublication receipt t.binding p t.destination with
        | some code => .error code
        | none =>
            .ok { t with
              publication := some receipt
              localPhase := .destPublished
              commitOp := some (o.complete (.published receipt)) }

/-- `authorize_release`: from here on the release is irreversible. -/
def Terminal.authorizeRelease (t : Terminal) (operationId : Text) : Except String Terminal := do
  let o ← t.pending .release operationId
  match t.releaseAuthorization, o.inputs with
  | none, .release _ receipt =>
      .ok { t with
        publication := some receipt
        releaseAuthorization := some
          { operationId := operationId, publicationReceiptSha256 := receiptDigest receipt.toJson }
        localPhase := if t.isPull then .sourceReleasing else .destReleasing }
  | _, _ => .ok t

def Terminal.completeRelease (t : Terminal) (operationId : Text) (cleanup : Cleanup) :
    Except String Terminal := do
  let o ← t.pending .release operationId
  match t.releaseAuthorization, t.publication with
  | some authorization, some publication =>
      match firstError [failsWith (authorization.operationId ≠ operationId) "release_not_authorized",
          failsWith (cleanup ≠ ⟨true, true⟩) "cleanup_incomplete"] with
      | some code => .error code
      | none =>
          .ok { t with
            localPhase := if t.isPull then .sourceReleased else .destReleased
            releaseOp := some (o.complete (.released publication cleanup)) }
  | _, _ => .error "release_not_authorized"

/-- `fail_action`: a failed action is never completed. -/
def Terminal.failAction (t : Terminal) (a : Action) (operationId : Text) (code : String) :
    Except String Terminal := do
  let o ← t.pending a operationId
  if isIdentifier (ascii code) = false then .error "invalid_receipt_id"
  else if t.releaseAuthorization.isSome then .error "release_already_authorized"
  else
    .ok ({ t with
      localPhase :=
        if t.isPull then (if code = "source_changed" then .sourceChanged else .sourceFailed)
        else .destFailed }.setOp a { o with status := .failed, result := some (.failed code) })

/-! ## Restoring a snapshot -/

/-- The result of a finished operation, replayed. -/
def Terminal.replayDone (t : Terminal) (a : Action) (o : Operation) : Except String Terminal :=
  match a, o.result with
  | .prepare, some (.prepared receipt) => t.completePrepare o.operationId receipt
  | .commit, some (.published receipt) => t.completeCommit o.operationId receipt
  | .release, some (.released _ cleanup) => do
      let t ← t.authorizeRelease o.operationId
      t.completeRelease o.operationId cleanup
  | _, _ => .error "invalid_terminal_snapshot"

/-- One operation of a snapshot, replayed. -/
def Terminal.replayOperation (t : Terminal) (authorized : Bool) (a : Action) (o : Operation) :
    Except String Terminal :=
  if isIdentifier o.operationId = false then .error "invalid_receipt_id"
  else if o.inputs.action ≠ a then .error "invalid_action_input"
  else
    match t.beginAction o.inputs o.operationId with
    | .error code => .error code
    | .ok (started, t) =>
        if started.inputDigest ≠ o.inputDigest then .error "invalid_terminal_snapshot"
        else
          match o.status, o.result with
          | .failed, some (.failed code) => t.failAction a o.operationId code
          | .failed, _ => .error "invalid_terminal_snapshot"
          | .done, _ => t.replayDone a o
          | .inProgress, _ =>
              if a = .release ∧ authorized = true then t.authorizeRelease o.operationId else .ok t

def Terminal.replaySaved (t : Terminal) (authorized : Bool) (a : Action) :
    Option Operation → Except String Terminal
  | none => .ok t
  | some o => t.replayOperation authorized a o

/-- `restore`: replay the history of a snapshot and demand that it comes out equal. -/
def Terminal.restore (snapshot : Terminal) (b : Binding) (d : Destination) :
    Except String Terminal := do
  match firstError [validateBinding b, validateDestination d b.direction,
      failsWith (snapshot.binding ≠ b ∨ snapshot.destination ≠ d) "invalid_terminal_snapshot"] with
  | some code => .error code
  | none => do
      let authorized := snapshot.releaseAuthorization.isSome
      let t ← (Terminal.new b d).replaySaved authorized .prepare snapshot.prepareOp
      let t ← t.replaySaved authorized .commit snapshot.commitOp
      let t ← t.replaySaved authorized .release snapshot.releaseOp
      if t ≠ snapshot then .error "invalid_terminal_snapshot" else .ok t

theorem failsWith_none {c : Prop} [Decidable c] {code : String} :
    failsWith c code = none ↔ ¬ c := by
  unfold failsWith
  by_cases hc : c
  · rw [if_pos hc]
    exact ⟨nofun, fun h => absurd hc h⟩
  · rw [if_neg hc]
    exact ⟨fun _ => hc, fun _ => rfl⟩

@[simp] theorem firstError_nil : firstError [] = none := rfl

@[simp] theorem firstError_cons (c : Option String) (cs : List (Option String)) :
    firstError (c :: cs) = none ↔ c = none ∧ firstError cs = none := by
  cases c with
  | none => exact ⟨fun h => ⟨rfl, h⟩, fun h => h.2⟩
  | some code => exact ⟨nofun, fun h => absurd h.1 (Option.some_ne_none code)⟩

/-- A restored terminal is the snapshot itself, for the binding that was asked for. -/
theorem restore_ok {snapshot t : Terminal} {b : Binding} {d : Destination}
    (h : snapshot.restore b d = .ok t) :
    t = snapshot ∧ snapshot.binding = b ∧ snapshot.destination = d := by
  unfold Terminal.restore at h
  split at h
  next => exact absurd h nofun
  next hchecks =>
    rw [firstError_cons, firstError_cons, firstError_cons, failsWith_none] at hchecks
    obtain ⟨-, -, hsame, -⟩ := hchecks
    obtain ⟨t₁, -, h⟩ := bind_ok h
    obtain ⟨t₂, -, h⟩ := bind_ok h
    obtain ⟨t₃, -, h⟩ := bind_ok h
    by_cases hne : t₃ = snapshot
    · rw [if_neg (not_not.mpr hne)] at h
      exact ⟨(Except.ok.inj h).symm.trans hne, not_not.mp (fun hb => hsame (Or.inl hb)),
        not_not.mp (fun hd => hsame (Or.inr hd))⟩
    · rw [if_pos hne] at h
      exact absurd h nofun

end GuestTerminal
