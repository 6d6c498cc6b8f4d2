import VeloTransfer.FaultScriptProofs
import VeloTransfer.ManifestProofs

/-! # Host publication — one rename between two saves

    A pull is published by renaming its verified staging directory to the
    destination.  The intent is saved before the rename and the receipt after it,
    so a rerun has to find out from the two paths whether the rename took place.

    The two paths and their parent are an `Area`.  Others may act on it before each
    look and before the rename: `moves` is what they will do.  `changes` records
    what happened to the area; no code reads it.  A walk over a tree sees it at one
    moment. -/

namespace HostPublication

open EffectPrograms Program FaultScript CanonicalJson JsonLine Manifest Sha256 GuestTerminal

/-! ## The tree and the manifest -/

/-- `directory_identity`, of what is at a path. -/
def identityOf : Option Node → Except String DirectoryIdentity
  | some (.directory i _) => .ok { device := i.device, inode := i.inode }
  | some (.file ..) => .error "not_directory"
  | some .other => .error "link_or_reparse"
  | none => .error "source_unavailable"

mutual

/-- The members of a tree, in the order of the walk: the children of a directory,
    then those of its last subdirectory. -/
def walk (relative : Text) : Node → List (Text × Node)
  | .directory _ children => listed relative children ++ walkLast relative children
  | _ => []

def walkLast (relative : Text) : List (Text × Node) → List (Text × Node)
  | [] => []
  | (name, node) :: rest => walkLast relative rest ++ walk (relative ++ name ++ [47]) node

def listed (relative : Text) : List (Text × Node) → List (Text × Node)
  | [] => []
  | (name, node) :: rest => (relative ++ name, node) :: listed relative rest

end

/-- The node is what the entry says. -/
def checkKind (maxLogicalBytes : Nat) : Kind → Node → Option String
  | .directory _, .directory _ _ => none
  | .directory _, .file .. => some "tree_type_mismatch"
  | .file size sha _, .file content identity =>
      if content.length > maxLogicalBytes then some "logical_budget_exceeded"
      else if content.length ≠ identity.size then some "source_changed"
      else if identity.size ≠ size ∨ hexdigest content ≠ sha then some "tree_content_mismatch"
      else none
  | .file .., .directory _ _ => some "unsupported_source_type"
  | _, .other => some "link_or_reparse"

section Tree

variable (u : Unicode) (b : Budget) (m : Document)

/-- The loop of `verify_tree` over the members. -/
def checkMembers : List (Text × Node) → List Text → Except String (List Text)
  | [], actual => .ok actual
  | (relative, node) :: rest, actual => do
      refuse (checkRelative u relative)
      require (actual.length + 1 ≤ b.maxFiles) "file_count_exceeded"
      match m.entries.find? (fun e => e.path == relative) with
      | none => .error "unexpected_tree_member"
      | some e => do
          refuse (checkKind b.maxLogicalBytes e.kind node)
          checkMembers rest (actual ++ [relative])

/-- `verify_tree`, at one moment. -/
def verifyTree (node : Node) : Except String Unit := do
  let actual ← checkMembers u b m (walk [] node) []
  require (m.entries.all (fun e => actual.contains e.path) = true) "missing_tree_member"

end Tree

/-! ## The state -/

/-- The two paths of a publication, and their parent. -/
structure Area where
  parent : DirectoryIdentity
  destination : Option Node
  staging : Option Node
  stagingPrivate : Bool

/-- The rename of the staging directory. -/
def Area.renamed (a : Area) : Area := { a with destination := a.staging, staging := none }

/-- What happens to an area. -/
inductive Change where
  | outside (f : Area → Area)
  | renamed

def Area.apply (a : Area) : Change → Area
  | .outside f => f a
  | .renamed => a.renamed

inductive HostPhase where
  | created
  | preparing
  | ready
  | transferring
  | verifying
  | published
  | cleaning
  | complete
  | failed
  | conflict
  | cancelled
deriving Repr, DecidableEq

/-- The registered staging directory. -/
structure Staging where
  stagingDirectory : Text
  destinationDirectory : Text
  stagingIdentity : DirectoryIdentity
  parentIdentity : DirectoryIdentity
deriving Repr, DecidableEq

/-- What the journal holds for a publication. -/
structure Journal where
  revision : Nat
  deadlineMonotonic : Nat
  phase : HostPhase
  binding : Binding
  guestRequest : Text
  prepare : PrepareReceipt
  staging : Staging
  publishedEver : Bool
  intent : Option PublishIntent
  receipt : Option PublicationReceipt
  receiptRef : Option Text
deriving Repr, DecidableEq

structure Disk where
  journal : Journal
  evidence : Option PublicationReceipt
  area : Area
  moves : List (Area → Area)
  changes : List Change

/-- What the request of the transfer stands for, its budgets, the manifest that is
    stored as evidence, and the accounts of the journal. -/
structure Config where
  direction : Direction
  transferId : Text
  guestRequest : Text
  requestDigest : Text
  vmUuid : Text
  bootIdentity : Text
  vmEpoch : Text
  descriptor : Destination
  unicode : Unicode
  budget : Budget
  maxPackageBytes : Nat
  maxDigits : Nat
  manifest : Document
  journalFits : Journal → Bool
  evidenceFits : PublicationReceipt → Bool

abbrev Host (α : Type) := Effect Failure Disk α

def reject {α : Type} (code : String) : Host α := raise (.error code)

def rejectIf (c : Prop) [Decidable c] (code : String) : Host Unit := raiseIf c (.error code)

/-- An error of a pure check. -/
def lift {α : Type} (x : Except String α) : Host α :=
  match x with
  | .ok a => pure a
  | .error code => reject code

variable (cfg : Config)

/-! ## The area -/

def Disk.outside (d : Disk) : Disk :=
  match d.moves with
  | [] => d
  | f :: rest => { d with area := f d.area, moves := rest, changes := d.changes ++ [.outside f] }

def Disk.rename (d : Disk) : Disk := { d with area := d.area.renamed, changes := d.changes ++ [.renamed] }

/-- A look at the area, after what the others do. -/
def look : Host Area := do
  setDisk Disk.outside
  probe
  let d ← getDisk
  pure d.area

/-- `_rename_noreplace` of the staging directory to the destination. -/
def renameNoreplace : Host Unit := do
  setDisk Disk.outside
  let d ← getDisk
  rejectIf (d.area.destination.isSome = true) "destination_exists"
  rejectIf (d.area.staging.isNone = true) "atomic_publish_failed"
  allOrNothing (fun _ => Disk.rename)

/-- `safe_chain`, for the last name of a path that may be missing. -/
def isLink : Option Node → Bool
  | some .other => true
  | _ => false

/-- `Budget.check`. -/
def budgetCheck (deadline : Nat) : Host Unit := do
  rejectIf (cfg.budget.maxFiles = 0 ∨ cfg.budget.maxMetadataBytes = 0 ∨ cfg.maxPackageBytes = 0)
    "invalid_budget"
  let now ← monotonic
  rejectIf (deadline ≤ now) "deadline_exceeded"

/-- `directory_identity(parent) != stage["parent_identity"]`. -/
def checkParent (stage : Staging) : Host Unit := do
  let a ← look
  rejectIf (a.parent ≠ stage.parentIdentity) "destination_parent_changed"

/-- `verify_tree` of one of the two paths, for the registered directory. -/
def verifyAt (deadline : Nat) (place : Area → Option Node) (stage : Staging) : Host Unit := do
  budgetCheck cfg deadline
  let a ← look
  let identity ← lift (identityOf (place a))
  rejectIf (identity ≠ stage.stagingIdentity) "destination_changed"
  match place a with
  | none => reject "source_unavailable"
  | some node => lift (verifyTree cfg.unicode cfg.budget cfg.manifest node)

/-! ## The journal -/

def parentPath (p : Text) : Text := ((p.reverse.dropWhile (· ≠ 47)).drop 1).reverse

def pathName (p : Text) : Text := (p.reverse.takeWhile (· ≠ 47)).reverse

def STAGE_PREFIX : Text := ascii ".velo-stage-"

/-- `publication_receipt`. -/
def publicationReceipt (b : Binding) (p : PrepareReceipt) (d : Destination) (identity : DirectoryIdentity)
    (publicationId : Text) : Except String PublicationReceipt := do
  refuse (validatePrepare p b)
  refuse (validateDestination d b.direction)
  let receipt : PublicationReceipt :=
    { binding := b, prepareReceiptSha256 := receiptDigest p.toJson, destination := d
      manifestSha256 := b.manifestSha256, directoryIdentity := identity, publicationId := publicationId }
  refuse (validatePublication receipt b p d)
  .ok receipt

/-- The checks of `_load` on the journal alone. -/
def Journal.check (j : Journal) : Except String Unit := do
  refuse (validateBinding j.binding)
  require (j.binding.direction = .pull ∧ cfg.direction = .pull ∧ j.binding.transferId = cfg.transferId)
    "publication_binding_conflict"
  require (j.guestRequest = cfg.guestRequest ∧ j.binding.requestDigest = cfg.requestDigest ∧
    j.binding.vmUuid = cfg.vmUuid ∧ j.binding.bootIdentity = cfg.bootIdentity ∧
    j.binding.vmEpoch = cfg.vmEpoch) "publication_binding_conflict"
  refuse (validatePrepare j.prepare j.binding)
  require (j.staging.destinationDirectory = cfg.descriptor.canonicalPath) "invalid_staging_ownership"
  require (j.staging.stagingDirectory.head? = some 47 ∧
    parentPath j.staging.stagingDirectory = parentPath cfg.descriptor.canonicalPath ∧
    STAGE_PREFIX.isPrefixOf (pathName j.staging.stagingDirectory) = true ∧
    j.staging.stagingDirectory ≠ cfg.descriptor.canonicalPath) "invalid_staging_ownership"
  let _ ← publicationReceipt j.binding j.prepare cfg.descriptor j.staging.stagingIdentity
    (ascii "validation-only")

/-- The manifest that was stored is admitted, and is that of the binding. -/
def Journal.checkManifest (j : Journal) : Except String Unit := do
  let raw ← canonicalJson cfg.maxDigits cfg.manifest.toJson
  let read ← validatedManifest cfg.unicode cfg.budget cfg.maxDigits raw
  require (digestJson read.1 = j.binding.manifestSha256 ∧ read.2 = cfg.manifest) "manifest_hash_mismatch"

/-- What the intent and the receipt must be. -/
def Journal.checkPublication (j : Journal) : Except String Unit := do
  match j.intent with
  | none => require (j.receipt = none) "publication_recovery_conflict"
  | some intent => do
      let recovered ← recoverPublication intent j.binding j.prepare cfg.descriptor j.staging.stagingIdentity
        j.staging.parentIdentity j.binding.manifestSha256
      require (recovered.directoryIdentity = j.staging.stagingIdentity) "publication_recovery_conflict"
      match j.receipt with
      | none => .ok ()
      | some receipt => do
          refuse (validatePublication receipt j.binding j.prepare cfg.descriptor)
          require (receipt = intent.publication) "publication_recovery_conflict"

/-- `journal.load`, under the writer. -/
def readJournal : Host Journal := do
  probe
  let d ← getDisk
  pure d.journal

/-- `_load`. -/
def load : Host Journal := do
  let j ← readJournal
  lift (j.check cfg)
  let now ← monotonic
  rejectIf (j.deadlineMonotonic ≤ now) "invalid_deadline"
  let a ← look
  rejectIf (isLink a.destination = true) "link_or_reparse"
  checkParent j.staging
  probe
  lift (j.checkManifest cfg)
  lift (j.checkPublication cfg)
  pure j

/-- The read of the journal's `_commit` after a failed write; `none` when refused. -/
def readBack : Host (Option Journal) :=
  handle (do probe; let d ← getDisk; pure (some d.journal)) (fun _ => pure none)

/-- How the journal's `_commit` reports a failure, by what it reads back. -/
def classifyCommit (new : Journal) (observed : Option Journal) : Failure :=
  match observed with
  | none => .error "storage_reconcile_required"
  | some observed =>
      if observed = new then .error "storage_durability_unknown"
      else if observed.revision < new.revision then .error "storage_write_failed"
      else .error "storage_reconcile_required"

/-- The facts that no save may change once they are there. -/
def Journal.keeps (old new : Journal) : Prop :=
  (old.intent ≠ none → new.intent = old.intent) ∧ (old.receipt ≠ none → new.receipt = old.receipt)

instance (old new : Journal) : Decidable (old.keeps new) := inferInstanceAs (Decidable (_ ∧ _))

/-- `_save`, of the fields that an update sets. -/
def save (set : Journal → Journal) : Host Unit := do
  let current ← readJournal
  let new : Journal := { set current with revision := current.revision + 1 }
  rejectIf (current.publishedEver = true ∧ new.publishedEver = false) "published_fact_lost"
  rejectIf (¬ current.keeps new) "immutable_fact_changed"
  rejectIf (cfg.journalFits new = false) "state_budget_exceeded"
  probe
  replaceRecord (fun d => { d with journal := new }) readBack (classifyCommit new)

def Journal.markPublished (j : Journal) : Journal := { j with publishedEver := true }

/-- `_mark_published`. -/
def markPublished : Host Unit := do
  let j ← readJournal
  whenever (j.publishedEver = false) (save cfg Journal.markPublished)

/-! ## Publication -/

/-- `_verify_destination`. -/
def verifyDestination (j : Journal) : Host Unit := do
  let a ← look
  rejectIf (isLink a.destination = true) "link_or_reparse"
  checkParent j.staging
  let b ← look
  let identity ← lift (identityOf b.destination)
  rejectIf (identity ≠ j.staging.stagingIdentity) "publication_recovery_conflict"
  markPublished cfg
  verifyAt cfg j.deadlineMonotonic Area.destination j.staging
  checkParent j.staging

/-- The staging directory is still the registered one. -/
def checkStaging (stage : Staging) : Host Unit := do
  let a ← look
  let identity ← lift (identityOf a.staging)
  rejectIf (identity ≠ stage.stagingIdentity) "staging_changed"
  checkParent stage

/-- `publish_directory` up to its rename. -/
def beforeRename (j : Journal) : Host Unit := do
  let a ← look
  rejectIf (isLink a.staging = true ∨ isLink a.destination = true) "link_or_reparse"
  rejectIf (a.destination.isSome = true) "destination_exists"
  checkStaging j.staging
  rejectIf (j.staging.stagingIdentity.device ≠ j.staging.parentIdentity.device) "cross_volume"
  let b ← look
  rejectIf (b.stagingPrivate = false) "staging_not_private"
  verifyAt cfg j.deadlineMonotonic Area.staging j.staging
  handle probe (fun _ => reject "staging_sync_failed")
  checkStaging j.staging

/-- `publish_directory` after its rename. -/
def afterRename (j : Journal) : Host Unit := do
  handle probe (fun _ => reject "post_publish_io_failed")
  checkParent j.staging
  let a ← look
  let identity ← lift (identityOf a.destination)
  rejectIf (identity ≠ j.staging.stagingIdentity) "destination_changed"
  verifyAt cfg j.deadlineMonotonic Area.destination j.staging

/-- An error after the rename is raised once the rename is recorded. -/
def publishDirectory (j : Journal) : Host Unit := do
  beforeRename cfg j
  renameNoreplace
  handle (afterRename cfg j) (fun e => do
    markPublished cfg
    raise e)

/-- The publication id of a new intent. -/
def newPublicationId : Host Text := do
  let n ← observe
  pure (112 :: decimal n)

/-- The intent of a publication, which is saved before anything is renamed. -/
def intentOf (j : Journal) : Host PublishIntent :=
  match j.intent with
  | some intent => pure intent
  | none => do
      rejectIf (j.publishedEver = true ∨ j.receipt ≠ none) "publication_recovery_conflict"
      let a ← look
      rejectIf (a.destination.isSome = true) "destination_exists"
      verifyAt cfg j.deadlineMonotonic Area.staging j.staging
      let publicationId ← newPublicationId
      let publication ← lift (publicationReceipt j.binding j.prepare cfg.descriptor
        j.staging.stagingIdentity publicationId)
      let intent : PublishIntent := { publication := publication, parentIdentity := j.staging.parentIdentity }
      save cfg (fun current => { current with intent := some intent })
      pure intent

/-- The destination is there: it must be the registered directory. -/
def recover (j : Journal) : Host Unit := do
  verifyDestination cfg j
  let a ← look
  rejectIf (a.staging.isSome = true) "publication_recovery_conflict"
  handle probe (fun _ => reject "post_publish_io_failed")
  checkParent j.staging
  let b ← look
  let identity ← lift (identityOf b.destination)
  rejectIf (identity ≠ j.staging.stagingIdentity) "destination_changed"

/-- The destination is not there: rename the staging directory. -/
def advance (j : Journal) : Host Unit := do
  rejectIf (j.publishedEver = true ∨ j.receipt ≠ none) "published_destination_missing"
  let a ← look
  rejectIf (a.staging.isNone = true) "publication_outcome_unknown"
  publishDirectory cfg j
  markPublished cfg
  verifyDestination cfg j

/-- What `publish` does, by what is at the destination. -/
def renameOrRecover (j : Journal) (a : Area) : Host Unit :=
  if a.destination.isSome then recover cfg j else advance cfg j

/-- `write_evidence` of the receipt, under its own name. -/
def writeEvidence (receipt : PublicationReceipt) : Host Text := do
  probe
  let d ← getDisk
  match d.evidence with
  | some stored => do
      rejectIf (stored ≠ receipt) "evidence_conflict"
      probe
      pure (digestJson receipt.toJson)
  | none => do
      rejectIf (cfg.evidenceFits receipt = false) "evidence_collection_exceeded"
      allOrNothing (fun _ d => { d with evidence := some receipt })
      pure (digestJson receipt.toJson)

/-- The last save. -/
def Journal.finish (receipt : PublicationReceipt) (reference : Text) (j : Journal) : Journal :=
  { j with publishedEver := true, receipt := some receipt, receiptRef := some reference
           phase := if j.phase = .cleaning ∨ j.phase = .complete then j.phase else .published }

/-- `publish`. -/
def publish : Host (PublicationReceipt × Text) := do
  let j ← load cfg
  let intent ← intentOf cfg j
  let a ← look
  renameOrRecover cfg j a
  let b ← look
  let receipt ← lift (recoverPublication intent j.binding j.prepare cfg.descriptor
    j.staging.stagingIdentity b.parent j.binding.manifestSha256)
  let reference ← writeEvidence cfg receipt
  save cfg (Journal.finish receipt reference)
  pure (receipt, reference)

/-- What `verify_published` has observed. -/
structure Observation where
  binding : Binding
  publicationReceiptSha256 : Text
  directoryIdentity : DirectoryIdentity
  parentIdentity : DirectoryIdentity
  manifestSha256 : Text
deriving Repr, DecidableEq

/-- `verify_published`. -/
def verifyPublished : Host Observation := do
  let j ← load cfg
  match j.receipt with
  | none => reject "publication_unproven"
  | some receipt => do
      verifyDestination cfg j
      let a ← look
      pure { binding := j.binding, publicationReceiptSha256 := receiptDigest receipt.toJson
             directoryIdentity := j.staging.stagingIdentity, parentIdentity := a.parent
             manifestSha256 := j.binding.manifestSha256 }

end HostPublication
