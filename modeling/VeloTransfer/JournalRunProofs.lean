import VeloTransfer.FaultScriptProofs
import VeloTransfer.FileNodeProofs
import VeloTransfer.HostJournalProofs

/-! # Runs of the host journal — create, save, load and the commit below them

    The journal of a transfer lives in a task directory: `state.json`, replaced
    through a temporary file, and a directory of evidence.  The object of one
    process keeps, besides its constants, whether it created the task and which
    state file it has seen; that memory is gone with the process.

    Nobody else touches the files, so a check that compares identities passes or
    fails with the outside; a check of several codes has one of them here. -/

namespace HostJournal

open EffectPrograms Program FaultScript FileNodes CanonicalJson JsonLine BoundedJson JsonDict
open Sha256 GuestTerminal

/-- What an object keeps as long as its process lives. -/
structure Memory where
  resume : Bool
  created : Bool
  stateId : Option Nat
deriving Repr, DecidableEq

/-- The task directory, and the memory of the process that has the writer lock. -/
structure Disk where
  task : Bool
  state : Option FileNode
  temporaries : List Nat
  nextInode : Nat
  evidenceDirectory : Bool
  evidence : List (Text × FileNode)
  evidenceTemporaries : List Nat
  memory : Option Memory
deriving Repr, DecidableEq

/-- Before anything was written. -/
def Disk.empty : Disk :=
  { task := false, state := none, temporaries := [], nextInode := 1, evidenceDirectory := false
    evidence := [], evidenceTemporaries := [], memory := none }

abbrev Store (α : Type) := Effect Failure Disk α

def reject {α : Type} (code : String) : Store α := raise (.error code)

def rejectIf (c : Prop) [Decidable c] (code : String) : Store Unit := raiseIf c (.error code)

/-- An outside check, with the code it raises. -/
def check (code : String) : Store Unit := handle probe (fun _ => reject code)

/-- A function of the model that returned, or raised its code. -/
def lift {α : Type} (x : Except String α) : Store α :=
  match x with
  | .ok a => pure a
  | .error code => reject code

def setMemory (f : Memory → Memory) : Store Unit :=
  setDisk (fun d => { d with memory := d.memory.map f })

def setStateId (id : Option Nat) : Store Unit := setMemory (fun m => { m with stateId := id })

variable (j : Journal)

/-- `_require_writer`. -/
def requireWriter (task : Bool) : Store Unit := do
  let d ← getDisk
  rejectIf (d.memory.isNone = true) "writer_lock_required"
  check "writer_lock_changed"
  rejectIf (task = true ∧ d.task = false) "task_missing"

/-- The state file that this process has seen is another one. -/
def Disk.stateMoved (d : Disk) (f : FileNode) : Bool :=
  match d.memory with
  | some m => m.stateId.isSome && m.stateId != some f.inode
  | none => false

/-- `_read_state`. -/
def readStateFile : Store Envelope := do
  requireWriter true
  let d ← getDisk
  match d.state with
  | none => reject "task_incomplete"
  | some f => do
      check "state_unavailable"
      let e ← lift (j.readState f.bytes)
      rejectIf (d.stateMoved f = true) "state_changed"
      setStateId (some f.inode)
      pure e

/-- A new temporary file. -/
def createTemporary (inode : Nat) : Store Unit :=
  allOrNothing (fun _ d =>
    { d with temporaries := inode :: d.temporaries, nextInode := d.nextInode + 1 })

/-- The rename onto the state file. -/
def renameState (inode : Nat) (raw : Bytes) : Store Unit :=
  allOrNothing (fun stamp d =>
    { d with state := some { newFile inode stamp with bytes := raw }
             temporaries := d.temporaries.erase inode })

def unlinkTemporary (inode : Nat) : Store Unit :=
  handle (allOrNothing (fun _ d => { d with temporaries := d.temporaries.erase inode }))
    (fun _ => pure ())

/-- The part of `_commit` whose failures are classified. -/
def replaceState (raw : Bytes) (initial : Bool) (previous : Option FileNode) (inode : Nat) :
    Store Unit := do
  createTemporary inode
  probe
  requireWriter true
  probe
  let d ← getDisk
  rejectIf (initial = true ∧ d.state.isSome = true) "resume_required"
  rejectIf (initial = false ∧ d.state ≠ previous) "state_changed"
  renameState inode raw
  probe
  probe
  setStateId (some inode)

/-- The state that is read back after a failure; `none` when it cannot be read. -/
def observedState : Store (Option Envelope) :=
  handle (do
      let d ← getDisk
      match d.state with
      | none => pure none
      | some _ => do
          let e ← readStateFile j
          pure (some e))
    (fun _ => pure none)

/-- How a failure of `_commit` is reported. -/
def classify (raw : Bytes) (revision : Nat) (observed : Option Envelope) : Failure :=
  match observed with
  | none => .error "storage_reconcile_required"
  | some e =>
      if e.revision = revision ∧ dumps e.document = some raw then .error "storage_durability_unknown"
      else if e.revision < revision then .error "storage_write_failed"
      else .error "storage_reconcile_required"

/-- `_commit`. -/
def commit (raw : Bytes) (revision : Nat) (initial : Bool) : Store Unit := do
  requireWriter true
  check "state_missing"
  let d ← getDisk
  rejectIf (initial = true ∧ d.state.isSome = true) "resume_required"
  rejectIf (initial = false ∧ d.state.isNone = true) "state_missing"
  rejectIf (initial = false ∧ (d.state.map d.stateMoved).getD false = true) "state_changed"
  handle (replaceState raw initial d.state d.nextInode) (fun _ => do
    setStateId none
    let observed ← observedState j
    unlinkTemporary d.nextInode
    raise (classify raw revision observed))

def Memory.isResume (m : Option Memory) : Bool := (m.map Memory.resume).getD false

def Memory.isCreated (m : Option Memory) : Bool := (m.map Memory.created).getD false

/-- The task directory is created and its parent synced. -/
def createTask : Store Unit :=
  handle (do
      allOrNothing (fun _ d => { d with task := true })
      probe)
    (fun _ => reject "task_unavailable")

/-- An error of a check, raised. -/
def rejectOn (error : Option String) : Store Unit :=
  match error with
  | none => pure ()
  | some code => reject code

/-- `create`. -/
def create (deadline data : Json) : Store Envelope := do
  requireWriter false
  let d ← getDisk
  rejectIf (Memory.isResume d.memory = true) "resume_required"
  let now ← monotonic
  rejectIf (finiteDeadline deadline = false ∨ numberValue deadline ≤ now ∨
    numberValue deadline > now + j.maxDuration) "invalid_deadline"
  rejectOn (phaseData data none true)
  let raw ← lift (j.encode 0 deadline data)
  rejectIf (d.task = true) "resume_required"
  createTask
  check "task_unsafe"
  commit j raw 0 true
  setMemory (fun m => { m with created := true })
  pure { document := j.document 0 deadline data, revision := 0, deadline := deadline, data := data }

/-- `load`. -/
def load : Store Envelope := do
  requireWriter false
  let d ← getDisk
  rejectIf (Memory.isResume d.memory = false ∧ Memory.isCreated d.memory = false) "resume_required"
  rejectIf (d.task = false) "task_not_found"
  readStateFile j

/-- `save`. -/
def save (expected : Int) (data : Json) : Store Envelope := do
  requireWriter false
  rejectIf (expected < 0) "invalid_revision"
  let old ← load j
  rejectIf (old.revision ≠ expected) "stale_revision"
  rejectOn (validateJson (j.limits j.limit) data)
  rejectOn (phaseData data (some old.data) false)
  let raw ← lift (j.encode (old.revision + 1) old.deadline data)
  commit j raw (old.revision + 1) false
  pure { document := j.document (old.revision + 1) old.deadline data
         revision := old.revision + 1, deadline := old.deadline, data := data }

/-! ## Evidence

    An evidence file is written under its name through a temporary file of its own,
    in a directory whose entries are counted, the temporary files among them. -/

/-- `_evidence_ref`. -/
structure EvidenceRef where
  name : Text
  size : Nat
  sha256 : Text
  device : Nat
  inode : Nat
  mtimeNs : Nat
deriving Repr, DecidableEq

/-- `_NAME`. -/
def isName : Text → Bool
  | [] => false
  | c :: cs =>
      isLower c && cs.length ≤ 63 &&
        cs.all (fun c => isLower c || (48 ≤ c && c ≤ 57) || c == 95 || c == 45)
where
  isLower (c : Nat) : Bool := 97 ≤ c && c ≤ 122

/-- The entries of the evidence directory. -/
def Disk.entries (d : Disk) : Nat := d.evidence.length + d.evidenceTemporaries.length

/-- A failure of the system gets the code of its place. -/
def withCode (code : String) : Failure → Failure
  | .osError => .error code
  | .error code' => .error code'

/-- An effect of the system, which fails with an `OSError`. -/
def attempt (m : Store Unit) : Store Unit := handle m (fun _ => raise .osError)

def Journal.evidenceRef (name : Text) (raw : Bytes) (f : FileNode) : EvidenceRef :=
  { name := name, size := raw.length, sha256 := hexdigest raw, device := j.device
    inode := f.inode, mtimeNs := f.mtimeNs }

/-- The bytes of a value within the limits of the evidence store. -/
def Journal.evidenceBytes (value : Json) : Except String Bytes :=
  match validateJson (j.limits j.evidenceLimit) value with
  | some code => .error code
  | none =>
      match dumps value with
      | none => .error "UnicodeEncodeError"
      | some raw =>
          if raw.length > j.evidenceLimit then .error "state_budget_exceeded" else .ok raw

/-- `_read_file` of an evidence file. -/
def readFile (f : FileNode) : Store Bytes := do
  rejectIf (f.bytes.length > j.evidenceLimit) "evidence_file_budget_exceeded"
  check "evidence_file_unavailable"
  pure f.bytes

/-- The evidence directory is created and its parent synced. -/
def makeDirectory : Store Unit := do
  let d ← getDisk
  whenever (d.evidenceDirectory = false)
    (handle (do
        allOrNothing (fun _ d => { d with evidenceDirectory := true })
        probe)
      (fun _ => reject "evidence_unavailable"))
  check "evidence_unsafe"

def createEvidenceTemporary (inode : Nat) : Store Unit :=
  allOrNothing (fun _ d =>
    { d with evidenceTemporaries := inode :: d.evidenceTemporaries, nextInode := d.nextInode + 1 })

/-- The rename onto a name that is free. -/
def renameEvidence (name : Text) (inode : Nat) (raw : Bytes) : Store Unit :=
  allOrNothing (fun stamp d =>
    { d with evidence := (name, { newFile inode stamp with bytes := raw }) :: d.evidence
             evidenceTemporaries := d.evidenceTemporaries.erase inode })

def unlinkEvidence (inode : Nat) : Store Unit :=
  handle (allOrNothing (fun _ d => { d with evidenceTemporaries := d.evidenceTemporaries.erase inode }))
    (fun _ => pure ())

/-- Up to the rename; a failure removes the temporary file. -/
def placeEvidence (name : Text) (inode : Nat) (raw : Bytes) : Store Unit :=
  handle (do
      attempt (createEvidenceTemporary inode)
      attempt probe
      requireWriter true
      check "temporary_changed"
      handle (renameEvidence name inode raw) (fun _ => reject "atomic_publish_failed"))
    (fun f => do
      unlinkEvidence inode
      raise (withCode "evidence_write_failed" f))

/-- After the rename. -/
def confirmEvidence (inode : Nat) : Store Unit :=
  handle (do
      check "evidence_reconcile_required"
      attempt probe)
    (fun f => do
      unlinkEvidence inode
      raise (withCode "evidence_durability_unknown" f))

/-- The answer of a write whose name was there. -/
def repeatEvidence (name : Text) (raw : Bytes) (f : FileNode) : Store EvidenceRef := do
  let current ← readFile j f
  rejectIf (current ≠ raw) "evidence_conflict"
  check "evidence_durability_unknown"
  let repeated ← readFile j f
  rejectIf (repeated ≠ raw) "evidence_changed"
  pure (j.evidenceRef name raw f)

/-- A new evidence file. -/
def newEvidence (name : Text) (raw : Bytes) : Store EvidenceRef := do
  check "evidence_unavailable"
  let d ← getDisk
  rejectIf (0 < d.entries ∧ j.maxEvidenceFiles ≤ d.entries) "evidence_collection_exceeded"
  placeEvidence name d.nextInode raw
  confirmEvidence d.nextInode
  let d' ← getDisk
  match d'.evidence.lookup name with
  | none => reject "evidence_file_missing"
  | some f => do
      let stored ← readFile j f
      rejectIf (stored ≠ raw) "evidence_reconcile_required"
      pure (j.evidenceRef name raw f)

/-- `write_evidence`. -/
def writeEvidence (name : Text) (value : Json) : Store EvidenceRef := do
  requireWriter true
  rejectIf (isName name = false) "invalid_evidence_name"
  let raw ← lift (j.evidenceBytes value)
  makeDirectory
  requireWriter true
  let d ← getDisk
  match d.evidence.lookup name with
  | some f => repeatEvidence j name raw f
  | none => newEvidence j name raw

/-- `read_evidence`. -/
def readEvidence (ref : EvidenceRef) : Store Json := do
  requireWriter true
  let d ← getDisk
  rejectIf (d.evidenceDirectory = false) "evidence_missing"
  rejectIf (isName ref.name = false) "invalid_evidence_name"
  rejectIf (ref.size > j.evidenceLimit ∨ isHex ref.sha256 = false) "invalid_evidence_ref"
  match d.evidence.lookup ref.name with
  | none => reject "evidence_file_missing"
  | some f => do
      let raw ← readFile j f
      rejectIf (j.evidenceRef ref.name raw f ≠ ref) "evidence_changed"
      lift (decode (j.limits j.evidenceLimit) raw)

/-! ## Commands -/

/-- A value that Python can hold. -/
structure PyJson where
  value : Json
  sound : Value value

/-- What happens to a journal: an object is opened with the writer lock, and used. -/
inductive Command where
  | open (resume : Bool)
  | create (deadline data : PyJson)
  | load
  | save (expected : Int) (data : PyJson)
  | write (name : Text) (value : PyJson)
  | read (ref : EvidenceRef)

/-- What a command returns. -/
inductive Answer where
  | opened
  | state (e : Envelope)
  | written (ref : EvidenceRef)
  | value (v : Json)

def perform : Command → Store Answer
  | .open resume => do
      setDisk (fun d => { d with memory := some ⟨resume, false, none⟩ })
      pure .opened
  | .create deadline data => do
      let e ← create j deadline.value data.value
      pure (.state e)
  | .load => do
      let e ← load j
      pure (.state e)
  | .save expected data => do
      let e ← save j expected data.value
      pure (.state e)
  | .write name value => do
      let ref ← writeEvidence j name value.value
      pure (.written ref)
  | .read ref => do
      let v ← readEvidence j ref
      pure (.value v)

/-- A process that dies loses its memory and the lock. -/
def afterwards :
    Outcome Failure Answer × Machine Failure Disk → Machine Failure Disk
  | (.crashed, m') => { m' with disk := { m'.disk with memory := none } }
  | (_, m') => m'

end HostJournal
