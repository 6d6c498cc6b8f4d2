import VeloTransfer.TaskStoreProofs

/-! # Threads on a task store — load, save and the commit, step by step

    `load` and `save` are threads whose steps interleave with those of all the
    others.  A load holds no lock: it may see the state file replaced under its
    hands, and compares the inodes.  A save runs under the writer lock from its
    revision check to the end of its commit. -/

namespace TaskStore

open Interleaving Thread CanonicalJson JsonLine BoundedJson JsonDict
open HostJournal (textOf PyJson)

/-! ## What is shared -/

/-- A file that is, was or may become the state file. -/
structure Version where
  inode : Nat
  bytes : Bytes
deriving Repr, DecidableEq

/-- `versions` are the state files that replaced one another, the newest first;
    the first of `synced` is what is there after a loss of power, or a newer one. -/
structure Shared where
  holder : Option Nat
  versions : List Version
  synced : List Version
  temporaries : List Version
  nextInode : Nat
deriving Repr, DecidableEq

/-- How an operation ends: well, or with an error, after some progress. -/
inductive Outside where
  | fine
  | fails (progress : Nat) (os : Bool)
deriving Repr, DecidableEq

/-- Whether a change that is made as a whole or not at all took place. -/
def Outside.happens : Outside → Bool
  | .fine => true
  | .fails progress _ => 0 < progress

abbrev Op (α : Type) := Thread Shared Outside Raised α

def look : Op Shared := .step (fun s _ => s) (fun s _ => .ret s)

/-- An outside check: it passes, raises its code, or an error of the system. -/
def check (code : String) : Op Unit :=
  .step (fun s _ => s) (fun _ c =>
    match c with
    | .fine => .ret ()
    | .fails _ os => .raised (if os then .osError else .error code))

/-- An operation of the system that changes nothing here. -/
def system : Op Unit :=
  .step (fun s _ => s) (fun _ c =>
    match c with
    | .fine => .ret ()
    | .fails _ _ => .raised .osError)

def reject {α : Type} (code : String) : Op α := .raised (.error code)

def rejectIf (c : Prop) [Decidable c] (code : String) : Op Unit := raiseIf c (.error code)

def lift {α : Type} (x : Except Raised α) : Op α :=
  match x with
  | .ok a => pure a
  | .error e => .raised e

/-- A check of the model that found an error, or none. -/
def rejectOn (error : Option Raised) : Op Unit :=
  match error with
  | none => pure ()
  | some e => .raised e

/-- A change of the disk, made as a whole or not at all. -/
def change (put : Shared → Shared) : Op Unit :=
  .step (fun s c => if c.happens then put s else s) (fun _ c =>
    match c with
    | .fine => .ret ()
    | .fails _ _ => .raised .osError)

/-! ## The writer lock -/

/-- The lock that is freed when its holder lets go of it or dies. -/
def Shared.free (w : Nat) (s : Shared) : Shared :=
  { s with holder := if s.holder = some w then none else s.holder }

/-- The exclusive lock is taken, without waiting. -/
def lock (w : Nat) : Op Unit :=
  .step (fun s c => if c = .fine ∧ s.holder = none then { s with holder := some w } else s) (fun s c =>
    if c = .fine ∧ s.holder = none then .ret () else reject "writer_busy")

def unlock (w : Nat) : Op Unit := .step (fun s _ => s.free w) (fun _ _ => .ret ())

/-- `writer`, up to its `yield`. -/
def enterWriter (w : Nat) : Op Unit := do
  let s ← look
  rejectIf (s.holder = some w) "writer_lock_held"
  check "deadline_expired"
  check "link_or_reparse"
  check "writer_lock_unavailable"
  lock w
  handle (check "writer_lock_changed") (fun e => do
    unlock w
    .raised e)

/-- `_require_writer`. -/
def requireWriter (w : Nat) : Op Unit := do
  let s ← look
  rejectIf (s.holder ≠ some w) "writer_lock_required"
  check "deadline_expired"
  check "writer_lock_changed"

/-! ## Reading -/

/-- The state file under its path, at one moment. -/
def stateFile : Op Version :=
  .step (fun s _ => s) (fun s c =>
    match c, s.versions with
    | .fine, v :: _ => .ret v
    | _, _ => .raised .osError)

/-- `_no_link` on the state file. -/
def statState : Op Version := handle stateFile (fun _ => reject "source_unavailable")

variable (st : Store)

/-- `_read` -/
def read : Op Envelope := do
  check "deadline_expired"
  check "link_or_reparse"
  check "insecure_permissions"
  let before ← statState
  check "invalid_state"
  rejectIf (before.bytes.length > st.maxStateBytes) "state_budget_exceeded"
  -- the descriptor keeps the file that is there when it is opened
  let opened ← stateFile
  rejectIf (opened.inode ≠ before.inode) "state_changed"
  system
  rejectIf (opened.bytes.length > st.maxStateBytes) "state_budget_exceeded"
  let after ← statState
  rejectIf (after.inode ≠ before.inode) "state_changed"
  lift (st.readState opened.bytes)

/-- `_task_dir` for a task that exists. -/
def taskDir : Op Unit := do
  check "deadline_expired"
  check "task_not_found"
  check "insecure_permissions"

/-- The envelope is of this task, under this binding. -/
def Store.pins (binding : Json) (e : Envelope) : Prop :=
  textOf (some e.transferId) = some st.transferId ∧ canonical e.binding = canonical binding

instance (binding : Json) (e : Envelope) : Decidable (st.pins binding e) :=
  inferInstanceAs (Decidable (_ ∧ _))

/-- `load`. -/
def load (binding : Json) : Op Envelope := do
  rejectOn ((st.checkBinding binding).map .error)
  taskDir
  let s ← look
  rejectIf (s.versions = []) "task_incomplete"
  let e ← read st
  rejectIf (¬ st.pins binding e) "task_binding_conflict"
  pure e

/-! ## Saving -/

def Shared.created (s : Shared) : Shared :=
  { s with temporaries := ⟨s.nextInode, []⟩ :: s.temporaries, nextInode := s.nextInode + 1 }

/-- A temporary file with a new inode. -/
def createTemporary : Op Nat :=
  .step (fun s c => if c.happens then s.created else s)
    (fun s c =>
      match c with
      | .fine => .ret s.nextInode
      | .fails _ _ => .raised .osError)

def Version.write (inode : Nat) (data : Bytes) (v : Version) : Version :=
  if v.inode = inode then { v with bytes := data } else v

def Shared.wrote (inode : Nat) (data : Bytes) (s : Shared) : Shared :=
  { s with temporaries := s.temporaries.map (Version.write inode data) }

/-- The temporary file is written; under a fault, a part of it. -/
def writeTemporary (inode : Nat) (raw : Bytes) : Op Unit :=
  .step (fun s c =>
      match c with
      | .fine => s.wrote inode raw
      | .fails progress _ => s.wrote inode (raw.take progress))
    (fun _ c =>
      match c with
      | .fine => .ret ()
      | .fails _ _ => .raised .osError)

def Shared.temporary (s : Shared) (inode : Nat) : Option Version :=
  s.temporaries.find? (fun v => v.inode == inode)

/-- The temporary file becomes the state file. -/
def Shared.replaced (inode : Nat) (s : Shared) : Shared :=
  match s.temporary inode with
  | some v => { s with versions := v :: s.versions, temporaries := s.temporaries.erase v }
  | none => s

def Shared.unlinked (inode : Nat) (s : Shared) : Shared :=
  { s with temporaries := s.temporaries.filter (fun v => v.inode != inode) }

def Shared.sync (s : Shared) : Shared := { s with synced := s.versions }

/-- The part of `_commit` whose failures are classified. -/
def replaceState (w inode : Nat) (raw : Bytes) : Op Unit := do
  writeTemporary inode raw
  system
  requireWriter w
  change (Shared.replaced inode)
  change Shared.sync

/-- The state that is read back; an error of the system is not caught. -/
def observedState : Op (Option Envelope) :=
  handle (do
      system
      let e ← read st
      pure (some e))
    (fun e =>
      match e with
      | .error _ => pure none
      | e => .raised e)

/-- How a failure of `_commit` is reported. -/
def classify (raw : Bytes) (revision : Nat) (observed : Option Envelope) : Raised :=
  match observed with
  | none => .error "storage_reconcile_required"
  | some e =>
      if e.revision = revision ∧ dumps e.document = some raw then .error "storage_durability_unknown"
      else if e.revision < revision then .error "storage_write_failed"
      else .error "storage_reconcile_required"

/-- `_commit`. -/
def commit (w : Nat) (raw : Bytes) (revision : Nat) : Op Unit := do
  requireWriter w
  let inode ← createTemporary
  handle (replaceState w inode raw) (fun _ => do
    let observed ← observedState st
    handle (change (Shared.unlinked inode)) (fun _ => pure ())
    .raised (classify raw revision observed))

/-- `save`. -/
def save (w : Nat) (binding : Json) (expected : Int) (state : Json) : Op Envelope := do
  requireWriter w
  rejectIf (expected < 0) "invalid_revision"
  let existing ← load st binding
  rejectIf ((existing.revision : Int) ≠ expected) "stale_revision"
  rejectOn ((st.checkBinding binding).map .error)
  rejectOn (st.checkContent w binding (existing.revision + 1) state)
  check "deadline_expired"
  let raw ← lift (st.encode w binding (existing.revision + 1) state)
  taskDir
  commit st w raw (existing.revision + 1)
  pure (st.envelope w binding (existing.revision + 1) state)

/-! ## The calls of the threads -/

/-- What an object of the store is asked for. -/
inductive Call where
  | enterWriter
  | leaveWriter
  | load (binding : PyJson)
  | save (binding : PyJson) (expected : Int) (state : PyJson)

inductive Answer where
  | done
  | envelope (e : Envelope)

def perform (w : Nat) : Call → Op Answer
  | .enterWriter => do
      enterWriter w
      pure .done
  | .leaveWriter => do
      unlock w
      pure .done
  | .load binding => do
      let e ← load st binding.value
      pure (.envelope e)
  | .save binding expected state => do
      let e ← save st w binding.value expected state.value
      pure (.envelope e)

/-- After a loss of power the state file is one that was synced, or a newer one. -/
structure Halted (s t : Shared) : Prop where
  holder : t.holder = none
  synced : t.synced = t.versions
  kept : s.synced <:+ t.versions
  back : t.versions <:+ s.versions

/-- The calls of a store; a dead process holds no lock. -/
def rules : Rules Shared Outside Raised Call Answer :=
  { perform := perform st, leave := Shared.free, halted := Halted }

end TaskStore
