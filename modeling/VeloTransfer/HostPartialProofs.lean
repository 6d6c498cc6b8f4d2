import VeloTransfer.FaultScriptProofs
import VeloTransfer.ChunkLogProofs
import VeloTransfer.GuestTaskProofs

/-! # The host's partial package — pull reception inside the host journal

    A pull keeps the package it receives in `receive/received.part`, the records
    of its chunks in `receive/chunks.jsonl`, and what is acknowledged of both in
    the host journal (`receive_partial`).  `resume`, `append` and `verify` are the
    operations of `HostPartial` on a partial that has reached its READY state.

    `_continuity` lives as long as the process: it is part of the state here and
    is dropped when the process dies. -/

namespace HostPartial

open EffectPrograms Program FaultScript FileNodes ChunkLog CanonicalJson JsonLine Sha256 GuestTerminal

/-- The phases of `receive_partial`. -/
inductive Phase where
  | directory
  | part
  | ready
deriving Repr, DecidableEq

/-- `receive_partial`: the registered files and what is acknowledged of them. -/
structure State where
  phase : Phase
  directory : DirectoryIdentity
  part : Option Info
  ledger : Option Info
  verifiedOffset : Nat
  chunkCount : Nat
  ledgerBytes : Nat
deriving Repr, DecidableEq

/-- What the host journal holds for the partial; the guest request is kept as its
    canonical text. -/
structure Journal where
  revision : Nat
  deadlineMonotonic : Nat
  binding : Binding
  guestRequest : Text
  receivePartial : Option State
deriving Repr, DecidableEq

/-- `_continuity`: what the last resume or append has left. -/
structure Continuity where
  verifiedOffset : Nat
  chunkCount : Nat
  ledgerBytes : Nat
  part : Info
  ledger : Info
deriving Repr, DecidableEq

structure Disk where
  device : Nat
  directory : Option DirectoryIdentity
  part : Option FileNode
  ledger : Option FileNode
  journal : Journal
  continuity : Option Continuity
deriving Repr, DecidableEq

/-- The object: its binding, what its request stands for, and the account of the
    journal against its state budget. -/
structure Config where
  binding : Binding
  guestRequest : Text
  budget : GuestTask.TaskBudget
  journalFits : Nat → State → Bool

abbrev Host (α : Type) := Effect Failure Disk α

def reject {α : Type} (code : String) : Host α := raise (.error code)

def rejectIf (c : Prop) [Decidable c] (code : String) : Host Unit := raiseIf c (.error code)

/-- `except OSError: raise Error("partial_io_failed")`. -/
def withIo {α : Type} (m : Host α) : Host α :=
  handle m (fun f => match f with
    | .osError => reject "partial_io_failed"
    | .error code => reject code)

variable (cfg : Config)

/-! ## The journal -/

/-- `Budget.check`. -/
def budgetCheck (deadline : Nat) : Host Unit := do
  rejectIf (cfg.budget.maxFiles = 0 ∨ cfg.budget.maxMetadataBytes = 0 ∨
    cfg.budget.maxPackageBytes = 0) "invalid_budget"
  let now ← monotonic
  rejectIf (deadline ≤ now) "deadline_exceeded"

/-- `Budget.space`. -/
def space (deadline required : Nat) : Host Unit := do
  budgetCheck cfg deadline
  let free ← handle freeSpace (fun f => match f with
    | .osError => reject "disk_probe_failed"
    | .error code => reject code)
  rejectIf (free < required + cfg.budget.minFreeBytes) "disk_budget_exceeded"

/-- `_load`: the journal under the writer, for the binding of this object. -/
def load : Host Journal := do
  probe
  let d ← getDisk
  rejectIf (d.journal.binding ≠ cfg.binding ∨ d.journal.guestRequest ≠ cfg.guestRequest)
    "partial_binding_conflict"
  let now ← monotonic
  rejectIf (d.journal.deadlineMonotonic ≤ now) "invalid_deadline"
  budgetCheck cfg d.journal.deadlineMonotonic
  rejectIf (cfg.binding.packageSize > cfg.budget.maxPackageBytes) "package_budget_exceeded"
  pure d.journal

/-- The read of the journal's `_commit` after a failed write; `none` when refused. -/
def readBack : Host (Option Journal) :=
  handle (do probe; let d ← getDisk; pure (some d.journal)) (fun _ => pure none)

/-- How the journal's `_commit` reports a failure, by what it reads back. -/
def classifyCommit (new : Journal) (observed : Option Journal) : Failure :=
  match observed with
  | none => .error "storage_reconcile_required"
  | some observed =>
      if observed = new then .error "storage_durability_unknown"
      else if observed.revision < new.revision then .error "storage_write_failed"
      else .error "storage_reconcile_required"

/-- `journal.save`, with `_commit`. -/
def journalSave (expected : Nat) (new : Journal) (s : State) : Host Unit := do
  probe
  let d ← getDisk
  rejectIf (d.journal.revision ≠ expected) "stale_revision"
  rejectIf (cfg.journalFits new.revision s = false) "state_budget_exceeded"
  probe
  replaceRecord (fun d => { d with journal := new }) readBack (classifyCommit new)

/-- `_save` of a state on the journal that was loaded. -/
def save (envelope : Journal) (s : State) : Host Unit := do
  probe
  let d ← getDisk
  rejectIf (d.journal.revision ≠ envelope.revision ∨
    d.journal.receivePartial ≠ envelope.receivePartial) "stale_revision"
  journalSave cfg d.journal.revision
    { d.journal with revision := d.journal.revision + 1, receivePartial := some s } s

/-! ## The registered files -/

/-- `_state`: the checks on a stored state. -/
def State.Valid (s : State) : Prop :=
  s.verifiedOffset ≤ cfg.binding.packageSize ∧
    (s.part.isSome = true ↔ s.phase ≠ .directory) ∧ (s.ledger.isSome = true ↔ s.phase = .ready) ∧
    (s.phase ≠ .ready → s.verifiedOffset = 0 ∧ s.chunkCount = 0 ∧ s.ledgerBytes = 0)

instance (s : State) : Decidable (s.Valid cfg) := inferInstanceAs (Decidable (_ ∧ _))

/-- `_ready`: the state, which must have reached READY. -/
def ready (envelope : Journal) : Host State :=
  match envelope.receivePartial with
  | none => reject "partial_not_initialized"
  | some s => do
      rejectIf (¬ s.Valid cfg) "partial_state_invalid"
      rejectIf (s.phase ≠ .ready) "partial_not_initialized"
      pure s

/-- `_check_owned`: the registered directory and files, by device and inode. -/
def checkOwned (s : State) : Host (FileNode × FileNode) := do
  probe
  let d ← getDisk
  rejectIf (d.directory ≠ some s.directory) "partial_ownership_conflict"
  match s.part, s.ledger, d.part, d.ledger with
  | some part, some ledger, some p, some l => do
      rejectIf (part.device ≠ d.device ∨ part.inode ≠ p.inode ∨ ledger.device ≠ d.device ∨
        ledger.inode ≠ l.inode) "partial_ownership_conflict"
      pure (p, l)
  | _, _, _, _ => reject "partial_ownership_conflict"

/-- The files must still be those that were opened. -/
def checkSame (p l : FileNode) : Host Unit := do
  probe
  let d ← getDisk
  rejectIf (d.part ≠ some p ∨ d.ledger ≠ some l) "partial_changed"

def setContinuity (c : Continuity) : Host Unit := setDisk (fun d => { d with continuity := some c })

/-- The continuity of a state with two files. -/
def continuityOf (device : Nat) (s : State) (p l : FileNode) : Continuity :=
  { verifiedOffset := s.verifiedOffset, chunkCount := s.chunkCount, ledgerBytes := s.ledgerBytes
    part := p.info device, ledger := l.info device }

/-- The state with the present identities of its files. -/
def State.register (s : State) (device : Nat) (p l : FileNode) : State :=
  { s with part := some (p.info device), ledger := some (l.info device) }

structure Response where
  verifiedOffset : Nat
  chunkCount : Nat
  directory : DirectoryIdentity
  part : Option Info
  ledger : Option Info
deriving Repr, DecidableEq

def respond (s : State) : Response :=
  { verifiedOffset := s.verifiedOffset, chunkCount := s.chunkCount, directory := s.directory
    part := s.part, ledger := s.ledger }

/-! ## Resuming -/

/-- `_BLOCK`. -/
def block : Nat := 2 ^ 20

/-- The loop that reads the bytes of one record, piece by piece; every piece has a
    byte, so `fuel` equal to the bytes left is enough. -/
def readPieces (deadline : Nat) : Nat → Nat → Bytes → Host Bytes
  | 0, _, _ => pure []
  | fuel + 1, left, data =>
      if left = 0 then pure []
      else do
        budgetCheck cfg deadline
        let piece := data.take (min left block)
        rejectIf (piece = []) "partial_corrupt"
        let rest ← readPieces deadline fuel (left - piece.length) (data.drop piece.length)
        pure (piece ++ rest)

/-- The loop over the acknowledged records: position in the package and in the
    ledger, and what is left of both. -/
def readLedger (deadline : Nat) (s : State) : Nat → Nat → Nat → Bytes → Bytes → Host (Nat × Nat)
  | 0, position, ledgerPosition, _, _ => pure (position, ledgerPosition)
  | n + 1, position, ledgerPosition, records, data => do
      budgetCheck cfg deadline
      let line := readline 257 records
      let ledgerPosition := ledgerPosition + line.length
      rejectIf (line.length > 256 ∨ line.getLast? ≠ some 10 ∨ ledgerPosition > s.ledgerBytes)
        "partial_corrupt"
      match loads line with
      | .error _ => reject "partial_corrupt"
      | .ok v =>
          match recordOf .size v with
          | none => reject "partial_corrupt"
          | some r => do
              rejectIf (r.offset ≠ position ∨ r.count > cfg.budget.maxChunkBytes ∨
                isHex r.sha256 = false ∨ jsonLine v ≠ line) "partial_corrupt"
              let chunk ← readPieces cfg deadline r.count r.count data
              rejectIf (hexdigest chunk ≠ r.sha256) "partial_corrupt"
              readLedger deadline s n (position + r.count) ledgerPosition
                (records.drop line.length) (data.drop r.count)

def truncatePart (size : Nat) : Host Unit :=
  allOrNothing (fun stamp d => { d with part := d.part.map (fun f => f.truncate size stamp) })

def truncateLedger (size : Nat) : Host Unit :=
  allOrNothing (fun stamp d => { d with ledger := d.ledger.map (fun f => f.truncate size stamp) })

/-- Cut the unacknowledged tails off. -/
def discardTails (p l : FileNode) (position ledgerPosition : Nat) : Host Unit :=
  whenever (p.bytes.length > position ∨ l.bytes.length > ledgerPosition) (do
    probe
    withIo (do
      whenever (p.bytes.length > position) (truncatePart position)
      whenever (l.bytes.length > ledgerPosition) (truncateLedger ledgerPosition)))

/-- `resume`. -/
def resume : Host Response := do
  let envelope ← load cfg
  let s ← ready cfg envelope
  let (p, l) ← checkOwned s
  rejectIf (p.bytes.length < s.verifiedOffset ∨ l.bytes.length < s.ledgerBytes) "partial_corrupt"
  rejectIf (s.ledgerBytes > cfg.budget.maxMetadataBytes) "metadata_budget_exceeded"
  probe
  let (position, ledgerPosition) ← withIo (do
    let (position, ledgerPosition) ←
      readLedger cfg envelope.deadlineMonotonic s s.chunkCount 0 0 l.bytes p.bytes
    rejectIf (position ≠ s.verifiedOffset ∨ ledgerPosition ≠ s.ledgerBytes) "partial_corrupt"
    checkSame p l
    pure (position, ledgerPosition))
  budgetCheck cfg envelope.deadlineMonotonic
  discardTails p l position ledgerPosition
  let (p', l') ← checkOwned s
  let d ← getDisk
  let s' := s.register d.device p' l'
  whenever (some s' ≠ envelope.receivePartial) (budgetCheck cfg envelope.deadlineMonotonic)
  save cfg envelope s'
  setContinuity (continuityOf d.device s' p' l')
  pure (respond s')

/-! ## Appending -/

/-- `os.lseek` and `os.write` at a position; a fault lets a prefix through. -/
def writePart (position : Nat) (data : Bytes) : Host Unit := do
  raiseIf (position + data.length > maxFileSize) .osError
  effect (fun progress stamp d =>
    { d with part := d.part.map (fun f => f.writeAt position (written progress data) stamp) })

def writeLedger (position : Nat) (data : Bytes) : Host Unit := do
  raiseIf (position + data.length > maxFileSize) .osError
  effect (fun progress stamp d =>
    { d with ledger := d.ledger.map (fun f => f.writeAt position (written progress data) stamp) })

/-- `record["offset"] == offset`. -/
def isOffset (offset : Nat) : Json → Bool
  | .int o => o == offset
  | _ => false

/-- The loop of `_replay` over the acknowledged records. -/
def findReplay (deadline : Nat) (s : State) (p l : FileNode) (r : Record) (data : Bytes) :
    Nat → Bytes → Host Response
  | 0, _ => reject "chunk_offset_conflict"
  | n + 1, records => do
      budgetCheck cfg deadline
      let line := readline 257 records
      rejectIf (line.length > 256) "partial_corrupt"
      match loads line with
      | .error _ => reject "partial_corrupt"
      | .ok v =>
          match field (ascii "offset") v with
          | none => reject "partial_corrupt"
          | some o =>
              if isOffset r.offset o then do
                rejectIf (dumps v ≠ dumps (r.toJson .size)) "chunk_replay_conflict"
                rejectIf ((p.bytes.drop r.offset).take data.length ≠ data) "chunk_replay_conflict"
                checkSame p l
                pure (respond s)
              else findReplay deadline s p l r data n (records.drop line.length)

/-- `_replay` of an acknowledged chunk. -/
def replay (deadline : Nat) (s : State) (offset : Nat) (data : Bytes) (sha : Text) :
    Host Response := do
  let (p, l) ← checkOwned s
  let d ← getDisk
  rejectIf (some (continuityOf d.device s p l) ≠ d.continuity) "partial_changed"
  probe
  handle (findReplay cfg deadline s p l ⟨offset, data.length, sha⟩ data s.chunkCount l.bytes)
    (fun f => match f with
      | .osError => reject "partial_corrupt"
      | .error code => reject code)

/-- The journal and the state behind a resume. -/
def resumed : Host (Journal × State) := do
  let _ ← resume cfg
  let envelope ← load cfg
  let s ← ready cfg envelope
  pure (envelope, s)

/-- `if self._continuity is None`: a first append of a process resumes. -/
def continued (continuity : Option Continuity) (envelope : Journal) (s : State) :
    Host (Journal × State) :=
  if continuity = none then resumed cfg else pure (envelope, s)

/-- The state and its files under a fresh continuity; an outdated one makes
    `append` resume, too. -/
def refresh (envelope : Journal) (s : State) : Host (Journal × State × FileNode × FileNode) := do
  let d ← getDisk
  let (envelope, s) ← continued cfg d.continuity envelope s
  let (p, l) ← checkOwned s
  let d ← getDisk
  if some (continuityOf d.device s p l) = d.continuity then pure (envelope, s, p, l)
  else do
    let (envelope, s) ← resumed cfg
    let (p, l) ← checkOwned s
    pure (envelope, s, p, l)

/-- The state after an appended chunk. -/
def State.extend (s : State) (count lineLength : Nat) : State :=
  { s with
    verifiedOffset := s.verifiedOffset + count, chunkCount := s.chunkCount + 1
    ledgerBytes := s.ledgerBytes + lineLength }

/-- The files behind a write, which must still be the registered ones. -/
def checkWritten : Host (FileNode × FileNode) := do
  probe
  let d ← getDisk
  match d.part, d.ledger with
  | some p, some l => pure (p, l)
  | _, _ => reject "partial_changed"

/-- Write a chunk and its record behind what is acknowledged, and journal it. -/
def store (envelope : Journal) (s : State) (p l : FileNode) (data line : Bytes) :
    Host Response := do
  probe
  let (p', l') ← withIo (do
    rejectIf (p.bytes.length ≠ s.verifiedOffset ∨ l.bytes.length ≠ s.ledgerBytes) "partial_changed"
    writePart s.verifiedOffset data
    writeLedger s.ledgerBytes line
    checkWritten)
  let d ← getDisk
  let s' := (s.extend data.length line.length).register d.device p' l'
  budgetCheck cfg envelope.deadlineMonotonic
  save cfg envelope s'
  setContinuity (continuityOf d.device s' p' l')
  pure (respond s')

/-- `append` of a chunk at an offset. -/
def append (offset : Nat) (data : Bytes) (sha : Text) : Host Response := do
  rejectIf (data = [] ∨ isHex sha = false) "invalid_chunk"
  let envelope ← load cfg
  let s ← ready cfg envelope
  rejectIf (data.length > cfg.budget.maxChunkBytes ∨ offset + data.length > cfg.binding.packageSize)
    "chunk_budget_exceeded"
  rejectIf (hexdigest data ≠ sha) "chunk_hash_mismatch"
  let (envelope, s, p, l) ← refresh cfg envelope s
  if offset < s.verifiedOffset then replay cfg envelope.deadlineMonotonic s offset data sha
  else do
    rejectIf (offset ≠ s.verifiedOffset) "chunk_offset_conflict"
    let line := Record.line .size ⟨offset, data.length, sha⟩
    rejectIf (s.ledgerBytes + line.length > cfg.budget.maxMetadataBytes) "metadata_budget_exceeded"
    space cfg envelope.deadlineMonotonic (data.length + line.length)
    store cfg envelope s p l data line

/-! ## Verifying -/

/-- The loop that reads the whole package until its end; one more round than bytes
    is enough. -/
def readWhole (deadline : Nat) : Nat → Bytes → Host Bytes
  | 0, _ => pure []
  | fuel + 1, data => do
      budgetCheck cfg deadline
      let piece := data.take block
      if piece = [] then pure []
      else do
        let rest ← readWhole deadline fuel (data.drop piece.length)
        pure (piece ++ rest)

structure Verified where
  size : Nat
  sha256 : Text
  expectedManifestSha256 : Text
deriving Repr, DecidableEq

/-- `verify`: the complete package has the size and the digest of the binding. -/
def verify : Host Verified := do
  let (envelope, s) ← resumed cfg
  rejectIf (s.verifiedOffset ≠ cfg.binding.packageSize) "package_incomplete"
  let (p, l) ← checkOwned s
  probe
  let content ← withIo (do
    let content ← readWhole cfg envelope.deadlineMonotonic (p.bytes.length + 1) p.bytes
    checkSame p l
    pure content)
  budgetCheck cfg envelope.deadlineMonotonic
  rejectIf (p.bytes.length ≠ cfg.binding.packageSize ∨ content.length ≠ p.bytes.length)
    "package_size_mismatch"
  rejectIf (hexdigest content ≠ cfg.binding.packageSha256) "package_hash_mismatch"
  pure { size := p.bytes.length, sha256 := hexdigest content
         expectedManifestSha256 := cfg.binding.manifestSha256 }

end HostPartial
