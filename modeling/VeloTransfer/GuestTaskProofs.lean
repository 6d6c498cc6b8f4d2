import VeloTransfer.FaultScriptProofs
import VeloTransfer.ChunkLogProofs
import VeloTransfer.Base64Proofs
import VeloTransfer.GuestTerminalProofs

/-! # The guest task of a push — durable state and chunk reception

    The durable side of one push task in the guest: the protected task state,
    the received package `received.part` and its ledger `chunks.jsonl`, and the
    worker lease.  `transferChunk` and `transferChunks` are the two reception
    calls, `transferBegin` is the repeated begin of an existing task, which
    starts the `verify_partial` worker `runVerifyPartial`.

    Every outside check, every read and every durable effect is a step of the
    fault script.  Times are monotonic ticks. -/

namespace GuestTask

open EffectPrograms Program FaultScript FileNodes ChunkLog CanonicalJson JsonLine Sha256 GuestTerminal

/-- The `budget` of a request. -/
structure TaskBudget where
  maxFiles : Nat
  maxMetadataBytes : Nat
  maxLogicalBytes : Nat
  maxPackageBytes : Nat
  minFreeBytes : Nat
  maxChunkBytes : Nat
deriving Repr, DecidableEq

/-- The fields of a push request that reception reads. -/
structure Request where
  transferId : Text
  requestDigest : Text
  expectedDestination : Destination
  vmUuid : Text
  bootIdentity : Text
  vmEpoch : Text
  budget : TaskBudget
deriving Repr, DecidableEq

structure Package where
  size : Nat
  sha256 : Text
  manifestSha256 : Text
deriving Repr, DecidableEq

/-- `partial_identity`: the protected identity of the two reception files. -/
structure Fingerprint where
  offset : Nat
  chunkCount : Nat
  part : Info
  ledger : Info
deriving Repr, DecidableEq

inductive Job where
  | package
  | verifyPartial
  | prepare
  | commit
  | release
deriving Repr, DecidableEq

/-- The registered worker of a task. -/
structure Owner where
  job : Job
  nonce : Text
  pid : Nat
  birth : Nat
  stopped : Bool
deriving Repr, DecidableEq

/-- `prefix_verification`: the proof that a `verify_partial` worker leaves. -/
structure PrefixVerification where
  requestDigest : Text
  workerNonce : Text
  verifiedOffset : Nat
  chunkCount : Nat
  ledgerSha256 : Text
deriving Repr, DecidableEq

/-- The protected task state of a push. -/
structure TaskState where
  request : Request
  deadlineMonotonic : Nat
  phase : Phase
  package : Package
  offset : Nat
  chunkCount : Nat
  partialIdentity : Option Fingerprint
  terminal : Option Terminal
  owner : Option Owner
  cancelled : Bool
  error : Option String
  prefixVerification : Option PrefixVerification
deriving Repr, DecidableEq

/-- The stored task: its state under a revision. -/
structure Envelope where
  revision : Nat
  state : TaskState
deriving Repr, DecidableEq

/-- What the guest holds durably for the task; `part` is `received.part`,
    `ledger` is `chunks.jsonl`, `active` is the worker lease. -/
structure Disk where
  device : Nat
  nextInode : Nat
  part : Option FileNode
  ledger : Option FileNode
  store : Envelope
  active : Option Owner
deriving Repr, DecidableEq

/-- The guest policy.  `stateFits` is the account of `_validate_json` against
    `max_state_bytes`, for the envelope of a revision and a state. -/
structure Policy where
  policyId : Text
  maxChunkBytes : Nat
  maxBatchChunks : Option Nat
  stateFits : Nat → TaskState → Bool

abbrev Guest (α : Type) := Effect Failure Disk α

def reject (code : String) : Guest α := raise (.error code)

def rejectIf (c : Prop) [Decidable c] (code : String) : Guest Unit := raiseIf c (.error code)

/-! ## Files -/

/-- `_atomic_sidecar(partial, b"")`: create `received.part`, which must not exist. -/
def createPart : Guest Unit := do
  probe
  let d ← getDisk
  raiseIf d.part.isSome .osError
  allOrNothing (fun stamp d =>
    { d with part := some (newFile d.nextInode stamp), nextInode := d.nextInode + 1 })

/-- `_atomic_sidecar(ledger, b"")`. -/
def createLedger : Guest Unit := do
  probe
  let d ← getDisk
  raiseIf d.ledger.isSome .osError
  allOrNothing (fun stamp d =>
    { d with ledger := some (newFile d.nextInode stamp), nextInode := d.nextInode + 1 })

/-- `open("r+b")`, seek and write: a fault lets a prefix through. -/
def writePart (position : Nat) (data : Bytes) : Guest Unit := do
  raiseIf (position + data.length > maxFileSize) .osError
  effect (fun progress stamp d =>
    { d with part := d.part.map (fun f => f.writeAt position (written progress data) stamp) })

/-- `open("ab")` and write. -/
def appendLedger (data : Bytes) : Guest Unit := do
  let d ← getDisk
  raiseIf ((d.ledger.elim 0 (fun f => f.bytes.length)) + data.length > maxFileSize) .osError
  effect (fun progress stamp d =>
    { d with ledger :=
        d.ledger.map (fun f => f.writeAt f.bytes.length (written progress data) stamp) })

def truncatePart (size : Nat) : Guest Unit :=
  allOrNothing (fun stamp d => { d with part := d.part.map (fun f => f.truncate size stamp) })

def truncateLedger (size : Nat) : Guest Unit :=
  allOrNothing (fun stamp d => { d with ledger := d.ledger.map (fun f => f.truncate size stamp) })

/-! ## The task store -/

/-- `_load`: the stored task, for the transfer and the digest of the caller. -/
def load (transferId digest : Text) : Guest Envelope := do
  probe
  let d ← getDisk
  rejectIf (d.store.state.request.transferId ≠ transferId) "task_not_found"
  rejectIf (d.store.state.request.requestDigest ≠ digest) "task_binding_conflict"
  pure d.store

/-- `_guest_prefix`: a stored proof must fit the state it is stored with. -/
def guestPrefix (s : TaskState) : Bool :=
  match s.prefixVerification with
  | none => true
  | some proof =>
      isHex proof.requestDigest && isHex proof.ledgerSha256 &&
      proof.requestDigest == s.request.requestDigest && proof.verifiedOffset == s.offset &&
      proof.chunkCount == s.chunkCount && proof.workerNonce != [] &&
      (match s.owner with
       | some o => o.job == .verifyPartial && o.nonce == proof.workerNonce
       | none => false) &&
      !s.cancelled && s.error.isNone

/-- `_encode`: the checks that an envelope passes before it is written. -/
def encode (policy : Policy) (revision : Nat) (s : TaskState) : Guest Unit := do
  rejectIf (guestPrefix s = false) "invalid_state"
  rejectIf (policy.stateFits revision s = false) "state_budget_exceeded"
  probe

/-- The read of `_commit` after a failed write; `none` when it is refused. -/
def readBack : Guest (Option Envelope) :=
  handle (do probe; let d ← getDisk; pure (some d.store))
    (fun f => match f with
      | .error _ => pure none
      | .osError => raise .osError)

/-- How `_commit` reports a failure, by what it reads back. -/
def classifyCommit (new : Envelope) (observed : Option Envelope) : Failure :=
  match observed with
  | none => .error "storage_reconcile_required"
  | some observed =>
      if observed = new then .error "storage_durability_unknown"
      else if observed.revision < new.revision then .error "storage_write_failed"
      else .error "storage_reconcile_required"

/-- `_commit`: replace the state file; a failure is classified by what is read back. -/
def commit (new : Envelope) : Guest Unit := do
  probe
  replaceRecord (fun d => { d with store := new }) readBack (classifyCommit new)

/-- The state that `_save` writes: no proof beside a cancellation or an error. -/
def TaskState.saved (s : TaskState) : TaskState :=
  if s.cancelled ∨ s.error.isSome then { s with prefixVerification := none } else s

/-- `_save` on the envelope that was loaded. -/
def save (policy : Policy) (envelope : Envelope) (s : TaskState) : Guest Envelope := do
  probe
  let d ← getDisk
  rejectIf (d.store.revision ≠ envelope.revision) "stale_revision"
  encode policy (envelope.revision + 1) s.saved
  commit { revision := envelope.revision + 1, state := s.saved }
  pure { revision := envelope.revision + 1, state := s.saved }

/-- `store.save(_LEASE_ID, …, {"active": None})`. -/
def clearLease : Guest Unit :=
  allOrNothing (fun _ d => { d with active := none })

/-- `_check_idle`: no live worker owns the lease; a dead owner's lease is cleared. -/
def checkIdle : Guest Unit := do
  probe
  let d ← getDisk
  match d.active with
  | none => pure ()
  | some _ => do
      let alive ← observe
      rejectIf (alive ≠ 0) "worker_busy"
      probe
      clearLease

/-! ## Budgets -/

/-- How often a budget rereads the stored state for a cancellation. -/
inductive CancelCheck where
  | never
  | always
  | throttled
deriving Repr, DecidableEq

/-- Whether a check rereads the state: a throttled one does after enough time. -/
def cancelDue : CancelCheck → Guest Bool
  | .never => pure false
  | .always => pure true
  | .throttled => do
      let elapsed ← observe
      pure (elapsed ≠ 0)

/-- `check_cancel`. -/
def checkCancel (s : TaskState) (cancel : CancelCheck) : Guest Unit := do
  let due ← cancelDue cancel
  if due = true then do
    let e ← load s.request.transferId s.request.requestDigest
    rejectIf e.state.cancelled "transfer_cancelled"
  else pure ()

/-- `Budget.check` of the task's budget. -/
def budgetCheck (s : TaskState) (cancel : CancelCheck) : Guest Unit := do
  rejectIf (s.request.budget.maxFiles = 0 ∨ s.request.budget.maxMetadataBytes = 0 ∨
    s.request.budget.maxPackageBytes = 0) "invalid_budget"
  let now ← monotonic
  rejectIf (s.deadlineMonotonic ≤ now) "deadline_exceeded"
  checkCancel s cancel

/-- `Budget.space`. -/
def space (s : TaskState) (cancel : CancelCheck) (required : Nat) : Guest Unit := do
  budgetCheck s cancel
  let free ← handle freeSpace (fun f => match f with
    | .osError => reject "disk_probe_failed"
    | .error code => reject code)
  rejectIf (free < required + s.request.budget.minFreeBytes) "disk_budget_exceeded"

/-- `_strict_json`. -/
def strictJson (raw : Bytes) (maximum : Nat) : Guest Json := do
  rejectIf (raw.length > maximum) "metadata_budget_exceeded"
  match loads raw with
  | .ok v => pure v
  | .error .duplicateKey => reject "duplicate_json_key"
  | .error .syntaxError => reject "invalid_json"

/-! ## The protected prefix -/

def fingerprint (d : Disk) (s : TaskState) (p l : FileNode) : Fingerprint :=
  { offset := s.offset, chunkCount := s.chunkCount
    part := p.info d.device, ledger := l.info d.device }

/-- `_partial_fingerprint(state, _no_link(partial), _no_link(ledger))`. -/
def partialFingerprint (s : TaskState) : Guest Fingerprint := do
  probe
  let d ← getDisk
  match d.part, d.ledger with
  | some p, some l => pure (fingerprint d s p l)
  | _, _ => reject "source_unavailable"

/-- The files must still have the fingerprint that was expected. -/
def checkFingerprint (s : TaskState) (expected : Option Fingerprint) : Guest Unit := do
  let now ← partialFingerprint s
  rejectIf (some now ≠ expected) "partial_changed"

/-- The loop over the acknowledged records: position, ledger bytes read so far,
    and what is left of the ledger and of the package. -/
def verifyRecords (s : TaskState) (cancel : CancelCheck) :
    Nat → Nat → Bytes → Bytes → Bytes → Guest (Nat × Bytes)
  | 0, position, seen, _, _ => pure (position, seen)
  | n + 1, position, seen, records, data => do
      budgetCheck s cancel
      probe
      let v ← strictJson (readline 256 records) 255
      match recordOf .count v with
      | none => reject "partial_corrupt"
      | some r => do
          rejectIf (r.offset ≠ position ∨ r.count > s.request.budget.maxChunkBytes ∨
            isHex r.sha256 = false) "partial_corrupt"
          rejectIf ((data.take r.count).length ≠ r.count ∨ hexdigest (data.take r.count) ≠ r.sha256)
            "partial_corrupt"
          verifyRecords s cancel n (position + r.count) (seen ++ readline 256 records)
            (records.drop (readline 256 records).length) (data.drop r.count)

/-- `_verified_partial`: the ledger digest (absent when the protected identity
    was enough) and the state with its refreshed identity. -/
def verifiedPartial (s : TaskState) (force shortCall : Bool) (cancel : CancelCheck) :
    Guest (Option Text × TaskState) := do
  budgetCheck s cancel
  let d ← getDisk
  if d.part = none ∧ d.ledger = none ∧ s.offset = 0 ∧ s.chunkCount = 0 ∧
      s.partialIdentity = none then
    pure (some (hexdigest []), s)
  else do
    probe
    match d.part, d.ledger with
    | some p, some l => do
        rejectIf (p.bytes.length < s.offset) "partial_corrupt"
        match s.partialIdentity with
        | none => reject "partial_changed"
        | some owned => do
            rejectIf (owned.part.device ≠ d.device ∨ owned.part.inode ≠ p.inode ∨
              owned.ledger.device ≠ d.device ∨ owned.ledger.inode ≠ l.inode) "partial_changed"
            if force = false ∧ owned = fingerprint d s p l then pure (none, s)
            else do
              rejectIf (shortCall = true ∧ (s.offset > 2 ^ 20 ∨ s.chunkCount > 1024))
                "partial_verification_required"
              rejectIf (l.bytes.length > s.request.budget.maxMetadataBytes)
                "metadata_budget_exceeded"
              let (position, seen) ← verifyRecords s cancel s.chunkCount 0 [] l.bytes p.bytes
              rejectIf (position ≠ s.offset) "partial_corrupt"
              budgetCheck s cancel
              let again ← partialFingerprint s
              rejectIf (again ≠ fingerprint d s p l) "partial_changed"
              whenever (p.bytes.length > s.offset) (truncatePart s.offset)
              whenever (l.bytes.length > seen.length) (truncateLedger seen.length)
              let now ← partialFingerprint s
              pure (some (hexdigest seen), { s with partialIdentity := some now })
    | _, _ => reject "source_unavailable"

/-! ## Reception -/

/-- A `transfer_chunk` request as it arrives; texts are absent when they are no `str`. -/
structure ChunkCall where
  transferId : Text
  requestDigest : Text
  offset : Int
  count : Int
  dataBase64 : Option Text
  chunkSha256 : Option Text
deriving Repr, DecidableEq

structure ChunkReply where
  verifiedOffset : Nat
  replayed : Bool
deriving Repr, DecidableEq

/-- `min(1 << 20, budget, policy)`. -/
def maximumChunk (policy : Policy) (s : TaskState) : Nat :=
  min (2 ^ 20) (min s.request.budget.maxChunkBytes policy.maxChunkBytes)

/-- The texts of a chunk: a bounded `str` and a digest. -/
def chunkTexts (limit : Nat) (data sha : Option Text) : Guest (Text × Text) :=
  match data, sha with
  | some data, some sha => do
      rejectIf (data.length > 4 * ((limit + 2) / 3) ∨ isHex sha = false) "invalid_chunk"
      pure (data, sha)
  | _, _ => reject "invalid_chunk"

/-- The bytes of a chunk, whose count and digest must agree with them. -/
def decodeChunk (count : Nat) (data sha : Text) : Guest Bytes :=
  match Base64.decode data with
  | none => reject "invalid_chunk"
  | some raw => do
      rejectIf (raw.length ≠ count ∨ hexdigest raw ≠ sha) "chunk_hash_mismatch"
      pure raw

def protocolBinding (policy : Policy) (s : TaskState) : Binding :=
  { transferId := s.request.transferId, requestDigest := s.request.requestDigest
    direction := .push, vmUuid := s.request.vmUuid, bootIdentity := s.request.bootIdentity
    vmEpoch := s.request.vmEpoch, policyId := policy.policyId, packageSize := s.package.size
    packageSha256 := s.package.sha256, manifestSha256 := s.package.manifestSha256 }

/-- The state after chunks were acknowledged up to a new offset. -/
def TaskState.advance (policy : Policy) (s : TaskState) (offset chunkCount : Nat) : TaskState :=
  if offset = s.package.size then
    { s with offset := offset, chunkCount := chunkCount, phase := .destReceived
             terminal := some (Terminal.new (protocolBinding policy s) s.request.expectedDestination) }
  else { s with offset := offset, chunkCount := chunkCount }

/-- The ledger's size, or zero before it exists. -/
def ledgerSize (d : Disk) : Nat := d.ledger.elim 0 (fun f => f.bytes.length)

/-- `if not partial.exists()`: create both files. -/
def createFiles : Guest Unit := do
  let d ← getDisk
  if d.part = none then do
    createPart
    createLedger
  else pure ()

/-- The state with a fresh protected identity. -/
def TaskState.pin (s : TaskState) (f : Fingerprint) : TaskState :=
  { s with partialIdentity := some f }

/-- The durable end of both reception calls: pin the identity, write the bytes,
    append the records, save the advanced state.  `writes` are the data writes
    and `appends` the ledger writes, each after the check `before`. -/
def acknowledge (policy : Policy) (fresh : Envelope) (s : TaskState) (before : Guest Unit)
    (position : Nat) (writes appends : List Bytes) : Guest TaskState := do
  let pinned ← partialFingerprint s
  let fresh' ← save policy fresh (s.pin pinned)
  writeAll before position writes
  appendAll before appends
  let s' := (s.pin pinned).advance policy (position + writes.flatten.length)
    (s.chunkCount + appends.length)
  let now ← partialFingerprint s'
  let _ ← save policy fresh' (s'.pin now)
  pure s'
where
  /-- `for …: output.write(data)` from a position on. -/
  writeAll (before : Guest Unit) (position : Nat) : List Bytes → Guest Unit
    | [] => pure ()
    | data :: rest => do
        before
        writePart position data
        writeAll before (position + data.length) rest
  appendAll (before : Guest Unit) : List Bytes → Guest Unit
    | [] => pure ()
    | line :: rest => do
        before
        appendLedger line
        appendAll before rest

/-- `transfer_chunk` of a push task. -/
def transferChunk (policy : Policy) (c : ChunkCall) : Guest ChunkReply := do
  rejectIf (c.count ≤ 0 ∨ c.offset < 0) "invalid_chunk_range"
  let offset := c.offset.toNat
  let count := c.count.toNat
  probe
  let envelope ← load c.transferId c.requestDigest
  let maximum := maximumChunk policy envelope.state
  let now ← monotonic
  rejectIf (count > maximum ∨ envelope.state.deadlineMonotonic ≤ now) "chunk_budget_or_deadline"
  rejectIf envelope.state.cancelled "transfer_cancelled"
  let (text, sha) ← chunkTexts maximum c.dataBase64 c.chunkSha256
  let data ← decodeChunk count text sha
  -- the writer transaction
  probe
  let fresh ← load c.transferId c.requestDigest
  rejectIf fresh.state.cancelled "transfer_cancelled"
  checkIdle
  rejectIf (fresh.state.phase ≠ .destReceiving ∧ fresh.state.phase ≠ .destReceived)
    "chunk_precondition_failed"
  rejectIf (offset + count > fresh.state.package.size) "invalid_chunk_range"
  let (_, s) ← verifiedPartial fresh.state false true .never
  if offset < s.offset then do
    rejectIf (offset + count > s.offset) "chunk_offset_conflict"
    probe
    let d ← getDisk
    rejectIf (((d.part.elim [] FileNode.bytes).drop offset).take count ≠ data) "chunk_conflict"
    pure { verifiedOffset := s.offset, replayed := true }
  else do
    rejectIf (offset ≠ s.offset ∨ s.phase ≠ .destReceiving) "chunk_offset_conflict"
    let line := Record.line .count { offset := offset, count := count, sha256 := sha }
    let d ← getDisk
    rejectIf (ledgerSize d + line.length > s.request.budget.maxMetadataBytes)
      "metadata_budget_exceeded"
    space s .never (count + line.length)
    createFiles
    let s' ← acknowledge policy fresh { s with prefixVerification := none } (pure ()) offset
      [data] [line]
    pure { verifiedOffset := s'.offset, replayed := false }

/-- One item of a `transfer_chunks` request; absent when it is no such object. -/
structure BatchItem where
  count : Int
  dataBase64 : Option Text
  chunkSha256 : Option Text
deriving Repr, DecidableEq

/-- A `transfer_chunks` request as it arrives. -/
structure BatchCall where
  transferId : Text
  requestDigest : Text
  offset : Int
  chunks : Option (List (Option BatchItem))
  countPerChunk : Option Int
  chunkCount : Option Int
deriving Repr, DecidableEq

structure BatchReply where
  verifiedOffset : Nat
  accepted : Nat
deriving Repr, DecidableEq

/-- The decoded chunks of a batch, checked item by item. -/
def prepareBatch (s : TaskState) (maximum : Nat) :
    Nat → List (Option BatchItem) → Guest (List (Bytes × Text))
  | _, [] => pure []
  | _, none :: _ => reject "invalid_chunk"
  | total, some item :: rest => do
      rejectIf (item.count ≤ 0 ∨ item.count > maximum) "invalid_chunk"
      let count := item.count.toNat
      let (text, sha) ← chunkTexts count item.dataBase64 item.chunkSha256
      rejectIf (total + count > 2 ^ 26) "chunk_budget_or_deadline"
      budgetCheck s .never
      let data ← decodeChunk count text sha
      let prepared ← prepareBatch s maximum (total + count) rest
      pure ((data, sha) :: prepared)

/-- The ledger lines of a batch. -/
def batchLines : Nat → List (Bytes × Text) → List Bytes
  | _, [] => []
  | position, (data, sha) :: rest =>
      Record.line .count { offset := position, count := data.length, sha256 := sha } ::
        batchLines (position + data.length) rest

/-- The number whose width budget-only identities reserve. -/
def reserved : Nat := 2 ^ 128 - 1

def reservedInfo (size : Nat) : Info :=
  { device := reserved, inode := reserved, size := size, mtimeNs := reserved, ctimeNs := reserved }

/-- `reserve_identity`: the widest identity that a later save may carry. -/
def TaskState.reserve (s : TaskState) (partSize metadataSize : Nat) : TaskState :=
  let identity : Fingerprint :=
    { offset := s.offset, chunkCount := s.chunkCount, part := reservedInfo partSize
      ledger := reservedInfo metadataSize }
  { s with partialIdentity := some identity }

/-- The two states that the saves of a batch will write are accounted for first. -/
def encodeProspective (policy : Policy) (fresh : Envelope) (ledgerBytes : Nat)
    (total : Nat) (lines : List Bytes) : Guest Unit := do
  let s := fresh.state
  let first := { s with prefixVerification := none }
  encode policy (fresh.revision + 1) (first.reserve s.offset ledgerBytes)
  let next := { first with offset := s.offset + total, chunkCount := s.chunkCount + lines.length }
  let next := next.reserve (s.offset + total) (ledgerBytes + lines.flatten.length)
  encode policy (fresh.revision + 2)
    (if s.offset + total = s.package.size then
      { next with phase := .destReceived
                  terminal := some (Terminal.new (protocolBinding policy s)
                    s.request.expectedDestination) }
    else next)

/-- `transfer_chunks` of a push task. -/
def transferChunks (policy : Policy) (c : BatchCall) : Guest BatchReply := do
  rejectIf (¬ (0 < policy.maxBatchChunks.getD 0 ∧ policy.maxBatchChunks.getD 0 ≤ 64))
    "batch_not_allowed"
  rejectIf (c.offset < 0) "invalid_chunk_range"
  let offset := c.offset.toNat
  probe
  let envelope ← load c.transferId c.requestDigest
  rejectIf envelope.state.cancelled "transfer_cancelled"
  rejectIf (c.countPerChunk.isSome ∨ c.chunkCount.isSome) "invalid_chunk"
  let items := c.chunks.getD []
  rejectIf (items = [] ∨ items.length > policy.maxBatchChunks.getD 0) "invalid_chunk"
  let prepared ← prepareBatch envelope.state (maximumChunk policy envelope.state) 0 items
  let data := prepared.map Prod.fst
  let total := data.flatten.length
  -- the writer transaction
  probe
  let fresh ← load c.transferId c.requestDigest
  rejectIf fresh.state.cancelled "transfer_cancelled"
  rejectIf (fresh.state.phase ≠ .destReceiving ∧ fresh.state.phase ≠ .destReceived)
    "chunk_precondition_failed"
  rejectIf (offset ≠ fresh.state.offset ∨ fresh.state.phase ≠ .destReceiving)
    "chunk_offset_conflict"
  rejectIf (offset + total > fresh.state.package.size) "invalid_chunk_range"
  let lines := batchLines offset prepared
  probe
  let d ← getDisk
  rejectIf (ledgerSize d + lines.flatten.length > fresh.state.request.budget.maxMetadataBytes)
    "metadata_budget_exceeded"
  space fresh.state .always (total + lines.flatten.length)
  encodeProspective policy fresh (ledgerSize d) total lines
  checkIdle
  let (_, s) ← verifiedPartial fresh.state false true .never
  budgetCheck fresh.state .always
  createFiles
  let s' ← acknowledge policy fresh { s with prefixVerification := none }
    (budgetCheck fresh.state .always) offset data lines
  pure { verifiedOffset := s'.offset, accepted := lines.length }

/-! ## Resuming a task -/

/-- `_launch`: register the worker under the writer, then activate it. -/
def launch (policy : Policy) (transferId digest : Text) (worker : Owner) : Guest Unit := do
  probe
  let envelope ← load transferId digest
  let now ← monotonic
  rejectIf (envelope.state.cancelled ∨ envelope.state.deadlineMonotonic ≤ now)
    "deadline_or_cancelled"
  checkIdle
  probe
  let _ ← save policy envelope
    { envelope.state with owner := some worker, error := none, prefixVerification := none }
  allOrNothing (fun _ d => { d with active := some worker })
  probe

/-- Whether the recorded owner of a task may still be running. -/
def ownerRuns (owner : Option Owner) : Guest Bool :=
  match owner with
  | none => pure false
  | some o =>
      if o.stopped then pure false
      else do
        let alive ← observe
        pure (alive ≠ 0)

/-- `transfer_begin` of an existing push task, up to the launch of its worker. -/
def transferBegin (policy : Policy) (request : Request) (worker : Owner) : Guest Unit := do
  probe
  let existing ← load request.transferId request.requestDigest
  rejectIf (existing.state.request ≠ request) "task_binding_conflict"
  let runs ← ownerRuns existing.state.owner
  if (existing.state.phase = .destReceiving ∨ existing.state.phase = .destReceived) ∧ runs = false
  then launch policy request.transferId request.requestDigest worker
  else pure ()

/-- The `verify_partial` job of `_execute`. -/
def executeVerifyPartial (policy : Policy) (transferId digest : Text) : Guest Unit := do
  let envelope ← load transferId digest
  budgetCheck envelope.state .throttled
  rejectIf envelope.state.cancelled "transfer_cancelled"
  let (ledgerSha, s) ← verifiedPartial envelope.state true false .throttled
  probe
  let fresh ← load transferId digest
  let current := fresh.state
  rejectIf (current.cancelled ∨ current.offset ≠ envelope.state.offset ∨
    current.chunkCount ≠ envelope.state.chunkCount ∨ current.owner ≠ envelope.state.owner ∨
    current.partialIdentity ≠ envelope.state.partialIdentity) "worker_state_changed"
  budgetCheck envelope.state .throttled
  let d ← getDisk
  whenever (current.offset ≠ 0 ∨ d.part.isSome ∨ d.ledger.isSome)
    (checkFingerprint current s.partialIdentity)
  let _ ← save policy fresh
    { current with
      partialIdentity := s.partialIdentity
      prefixVerification := some
        { requestDigest := digest, workerNonce := current.owner.elim [] Owner.nonce
          verifiedOffset := current.offset, chunkCount := current.chunkCount
          ledgerSha256 := ledgerSha.getD [] } }
  pure ()

/-- `_child` for `verify_partial`: take the lease lock, check the ownership, run
    the job; a failure is stored in the task. -/
def runVerifyPartial (policy : Policy) (transferId digest : Text) (worker : Owner) : Guest Unit :=
  handle
    (do
      probe
      let envelope ← load transferId digest
      rejectIf (envelope.state.owner ≠ some worker) "worker_ownership_mismatch"
      executeVerifyPartial policy transferId digest)
    (fun f => do
      probe
      let envelope ← load transferId digest
      if envelope.state.owner.any (fun o => o.nonce == worker.nonce) then do
        let code := match f with
          | .error code => code
          | .osError => "worker_failed"
        let _ ← save policy envelope { envelope.state with error := some code }
        pure ()
      else pure ())

/-- `_reconcile_exit`: a dead owner is recorded as stopped and its lease cleared. -/
def reconcileExit (policy : Policy) (transferId digest : Text) : Guest Unit := do
  let seen ← load transferId digest
  let runs ← ownerRuns seen.state.owner
  if seen.state.owner = none ∨ seen.state.owner.any Owner.stopped ∨ runs = true then pure ()
  else do
    probe
    let fresh ← load transferId digest
    match fresh.state.owner with
    | none => pure ()
    | some saved => do
        probe
        let d ← getDisk
        whenever d.active.isSome (do
          rejectIf (d.active.map Owner.nonce ≠ some saved.nonce) "worker_ownership_mismatch"
          clearLease)
        let now ← monotonic
        let error :=
          if saved.job = .verifyPartial ∧ fresh.state.prefixVerification = none ∧
              fresh.state.error = none then some "worker_result_unknown"
          else if fresh.state.deadlineMonotonic ≤ now ∧ fresh.state.error = none then
            some "deadline_exceeded"
          else fresh.state.error
        let _ ← save policy fresh
          { fresh.state with owner := some { saved with stopped := true }, error := error }
        pure ()

/-- `transfer_status`: reconcile a dead worker, then answer from the stored state,
    whose proof must still fit the files. -/
def transferStatus (policy : Policy) (transferId digest : Text) : Guest TaskState := do
  handle (reconcileExit policy transferId digest)
    (fun f => if f = .error "writer_busy" then pure () else raise f)
  let envelope ← load transferId digest
  let d ← getDisk
  whenever (envelope.state.prefixVerification.isSome ∧
      (envelope.state.offset ≠ 0 ∨ d.part.isSome ∨ d.ledger.isSome))
    (checkFingerprint envelope.state envelope.state.partialIdentity)
  -- a stopped worker that still holds the lease is reported as running
  if d.active.isSome ∧ d.active.map Owner.nonce = envelope.state.owner.map Owner.nonce then
    let owner := envelope.state.owner.map (fun o => { o with stopped := false })
    pure { envelope.state with owner := owner }
  else pure envelope.state

end GuestTask
