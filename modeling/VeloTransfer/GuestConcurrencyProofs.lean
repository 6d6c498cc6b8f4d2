import VeloTransfer.GuestReceptionProofs

/-! # Guest concurrency — the calls and workers of one task, interleaved

    A call does its checks without a lock and then runs one transaction under
    the writer lock of the store; a worker reads the task, works without a lock
    and runs transactions of its own.  So a run of the service is a sequence of
    writer transactions, of unlocked effects of the worker that is alive, and
    of workers that end.

    The transactions of reception, launch and verification are the locked ends
    of `transferChunk`, `transferChunks`, `launch` and `executeVerifyPartial`,
    with the idle check as a parameter: among live workers the check is
    `checkIdleAmong`, which refuses while the owner of the lease is alive. -/

namespace GuestTask

open EffectPrograms Program FaultScript FileNodes ChunkLog CanonicalJson JsonLine Sha256 GuestTerminal

/-! ## The idle check -/

/-- `_check_idle` beside the workers that are alive; a dead owner may still be
    taken for a live one. -/
def checkIdleAmong (live : List Owner) : Guest Unit := do
  probe
  let d ← getDisk
  match d.active with
  | none => pure ()
  | some o => do
      let alive ← observe
      rejectIf (o ∈ live ∨ alive ≠ 0) "worker_busy"
      probe
      clearLease

/-- Equivalent conditions refuse alike. -/
theorem rejectIf_congr {c c' : Prop} [Decidable c] [Decidable c'] (h : c ↔ c') (code : String) :
    rejectIf c code = rejectIf c' code := by
  unfold rejectIf raiseIf
  by_cases hc : c
  · rw [if_pos hc, if_pos (h.mp hc)]
  · rw [if_neg hc, if_neg (fun hc' => hc (h.mpr hc'))]

/-- With no worker alive it is the check of a single call. -/
theorem checkIdleAmong_nil : checkIdleAmong [] = checkIdle := by
  have hdead : ∀ (o : Owner) (alive : Nat), rejectIf (o ∈ ([] : List Owner) ∨ alive ≠ 0) "worker_busy"
      = rejectIf (alive ≠ 0) "worker_busy" :=
    fun o alive => rejectIf_congr (by simp) _
  unfold checkIdleAmong checkIdle
  refine bind_congr fun _ => bind_congr fun d => ?_
  cases d.active with
  | none => rfl
  | some o => exact bind_congr fun alive => by rw [hdead]

/-! ## Reception, in two parts -/

/-- What the unlocked part of `transfer_chunk` hands to its transaction. -/
structure ChunkData where
  offset : Nat
  count : Nat
  data : Bytes
  sha : Text

/-- `transfer_chunk` up to its transaction. -/
def chunkRequest (policy : Policy) (c : ChunkCall) : Guest ChunkData := do
  rejectIf (c.count ≤ 0 ∨ c.offset < 0) "invalid_chunk_range"
  probe
  let envelope ← load c.transferId c.requestDigest
  let now ← monotonic
  rejectIf (c.count.toNat > maximumChunk policy envelope.state ∨
    envelope.state.deadlineMonotonic ≤ now) "chunk_budget_or_deadline"
  rejectIf envelope.state.cancelled "transfer_cancelled"
  let texts ← chunkTexts (maximumChunk policy envelope.state) c.dataBase64 c.chunkSha256
  let data ← decodeChunk c.count.toNat texts.1 texts.2
  pure { offset := c.offset.toNat, count := c.count.toNat, data := data, sha := texts.2 }

/-- The transaction of `transfer_chunk`. -/
def chunkReceive (idle : Guest Unit) (policy : Policy) (transferId digest : Text) (c : ChunkData) :
    Guest ChunkReply := do
  probe
  let fresh ← load transferId digest
  rejectIf fresh.state.cancelled "transfer_cancelled"
  idle
  rejectIf (fresh.state.phase ≠ .destReceiving ∧ fresh.state.phase ≠ .destReceived)
    "chunk_precondition_failed"
  rejectIf (c.offset + c.count > fresh.state.package.size) "invalid_chunk_range"
  let (_, s) ← verifiedPartial fresh.state false true .never
  if c.offset < s.offset then do
    rejectIf (c.offset + c.count > s.offset) "chunk_offset_conflict"
    probe
    let d ← getDisk
    rejectIf (((d.part.elim [] FileNode.bytes).drop c.offset).take c.count ≠ c.data)
      "chunk_conflict"
    pure { verifiedOffset := s.offset, replayed := true }
  else do
    rejectIf (c.offset ≠ s.offset ∨ s.phase ≠ .destReceiving) "chunk_offset_conflict"
    let line := Record.line .count { offset := c.offset, count := c.count, sha256 := c.sha }
    let d ← getDisk
    rejectIf (ledgerSize d + line.length > s.request.budget.maxMetadataBytes)
      "metadata_budget_exceeded"
    space s .never (c.count + line.length)
    createFiles
    let s' ← acknowledge policy fresh { s with prefixVerification := none } (pure ()) c.offset
      [c.data] [line]
    pure { verifiedOffset := s'.offset, replayed := false }

/-- `transfer_chunks` up to its transaction: the decoded chunks. -/
def batchRequest (policy : Policy) (c : BatchCall) : Guest (List (Bytes × Text)) := do
  rejectIf (¬ (0 < policy.maxBatchChunks.getD 0 ∧ policy.maxBatchChunks.getD 0 ≤ 64))
    "batch_not_allowed"
  rejectIf (c.offset < 0) "invalid_chunk_range"
  probe
  let envelope ← load c.transferId c.requestDigest
  rejectIf envelope.state.cancelled "transfer_cancelled"
  rejectIf (c.countPerChunk.isSome ∨ c.chunkCount.isSome) "invalid_chunk"
  rejectIf (c.chunks.getD [] = [] ∨ (c.chunks.getD []).length > policy.maxBatchChunks.getD 0)
    "invalid_chunk"
  prepareBatch envelope.state (maximumChunk policy envelope.state) 0 (c.chunks.getD [])

/-- The transaction of `transfer_chunks`. -/
def batchReceive (idle : Guest Unit) (policy : Policy) (transferId digest : Text) (offset : Nat)
    (prepared : List (Bytes × Text)) : Guest BatchReply := do
  let data := prepared.map Prod.fst
  let total := data.flatten.length
  probe
  let fresh ← load transferId digest
  rejectIf fresh.state.cancelled "transfer_cancelled"
  rejectIf (fresh.state.phase ≠ .destReceiving ∧ fresh.state.phase ≠ .destReceived)
    "chunk_precondition_failed"
  rejectIf (offset ≠ fresh.state.offset ∨ fresh.state.phase ≠ .destReceiving)
    "chunk_offset_conflict"
  rejectIf (offset + total > fresh.state.package.size) "invalid_chunk_range"
  let lines := batchLines offset prepared
  probe
  let d ← getDisk
  rejectIf (ledgerSize d + lines.flatten.length > fresh.state.request.budget.maxMetadataBytes)
    "metadata_budget_exceeded"
  space fresh.state .always (total + lines.flatten.length)
  encodeProspective policy fresh (ledgerSize d) total lines
  idle
  let (_, s) ← verifiedPartial fresh.state false true .never
  budgetCheck fresh.state .always
  createFiles
  let s' ← acknowledge policy fresh { s with prefixVerification := none }
    (budgetCheck fresh.state .always) offset data lines
  pure { verifiedOffset := s'.offset, accepted := lines.length }

/-! ## Launch and verification, in two parts -/

/-- The transaction of `_launch`: register the worker, which is then activated. -/
def launchRegister (idle : Guest Unit) (policy : Policy) (transferId digest : Text)
    (worker : Owner) : Guest Unit := do
  probe
  let envelope ← load transferId digest
  let now ← monotonic
  rejectIf (envelope.state.cancelled ∨ envelope.state.deadlineMonotonic ≤ now)
    "deadline_or_cancelled"
  idle
  probe
  let _ ← save policy envelope
    { envelope.state with owner := some worker, error := none, prefixVerification := none }
  allOrNothing (fun _ d => { d with active := some worker })

/-- The transaction of the `verify_partial` job, for the state it started from
    and what its unlocked verification found. -/
def verifyFinish (policy : Policy) (transferId digest : Text) (started : TaskState)
    (ledgerSha : Option Text) (identity : Option Fingerprint) : Guest Unit := do
  probe
  let fresh ← load transferId digest
  let current := fresh.state
  rejectIf (current.cancelled ∨ current.offset ≠ started.offset ∨
    current.chunkCount ≠ started.chunkCount ∨ current.owner ≠ started.owner ∨
    current.partialIdentity ≠ started.partialIdentity) "worker_state_changed"
  budgetCheck started .throttled
  let d ← getDisk
  whenever (current.offset ≠ 0 ∨ d.part.isSome ∨ d.ledger.isSome)
    (checkFingerprint current identity)
  let _ ← save policy fresh
    { current with
      partialIdentity := identity
      prefixVerification := some
        { requestDigest := digest, workerNonce := current.owner.elim [] Owner.nonce
          verifiedOffset := current.offset, chunkCount := current.chunkCount
          ledgerSha256 := ledgerSha.getD [] } }
  pure ()

section Parts

variable (policy : Policy)

theorem transferChunk_parts (c : ChunkCall) :
    transferChunk policy c = chunkRequest policy c >>= fun r =>
      chunkReceive checkIdle policy c.transferId c.requestDigest r := by
  unfold transferChunk chunkRequest
  simp only [program_bind_assoc, program_pure_bind]
  rfl

theorem transferChunks_parts (c : BatchCall) :
    transferChunks policy c = batchRequest policy c >>= fun prepared =>
      batchReceive checkIdle policy c.transferId c.requestDigest c.offset.toNat prepared := by
  unfold transferChunks batchRequest
  simp only [program_bind_assoc]
  rfl

theorem launch_parts (transferId digest : Text) (worker : Owner) :
    launch policy transferId digest worker =
      launchRegister checkIdle policy transferId digest worker >>= fun _ => probe := by
  unfold launch launchRegister
  simp only [program_bind_assoc]

theorem executeVerifyPartial_parts (transferId digest : Text) :
    executeVerifyPartial policy transferId digest = (do
      let envelope ← load transferId digest
      budgetCheck envelope.state .throttled
      rejectIf envelope.state.cancelled "transfer_cancelled"
      let r ← verifiedPartial envelope.state true false .throttled
      verifyFinish policy transferId digest envelope.state r.1 r.2.partialIdentity) := rfl

end Parts

/-! ## The other transactions -/

/-- The value of a step of the terminal protocol, or its error. -/
def protocol {α : Type} : Except String α → Guest α
  | .ok a => pure a
  | .error code => reject code

/-- What a transaction makes of the stored state; `none` when it saves nothing. -/
abbrev Change := TaskState → Except String (Option TaskState)

/-- A transaction that loads the task, changes it and saves it. -/
def transact (policy : Policy) (transferId digest : Text) (change : Change) : Guest Unit := do
  probe
  let fresh ← load transferId digest
  let next ← protocol (change fresh.state)
  match next with
  | none => pure ()
  | some s => do
      let _ ← save policy fresh s
      pure ()

/-- The restored terminal of a state, for the binding of its direction. -/
def TaskState.restored (binding : TaskState → Binding) (s : TaskState) : Except String Terminal :=
  match s.terminal with
  | none => .error "invalid_terminal_snapshot"
  | some saved => saved.restore (binding s) s.request.expectedDestination

/-- `current["terminal"] = terminal.snapshot()` and the phase that goes with it. -/
def TaskState.withTerminal (s : TaskState) (t : Terminal) : TaskState :=
  { s with terminal := some t, phase := t.localPhase }

/-- `transfer_finish`: begin an action, or find the operation that it began. -/
def finishBegin (idle : Guest Unit) (policy : Policy) (binding : TaskState → Binding)
    (transferId digest : Text) (inputs : Inputs) (operationId : Text) : Guest Operation := do
  probe
  let envelope ← load transferId digest
  rejectIf (envelope.state.terminal = none) "action_precondition_failed"
  let terminal ← protocol (envelope.state.restored binding)
  let begun ← protocol (terminal.beginAction inputs operationId)
  whenever (terminal.op inputs.action = none) (do
    let now ← monotonic
    rejectIf (envelope.state.deadlineMonotonic ≤ now ∨ envelope.state.cancelled)
      "deadline_or_cancelled"
    idle
    let _ ← save policy envelope
      { envelope.state.withTerminal begun.2 with prefixVerification := none }
    pure ())
  pure begun.1

/-- The first transaction of `transfer_abort`. -/
def abortTask : Change := fun s => .ok (some { s with cancelled := true })

/-- The last transaction of `_stop_registered`, for the worker that was stopped. -/
def stopRegistered (nonce : Text) : Change := fun s =>
  if s.owner.any (fun o => o.nonce == nonce) then
    .ok (some { s with error := some "transfer_cancelled" })
  else .ok none

/-- The end of the `package` job. -/
def packageReady (binding : TaskState → Binding) (package : Package) : Change := fun s =>
  if s.phase ≠ .sourcePreparing ∨ s.cancelled = true then .error "worker_state_changed"
  else
    let packed := { s with package := package, phase := .sourceReady }
    .ok (some { packed with
      terminal := some (Terminal.new (binding packed) s.request.expectedDestination) })

/-- `_persist_prepare`. -/
def persistPrepare (binding : TaskState → Binding) (operationId : Text)
    (receipt : PrepareReceipt) : Change := fun s => do
  let t ← s.restored binding
  let t ← t.completePrepare operationId receipt
  .ok (some (s.withTerminal t))

/-- The end of `_commit`. -/
def persistCommit (binding : TaskState → Binding) (operationId : Text)
    (receipt : PublicationReceipt) : Change := fun s => do
  let t ← s.restored binding
  let t ← t.completeCommit operationId receipt
  .ok (some (s.withTerminal t))

/-- The authorization of `_release`: the terminal comes from the state that the
    worker started from, and is stored over the fresh one. -/
def persistAuthorization (binding : TaskState → Binding) (started : TaskState)
    (operationId : Text) : Change := fun s => do
  let t ← started.restored binding
  let t ← t.authorizeRelease operationId
  .ok (some (s.withTerminal t))

/-- A transaction that saves fields which are not modelled here: the staging and
    publication intents, the cleanup record, the output access. -/
def saveOther : Change := fun s => .ok (some s)

def Job.action : Job → Option Action
  | .prepare => some .prepare
  | .commit => some .commit
  | .release => some .release
  | _ => none

/-- The failure that `_child` stores: the error, and the failed action unless it
    can be recovered. -/
def workerFailed (binding : TaskState → Binding) (job : Job) (nonce : Text) (code : String)
    (recoverable : Bool) : Change := fun s =>
  if s.owner.any (fun o => o.nonce == nonce) then
    let failed := { s with error := some code }
    match s.terminal, job.action with
    | some _, some a => do
        let t ← s.restored binding
        match t.op a with
        | some o =>
            if o.status = .inProgress ∧ t.releaseAuthorization = none ∧ recoverable = false then do
              let t ← t.failAction a o.operationId code
              .ok (some (failed.withTerminal t))
            else .ok (some failed)
        | none => .ok (some failed)
    | _, _ => .ok (some failed)
  else .ok none

/-- What `_finalize_release` finds of the lease, the files and the proof. -/
inductive Readiness where
  | waits
  | refused (code : String)
  | ready
deriving Repr, DecidableEq

/-- `_finalize_release`, beside the workers that are alive. -/
def finalizeRelease (binding : TaskState → Binding) (live : List Owner) (readiness : Readiness) :
    Change := fun s =>
  if s.phase ≠ .sourceReleasing ∧ s.phase ≠ .destReleasing then .ok none
  else do
    let t ← s.restored binding
    match t.releaseAuthorization, t.releaseOp, s.owner with
    | some _, some o, some owner =>
        if owner.job ≠ .release ∨ owner.stopped = false ∨ owner ∈ live then .ok none
        else
          match readiness with
          | .waits => .ok none
          | .refused code => .ok (some { s with error := some code })
          | .ready => do
              let t ← t.completeRelease o.operationId ⟨true, true⟩
              .ok (some (s.withTerminal t))
    | _, _, _ => .ok none

/-- The transaction of `_reconcile_exit`, for the owner that was seen before it. -/
def reconcileReceive (live : List Owner) (policy : Policy) (transferId digest nonce : Text) :
    Guest Unit := do
  probe
  let fresh ← load transferId digest
  match fresh.state.owner with
  | none => pure ()
  | some saved => do
      let alive ← observe
      whenever (saved.nonce = nonce ∧ saved ∉ live ∧ alive = 0) (do
        probe
        let d ← getDisk
        whenever d.active.isSome (do
          rejectIf (d.active.map Owner.nonce ≠ some saved.nonce) "worker_ownership_mismatch"
          clearLease)
        let now ← monotonic
        let error :=
          if saved.job = .verifyPartial ∧ fresh.state.prefixVerification = none ∧
              fresh.state.error = none then some "worker_result_unknown"
          else if fresh.state.deadlineMonotonic ≤ now ∧ fresh.state.error = none then
            some "deadline_exceeded"
          else fresh.state.error
        whenever (saved.stopped = false) (do
          let _ ← save policy fresh
            { fresh.state with owner := some { saved with stopped := true }, error := error }
          pure ()))

/-! ## Runs of the service -/

/-- A worker process that is alive, with the state that it started its job from. -/
structure Worker where
  owner : Owner
  started : Option TaskState

/-- One task and the processes that act on it; `bundle` is `bundle.zip`, the
    package of a pull. -/
structure System where
  disk : Disk
  bundle : Option FileNode
  live : List Worker

def System.state (s : System) : TaskState := s.disk.store.state

/-- The recorded operation of an action. -/
def TaskState.op (s : TaskState) (a : Action) : Option Operation := s.terminal.bind (fun t => t.op a)

/-- The release of the task is authorized. -/
def TaskState.authorized (s : TaskState) : Bool :=
  s.terminal.any (fun t => t.releaseAuthorization.isSome)

def System.owners (s : System) : List Owner := s.live.map Worker.owner

/-- What identifies the task, and the binding that its direction gives a state. -/
structure Task where
  policy : Policy
  transferId : Text
  requestDigest : Text
  binding : TaskState → Binding

/-- Some run of `m`, under some clock, free space and script, leads from disk to disk. -/
def Ran {α : Type} (m : Guest α) (d d' : Disk) : Prop :=
  ∃ x : Machine Failure Disk, x.disk = d ∧ (m x).2.disk = d'

/-- Some run of `m` that returns leads from disk to disk. -/
def Returned {α : Type} (m : Guest α) (d : Disk) (a : α) (d' : Disk) : Prop :=
  ∃ x : Machine Failure Disk, x.disk = d ∧ (m x).1 = .done a ∧ (m x).2.disk = d'

/-- A worker that has ended its job, or begins it anew. -/
def Worker.restart (w : Worker) (s : Option TaskState) (x : Worker) : Worker :=
  if x.owner = w.owner then { x with started := s } else x

def System.begins (s : System) (w : Worker) (started : Option TaskState) : List Worker :=
  s.live.map (w.restart started)

/-- The transactions of a live worker; most end its job. -/
inductive Transaction (k : Task) (w : Worker) : Change → Prop
  | package (p : Package) (hjob : w.owner.job = .package) :
      Transaction k w (packageReady k.binding p)
  | prepare (operationId : Text) (receipt : PrepareReceipt) (hjob : w.owner.job = .prepare) :
      Transaction k w (persistPrepare k.binding operationId receipt)
  | commit (operationId : Text) (receipt : PublicationReceipt) (hjob : w.owner.job = .commit) :
      Transaction k w (persistCommit k.binding operationId receipt)
  | other : Transaction k w saveOther
  | failed (code : String) (recoverable : Bool) :
      Transaction k w (workerFailed k.binding w.owner.job w.owner.nonce code recoverable)

/-- Whose step it is. -/
inductive Party where
  | service
  | recovery
  | worker
  | authorization
  | removal
  | abort
  | outside
deriving Repr, DecidableEq

/-- One step of the service around a task. -/
inductive Step (k : Task) : Party → System → System → Prop
  /-- The transactions of reception, for whatever the unlocked part handed over. -/
  | chunk {s : System} {d' : Disk} (c : ChunkData)
      (hrun : Ran (chunkReceive (checkIdleAmong s.owners) k.policy k.transferId k.requestDigest c)
        s.disk d') : Step k .service s { s with disk := d' }
  | chunks {s : System} {d' : Disk} (offset : Nat) (prepared : List (Bytes × Text))
      (hrun : Ran (batchReceive (checkIdleAmong s.owners) k.policy k.transferId k.requestDigest
        offset prepared) s.disk d') : Step k .service s { s with disk := d' }
  /-- `transfer_finish` begins an action. -/
  | finish {s : System} {d' : Disk} (inputs : Inputs) (operationId : Text)
      (hrun : Ran (finishBegin (checkIdleAmong s.owners) k.policy k.binding k.transferId
        k.requestDigest inputs operationId) s.disk d') : Step k .service s { s with disk := d' }
  /-- A launch that registers its worker. -/
  | launched {s : System} {d' : Disk} (o : Owner) (hfresh : o.stopped = false)
      (hrun : Returned (launchRegister (checkIdleAmong s.owners) k.policy k.transferId
        k.requestDigest o) s.disk () d') :
      Step k .service s { s with disk := d', live := { owner := o, started := none } :: s.live }
  /-- A launch that fails: its child is never activated. -/
  | launchFailed {s : System} {d' : Disk} (o : Owner)
      (hrun : Ran (launchRegister (checkIdleAmong s.owners) k.policy k.transferId
        k.requestDigest o) s.disk d') : Step k .service s { s with disk := d' }
  /-- A status query reconciles a dead worker, or finalizes a release. -/
  | reconcile {s : System} {d' : Disk} (nonce : Text)
      (hrun : Ran (reconcileReceive s.owners k.policy k.transferId k.requestDigest nonce)
        s.disk d') : Step k .recovery s { s with disk := d' }
  | finalize {s : System} {d' : Disk} (readiness : Readiness)
      (hrun : Ran (transact k.policy k.transferId k.requestDigest
        (finalizeRelease k.binding s.owners readiness)) s.disk d') :
      Step k .service s { s with disk := d' }
  /-- A worker loads the task for its job. -/
  | loaded {s : System} {w : Worker} {e : Envelope} {d' : Disk} (hw : w ∈ s.live)
      (hrun : Returned (load k.transferId k.requestDigest) s.disk e d') :
      Step k .worker s { s with disk := d', live := s.begins w (some e.state) }
  /-- The cuts of a verification, at the offset that the worker started from. -/
  | cutPart {s : System} {w : Worker} {started : TaskState} {d' : Disk} (hw : w ∈ s.live)
      (hstarted : w.started = some started) (hrun : Ran (truncatePart started.offset) s.disk d') :
      Step k .worker s { s with disk := d' }
  | cutLedger {s : System} {w : Worker} {d' : Disk} (size : Nat) (hw : w ∈ s.live)
      (hrun : Ran (truncateLedger size) s.disk d') : Step k .worker s { s with disk := d' }
  | verified {s : System} {w : Worker} {started : TaskState} {d' : Disk} (hw : w ∈ s.live)
      (hstarted : w.started = some started) (ledgerSha : Option Text)
      (identity : Option Fingerprint)
      (hrun : Ran (verifyFinish k.policy k.transferId k.requestDigest started ledgerSha identity)
        s.disk d') : Step k .worker s { s with disk := d' }
  /-- A `package` worker writes the bundle. -/
  | bundled {s : System} {w : Worker} (hw : w ∈ s.live) (hjob : w.owner.job = .package)
      (f : FileNode) : Step k .worker s { s with bundle := some f }
  | transaction {s : System} {w : Worker} {change : Change} {d' : Disk} (hw : w ∈ s.live)
      (hchange : Transaction k w change)
      (hrun : Ran (transact k.policy k.transferId k.requestDigest change) s.disk d') :
      Step k .worker s { s with disk := d', live := s.begins w none }
  /-- A child whose launch failed stores its failure; its nonce is its own. -/
  | unstarted {s : System} {d' : Disk} (job : Job) (nonce : Text) (code : String)
      (recoverable : Bool) (hother : ∀ w ∈ s.live, w.owner.nonce ≠ nonce)
      (hrun : Ran (transact k.policy k.transferId k.requestDigest
        (workerFailed k.binding job nonce code recoverable)) s.disk d') :
      Step k .worker s { s with disk := d' }
  /-- A worker exits, dies or is killed. -/
  | exited {s : System} (live : List Worker) (hlive : live.Sublist s.live) :
      Step k .outside s { s with live := live }
  /-- A release worker authorizes the release. -/
  | authorized {s : System} {w : Worker} {started : TaskState} {d' : Disk} (hw : w ∈ s.live)
      (hjob : w.owner.job = .release) (hstarted : w.started = some started) (operationId : Text)
      (hrun : Ran (transact k.policy k.transferId k.requestDigest
        (persistAuthorization k.binding started operationId)) s.disk d') :
      Step k .authorization s { s with disk := d', live := s.begins w none }
  /-- A release worker removes temporaries of a release that it found authorized. -/
  | removed {s : System} {w : Worker} {started : TaskState} {t : Terminal} (hw : w ∈ s.live)
      (hstarted : w.started = some started) (hterminal : started.terminal = some t)
      (hauthorized : t.releaseAuthorization.isSome) (part ledger bundle : Bool) :
      Step k .removal s
        { s with
          disk := { s.disk with
            part := if part then none else s.disk.part
            ledger := if ledger then none else s.disk.ledger }
          bundle := if bundle then none else s.bundle }
  /-- `transfer_abort` saves the cancellation. -/
  | aborted {s : System} {d' : Disk}
      (hrun : Ran (transact k.policy k.transferId k.requestDigest abortTask) s.disk d') :
      Step k .abort s { s with disk := d' }
  /-- `transfer_abort` stores that its worker was stopped. -/
  | stopped {s : System} {d' : Disk} (nonce : Text)
      (hrun : Ran (transact k.policy k.transferId k.requestDigest (stopRegistered nonce))
        s.disk d') : Step k .abort s { s with disk := d' }
  /-- Another task of the service takes the lease, or gives it up. -/
  | elsewhere {s : System} {d' : Disk} (other : Option Owner)
      (hrun : Ran (do
        checkIdleAmong s.owners
        allOrNothing (fun _ d => { d with active := other })) s.disk d') :
      Step k .outside s { s with disk := d' }

/-- A run in which every step is allowed where it is taken. -/
inductive Run (k : Task) (allowed : Party → System → Prop) : System → System → Prop
  | refl (s : System) : Run k allowed s s
  | tail {s s' s'' : System} {p : Party} (hrun : Run k allowed s s') (hallowed : allowed p s')
      (hstep : Step k p s' s'') : Run k allowed s s''

/-- Any run of the service. -/
abbrev AnyRun (k : Task) : System → System → Prop := Run k (fun _ _ => True)

/-- A task as it is created: no worker and no proof. -/
structure Created (s : System) : Prop where
  live : s.live = []
  proof : s.state.prefixVerification = none

end GuestTask
