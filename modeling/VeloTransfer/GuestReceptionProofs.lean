import Mathlib
import VeloTransfer.GuestTaskProofs

/-! # Guest reception — the acknowledged prefix under every request and fault

    `Received i v h` says that the durable state `v` of the task `i` has
    acknowledged exactly the chunks `h`: its offset and chunk count are those of
    `h`, both files start with what `h` lays down, and the protected identity
    pins their owners at exactly these sizes.  An unacknowledged tail may follow.

    Every operation of reception has one triple: it keeps `Received i v h`, and
    only the end of an accepted call moves to `Received i v (h ++ new)`. -/

namespace GuestTask

open EffectPrograms Program FaultScript FileNodes ChunkLog CanonicalJson JsonLine Sha256 GuestTerminal

/-! ## The invariant -/

/-- What never changes in a push task; once its identity is stored (`started`) it
    stays so. -/
structure Intent where
  request : Request
  package : Package
  deadlineMonotonic : Nat
  device : Nat
  started : Prop

/-- The durable state that reception reads and writes; the lease is not part of it. -/
def Disk.reception (d : Disk) : Disk := { d with active := none }

abbrev view : Machine Failure Disk → Disk := onDisk Disk.reception

/-- The identity `f` pins the two files, which start with what `h` lays down. -/
structure Pinned (v : Disk) (f : Fingerprint) (h : List Bytes) (p l : FileNode) : Prop where
  part : v.part = some p
  ledger : v.ledger = some l
  partInfo : f.part.device = v.device ∧ f.part.inode = p.inode ∧ f.part.size = h.flatten.length
  ledgerInfo : f.ledger.device = v.device ∧ f.ledger.inode = l.inode ∧
    f.ledger.size = (ledgerFrom .count 0 h).length
  data : h.flatten <+: p.bytes
  lines : ledgerFrom .count 0 h <+: l.bytes

/-- A task takes chunks until its package is complete. -/
def Receiving (i : Intent) (h : List Bytes) (phase : Phase) : Prop :=
  phase = .destReceiving ∨ (phase = .destReceived ∧ h.flatten.length = i.package.size)

/-- The chunks `h` are acknowledged in the durable state `v` of the task `i`. -/
structure Received (i : Intent) (v : Disk) (h : List Bytes) : Prop where
  request : v.store.state.request = i.request
  package : v.store.state.package = i.package
  deadline : v.store.state.deadlineMonotonic = i.deadlineMonotonic
  live : v.store.state.cancelled = false
  phase : Receiving i h v.store.state.phase
  device : v.device = i.device
  offset : v.store.state.offset = h.flatten.length
  count : v.store.state.chunkCount = h.length
  fit : ChunksFit 0 h
  bounded : ∀ c ∈ h, c.length ≤ i.request.budget.maxChunkBytes
  complete : h.flatten.length ≤ i.package.size
  budget : ledgerSize v ≤ i.request.budget.maxMetadataBytes
  started : i.started → v.store.state.partialIdentity ≠ none
  unpinned : v.store.state.partialIdentity = none → h = []
  pinned : ∀ f, v.store.state.partialIdentity = some f → ∃ p l, Pinned v f h p l

/-- Both files hold exactly what the chunks lay down, without a tail. -/
structure Exact (v : Disk) (h : List Bytes) (p l : FileNode) : Prop where
  part : v.part = some p
  ledger : v.ledger = some l
  data : p.bytes = h.flatten
  lines : l.bytes = ledgerFrom .count 0 h

/-- Before the first chunk there is no file; after it both are exact. -/
def Settled (v : Disk) (h : List Bytes) : Prop :=
  (v.part = none ∧ v.ledger = none ∧ h = []) ∨ ∃ p l, Exact v h p l

/-! ## Steps that change nothing durable -/

theorem fixes_load (t g : Text) : Fixes Machine.disk (load t g) :=
  fixes_bind fixes_probe (fun _ => fixes_bind fixes_getDisk (fun _ =>
    fixes_bind (fixes_raiseIf _ _) (fun _ => fixes_bind (fixes_raiseIf _ _)
      (fun _ => fixes_pure _))))

theorem fixes_checkCancel (s : TaskState) (cancel : CancelCheck) :
    Fixes Machine.disk (checkCancel s cancel) := by
  refine fixes_bind ?_ (fun due => fixes_ite (fixes_bind (fixes_load _ _)
    (fun _ => fixes_raiseIf _ _)) (fixes_pure _))
  cases cancel with
  | never => exact fixes_pure _
  | always => exact fixes_pure _
  | throttled => exact fixes_bind fixes_observe (fun _ => fixes_pure _)

theorem fixes_budgetCheck (s : TaskState) (cancel : CancelCheck) :
    Fixes Machine.disk (budgetCheck s cancel) :=
  fixes_bind (fixes_raiseIf _ _) (fun _ => fixes_bind fixes_monotonic (fun _ =>
    fixes_bind (fixes_raiseIf _ _) (fun _ => fixes_checkCancel s cancel)))

theorem fixes_space (s : TaskState) (cancel : CancelCheck) (required : Nat) :
    Fixes Machine.disk (space s cancel required) := by
  refine fixes_bind (fixes_budgetCheck s cancel) (fun _ => fixes_bind ?_ (fun _ =>
    fixes_raiseIf _ _))
  refine fixes_handle fixes_freeSpace ?_
  intro f
  cases f with
  | error code => exact fixes_raise _
  | osError => exact fixes_raise _

theorem fixes_encode (policy : Policy) (revision : Nat) (s : TaskState) :
    Fixes Machine.disk (encode policy revision s) :=
  fixes_bind (fixes_raiseIf _ _) (fun _ => fixes_bind (fixes_raiseIf _ _) (fun _ => fixes_probe))

theorem fixes_readBack : Fixes Machine.disk readBack := by
  refine fixes_handle (fixes_bind fixes_probe (fun _ => fixes_bind fixes_getDisk
    (fun _ => fixes_pure _))) ?_
  intro f
  cases f with
  | error code => exact fixes_pure _
  | osError => exact fixes_raise _

theorem fixes_strictJson (raw : Bytes) (maximum : Nat) :
    Fixes Machine.disk (strictJson raw maximum) := by
  refine fixes_bind (fixes_raiseIf _ _) (fun _ => ?_)
  split
  · exact fixes_pure _
  · exact fixes_raise _
  · exact fixes_raise _

theorem fixes_partialFingerprint (s : TaskState) : Fixes Machine.disk (partialFingerprint s) := by
  refine fixes_bind fixes_probe (fun _ => fixes_bind fixes_getDisk (fun d => ?_))
  split
  · exact fixes_pure _
  · exact fixes_raise _

theorem fixes_chunkTexts (limit : Nat) (data sha : Option Text) :
    Fixes Machine.disk (chunkTexts limit data sha) := by
  unfold chunkTexts
  split
  · exact fixes_bind (fixes_raiseIf _ _) (fun _ => fixes_pure _)
  · exact fixes_raise _

theorem fixes_decodeChunk (count : Nat) (data sha : Text) :
    Fixes Machine.disk (decodeChunk count data sha) := by
  unfold decodeChunk
  split
  · exact fixes_raise _
  · exact fixes_bind (fixes_raiseIf _ _) (fun _ => fixes_pure _)

theorem fixes_prepareBatch (s : TaskState) (maximum total : Nat) (items : List (Option BatchItem)) :
    Fixes Machine.disk (prepareBatch s maximum total items) := by
  induction items generalizing total with
  | nil => exact fixes_pure _
  | cons item rest ih =>
      cases item with
      | none => exact fixes_raise _
      | some item =>
          exact fixes_bind (fixes_raiseIf _ _) (fun _ => fixes_bind (fixes_chunkTexts _ _ _)
            (fun _ => fixes_bind (fixes_raiseIf _ _) (fun _ => fixes_bind (fixes_budgetCheck _ _)
              (fun _ => fixes_bind (fixes_decodeChunk _ _ _) (fun _ => fixes_bind (ih _)
                (fun _ => fixes_pure _))))))

theorem fixes_encodeProspective (policy : Policy) (fresh : Envelope) (ledgerBytes total : Nat)
    (lines : List Bytes) :
    Fixes Machine.disk (encodeProspective policy fresh ledgerBytes total lines) :=
  fixes_bind (fixes_encode _ _ _) (fun _ => fixes_encode _ _ _)

theorem fixes_verifyRecords (s : TaskState) (cancel : CancelCheck) (n position : Nat)
    (seen records data : Bytes) :
    Fixes Machine.disk (verifyRecords s cancel n position seen records data) := by
  induction n generalizing position seen records data with
  | zero => exact fixes_pure _
  | succ n ih =>
      refine fixes_bind (fixes_budgetCheck _ _) (fun _ => fixes_bind fixes_probe (fun _ =>
        fixes_bind (fixes_strictJson _ _) (fun v => ?_)))
      split
      · exact fixes_raise _
      · exact fixes_bind (fixes_raiseIf _ _) (fun _ => fixes_bind (fixes_raiseIf _ _)
          (fun _ => ih _ _ _ _))

/-- The lease is not part of reception. -/
theorem fixes_clearLease : Fixes view clearLease := fixes_allOrNothing (fun _ _ => rfl)

/-- A stale lease may be cleared; nothing of reception changes. -/
theorem fixes_checkIdle : Fixes view checkIdle := by
  refine fixes_bind (fixes_onDisk fixes_probe) (fun _ => fixes_bind (fixes_onDisk fixes_getDisk)
    (fun d => ?_))
  split
  · exact fixes_pure _
  · exact fixes_bind (fixes_onDisk fixes_observe) (fun _ => fixes_bind (fixes_raiseIf _ _)
      (fun _ => fixes_bind (fixes_onDisk fixes_probe) (fun _ => fixes_clearLease)))

/-! ## The task store -/

/-- Early ends after which a save may have taken place: the process died, the
    file was read back as the new one, or it could not be read back. -/
def Unconfirmed : Option Failure → Prop
  | none => True
  | some .osError => True
  | some (.error code) => code = "storage_durability_unknown" ∨ code = "storage_reconcile_required"

section Store

/-- A view of the disk that shows the whole store. -/
class ShowsStore (g : Disk → Disk) : Prop where
  store : ∀ d, (g d).store = d.store
  put : ∀ d new, g { d with store := new } = { g d with store := new }

instance : ShowsStore Disk.reception := ⟨fun _ => rfl, fun _ _ => rfl⟩

instance : ShowsStore id := ⟨fun _ => rfl, fun _ _ => rfl⟩

variable {g : Disk → Disk} [ShowsStore g] {K : Option Failure → Disk → Prop} {v₀ : Disk}
  {α : Type} {Q : α → Disk → Prop}

/-- A load returns the stored task, of the asked transfer and digest. -/
theorem at_load {t digest : Text} {k : Envelope → Guest α} (hK : ∀ e, K e v₀)
    (hk : v₀.store.state.request.transferId = t → v₀.store.state.request.requestDigest = digest →
      Triple (onDisk g) (fun v => v = v₀) (k v₀.store) Q K) :
    Triple (onDisk g) (fun v => v = v₀) (load t digest >>= k) Q K := by
  refine triple_bind (Q := fun e v => v = v₀ ∧ e = v₀.store ∧
    v₀.store.state.request.transferId = t ∧ v₀.store.state.request.requestDigest = digest) ?_ ?_
  · refine at_probe hK (at_getDisk (fun d hd => ?_))
    have hstore : d.store = v₀.store := by rw [← hd, ShowsStore.store]
    rw [hstore]
    refine at_check hK (fun ht => at_check hK (fun hg => triple_pure (fun v hv => ?_)))
    exact ⟨hv, rfl, not_not.mp ht, not_not.mp hg⟩
  · intro e s hs
    obtain ⟨hv, rfl, ht, hg⟩ := hs
    exact hk ht hg s hv

/-- The read back sees the stored envelope, unless it is refused. -/
theorem readBack_triple {v : Disk} (hK : ∀ e, (e = none ∨ e = some .osError) → K e v) :
    Triple (onDisk g) (fun w => w = v) readBack (fun o w => w = v ∧ (o = none ∨ o = some v.store)) K := by
  refine triple_handle (H := fun _ w => w = v) ?_ ?_
  · refine triple_conseq (K := fun _ w => w = v) ?_ (fun _ hv => hv) (fun _ _ hv => hv) ?_
    · refine at_probe (fun _ => rfl) (at_getDisk (fun d hd => triple_pure (fun w hw => ⟨hw, ?_⟩)))
      rw [← hd, ShowsStore.store]
      exact Or.inr rfl
    · rintro (_ | e) w rfl
      · exact hK none (Or.inl rfl)
      · rfl
  · intro f
    cases f with
    | error code => exact triple_pure (fun w hw => ⟨hw, Or.inl rfl⟩)
    | osError => exact triple_raise (fun w hw => hw ▸ hK _ (Or.inr rfl))

/-- A commit stores the new envelope; under a fault the store is the old one, or
    the new one with an unconfirmed end. -/
theorem commit_triple {new : Envelope} (hold : ∀ e, K e v₀)
    (hnew : ∀ e, Unconfirmed e → K e { v₀ with store := new }) :
    Triple (onDisk g) (fun v => v = v₀) (commit new)
      (fun _ v => v = { v₀ with store := new }) K := by
  refine at_probe hold ?_
  refine triple_replaceRecord (fun v => { v with store := new })
    (fun v o => o = none ∨ o = some v.store) ?_ (fun v hv => ?_) hold (hnew none trivial) ?_
  · exact fun d => ShowsStore.put d new
  · refine readBack_triple (fun e he => ?_)
    rcases hv with rfl | rfl
    · exact hold e
    · rcases he with rfl | rfl
      · exact hnew none trivial
      · exact hnew _ trivial
  · rintro o (rfl | rfl)
    · exact hnew _ (Or.inr rfl)
    · have hseen : classifyCommit new (some new) = .error "storage_durability_unknown" := if_pos rfl
      show K (some (classifyCommit new (some new))) _
      rw [hseen]
      exact hnew _ (Or.inl rfl)

/-- A save stores the next revision of the state it is given. -/
theorem save_triple {policy : Policy} {envelope : Envelope} {s : TaskState} (hold : ∀ e, K e v₀)
    (hnew : ∀ e, Unconfirmed e →
      K e { v₀ with store := { revision := envelope.revision + 1, state := s.saved } }) :
    Triple (onDisk g) (fun v => v = v₀) (save policy envelope s)
      (fun env v => env = { revision := envelope.revision + 1, state := s.saved } ∧
        v = { v₀ with store := { revision := envelope.revision + 1, state := s.saved } }) K := by
  refine at_probe hold (at_getDisk (fun d _ => at_check hold (fun _ =>
    at_quiet (fixes_encode _ _ _) hold (fun _ => ?_))))
  exact triple_bind (commit_triple hold hnew) (fun _ => triple_pure (fun v hv => ⟨rfl, hv⟩))

end Store

/-! ## The files -/

section Files

variable {i : Intent} {h : List Bytes} {v v₀ : Disk}

/-- Files that still start with the acknowledged prefix keep the invariant. -/
theorem Received.of_files (hr : Received i v h) {v' : Disk} (hstore : v'.store = v.store)
    (hdevice : v'.device = v.device) (hbudget : ledgerSize v' ≤ i.request.budget.maxMetadataBytes)
    (hfiles : ∀ f p l, v.store.state.partialIdentity = some f → Pinned v f h p l →
      ∃ p' l', Pinned v' f h p' l') : Received i v' h where
  request := by rw [hstore]; exact hr.request
  package := by rw [hstore]; exact hr.package
  deadline := by rw [hstore]; exact hr.deadline
  live := by rw [hstore]; exact hr.live
  phase := by rw [hstore]; exact hr.phase
  device := hdevice.trans hr.device
  offset := by rw [hstore]; exact hr.offset
  count := by rw [hstore]; exact hr.count
  fit := hr.fit
  bounded := hr.bounded
  complete := hr.complete
  budget := hbudget
  started := by rw [hstore]; exact hr.started
  unpinned := by rw [hstore]; exact hr.unpinned
  pinned := by
    intro f hf
    rw [hstore] at hf
    obtain ⟨p, l, hp⟩ := hr.pinned f hf
    exact hfiles f p l hf hp

/-- The pinned files of a state that has both. -/
theorem Received.files (hr : Received i v h) {p l : FileNode} (hp : v.part = some p)
    (hl : v.ledger = some l) {f : Fingerprint} (hf : v.store.state.partialIdentity = some f) :
    Pinned v f h p l := by
  obtain ⟨p', l', hpin⟩ := hr.pinned f hf
  obtain rfl : p' = p := Option.some.inj (hpin.part.symm.trans hp)
  obtain rfl : l' = l := Option.some.inj (hpin.ledger.symm.trans hl)
  exact hpin

/-- Cutting the package at the acknowledged offset. -/
def Disk.cutPart (v : Disk) (p : FileNode) (size stamp : Nat) : Disk :=
  { v with part := some (p.truncate size stamp) }

def Disk.cutLedger (v : Disk) (l : FileNode) (size stamp : Nat) : Disk :=
  { v with ledger := some (l.truncate size stamp) }

theorem ledgerSize_some {l : FileNode} (hl : v.ledger = some l) : ledgerSize v = l.bytes.length := by
  rw [ledgerSize, hl]
  rfl

theorem Received.cutPart (hr : Received i v h) {p l : FileNode} {f : Fingerprint}
    (hf : v.store.state.partialIdentity = some f) (hp : v.part = some p) (hl : v.ledger = some l)
    (stamp : Nat) : Received i (v.cutPart p h.flatten.length stamp) h := by
  have hpin := hr.files hp hl hf
  refine hr.of_files rfl rfl hr.budget ?_
  intro f' p' l' hf' hpin'
  obtain rfl : f = f' := Option.some.inj (hf.symm.trans hf')
  refine ⟨p.truncate h.flatten.length stamp, l, ⟨rfl, hl, hpin.partInfo, hpin.ledgerInfo, ?_,
    hpin.lines⟩⟩
  show h.flatten <+: p.bytes.take h.flatten.length
  rw [prefix_take hpin.data]

theorem Received.cutLedger (hr : Received i v h) {p l : FileNode} {f : Fingerprint}
    (hf : v.store.state.partialIdentity = some f) (hp : v.part = some p) (hl : v.ledger = some l)
    (stamp : Nat) : Received i (v.cutLedger l (ledgerFrom .count 0 h).length stamp) h := by
  have hpin := hr.files hp hl hf
  refine hr.of_files rfl rfl ?_ ?_
  · have hbudget := hr.budget
    rw [ledgerSize_some hl] at hbudget
    show (l.bytes.take _).length ≤ _
    rw [List.length_take]
    omega
  · intro f' p' l' hf' hpin'
    obtain rfl : f = f' := Option.some.inj (hf.symm.trans hf')
    refine ⟨p, l.truncate (ledgerFrom .count 0 h).length stamp, ⟨hp, rfl, hpin.partInfo, hpin.ledgerInfo,
      hpin.data, ?_⟩⟩
    show ledgerFrom .count 0 h <+: l.bytes.take (ledgerFrom .count 0 h).length
    rw [prefix_take hpin.lines]

/-- The protected identity alone proves that there is no tail. -/
theorem Pinned.exact {f : Fingerprint} {p l : FileNode} {s : TaskState} (hpin : Pinned v f h p l)
    (hsame : f = fingerprint v s p l) : Exact v h p l := by
  obtain ⟨tail, hdata⟩ := hpin.data
  obtain ⟨tail', hlines⟩ := hpin.lines
  have hsize : p.bytes.length = h.flatten.length := by
    have := hpin.partInfo.2.2
    rw [hsame] at this
    exact this
  have hsize' : l.bytes.length = (ledgerFrom .count 0 h).length := by
    have := hpin.ledgerInfo.2.2
    rw [hsame] at this
    exact this
  rw [← hdata, List.length_append] at hsize
  rw [← hlines, List.length_append] at hsize'
  have htail : tail = [] := List.length_eq_zero_iff.mp (by omega)
  have htail' : tail' = [] := List.length_eq_zero_iff.mp (by omega)
  refine ⟨hpin.part, hpin.ledger, ?_, ?_⟩
  · rw [← hdata, htail, List.append_nil]
  · rw [← hlines, htail', List.append_nil]

end Files

/-! ## Verifying the prefix -/

section Verify

variable {i : Intent} {h : List Bytes} {v₀ : Disk} {K : Option Failure → Disk → Prop}

/-- Reading the acknowledged records goes line by line over the ledger. -/
theorem verifyRecords_triple {s : TaskState} {cancel : CancelCheck} {position : Nat}
    {chunks : List Bytes} {seen tail data : Bytes} (hfit : ChunksFit position chunks)
    (hK : ∀ e, K e v₀) :
    Triple view (fun v => v = v₀)
      (verifyRecords s cancel chunks.length position seen (ledgerFrom .count position chunks ++ tail) data)
      (fun r v => v = v₀ ∧
        r = (position + chunks.flatten.length, seen ++ ledgerFrom .count position chunks)) K := by
  induction chunks generalizing position seen data with
  | nil => exact triple_pure (fun v hv => ⟨hv, by rw [ledgerFrom]; simp [recordsFrom]⟩)
  | cons c chunks ih =>
      show Triple view _ (verifyRecords s cancel (chunks.length + 1) position seen _ data) _ _
      unfold verifyRecords
      rw [readline_ledgerFrom hfit (by decide), drop_ledgerFrom]
      refine at_quiet (fixes_budgetCheck _ _) hK (fun _ => at_probe hK ?_)
      refine triple_bind (Q := fun v v' => v' = v₀ ∧ v = ((chunkRecord position c).toJson .count).sortKeys)
        ?_ ?_
      · unfold strictJson
        refine at_check hK (fun _ => ?_)
        rw [hfit.head.loads]
        exact triple_pure (fun v hv => ⟨hv, rfl⟩)
      · intro value s' hs'
        obtain ⟨hs', rfl⟩ := hs'
        revert s' 
        show Triple view (fun v => v = v₀) _ _ _
        rw [recordOf_loads hfit.head]
        refine at_check hK (fun _ => at_check hK (fun _ => ?_))
        refine triple_post (ih hfit.tail) (fun r v hr => ⟨hr.1, ?_⟩)
        rw [hr.2, ledgerFrom_cons, List.flatten_cons, List.length_append]
        simp only [chunkRecord, Nat.add_assoc, List.append_assoc]

/-- The fingerprint of two existing files. -/
theorem fingerprint_triple {s : TaskState} (hK : ∀ e, K e v₀) :
    Triple view (fun v => v = v₀) (partialFingerprint s)
      (fun f v => v = v₀ ∧ ∃ p l, v₀.part = some p ∧ v₀.ledger = some l ∧
        f = fingerprint v₀ s p l) K := by
  refine at_probe hK (at_getDisk (fun d hd => ?_))
  have hpart : d.part = v₀.part := by rw [← hd]; rfl
  have hledger : d.ledger = v₀.ledger := by rw [← hd]; rfl
  have hdevice : d.device = v₀.device := by rw [← hd]; rfl
  rw [hpart, hledger]
  cases hp : v₀.part with
  | none => exact triple_raise (fun v hv => hv ▸ hK _)
  | some p =>
      cases hl : v₀.ledger with
      | none => exact triple_raise (fun v hv => hv ▸ hK _)
      | some l =>
          refine triple_pure (fun v hv => ⟨hv, p, l, rfl, rfl, ?_⟩)
          unfold fingerprint
          rw [hdevice]

theorem truncatePart_triple {p : FileNode} {size : Nat} (hp : v₀.part = some p)
    (hK : ∀ e, K e v₀) (hK' : ∀ e stamp, K e (v₀.cutPart p size stamp)) :
    Triple view (fun v => v = v₀) (truncatePart size)
      (fun _ v => ∃ stamp, v = v₀.cutPart p size stamp) K := by
  have hcut : ∀ stamp, { v₀ with part := v₀.part.map (fun f => f.truncate size stamp) }
      = v₀.cutPart p size stamp := by
    intro stamp
    rw [hp]
    rfl
  refine triple_allOrNothing
    (fun stamp v => { v with part := v.part.map (fun f => f.truncate size stamp) })
    (fun _ _ => rfl) (fun stamp => ⟨stamp, hcut stamp⟩) hK (fun e stamp => ?_)
  rw [hcut]
  exact hK' e stamp

theorem truncateLedger_triple {l : FileNode} {size : Nat} (hl : v₀.ledger = some l)
    (hK : ∀ e, K e v₀) (hK' : ∀ e stamp, K e (v₀.cutLedger l size stamp)) :
    Triple view (fun v => v = v₀) (truncateLedger size)
      (fun _ v => ∃ stamp, v = v₀.cutLedger l size stamp) K := by
  have hcut : ∀ stamp, { v₀ with ledger := v₀.ledger.map (fun f => f.truncate size stamp) }
      = v₀.cutLedger l size stamp := by
    intro stamp
    rw [hl]
    rfl
  refine triple_allOrNothing
    (fun stamp v => { v with ledger := v.ledger.map (fun f => f.truncate size stamp) })
    (fun _ _ => rfl) (fun stamp => ⟨stamp, hcut stamp⟩) hK (fun e stamp => ?_)
  rw [hcut]
  exact hK' e stamp

/-- What a verification returns about the state it was given: the digest of the
    acknowledged ledger, unless the protected identity was enough, and an
    identity that is the present fingerprint of the files. -/
structure VerifiedState (force : Bool) (s : TaskState) (h : List Bytes) (r : Option Text × TaskState)
    (v : Disk) : Prop where
  digest : r.1 = some (hexdigest (ledgerFrom .count 0 h)) ∨ (force = false ∧ r.1 = none)
  state : r.2 = { s with partialIdentity := r.2.partialIdentity }
  absent : v.part = none → r.2.partialIdentity = s.partialIdentity
  present : ∀ p l, v.part = some p → v.ledger = some l →
    r.2.partialIdentity = some (fingerprint v s p l)

/-- Verification keeps what is acknowledged and leaves no tail. -/
theorem verifiedPartial_triple {force shortCall : Bool} {cancel : CancelCheck}
    (hr : Received i v₀ h) (hK : ∀ e v, v.store = v₀.store → Received i v h → K e v) :
    Triple view (fun v => v = v₀) (verifiedPartial v₀.store.state force shortCall cancel)
      (fun r v => v.store = v₀.store ∧ Received i v h ∧ Settled v h ∧
        VerifiedState force v₀.store.state h r v) K := by
  have hK₀ : ∀ e, K e v₀ := fun e => hK e v₀ rfl hr
  unfold verifiedPartial
  refine at_quiet (fixes_budgetCheck _ _) hK₀ (fun _ => at_getDisk (fun d hd => ?_))
  have hpart : d.part = v₀.part := by rw [← hd]; rfl
  have hledger : d.ledger = v₀.ledger := by rw [← hd]; rfl
  have hprint : ∀ p l, fingerprint d v₀.store.state p l = fingerprint v₀ v₀.store.state p l := by
    intro p l
    rw [← hd]
    rfl
  rw [hpart, hledger]
  refine triple_ite (fun hnone => ?_) (fun _ => at_probe hK₀ ?_)
  · obtain ⟨hp, hl, -, -, hid⟩ := hnone
    obtain rfl := hr.unpinned hid
    refine triple_pure (fun v hv => ?_)
    subst hv
    refine ⟨rfl, hr, Or.inl ⟨hp, hl, rfl⟩, Or.inl rfl, rfl, fun _ => rfl, ?_⟩
    intro p l hp' hl'
    rw [hp] at hp'
    exact absurd hp' (by simp)
  cases hp : v₀.part with
  | none => exact triple_raise (fun v hv => hv ▸ hK₀ _)
  | some p =>
  cases hl : v₀.ledger with
  | none => exact triple_raise (fun v hv => hv ▸ hK₀ _)
  | some l =>
  refine at_check hK₀ (fun _ => ?_)
  cases hid : v₀.store.state.partialIdentity with
  | none => exact triple_raise (fun v hv => hv ▸ hK₀ _)
  | some owned =>
  have hpin := hr.files hp hl hid
  refine at_check hK₀ (fun _ => triple_ite (fun hsame => ?_) (fun _ => ?_))
  · have howned : owned = fingerprint v₀ v₀.store.state p l := by rw [hsame.2, hprint]
    refine triple_pure (fun v hv => ?_)
    subst hv
    refine ⟨rfl, hr, Or.inr ⟨p, l, hpin.exact howned⟩, Or.inr ⟨hsame.1, rfl⟩, rfl, fun _ => rfl, ?_⟩
    intro p' l' hp' hl'
    obtain rfl : p = p' := Option.some.inj (hp.symm.trans hp')
    obtain rfl : l = l' := Option.some.inj (hl.symm.trans hl')
    exact hid.trans (congrArg some howned)
  refine at_check hK₀ (fun _ => at_check hK₀ (fun _ => ?_))
  obtain ⟨tail, htail⟩ := hpin.lines
  have hloop : Triple view (fun v => v = v₀)
      (verifyRecords v₀.store.state cancel v₀.store.state.chunkCount 0 [] l.bytes p.bytes)
      (fun r v => v = v₀ ∧ r = (0 + h.flatten.length, [] ++ ledgerFrom .count 0 h)) K := by
    rw [hr.count, ← htail]
    exact verifyRecords_triple hr.fit hK₀
  refine triple_bind hloop (fun r => triple_at (fun v hv => ?_))
  obtain ⟨rfl, rfl⟩ := hv
  rw [Nat.zero_add, List.nil_append]
  refine at_check hK₀ (fun _ => at_quiet (fixes_budgetCheck _ _) hK₀ (fun _ => ?_))
  refine triple_bind (fingerprint_triple hK₀) (fun again => triple_at (fun v₁ hv₁ => ?_))
  obtain ⟨rfl, -⟩ := hv₁
  refine at_check hK₀ (fun _ => ?_)
  -- first the package is cut, then the ledger; each cut keeps the invariant
  refine triple_bind (Q := fun _ v => v.store = v₁.store ∧ Received i v h ∧ v.ledger = some l ∧
    ∃ p', v.part = some p' ∧ p'.bytes = h.flatten) ?_ (fun _ => triple_at (fun v₂ hv₂ => ?_))
  · rw [hr.offset]
    refine triple_whenever (fun _ => ?_) (fun hlen v hv => ?_)
    · refine triple_post (truncatePart_triple hp hK₀
        (fun e stamp => hK e _ rfl (hr.cutPart hid hp hl stamp))) (fun _ v hv => ?_)
      obtain ⟨stamp, rfl⟩ := hv
      exact ⟨rfl, hr.cutPart hid hp hl stamp, hl, _, rfl, prefix_take hpin.data⟩
    · subst hv
      refine ⟨rfl, hr, hl, p, hp, ?_⟩
      rw [← prefix_take hpin.data, List.take_of_length_le (by omega)]
  obtain ⟨hstore, hr₂, hl₂, p₂, hp₂, hdata₂⟩ := hv₂
  have hid₂ : v₂.store.state.partialIdentity = some owned := by rw [hstore]; exact hid
  have hpin₂ := hr₂.files hp₂ hl₂ hid₂
  have hK₂ : ∀ e, K e v₂ := fun e => hK e v₂ hstore hr₂
  refine triple_bind (Q := fun _ v => v.store = v₁.store ∧ Received i v h ∧
    ∃ p' l', Exact v h p' l') ?_ (fun _ => triple_at (fun v₃ hv₃ => ?_))
  · refine triple_whenever (fun _ => ?_) (fun hlen v hv => ?_)
    · refine triple_post (truncateLedger_triple hl₂ hK₂
        (fun e stamp => hK e _ hstore (hr₂.cutLedger hid₂ hp₂ hl₂ stamp))) (fun _ v hv => ?_)
      obtain ⟨stamp, rfl⟩ := hv
      exact ⟨hstore, hr₂.cutLedger hid₂ hp₂ hl₂ stamp, _, _, hp₂, rfl, hdata₂,
        prefix_take hpin₂.lines⟩
    · subst hv
      refine ⟨hstore, hr₂, p₂, l, hp₂, hl₂, hdata₂, ?_⟩
      rw [← prefix_take hpin₂.lines, List.take_of_length_le (by omega)]
  obtain ⟨hstore₃, hr₃, p₃, l₃, hexact⟩ := hv₃
  refine triple_bind (fingerprint_triple (fun e => hK e v₃ hstore₃ hr₃))
    (fun now => triple_pure (fun v hv => ?_))
  obtain ⟨rfl, p', l', hp', hl', rfl⟩ := hv
  refine ⟨hstore₃, hr₃, Or.inr ⟨p₃, l₃, hexact⟩, Or.inl rfl, rfl, ?_, ?_⟩
  · intro hnone
    rw [hexact.part] at hnone
    exact absurd hnone (by simp)
  · intro p'' l'' hp'' hl''
    obtain rfl : p' = p'' := Option.some.inj (hp'.symm.trans hp'')
    obtain rfl : l' = l'' := Option.some.inj (hl'.symm.trans hl'')
    rfl

end Verify

/-! ## Acknowledging chunks -/

section Saved

variable (s : TaskState) (policy : Policy) (offset count : Nat)

/-- A save touches none of the fields of reception. -/
@[simp] theorem saved_request : s.saved.request = s.request := by unfold TaskState.saved; split <;> rfl
@[simp] theorem saved_package : s.saved.package = s.package := by unfold TaskState.saved; split <;> rfl
@[simp] theorem saved_deadline : s.saved.deadlineMonotonic = s.deadlineMonotonic := by
  unfold TaskState.saved; split <;> rfl
@[simp] theorem saved_offset : s.saved.offset = s.offset := by unfold TaskState.saved; split <;> rfl
@[simp] theorem saved_chunkCount : s.saved.chunkCount = s.chunkCount := by
  unfold TaskState.saved; split <;> rfl
@[simp] theorem saved_partialIdentity : s.saved.partialIdentity = s.partialIdentity := by
  unfold TaskState.saved; split <;> rfl
@[simp] theorem saved_phase : s.saved.phase = s.phase := by unfold TaskState.saved; split <;> rfl
@[simp] theorem saved_owner : s.saved.owner = s.owner := by unfold TaskState.saved; split <;> rfl
@[simp] theorem saved_cancelled : s.saved.cancelled = s.cancelled := by
  unfold TaskState.saved; split <;> rfl
@[simp] theorem saved_error : s.saved.error = s.error := by unfold TaskState.saved; split <;> rfl

@[simp] theorem advance_request : (s.advance policy offset count).request = s.request := by
  unfold TaskState.advance; split <;> rfl
@[simp] theorem advance_package : (s.advance policy offset count).package = s.package := by
  unfold TaskState.advance; split <;> rfl
@[simp] theorem advance_deadline :
    (s.advance policy offset count).deadlineMonotonic = s.deadlineMonotonic := by
  unfold TaskState.advance; split <;> rfl
@[simp] theorem advance_cancelled : (s.advance policy offset count).cancelled = s.cancelled := by
  unfold TaskState.advance; split <;> rfl
@[simp] theorem advance_offset : (s.advance policy offset count).offset = offset := by
  unfold TaskState.advance; split <;> rfl
@[simp] theorem advance_chunkCount : (s.advance policy offset count).chunkCount = count := by
  unfold TaskState.advance; split <;> rfl

end Saved

section Acknowledge

variable {i : Intent} {h : List Bytes} {v₀ : Disk} {K : Option Failure → Disk → Prop}

/-- A state fits the task `i` after the chunks `h`. -/
structure Fits (i : Intent) (s : TaskState) (h : List Bytes) : Prop where
  request : s.request = i.request
  package : s.package = i.package
  deadline : s.deadlineMonotonic = i.deadlineMonotonic
  live : s.cancelled = false
  phase : Receiving i h s.phase
  offset : s.offset = h.flatten.length
  count : s.chunkCount = h.length

theorem Fits.pin {s : TaskState} (hs : Fits i s h) (f : Fingerprint) : Fits i (s.pin f) h :=
  ⟨hs.request, hs.package, hs.deadline, hs.live, hs.phase, hs.offset, hs.count⟩

theorem Fits.identity {s : TaskState} (hs : Fits i s h) (f : Option Fingerprint) :
    Fits i { s with partialIdentity := f } h :=
  ⟨hs.request, hs.package, hs.deadline, hs.live, hs.phase, hs.offset, hs.count⟩

theorem Fits.saved {s : TaskState} (hs : Fits i s h) : Fits i s.saved h :=
  ⟨(saved_request s).trans hs.request, (saved_package s).trans hs.package,
    (saved_deadline s).trans hs.deadline, (saved_cancelled s).trans hs.live,
    by rw [saved_phase]; exact hs.phase, (saved_offset s).trans hs.offset,
    (saved_chunkCount s).trans hs.count⟩

theorem Fits.advance {s : TaskState} (hs : Fits i s h) (policy : Policy) {h' : List Bytes}
    (hphase : s.phase = .destReceiving) :
    Fits i (s.advance policy h'.flatten.length h'.length) h' := by
  refine ⟨(advance_request ..).trans hs.request, (advance_package ..).trans hs.package,
    (advance_deadline ..).trans hs.deadline, (advance_cancelled ..).trans hs.live, ?_,
    advance_offset .., advance_chunkCount ..⟩
  unfold TaskState.advance
  by_cases hfull : h'.flatten.length = s.package.size
  · rw [if_pos hfull]
    exact Or.inr ⟨rfl, hfull.trans (congrArg Package.size hs.package)⟩
  · rw [if_neg hfull]
    exact Or.inl hphase

theorem Fits.unproved {s : TaskState} (hs : Fits i s h) :
    Fits i { s with prefixVerification := none } h :=
  ⟨hs.request, hs.package, hs.deadline, hs.live, hs.phase, hs.offset, hs.count⟩

theorem Received.fits {v : Disk} (hr : Received i v h) : Fits i v.store.state h :=
  ⟨hr.request, hr.package, hr.deadline, hr.live, hr.phase, hr.offset, hr.count⟩

/-- The bounds of acknowledged chunks. -/
structure Within (i : Intent) (h : List Bytes) : Prop where
  fit : ChunksFit 0 h
  bounded : ∀ c ∈ h, c.length ≤ i.request.budget.maxChunkBytes
  complete : h.flatten.length ≤ i.package.size
  budget : (ledgerFrom .count 0 h).length ≤ i.request.budget.maxMetadataBytes

theorem chunksFit_append {h chunks : List Bytes} (hh : ChunksFit 0 h) (hc : ∀ c ∈ chunks, c ≠ [])
    (hsize : (h ++ chunks).flatten.length ≤ maxFileSize) : ChunksFit 0 (h ++ chunks) := by
  refine ⟨?_, by rw [Nat.zero_add]; exact hsize⟩
  intro c hmem
  rcases List.mem_append.mp hmem with hmem | hmem
  · exact hh.1 c hmem
  · exact hc c hmem

/-- Storing a state that fits, with the fingerprint of exact files, acknowledges
    what the files hold. -/
theorem Received.of_exact {v : Disk} {p l : FileNode} {s : TaskState} {revision : Nat}
    (hwithin : Within i h) (hdevice : v.device = i.device) (hexact : Exact v h p l)
    (hfits : Fits i s h) {f : Fingerprint} (hid : s.partialIdentity = some f)
    (hpart : f.part = p.info v.device) (hledger : f.ledger = l.info v.device) :
    Received i { v with store := { revision := revision, state := s } } h where
  request := hfits.request
  package := hfits.package
  deadline := hfits.deadline
  live := hfits.live
  phase := hfits.phase
  device := hdevice
  offset := hfits.offset
  count := hfits.count
  fit := hwithin.fit
  bounded := hwithin.bounded
  complete := hwithin.complete
  budget := by
    show ledgerSize v ≤ _
    rw [ledgerSize_some hexact.ledger, hexact.lines]
    exact hwithin.budget
  started := by
    intro _ hnone
    rw [show s.partialIdentity = none from hnone] at hid
    exact absurd hid (by simp)
  unpinned := by
    intro hnone
    rw [show s.partialIdentity = none from hnone] at hid
    exact absurd hid (by simp)
  pinned := by
    intro f' hf'
    obtain rfl : f = f' := Option.some.inj (hid.symm.trans hf')
    refine ⟨p, l, ⟨hexact.part, hexact.ledger, ?_, ?_, ?_, ?_⟩⟩
    · rw [hpart, ← hexact.data]
      exact ⟨rfl, rfl, rfl⟩
    · rw [hledger, ← hexact.lines]
      exact ⟨rfl, rfl, rfl⟩
    · rw [hexact.data]
    · rw [hexact.lines]

/-- While chunks are written: the files hold the acknowledged prefix and exactly
    the tails `a` and `b`, and the store is still `kept`. -/
structure Writing (i : Intent) (h : List Bytes) (kept : Envelope) (a b : Bytes) (v : Disk) :
    Prop where
  received : Received i v h
  store : v.store = kept
  size : (h.flatten ++ a).length ≤ maxFileSize
  files : ∃ p l, v.part = some p ∧ v.ledger = some l ∧ p.bytes = h.flatten ++ a ∧
    l.bytes = ledgerFrom .count 0 h ++ b

/-- More bytes behind the package. -/
theorem Writing.extendPart {kept : Envelope} {a b : Bytes} {v : Disk} (hw : Writing i h kept a b v)
    {position : Nat} (hpos : position = (h.flatten ++ a).length) (data : Bytes) (stamp : Nat)
    (hsize : position + data.length ≤ maxFileSize) :
    Writing i h kept (a ++ data) b
      { v with part := v.part.map (fun f => f.writeAt position data stamp) } := by
  obtain ⟨hr, hstore, -, p, l, hp, hl, hdata, hlines⟩ := hw
  have hsize' : (h.flatten ++ (a ++ data)).length ≤ maxFileSize := by
    rw [← List.append_assoc, List.length_append, ← hpos]
    exact hsize
  rw [hp, hpos, ← hdata]
  have hbytes : (p.writeAt p.bytes.length data stamp).bytes = h.flatten ++ (a ++ data) := by
    rw [writeAt_end, hdata, List.append_assoc]
  refine ⟨?_, hstore, hsize', _, l, rfl, hl, hbytes, hlines⟩
  refine hr.of_files rfl rfl hr.budget ?_
  intro f p' l' hf hpin
  obtain rfl : p = p' := Option.some.inj (hp.symm.trans hpin.part)
  obtain rfl : l = l' := Option.some.inj (hl.symm.trans hpin.ledger)
  refine ⟨p.writeAt p.bytes.length data stamp, l, ⟨rfl, hl, hpin.partInfo, hpin.ledgerInfo, ?_,
    hpin.lines⟩⟩
  rw [hbytes]
  exact List.prefix_append _ _

/-- More bytes behind the ledger, within its budget. -/
theorem Writing.extendLedger {kept : Envelope} {a b : Bytes} {v : Disk}
    (hw : Writing i h kept a b v) (data : Bytes) (stamp : Nat)
    (hbudget : (ledgerFrom .count 0 h ++ b ++ data).length ≤ i.request.budget.maxMetadataBytes) :
    Writing i h kept a (b ++ data)
      { v with ledger := v.ledger.map (fun f => f.writeAt f.bytes.length data stamp) } := by
  obtain ⟨hr, hstore, hsize, p, l, hp, hl, hdata, hlines⟩ := hw
  rw [hl]
  have hbytes : (l.writeAt l.bytes.length data stamp).bytes = ledgerFrom .count 0 h ++ (b ++ data) := by
    rw [writeAt_end, hlines, List.append_assoc]
  refine ⟨?_, hstore, hsize, p, _, hp, rfl, hdata, hbytes⟩
  refine hr.of_files rfl rfl ?_ ?_
  · show (l.writeAt l.bytes.length data stamp).bytes.length ≤ _
    rw [hbytes, ← List.append_assoc]
    exact hbudget
  · intro f p' l' hf hpin
    obtain rfl : p = p' := Option.some.inj (hp.symm.trans hpin.part)
    obtain rfl : l = l' := Option.some.inj (hl.symm.trans hpin.ledger)
    refine ⟨p, l.writeAt l.bytes.length data stamp, ⟨hp, rfl, hpin.partInfo, hpin.ledgerInfo,
      hpin.data, ?_⟩⟩
    rw [hbytes]
    exact List.prefix_append _ _

/-- A write adds its bytes, or a prefix of them under a fault. -/
theorem writePart_triple {kept : Envelope} {a b data : Bytes} {position : Nat}
    (hpos : position = (h.flatten ++ a).length)
    (hK : ∀ e v, v.store = kept → Received i v h → K e v) :
    Triple view (Writing i h kept a b) (writePart position data)
      (fun _ => Writing i h kept (a ++ data) b) K := by
  refine triple_check (fun v hv => hK _ v hv.store hv.received) (fun hfits => ?_)
  refine triple_effect (fun progress stamp v =>
    { v with part := v.part.map (fun f => f.writeAt position (written progress data) stamp) })
    (fun _ _ _ => rfl) ?_ ?_
  · intro stamp v hv
    exact hv.extendPart hpos data stamp (by omega)
  · intro e n stamp v hv
    have hshort := (List.take_prefix n data).length_le
    have hw := hv.extendPart hpos (data.take n) stamp (by omega)
    exact hK e _ hw.store hw.received

theorem appendLedger_triple {kept : Envelope} {a b data : Bytes}
    (hbudget : (ledgerFrom .count 0 h ++ b ++ data).length ≤ i.request.budget.maxMetadataBytes)
    (hK : ∀ e v, v.store = kept → Received i v h → K e v) :
    Triple view (Writing i h kept a b) (appendLedger data)
      (fun _ => Writing i h kept a (b ++ data)) K := by
  refine triple_getDisk (fun d => triple_check (fun v hv => hK _ v hv.1.store hv.1.received)
    (fun _ => ?_))
  refine triple_effect (fun progress stamp v =>
    let append := fun f : FileNode => f.writeAt f.bytes.length (written progress data) stamp
    { v with ledger := v.ledger.map append }) (fun _ _ _ => rfl) ?_ ?_
  · intro stamp v hv
    exact hv.1.extendLedger data stamp hbudget
  · intro e n stamp v hv
    have hshort : (ledgerFrom .count 0 h ++ b ++ data.take n).length
        ≤ i.request.budget.maxMetadataBytes := by
      have := (List.take_prefix n data).length_le
      simp only [List.length_append] at hbudget ⊢
      omega
    have hw := hv.1.extendLedger (data.take n) stamp hshort
    exact hK e _ hw.store hw.received

theorem writeAll_triple {kept : Envelope} {before : Guest Unit} (hbefore : Fixes Machine.disk before)
    {writes : List Bytes} {a b : Bytes} {position : Nat}
    (hpos : position = (h.flatten ++ a).length)
    (hK : ∀ e v, v.store = kept → Received i v h → K e v) :
    Triple view (Writing i h kept a b) (acknowledge.writeAll before position writes)
      (fun _ => Writing i h kept (a ++ writes.flatten) b) K := by
  induction writes generalizing a position with
  | nil =>
      refine triple_pure (fun v hv => ?_)
      rw [List.flatten_nil, List.append_nil]
      exact hv
  | cons data rest ih =>
      refine triple_skip (fixes_onDisk hbefore) (fun e v hv => hK e v hv.store hv.received)
        (fun _ => triple_bind (writePart_triple hpos hK) (fun _ => ?_))
      rw [List.flatten_cons, ← List.append_assoc]
      refine ih ?_
      rw [hpos]
      simp only [List.length_append]
      omega

theorem appendAll_triple {kept : Envelope} {before : Guest Unit}
    (hbefore : Fixes Machine.disk before) {lines : List Bytes} {a b : Bytes}
    (hbudget : (ledgerFrom .count 0 h ++ b ++ lines.flatten).length ≤ i.request.budget.maxMetadataBytes)
    (hK : ∀ e v, v.store = kept → Received i v h → K e v) :
    Triple view (Writing i h kept a b) (acknowledge.appendAll before lines)
      (fun _ => Writing i h kept a (b ++ lines.flatten)) K := by
  induction lines generalizing b with
  | nil =>
      refine triple_pure (fun v hv => ?_)
      rw [List.flatten_nil, List.append_nil]
      exact hv
  | cons line rest ih =>
      rw [List.flatten_cons] at hbudget ⊢
      have hline : (ledgerFrom .count 0 h ++ b ++ line).length ≤ i.request.budget.maxMetadataBytes := by
        simp only [List.length_append] at hbudget ⊢
        omega
      refine triple_skip (fixes_onDisk hbefore) (fun e v hv => hK e v hv.store hv.received)
        (fun _ => triple_bind (appendLedger_triple hline hK) (fun _ => ?_))
      rw [← List.append_assoc]
      refine ih ?_
      simpa only [List.append_assoc] using hbudget

/-- Both files exist and are exact once `createFiles` has run. -/
theorem createFiles_triple (hr : Received i v₀ h) (hsettled : Settled v₀ h)
    (hK : ∀ e v, v.store = v₀.store → Received i v h → K e v) :
    Triple view (fun v => v = v₀) createFiles
      (fun _ v => v.store = v₀.store ∧ Received i v h ∧ ∃ p l, Exact v h p l) K := by
  have hK₀ : ∀ e, K e v₀ := fun e => hK e v₀ rfl hr
  refine at_getDisk (fun d hd => ?_)
  have hpart : d.part = v₀.part := by rw [← hd]; rfl
  rw [hpart]
  refine triple_ite (fun hnone => ?_) (fun hsome => triple_pure (fun v hv => ?_))
  · obtain ⟨-, hledger, rfl⟩ : v₀.part = none ∧ v₀.ledger = none ∧ h = [] := by
      rcases hsettled with hs | ⟨p, l, hexact⟩
      · exact hs
      · have := hexact.part
        rw [hnone] at this
        exact absurd this (by simp)
    -- without files there is no protected identity yet, so any files are allowed
    have hfresh : ∀ f p l, v₀.store.state.partialIdentity = some f → ¬ Pinned v₀ f [] p l := by
      intro f p l _ hpin
      have := hpin.part
      rw [hnone] at this
      exact absurd this (by simp)
    have hfiles : ∀ v, v.store = v₀.store → v.device = v₀.device → ledgerSize v = 0 →
        Received i v [] := fun v hstore hdevice hsize =>
      hr.of_files hstore hdevice (by rw [hsize]; exact Nat.zero_le _)
        (fun f p l hf hpin => absurd hpin (hfresh f p l hf))
    refine triple_bind (Q := fun _ v => v.store = v₀.store ∧ v.device = v₀.device ∧
      v.ledger = none ∧ ∃ p, v.part = some p ∧ p.bytes = []) ?_
      (fun _ => triple_at (fun v₁ hv₁ => ?_))
    · refine at_probe hK₀ (at_getDisk (fun d' _ => at_check hK₀ (fun _ => ?_)))
      exact triple_allOrNothing (fun stamp v =>
        { v with part := some (newFile v.nextInode stamp), nextInode := v.nextInode + 1 })
        (fun _ _ => rfl) (fun _ => ⟨rfl, rfl, hledger, _, rfl, rfl⟩) hK₀ (fun e _ =>
          hK e _ rfl (hfiles _ rfl rfl (by unfold ledgerSize; rw [hledger]; rfl)))
    · obtain ⟨hstore, hdevice, hledger₁, p, hp, hbytes⟩ := hv₁
      have hK₁ : ∀ e, K e v₁ := fun e => hK e v₁ hstore
        (hfiles v₁ hstore hdevice (by unfold ledgerSize; rw [hledger₁]; rfl))
      refine at_probe hK₁ (at_getDisk (fun d' _ => at_check hK₁ (fun _ => ?_)))
      exact triple_allOrNothing (fun stamp v =>
        { v with ledger := some (newFile v.nextInode stamp), nextInode := v.nextInode + 1 })
        (fun _ _ => rfl) (fun _ => ⟨hstore, hfiles _ hstore hdevice rfl, p, _, hp, rfl, hbytes, rfl⟩)
        hK₁ (fun e _ => hK e _ hstore (hfiles _ hstore hdevice rfl))
  · subst hv
    refine ⟨rfl, hr, ?_⟩
    rcases hsettled with hs | hexact
    · exact absurd hs.1 hsome
    · exact hexact

/-- **Acknowledging chunks**: the state moves from `h` to `h ++ chunks` in its
    last save; until then `h` is what is acknowledged. -/
theorem acknowledge_triple {policy : Policy} {fresh : Envelope} {s : TaskState}
    {before : Guest Unit} {chunks : List Bytes} {p l : FileNode}
    (hbefore : Fixes Machine.disk before) (hdevice : v₀.device = i.device)
    (hexact : Exact v₀ h p l) (hfits : Fits i s h) (hphase : s.phase = .destReceiving)
    (hwithin : Within i h)
    (hfull : ∀ c ∈ chunks, c ≠ [])
    (hbounded : ∀ c ∈ chunks, c.length ≤ i.request.budget.maxChunkBytes)
    (hcomplete : (h ++ chunks).flatten.length ≤ i.package.size)
    (hbudget : (ledgerFrom .count 0 (h ++ chunks)).length ≤ i.request.budget.maxMetadataBytes)
    (hK₀ : ∀ e, K e v₀) (hK : ∀ e v, Received i v h → K e v)
    (hK' : ∀ e v, Unconfirmed e → Received i v (h ++ chunks) → K e v) :
    Triple view (fun v => v = v₀)
      (acknowledge policy fresh s before h.flatten.length chunks
        ((recordsFrom h.flatten.length chunks).map (Record.line .count)))
      (fun s' v => s'.offset = (h ++ chunks).flatten.length ∧ Received i v (h ++ chunks)) K := by
  unfold acknowledge
  refine triple_bind (fingerprint_triple hK₀) (fun pinned => triple_at (fun v hv => ?_))
  obtain ⟨rfl, p', l', hp', hl', rfl⟩ := hv
  obtain rfl : p = p' := Option.some.inj (hexact.part.symm.trans hp')
  obtain rfl : l = l' := Option.some.inj (hexact.ledger.symm.trans hl')
  -- the identity is pinned before the first byte is written
  have hpinned : ∀ revision, Received i { v with store :=
      { revision := revision, state := (s.pin (fingerprint v s p l)).saved } } h :=
    fun revision => Received.of_exact hwithin hdevice hexact (hfits.pin _).saved
      (by rw [saved_partialIdentity]; rfl) rfl rfl
  refine triple_bind (save_triple hK₀ (fun e _ => hK e _ (hpinned _)))
    (fun fresh' => triple_at (fun v₁ hv₁ => ?_))
  obtain ⟨rfl, rfl⟩ := hv₁
  refine triple_pre (P := Writing i h
    { revision := fresh.revision + 1, state := (s.pin (fingerprint v s p l)).saved } [] []) ?_ ?_
  rotate_left
  · rintro v' rfl
    refine ⟨hpinned _, rfl, ?_, p, l, hexact.part, hexact.ledger,
      by rw [hexact.data, List.append_nil], by rw [hexact.lines, List.append_nil]⟩
    have := hwithin.fit.2
    rw [List.append_nil]
    omega
  have hlines : ledgerFrom .count 0 h ++ ((recordsFrom h.flatten.length chunks).map (Record.line .count)).flatten
      = ledgerFrom .count 0 (h ++ chunks) := by
    rw [ledgerFrom_append, Nat.zero_add]
    rfl
  refine triple_bind (writeAll_triple hbefore (by simp) (fun e v _ hr => hK e v hr)) (fun _ => ?_)
  rw [List.nil_append]
  refine triple_bind (appendAll_triple hbefore ?_ (fun e v _ hr => hK e v hr))
    (fun _ => triple_at (fun v₂ hw => ?_))
  · rw [List.append_nil, hlines]
    exact hbudget
  rw [List.nil_append] at hw
  obtain ⟨hr₂, hstore₂, hsize₂, p₂, l₂, hp₂, hl₂, hdata₂, hlines₂⟩ := hw
  have hwithin' : Within i (h ++ chunks) := by
    refine ⟨chunksFit_append hwithin.fit hfull ?_, ?_, hcomplete, hbudget⟩
    · rw [List.flatten_append]
      exact hsize₂
    · intro c hc
      exact (List.mem_append.mp hc).elim (hwithin.bounded c) (hbounded c)
  have hexact₂ : Exact v₂ (h ++ chunks) p₂ l₂ :=
    ⟨hp₂, hl₂, by rw [hdata₂, List.flatten_append], by rw [hlines₂, hlines]⟩
  refine triple_bind (fingerprint_triple (fun e => hK e v₂ hr₂))
    (fun now => triple_at (fun v₃ hv₃ => ?_))
  obtain ⟨rfl, p', l', hp', hl', rfl⟩ := hv₃
  obtain rfl : p₂ = p' := Option.some.inj (hp₂.symm.trans hp')
  obtain rfl : l₂ = l' := Option.some.inj (hl₂.symm.trans hl')
  have hoffset : h.flatten.length + chunks.flatten.length = (h ++ chunks).flatten.length := by
    rw [List.flatten_append, List.length_append]
  have hcount : s.chunkCount + ((recordsFrom h.flatten.length chunks).map (Record.line .count)).length
      = (h ++ chunks).length := by
    rw [hfits.count, List.length_map, recordsFrom_length, List.length_append]
  rw [hoffset, hcount]
  have hfits' : Fits i ((s.pin (fingerprint v s p l)).advance policy (h ++ chunks).flatten.length
      (h ++ chunks).length) (h ++ chunks) := (hfits.pin _).advance policy hphase
  have hdevice₂ : v₃.device = i.device := hr₂.device
  refine triple_bind (save_triple (fun e => hK e v₃ hr₂) (fun e he => hK' e _ he
    (Received.of_exact hwithin' hdevice₂ hexact₂ (hfits'.pin _).saved
      (by rw [saved_partialIdentity]; rfl) rfl rfl))) (fun _ => triple_pure (fun v' hv' => ?_))
  rw [hv'.2]
  exact ⟨hfits'.offset, Received.of_exact hwithin' hdevice₂ hexact₂ (hfits'.pin _).saved
    (by rw [saved_partialIdentity]; rfl) rfl rfl⟩

end Acknowledge

/-! ## The two reception calls -/

section Calls

variable {i : Intent} {h : List Bytes} {v₀ : Disk} {K : Option Failure → Disk → Prop}
  {policy : Policy}

/-- The bytes that a chunk request carries. -/
def ChunkCall.data (c : ChunkCall) : Option Bytes := c.dataBase64.bind Base64.decode

def BatchItem.data (b : BatchItem) : Option Bytes := b.dataBase64.bind Base64.decode

/-- The bytes that a batch request carries, chunk by chunk; none when an item
    carries none. -/
def BatchCall.data (c : BatchCall) : Option (List Bytes) :=
  (c.chunks.getD []).mapM (fun item => item.bind BatchItem.data)

theorem chunkTexts_triple {limit : Nat} {data sha : Option Text} (hK : ∀ e, K e v₀) :
    Triple view (fun v => v = v₀) (chunkTexts limit data sha)
      (fun r v => v = v₀ ∧ data = some r.1 ∧ sha = some r.2) K := by
  unfold chunkTexts
  cases data with
  | none => exact triple_raise (fun v hv => hv ▸ hK _)
  | some data =>
      cases sha with
      | none => exact triple_raise (fun v hv => hv ▸ hK _)
      | some sha => exact at_check hK (fun _ => triple_pure (fun v hv => ⟨hv, rfl, rfl⟩))

/-- Decoded bytes have the announced count and digest. -/
theorem decodeChunk_triple {count : Nat} {text sha : Text} (hK : ∀ e, K e v₀) :
    Triple view (fun v => v = v₀) (decodeChunk count text sha)
      (fun data v => v = v₀ ∧ Base64.decode text = some data ∧ data.length = count ∧
        hexdigest data = sha) K := by
  unfold decodeChunk
  cases hdecode : Base64.decode text with
  | none => exact triple_raise (fun v hv => hv ▸ hK _)
  | some raw =>
      refine at_check hK (fun hraw => triple_pure (fun v hv => ⟨hv, rfl, ?_, ?_⟩))
      · exact not_not.mp (fun hne => hraw (Or.inl hne))
      · exact not_not.mp (fun hne => hraw (Or.inr hne))

theorem Settled.ledgerSize {v : Disk} (hs : Settled v h) :
    ledgerSize v = (ledgerFrom .count 0 h).length := by
  rcases hs with ⟨-, hl, rfl⟩ | ⟨p, l, hexact⟩
  · rw [GuestTask.ledgerSize, hl]
    rfl
  · rw [ledgerSize_some hexact.ledger, hexact.lines]

theorem Received.ledger_le {v : Disk} (hr : Received i v h) :
    (ledgerFrom .count 0 h).length ≤ ledgerSize v := by
  cases hid : v.store.state.partialIdentity with
  | none =>
      obtain rfl := hr.unpinned hid
      exact Nat.zero_le _
  | some f =>
      obtain ⟨p, l, hpin⟩ := hr.pinned f hid
      rw [ledgerSize_some hpin.ledger]
      exact hpin.lines.length_le

/-- The ledger of acknowledged chunks stays within its budget. -/
theorem Received.within {v : Disk} (hr : Received i v h) : Within i h :=
  ⟨hr.fit, hr.bounded, hr.complete, Nat.le_trans hr.ledger_le hr.budget⟩

/-- What a single chunk request ends in.  A value is a replay of acknowledged
    bytes or the acknowledgement of new ones; an early end changes nothing, except
    that the last save may have taken place unconfirmed. -/
def ChunkDone (i : Intent) (h : List Bytes) (c : ChunkCall) (r : ChunkReply) (v : Disk) : Prop :=
  ∃ data, c.data = some data ∧ 0 ≤ c.offset ∧
    ((r.replayed = true ∧ Received i v h ∧ r.verifiedOffset = h.flatten.length ∧
        c.offset.toNat + data.length ≤ h.flatten.length ∧
        (h.flatten.drop c.offset.toNat).take data.length = data) ∨
      (r.replayed = false ∧ c.offset.toNat = h.flatten.length ∧ Received i v (h ++ [data]) ∧
        r.verifiedOffset = (h ++ [data]).flatten.length))

def ChunkEarly (i : Intent) (h : List Bytes) (c : ChunkCall) (e : Option Failure) (v : Disk) :
    Prop :=
  Received i v h ∨ (Unconfirmed e ∧ ∃ data, c.data = some data ∧ 0 ≤ c.offset ∧
    c.offset.toNat = h.flatten.length ∧ Received i v (h ++ [data]))

/-- The stored bytes of an acknowledged range are those of the chunks. -/
theorem Received.slice {v : Disk} (hr : Received i v h) {offset count : Nat}
    (hrange : offset + count ≤ h.flatten.length) :
    ((v.part.elim [] FileNode.bytes).drop offset).take count
      = (h.flatten.drop offset).take count := by
  cases hid : v.store.state.partialIdentity with
  | none =>
      obtain rfl := hr.unpinned hid
      obtain rfl : count = 0 := by simp at hrange; omega
      rfl
  | some f =>
      obtain ⟨p, l, hpin⟩ := hr.pinned f hid
      obtain ⟨tail, htail⟩ := hpin.data
      rw [hpin.part]
      show (p.bytes.drop offset).take count = _
      rw [← htail, List.drop_append_of_le_length (by omega),
        List.take_append_of_le_length (by rw [List.length_drop]; omega)]

/-- **The single-chunk call**, from any acknowledged prefix, under any script. -/
theorem transferChunk_triple {c : ChunkCall} (hr : Received i v₀ h) :
    Triple view (fun v => v = v₀) (transferChunk policy c) (ChunkDone i h c) (ChunkEarly i h c) := by
  have hkeep : ∀ e v, Received i v h → ChunkEarly i h c e v := fun _ _ hv => Or.inl hv
  have hK₀ : ∀ e, ChunkEarly i h c e v₀ := fun e => hkeep e v₀ hr
  refine at_check hK₀ (fun hrange => at_probe hK₀ (at_load hK₀ (fun _ _ => ?_)))
  refine at_quiet fixes_monotonic hK₀ (fun now => at_check hK₀ (fun hcount => at_check hK₀
    (fun _ => ?_)))
  refine triple_bind (chunkTexts_triple hK₀) (fun texts => triple_at (fun v hv => ?_))
  obtain ⟨text, sha⟩ := texts
  obtain ⟨rfl, htext, -⟩ := hv
  refine triple_bind (decodeChunk_triple hK₀) (fun data => triple_at (fun v₁ hv => ?_))
  obtain ⟨rfl, hdecode, hlength, hsha⟩ := hv
  have hdata : c.data = some data := by rw [ChunkCall.data, htext]; exact hdecode
  refine at_probe hK₀ (at_load hK₀ (fun _ _ => at_check hK₀ (fun _ => ?_)))
  refine triple_skip fixes_checkIdle (fun e _ hv => hv ▸ hK₀ e) (fun _ => ?_)
  refine at_check hK₀ (fun _ => at_check hK₀ (fun hsize => ?_))
  refine triple_bind (verifiedPartial_triple hr (fun e v _ hv => hkeep e v hv))
    (fun r => triple_at (fun v hv => ?_))
  obtain ⟨sha', s⟩ := r
  obtain ⟨hstore, hr₁, hsettled, hverified⟩ := hv
  have hs : s = { v₁.store.state with partialIdentity := s.partialIdentity } := hverified.state
  have hfits : Fits i s h := by
    rw [hs]
    exact hr.fits.identity _
  have hK₂ : ∀ e, ChunkEarly i h c e v := fun e => hkeep e v hr₁
  show Triple view _ (if c.offset.toNat < s.offset then _ else _) _ _
  rw [hfits.offset]
  refine triple_ite (fun hreplay => at_check hK₂ (fun hinside => at_probe hK₂
    (at_getDisk (fun d hd => at_check hK₂ (fun hequal => ?_))))) (fun _ => at_check hK₂
    (fun hoffset => at_getDisk (fun d hd => at_check hK₂ (fun hmetadata => ?_))))
  · -- the range is acknowledged: its bytes were compared
    have hpart : d.part = v.part := by rw [← hd]; rfl
    rw [hpart, hr₁.slice (by omega)] at hequal
    refine triple_pure (fun v' hv' => ?_)
    subst hv'
    refine ⟨data, hdata, by omega, Or.inl ⟨rfl, hr₁, rfl, by rw [hlength]; omega, ?_⟩⟩
    rw [hlength]
    exact not_not.mp hequal
  · -- the range starts at the acknowledged offset: a new chunk
    have hphase : s.phase = .destReceiving := not_not.mp (fun hne => hoffset (Or.inr hne))
    have hoffset : c.offset.toNat = h.flatten.length := not_not.mp (fun hne => hoffset (Or.inl hne))
    refine triple_skip (fixes_onDisk (fixes_space _ _ _)) (fun e _ hv => hv ▸ hK₂ e) (fun _ => ?_)
    refine triple_bind (createFiles_triple hr₁ hsettled (fun e v _ hv => hkeep e v hv))
      (fun _ => triple_at (fun v₃ hv₃ => ?_))
    obtain ⟨-, hr₃, p, l, hexact⟩ := hv₃
    have hledger : ledgerSize d = (ledgerFrom .count 0 h).length := by
      rw [show ledgerSize d = ledgerSize v by rw [← hd]; rfl]
      exact hsettled.ledgerSize
    have hline : Record.line .count { offset := c.offset.toNat, count := c.count.toNat, sha256 := sha }
        = (chunkRecord h.flatten.length data).line .count := by
      rw [← hsha, ← hlength, hoffset]
      rfl
    have hbudget₃ : (ledgerFrom .count 0 (h ++ [data])).length ≤ i.request.budget.maxMetadataBytes := by
      rw [ledgerFrom_append, List.length_append, Nat.zero_add, ledgerFrom_cons]
      have hroom := not_lt.mp hmetadata
      rw [hledger, hline, hfits.request] at hroom
      simpa [ledgerFrom, recordsFrom] using hroom
    have hmaximum : maximumChunk policy v₁.store.state ≤ i.request.budget.maxChunkBytes := by
      rw [maximumChunk, hr.request]
      omega
    have hnew : ∀ c ∈ [data], c ≠ [] ∧ c.length ≤ i.request.budget.maxChunkBytes := by
      intro c hc
      obtain rfl := List.mem_singleton.mp hc
      refine ⟨fun hnil => ?_, by omega⟩
      rw [hnil, List.length_nil] at hlength
      omega
    have hcomplete : (h ++ [data]).flatten.length ≤ i.package.size := by
      rw [hr.package] at hsize
      simp only [List.flatten_append, List.length_append, List.flatten_cons, List.flatten_nil,
        List.append_nil]
      omega
    have hlines : [Record.line .count { offset := c.offset.toNat, count := c.count.toNat, sha256 := sha }]
        = (recordsFrom h.flatten.length [data]).map (Record.line .count) := congrArg (fun x => [x]) hline
    rw [hlines, hoffset]
    refine triple_bind (acknowledge_triple (fixes_pure _) hr₃.device hexact
      ⟨hfits.request, hfits.package, hfits.deadline, hfits.live, hfits.phase, rfl, hfits.count⟩
      hphase hr₃.within (fun c hc => (hnew c hc).1) (fun c hc => (hnew c hc).2) hcomplete hbudget₃
      (fun e => hkeep e _ hr₃) hkeep
      (fun e v he hv => Or.inr ⟨he, data, hdata, by omega, hoffset, hv⟩))
      (fun s' => triple_pure (fun v' hv' => ?_))
    exact ⟨data, hdata, by omega, Or.inr ⟨rfl, hoffset, hv'.2, hv'.1⟩⟩

/-- A prepared chunk is nonempty, within the limit, and has its own digest. -/
structure Prepared (maximum : Nat) (x : Bytes × Text) : Prop where
  full : x.1 ≠ []
  bounded : x.1.length ≤ maximum
  digest : x.2 = hexdigest x.1

/-- Preparing a batch decodes every item of it. -/
theorem prepareBatch_triple {s : TaskState} {maximum total : Nat} {items : List (Option BatchItem)}
    (hK : ∀ e, K e v₀) :
    Triple view (fun v => v = v₀) (prepareBatch s maximum total items)
      (fun r v => v = v₀ ∧ items.mapM (fun item => item.bind BatchItem.data) = some (r.map Prod.fst) ∧
        ∀ x ∈ r, Prepared maximum x) K := by
  induction items generalizing total with
  | nil => exact triple_pure (fun v hv => ⟨hv, rfl, fun x hx => absurd hx (by simp)⟩)
  | cons item rest ih =>
      cases item with
      | none => exact triple_raise (fun v hv => hv ▸ hK _)
      | some item =>
          refine at_check hK (fun hcount => ?_)
          refine triple_bind (chunkTexts_triple hK) (fun texts => triple_at (fun v hv => ?_))
          obtain ⟨text, sha⟩ := texts
          obtain ⟨rfl, htext, -⟩ := hv
          refine at_check hK (fun _ => at_quiet (fixes_budgetCheck _ _) hK (fun _ => ?_))
          refine triple_bind (decodeChunk_triple hK) (fun data => triple_at (fun v' hv => ?_))
          obtain ⟨rfl, hdecode, hlength, hsha⟩ := hv
          have hdata : item.data = some data := by rw [BatchItem.data, htext]; exact hdecode
          refine triple_bind ih (fun prepared => triple_pure (fun v hv => ⟨hv.1, ?_, ?_⟩))
          · rw [List.mapM_cons, hv.2.1]
            show (item.data >>= _) = _
            rw [hdata]
            rfl
          · intro x hx
            rcases List.mem_cons.mp hx with rfl | hx
            · refine ⟨?_, ?_, hsha.symm⟩
              · rintro rfl
                rw [List.length_nil] at hlength
                omega
              · show data.length ≤ maximum
                omega
            · exact hv.2.2 x hx

/-- The ledger lines of prepared chunks are those of their records. -/
theorem batchLines_eq {maximum position : Nat} {prepared : List (Bytes × Text)}
    (hp : ∀ x ∈ prepared, Prepared maximum x) :
    batchLines position prepared
      = (recordsFrom position (prepared.map Prod.fst)).map (Record.line .count) := by
  induction prepared generalizing position with
  | nil => rfl
  | cons x rest ih =>
      obtain ⟨data, sha⟩ := x
      obtain rfl : sha = hexdigest data := (hp _ List.mem_cons_self).digest
      exact congrArg (Record.line .count _ :: ·) (ih (fun y hy => hp y (List.mem_cons_of_mem _ hy)))

/-- What a batch request ends in: it is acknowledged as a whole or not at all. -/
def BatchDone (i : Intent) (h : List Bytes) (c : BatchCall) (r : BatchReply) (v : Disk) : Prop :=
  ∃ chunks, c.data = some chunks ∧ 0 ≤ c.offset ∧ c.offset.toNat = h.flatten.length ∧
    r.accepted = chunks.length ∧ r.verifiedOffset = (h ++ chunks).flatten.length ∧
    Received i v (h ++ chunks)

def BatchEarly (i : Intent) (h : List Bytes) (c : BatchCall) (e : Option Failure) (v : Disk) :
    Prop :=
  Received i v h ∨ (Unconfirmed e ∧ ∃ chunks, c.data = some chunks ∧ 0 ≤ c.offset ∧
    c.offset.toNat = h.flatten.length ∧ Received i v (h ++ chunks))

/-- **The batch call**, from any acknowledged prefix, under any script. -/
theorem transferChunks_triple {c : BatchCall} (hr : Received i v₀ h) :
    Triple view (fun v => v = v₀) (transferChunks policy c) (BatchDone i h c)
      (BatchEarly i h c) := by
  have hkeep : ∀ e v, Received i v h → BatchEarly i h c e v := fun _ _ hv => Or.inl hv
  have hK₀ : ∀ e, BatchEarly i h c e v₀ := fun e => hkeep e v₀ hr
  refine at_check hK₀ (fun _ => at_check hK₀ (fun hnegative => at_probe hK₀ (at_load hK₀
    (fun _ _ => at_check hK₀ (fun _ => at_check hK₀ (fun _ => at_check hK₀ (fun _ => ?_)))))))
  refine triple_bind (prepareBatch_triple hK₀) (fun prepared => triple_at (fun v hv => ?_))
  obtain ⟨rfl, hdata, hprepared⟩ := hv
  refine at_probe hK₀ (at_load hK₀ (fun _ _ => at_check hK₀ (fun _ => at_check hK₀ (fun _ =>
    at_check hK₀ (fun hoffset => at_check hK₀ (fun hsize => at_probe hK₀
    (at_getDisk (fun d hd => at_check hK₀ (fun hmetadata => ?_)))))))))
  refine at_quiet (fixes_space _ _ _) hK₀ (fun _ => at_quiet (fixes_encodeProspective _ _ _ _ _) hK₀
    (fun _ => triple_skip fixes_checkIdle (fun e _ hv => hv ▸ hK₀ e) (fun _ => ?_)))
  refine triple_bind (verifiedPartial_triple hr (fun e v _ hv => hkeep e v hv))
    (fun r => triple_at (fun v₁ hv => ?_))
  obtain ⟨sha', s⟩ := r
  obtain ⟨-, hr₁, hsettled, hverified⟩ := hv
  have hs : s = { v.store.state with partialIdentity := s.partialIdentity } := hverified.state
  have hfits : Fits i s h := by
    rw [hs]
    exact hr.fits.identity _
  refine at_quiet (fixes_budgetCheck _ _) (fun e => hkeep e v₁ hr₁) (fun _ => ?_)
  refine triple_bind (createFiles_triple hr₁ hsettled (fun e v _ hv => hkeep e v hv))
    (fun _ => triple_at (fun v₃ hv₃ => ?_))
  obtain ⟨-, hr₃, p, l, hexact⟩ := hv₃
  have hphase : s.phase = .destReceiving := by
    rw [hs]
    exact not_not.mp (fun hne => hoffset (Or.inr hne))
  have hoffset : c.offset.toNat = h.flatten.length := by
    rw [← hr.offset]
    exact not_not.mp (fun hne => hoffset (Or.inl hne))
  have hchunks : ∀ x ∈ prepared.map Prod.fst,
      x ≠ [] ∧ x.length ≤ i.request.budget.maxChunkBytes := by
    intro x hx
    obtain ⟨y, hy, rfl⟩ := List.mem_map.mp hx
    refine ⟨(hprepared y hy).full, Nat.le_trans (hprepared y hy).bounded ?_⟩
    rw [maximumChunk, hr.request]
    omega
  have hcomplete : (h ++ prepared.map Prod.fst).flatten.length ≤ i.package.size := by
    rw [hr.package] at hsize
    rw [List.flatten_append, List.length_append]
    omega
  rw [batchLines_eq hprepared, hoffset] at hmetadata
  have hbudget : (ledgerFrom .count 0 (h ++ prepared.map Prod.fst)).length
      ≤ i.request.budget.maxMetadataBytes := by
    have hledger : (ledgerFrom .count 0 h).length ≤ ledgerSize d := by
      rw [show ledgerSize d = ledgerSize v by rw [← hd]; rfl]
      exact hr.ledger_le
    have hroom := not_lt.mp hmetadata
    rw [hr.request] at hroom
    rw [ledgerFrom_append, List.length_append, Nat.zero_add]
    exact Nat.le_trans (Nat.add_le_add_right hledger _) hroom
  rw [batchLines_eq hprepared, hoffset]
  refine triple_bind (acknowledge_triple (fixes_budgetCheck _ _) hr₃.device hexact hfits.unproved
    hphase hr₃.within (fun c hc => (hchunks c hc).1) (fun c hc => (hchunks c hc).2) hcomplete hbudget
    (fun e => hkeep e _ hr₃) hkeep
    (fun e v he hv => Or.inr ⟨he, _, hdata, by omega, hoffset, hv⟩))
    (fun s' => triple_pure (fun v' hv' => ?_))
  refine ⟨_, hdata, by omega, hoffset, ?_, hv'.1, hv'.2⟩
  rw [List.length_map, recordsFrom_length]

end Calls

end GuestTask
