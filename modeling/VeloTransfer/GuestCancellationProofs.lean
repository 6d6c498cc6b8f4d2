import VeloTransfer.GuestConcurrencyProofs

/-! # Guest cancellation — what a saved abort holds back

    Once the cancelled state is stored, every transaction either refuses or
    leaves the acknowledged progress, the begun actions and the registered
    worker as they are.  The unlocked cuts of a live worker stay at the
    acknowledged offset, because no chunk is accepted while the worker that
    holds the lease is alive (`Attached`).

    The authorization of a release is the one transaction that does not look at
    the cancellation: `retained` says what holds of the runs in which it does
    not meet one. -/

namespace GuestTask

open EffectPrograms Program FaultScript FileNodes ChunkLog CanonicalJson JsonLine Sha256 GuestTerminal ExceptRules

/-- The whole disk, with the lease. -/
abbrev whole : Machine Failure Disk → Disk := onDisk id

section Programs

variable {α β : Type} {m : Guest α} {d d' : Disk}

/-- However a run from the disk `d` ends, its disk satisfies `A`. -/
def Ends (A : Disk → Prop) (m : Guest α) (d : Disk) : Prop :=
  Triple whole (fun v => v = d) m (fun _ v => A v) (fun _ v => A v)

/-- No run from the disk `d` returns, and none changes the disk. -/
def Refuses (m : Guest α) (d : Disk) : Prop :=
  Triple whole (fun v => v = d) m (fun _ _ => False) (fun _ v => v = d)

/-- Every run keeps the assertion `P` about the disk. -/
def Keeps (P : Disk → Prop) (m : Guest α) : Prop :=
  Triple whole P m (fun _ v => P v) (fun _ v => P v)

theorem Ends.ran {A : Disk → Prop} (h : Ends A m d) (hrun : Ran m d d') : A d' := by
  obtain ⟨x, hx, hd'⟩ := hrun
  have hend := h x hx
  rw [show whole (m x).2 = d' from hd'] at hend
  cases ho : (m x).1 with
  | done a => rw [ho] at hend; exact hend
  | raised e => rw [ho] at hend; exact hend
  | crashed => rw [ho] at hend; exact hend

theorem Refuses.ends (h : Refuses m d) : Ends (fun v => v = d) m d :=
  triple_post h (fun _ _ hv => hv.elim)

theorem Refuses.returned {a : α} (h : Refuses m d) (hrun : Returned m d a d') : False := by
  obtain ⟨x, hx, ha, -⟩ := hrun
  have hend := h x hx
  rw [ha] at hend
  exact hend

theorem refuses_bind {k : α → Guest β} (h : Refuses m d) : Refuses (m >>= k) d :=
  triple_bind h (fun _ _ hv => hv.elim)

theorem Keeps.ran {P : Disk → Prop} (h : Keeps P m) (hd : P d) (hrun : Ran m d d') : P d' :=
  Ends.ran (triple_pre h (fun _ hv => hv ▸ hd)) hrun

variable {P : Disk → Prop}

theorem keeps_bind {k : α → Guest β} (hm : Keeps P m) (hk : ∀ a, Keeps P (k a)) :
    Keeps P (m >>= k) := triple_bind hm hk

theorem keeps_fixes (hm : Fixes Machine.disk m) : Keeps P m :=
  triple_fixes (fixes_onDisk hm) (fun _ _ hv => hv)

theorem keeps_pure (a : α) : Keeps P (pure a : Guest α) := triple_pure (fun _ hv => hv)

theorem keeps_raise (e : Failure) : Keeps P (raise e : Guest α) := triple_raise (fun _ hv => hv)

theorem keeps_check (c : Prop) [Decidable c] (code : String) : Keeps P (rejectIf c code) :=
  keeps_fixes (fixes_raiseIf _ _)

theorem keeps_ite {c : Prop} [Decidable c] {m' : Guest α} (hm : Keeps P m) (hm' : Keeps P m') :
    Keeps P (if c then m else m') := triple_ite (fun _ => hm) (fun _ => hm')

theorem keeps_whenever {c : Prop} [Decidable c] {m : Guest Unit} (hm : Keeps P m) :
    Keeps P (whenever c m) := keeps_ite hm (keeps_pure ())

theorem keeps_handle {h : Failure → Guest α} (hm : Keeps P m) (hh : ∀ e, Keeps P (h e)) :
    Keeps P (handle m h) := triple_recover hm (fun _ hv => hv) hh

theorem keeps_effect {change : Option Nat → Nat → Disk → Disk}
    (h : ∀ progress stamp d, P d → P (change progress stamp d)) : Keeps P (effect change) :=
  triple_effect change (fun _ _ _ => rfl) (fun _ _ hv => h _ _ _ hv) (fun _ _ _ _ hv => h _ _ _ hv)

theorem keeps_allOrNothing {put : Nat → Disk → Disk} (h : ∀ stamp d, P d → P (put stamp d)) :
    Keeps P (allOrNothing put) := by
  refine keeps_effect (fun progress stamp d hd => ?_)
  by_cases hn : happened progress = true
  · rw [if_pos hn]
    exact h stamp d hd
  · rw [if_neg hn]
    exact hd

/-- Nothing need be said of a run. -/
theorem keeps_true (m : Guest α) : Keeps (fun _ => True) m := by
  intro s _
  cases (m s).1 with
  | done a => trivial
  | raised e => trivial
  | crashed => trivial

theorem fixes_protocol {x : Except String α} : Fixes Machine.disk (protocol x) := by
  cases x with
  | ok a => exact fixes_pure a
  | error code => exact fixes_raise _

end Programs

/-! ## No proof beside a cancellation -/

/-- A cancelled task stores no proof of its prefix. -/
def Proofless (d : Disk) : Prop :=
  d.store.state.cancelled = true → d.store.state.prefixVerification = none

theorem saved_proof (s : TaskState) :
    s.saved.cancelled = true → s.saved.prefixVerification = none := by
  intro h
  rw [saved_cancelled] at h
  unfold TaskState.saved
  rw [if_pos (Or.inl h)]

theorem Proofless.of_store {d d' : Disk} (h : Proofless d) (hstore : d'.store = d.store) :
    Proofless d' := by
  unfold Proofless
  rw [hstore]
  exact h

section KeepsProofless

variable (policy : Policy)

theorem keeps_saved (envelope : Envelope) (s : TaskState) :
    Keeps Proofless (save policy envelope s) := by
  refine triple_at (fun v₀ hv₀ => ?_)
  refine triple_conseq (save_triple (g := id) (K := fun _ v => Proofless v)
    (fun _ => hv₀) (fun _ _ => saved_proof s)) (fun _ hv => hv) ?_ (fun _ _ hv => hv)
  rintro _ v ⟨-, rfl⟩
  exact saved_proof s

theorem keeps_files {change : Option Nat → Nat → Disk → Disk}
    (h : ∀ progress stamp d, (change progress stamp d).store = d.store) :
    Keeps Proofless (effect change) :=
  keeps_effect (fun progress stamp d hd => hd.of_store (h progress stamp d))

theorem keeps_fileEvent {put : Nat → Disk → Disk} (h : ∀ stamp d, (put stamp d).store = d.store) :
    Keeps Proofless (allOrNothing put) :=
  keeps_allOrNothing (fun stamp d hd => hd.of_store (h stamp d))

theorem keeps_clearLease : Keeps Proofless clearLease := keeps_fileEvent (fun _ _ => rfl)

/-- The idle check touches the lease alone. -/
theorem keeps_lease {P : Disk → Prop} {live : List Owner}
    (h : ∀ d active, P d → P { d with active := active }) : Keeps P (checkIdleAmong live) := by
  refine keeps_bind (keeps_fixes fixes_probe) (fun _ => keeps_bind (keeps_fixes fixes_getDisk)
    (fun d => ?_))
  cases d.active with
  | none => exact keeps_pure ()
  | some o =>
      exact keeps_bind (keeps_fixes fixes_observe) (fun _ => keeps_bind (keeps_check _ _)
        (fun _ => keeps_bind (keeps_fixes fixes_probe)
          (fun _ => keeps_allOrNothing (fun _ d hd => h d none hd))))

theorem keeps_checkIdleAmong (live : List Owner) : Keeps Proofless (checkIdleAmong live) :=
  keeps_lease (fun _ _ hd => hd)

theorem keeps_createFiles : Keeps Proofless createFiles := by
  refine keeps_bind (keeps_fixes fixes_getDisk) (fun d => keeps_ite ?_ (keeps_pure ()))
  refine keeps_bind ?_ (fun _ => ?_)
  · exact keeps_bind (keeps_fixes fixes_probe) (fun _ => keeps_bind (keeps_fixes fixes_getDisk)
      (fun d => keeps_bind (keeps_fixes (fixes_raiseIf _ _))
        (fun _ => keeps_fileEvent (fun _ _ => rfl))))
  · exact keeps_bind (keeps_fixes fixes_probe) (fun _ => keeps_bind (keeps_fixes fixes_getDisk)
      (fun d => keeps_bind (keeps_fixes (fixes_raiseIf _ _))
        (fun _ => keeps_fileEvent (fun _ _ => rfl))))

theorem keeps_verifiedPartial (s : TaskState) (force shortCall : Bool) (cancel : CancelCheck) :
    Keeps Proofless (verifiedPartial s force shortCall cancel) := by
  refine keeps_bind (keeps_fixes (fixes_budgetCheck _ _)) (fun _ =>
    keeps_bind (keeps_fixes fixes_getDisk) (fun d => keeps_ite (keeps_pure _) ?_))
  refine keeps_bind (keeps_fixes fixes_probe) (fun _ => ?_)
  split
  next p l _ _ =>
    refine keeps_bind (keeps_check _ _) (fun _ => ?_)
    split
    next => exact keeps_raise _
    next owned _ =>
      refine keeps_bind (keeps_check _ _) (fun _ => keeps_ite (keeps_pure _) ?_)
      refine keeps_bind (keeps_check _ _) (fun _ => keeps_bind (keeps_check _ _) (fun _ => ?_))
      refine keeps_bind (keeps_fixes (fixes_verifyRecords _ _ _ _ _ _ _)) (fun r => ?_)
      refine keeps_bind (keeps_check _ _) (fun _ => keeps_bind
        (keeps_fixes (fixes_budgetCheck _ _)) (fun _ => keeps_bind
          (keeps_fixes (fixes_partialFingerprint _)) (fun _ => keeps_bind (keeps_check _ _)
            (fun _ => ?_))))
      exact keeps_bind (keeps_whenever (keeps_fileEvent (fun _ _ => rfl))) (fun _ => keeps_bind
        (keeps_whenever (keeps_fileEvent (fun _ _ => rfl))) (fun _ => keeps_bind
          (keeps_fixes (fixes_partialFingerprint _)) (fun _ => keeps_pure _)))
  next => exact keeps_raise _

theorem keeps_writeAll {before : Guest Unit} (hbefore : Keeps Proofless before) (position : Nat)
    (writes : List Bytes) : Keeps Proofless (acknowledge.writeAll before position writes) := by
  induction writes generalizing position with
  | nil => exact keeps_pure ()
  | cons data rest ih =>
      refine keeps_bind hbefore (fun _ => keeps_bind ?_ (fun _ => ih _))
      exact keeps_bind (keeps_fixes (fixes_raiseIf _ _)) (fun _ => keeps_files (fun _ _ _ => rfl))

theorem keeps_appendAll {before : Guest Unit} (hbefore : Keeps Proofless before)
    (lines : List Bytes) : Keeps Proofless (acknowledge.appendAll before lines) := by
  induction lines with
  | nil => exact keeps_pure ()
  | cons line rest ih =>
      refine keeps_bind hbefore (fun _ => keeps_bind ?_ (fun _ => ih))
      exact keeps_bind (keeps_fixes fixes_getDisk) (fun _ => keeps_bind
        (keeps_fixes (fixes_raiseIf _ _)) (fun _ => keeps_files (fun _ _ _ => rfl)))

theorem keeps_acknowledge (fresh : Envelope) (s : TaskState) {before : Guest Unit}
    (hbefore : Keeps Proofless before) (position : Nat) (writes appends : List Bytes) :
    Keeps Proofless (acknowledge policy fresh s before position writes appends) :=
  keeps_bind (keeps_fixes (fixes_partialFingerprint _)) (fun _ =>
    keeps_bind (keeps_saved policy _ _) (fun _ => keeps_bind (keeps_writeAll hbefore _ _)
      (fun _ => keeps_bind (keeps_appendAll hbefore _) (fun _ => keeps_bind
        (keeps_fixes (fixes_partialFingerprint _)) (fun _ => keeps_bind (keeps_saved policy _ _)
          (fun _ => keeps_pure _))))))

variable (live : List Owner) (t g : Text)

theorem keeps_chunkReceive (c : ChunkData) :
    Keeps Proofless (chunkReceive (checkIdleAmong live) policy t g c) := by
  refine keeps_bind (keeps_fixes fixes_probe) (fun _ => keeps_bind (keeps_fixes (fixes_load t g))
    (fun fresh => keeps_bind (keeps_check _ _) (fun _ => keeps_bind (keeps_checkIdleAmong live)
      (fun _ => keeps_bind (keeps_check _ _) (fun _ => keeps_bind (keeps_check _ _)
        (fun _ => keeps_bind (keeps_verifiedPartial _ _ _ _) (fun r => keeps_ite ?_ ?_)))))))
  · exact keeps_bind (keeps_check _ _) (fun _ => keeps_bind (keeps_fixes fixes_probe)
      (fun _ => keeps_bind (keeps_fixes fixes_getDisk) (fun _ => keeps_bind (keeps_check _ _)
        (fun _ => keeps_pure _))))
  · exact keeps_bind (keeps_check _ _) (fun _ => keeps_bind (keeps_fixes fixes_getDisk)
      (fun _ => keeps_bind (keeps_check _ _) (fun _ => keeps_bind (keeps_fixes (fixes_space _ _ _))
        (fun _ => keeps_bind keeps_createFiles (fun _ => keeps_bind
          (keeps_acknowledge policy _ _ (keeps_pure ()) _ _ _) (fun _ => keeps_pure _))))))

theorem keeps_batchReceive (offset : Nat) (prepared : List (Bytes × Text)) :
    Keeps Proofless (batchReceive (checkIdleAmong live) policy t g offset prepared) := by
  refine keeps_bind (keeps_fixes fixes_probe) (fun _ => keeps_bind (keeps_fixes (fixes_load t g))
    (fun fresh => keeps_bind (keeps_check _ _) (fun _ => keeps_bind (keeps_check _ _)
      (fun _ => keeps_bind (keeps_check _ _) (fun _ => keeps_bind (keeps_check _ _) (fun _ => ?_))))))
  refine keeps_bind (keeps_fixes fixes_probe) (fun _ => keeps_bind (keeps_fixes fixes_getDisk)
    (fun d => keeps_bind (keeps_check _ _) (fun _ => keeps_bind (keeps_fixes (fixes_space _ _ _))
      (fun _ => keeps_bind (keeps_fixes (fixes_encodeProspective _ _ _ _ _)) (fun _ => ?_)))))
  exact keeps_bind (keeps_checkIdleAmong live) (fun _ => keeps_bind (keeps_verifiedPartial _ _ _ _)
    (fun r => keeps_bind (keeps_fixes (fixes_budgetCheck _ _)) (fun _ => keeps_bind
      keeps_createFiles (fun _ => keeps_bind (keeps_acknowledge policy _ _
        (keeps_fixes (fixes_budgetCheck _ _)) _ _ _) (fun _ => keeps_pure _)))))

theorem keeps_finishBegin (binding : TaskState → Binding) (inputs : Inputs) (operationId : Text) :
    Keeps Proofless (finishBegin (checkIdleAmong live) policy binding t g inputs operationId) := by
  refine keeps_bind (keeps_fixes fixes_probe) (fun _ => keeps_bind (keeps_fixes (fixes_load t g))
    (fun fresh => keeps_bind (keeps_check _ _) (fun _ => keeps_bind (keeps_fixes fixes_protocol)
      (fun _ => keeps_bind (keeps_fixes fixes_protocol) (fun _ => keeps_bind
        (keeps_whenever ?_) (fun _ => keeps_pure _))))))
  exact keeps_bind (keeps_fixes fixes_monotonic) (fun _ => keeps_bind (keeps_check _ _)
    (fun _ => keeps_bind (keeps_checkIdleAmong live) (fun _ => keeps_bind (keeps_saved policy _ _)
      (fun _ => keeps_pure _))))

theorem keeps_launchRegister (worker : Owner) :
    Keeps Proofless (launchRegister (checkIdleAmong live) policy t g worker) :=
  keeps_bind (keeps_fixes fixes_probe) (fun _ => keeps_bind (keeps_fixes (fixes_load t g))
    (fun _ => keeps_bind (keeps_fixes fixes_monotonic) (fun _ => keeps_bind (keeps_check _ _)
      (fun _ => keeps_bind (keeps_checkIdleAmong live) (fun _ => keeps_bind (keeps_fixes fixes_probe)
        (fun _ => keeps_bind (keeps_saved policy _ _)
          (fun _ => keeps_fileEvent (fun _ _ => rfl))))))))

theorem keeps_reconcileReceive (nonce : Text) :
    Keeps Proofless (reconcileReceive live policy t g nonce) := by
  refine keeps_bind (keeps_fixes fixes_probe) (fun _ => keeps_bind (keeps_fixes (fixes_load t g))
    (fun fresh => ?_))
  split
  next => exact keeps_pure ()
  next saved _ =>
    refine keeps_bind (keeps_fixes fixes_observe) (fun _ => keeps_whenever (keeps_bind
      (keeps_fixes fixes_probe) (fun _ => keeps_bind (keeps_fixes fixes_getDisk) (fun d => ?_))))
    refine keeps_bind (keeps_whenever (keeps_bind (keeps_check _ _) (fun _ => keeps_clearLease)))
      (fun _ => keeps_bind (keeps_fixes fixes_monotonic) (fun _ => keeps_whenever ?_))
    exact keeps_bind (keeps_saved policy _ _) (fun _ => keeps_pure ())

end KeepsProofless

/-! ## Refusals -/

/-- The lease belongs to a worker that is alive. -/
def Busy (live : List Owner) (d : Disk) : Prop := ∃ o ∈ live, d.active = some o

section Refusals

variable {policy : Policy} {live : List Owner} {t g : Text} {d : Disk}

theorem checkIdleAmong_refuses (h : Busy live d) : Refuses (checkIdleAmong live) d := by
  obtain ⟨o, ho, hactive⟩ := h
  refine at_probe (fun _ => rfl) (at_getDisk (fun d' hd => ?_))
  obtain rfl : d' = d := hd
  rw [hactive]
  exact at_quiet fixes_observe (fun _ => rfl) (fun alive => at_check (fun _ => rfl)
    (fun hidle => absurd (Or.inl ho) hidle))

theorem chunkReceive_refuses (h : d.store.state.cancelled = true ∨ Busy live d) (c : ChunkData) :
    Refuses (chunkReceive (checkIdleAmong live) policy t g c) d := by
  refine at_probe (fun _ => rfl) (at_load (g := id) (fun _ => rfl) (fun _ _ => ?_))
  refine at_check (fun _ => rfl) (fun hlive => ?_)
  rcases h with hc | hbusy
  · exact absurd hc hlive
  · exact refuses_bind (checkIdleAmong_refuses hbusy)

theorem batchReceive_refuses (h : d.store.state.cancelled = true ∨ Busy live d) (offset : Nat)
    (prepared : List (Bytes × Text)) :
    Refuses (batchReceive (checkIdleAmong live) policy t g offset prepared) d := by
  refine at_probe (fun _ => rfl) (at_load (g := id) (fun _ => rfl) (fun _ _ => ?_))
  refine at_check (fun _ => rfl) (fun hlive => ?_)
  rcases h with hc | hbusy
  · exact absurd hc hlive
  refine at_check (fun _ => rfl) (fun _ => at_check (fun _ => rfl) (fun _ =>
    at_check (fun _ => rfl) (fun _ => at_probe (fun _ => rfl) (at_getDisk (fun d' _ => ?_)))))
  refine at_check (fun _ => rfl) (fun _ => at_quiet (fixes_space _ _ _) (fun _ => rfl) (fun _ =>
    at_quiet (fixes_encodeProspective _ _ _ _ _) (fun _ => rfl) (fun _ => ?_)))
  exact refuses_bind (checkIdleAmong_refuses hbusy)

theorem launchRegister_refuses (h : d.store.state.cancelled = true ∨ Busy live d) (o : Owner) :
    Refuses (launchRegister (checkIdleAmong live) policy t g o) d := by
  refine at_probe (fun _ => rfl) (at_load (g := id) (fun _ => rfl) (fun _ _ => ?_))
  refine at_quiet fixes_monotonic (fun _ => rfl) (fun now => at_check (fun _ => rfl)
    (fun hlive => ?_))
  rcases h with hc | hbusy
  · exact absurd (Or.inl hc) hlive
  · exact refuses_bind (checkIdleAmong_refuses hbusy)

theorem verifyFinish_refuses (h : d.store.state.cancelled = true) (started : TaskState)
    (ledgerSha : Option Text) (identity : Option Fingerprint) :
    Refuses (verifyFinish policy t g started ledgerSha identity) d := by
  refine at_probe (fun _ => rfl) (at_load (g := id) (fun _ => rfl) (fun _ _ => ?_))
  exact at_check (fun _ => rfl) (fun hlive => absurd (Or.inl h) hlive)

/-- An action that is not begun is refused; one that is begun is only found. -/
theorem finishBegin_ends (h : d.store.state.cancelled = true ∨ Busy live d)
    (binding : TaskState → Binding) (inputs : Inputs) (operationId : Text) :
    Ends (fun v => v = d) (finishBegin (checkIdleAmong live) policy binding t g inputs operationId)
      d := by
  refine at_probe (fun _ => rfl) (at_load (g := id) (fun _ => rfl) (fun _ _ => ?_))
  refine at_check (fun _ => rfl) (fun _ => at_quiet fixes_protocol (fun _ => rfl)
    (fun terminal => at_quiet fixes_protocol (fun _ => rfl) (fun begun => ?_)))
  refine triple_bind (Q := fun _ v => v = d) (triple_whenever (fun _ => ?_) (fun _ _ hv => hv))
    (fun _ => triple_pure (fun _ hv => hv))
  refine at_quiet fixes_monotonic (fun _ => rfl) (fun now => at_check (fun _ => rfl)
    (fun hlive => ?_))
  rcases h with hc | hbusy
  · exact absurd (Or.inr hc) hlive
  · exact (refuses_bind (checkIdleAmong_refuses hbusy)).ends

/-- The calls themselves are refused before their transactions. -/
theorem transferChunk_refuses (h : d.store.state.cancelled = true) (c : ChunkCall) :
    Refuses (transferChunk policy c) d := by
  rw [transferChunk_parts]
  refine refuses_bind (at_check (fun _ => rfl) (fun _ => at_probe (fun _ => rfl)
    (at_load (g := id) (fun _ => rfl) (fun _ _ => ?_))))
  exact at_quiet fixes_monotonic (fun _ => rfl) (fun now => at_check (fun _ => rfl)
    (fun _ => at_check (fun _ => rfl) (fun hlive => absurd h hlive)))

theorem transferChunks_refuses (h : d.store.state.cancelled = true) (c : BatchCall) :
    Refuses (transferChunks policy c) d := by
  rw [transferChunks_parts]
  refine refuses_bind (at_check (fun _ => rfl) (fun _ => at_check (fun _ => rfl) (fun _ =>
    at_probe (fun _ => rfl) (at_load (g := id) (fun _ => rfl) (fun _ _ => ?_)))))
  exact at_check (fun _ => rfl) (fun hlive => absurd h hlive)

theorem executeVerifyPartial_refuses (h : d.store.state.cancelled = true) :
    Refuses (executeVerifyPartial policy t g) d := by
  rw [executeVerifyPartial_parts]
  refine at_load (g := id) (fun _ => rfl) (fun _ _ => ?_)
  exact at_quiet (fixes_budgetCheck _ _) (fun _ => rfl) (fun _ => at_check (fun _ => rfl)
    (fun hlive => absurd h hlive))

end Refusals

/-! ## What a transaction leaves behind -/

section Effects

variable {policy : Policy} {live : List Owner} {t g : Text} {d : Disk}

/-- The disk after a save of the state. -/
def Disk.saving (d : Disk) (s : TaskState) : Disk :=
  { d with store := { revision := d.store.revision + 1, state := s.saved } }

/-- A transaction stores what its change makes of the state, or nothing. -/
theorem transact_ends (change : Change) :
    Ends (fun v => v = d ∨ ∃ s, change d.store.state = .ok (some s) ∧ v = d.saving s)
      (transact policy t g change) d := by
  refine at_probe (fun _ => Or.inl rfl) (at_load (g := id) (fun _ => Or.inl rfl) (fun _ _ => ?_))
  cases hc : change d.store.state with
  | error code =>
      intro x hx
      exact Or.inl hx
  | ok next =>
      cases next with
      | none => exact triple_pure (fun _ hv => Or.inl hv)
      | some s =>
          show Triple whole _ (save policy d.store s >>= fun _ => pure ()) _ _
          refine triple_bind (save_triple (g := id) (fun _ => Or.inl rfl)
            (fun _ _ => Or.inr ⟨s, rfl, rfl⟩)) (fun _ => triple_pure (fun v hv => ?_))
          obtain ⟨-, rfl⟩ := hv
          exact Or.inr ⟨s, rfl, rfl⟩

/-- A verification stores its proof beside a refreshed identity, or nothing. -/
theorem verifyFinish_ends (started : TaskState) (ledgerSha : Option Text)
    (identity : Option Fingerprint) :
    Ends (fun v => v = d ∨ ∃ proof, v = d.saving { d.store.state with
        partialIdentity := identity, prefixVerification := some proof })
      (verifyFinish policy t g started ledgerSha identity) d := by
  refine at_probe (fun _ => Or.inl rfl) (at_load (g := id) (fun _ => Or.inl rfl) (fun _ _ => ?_))
  refine at_check (fun _ => Or.inl rfl) (fun _ => at_quiet (fixes_budgetCheck _ _)
    (fun _ => Or.inl rfl) (fun _ => at_getDisk (fun d' _ => ?_)))
  refine triple_skip (fixes_onDisk (fixes_whenever (fixes_bind (fixes_partialFingerprint _)
    (fun _ => fixes_raiseIf _ _)))) (fun _ _ hv => Or.inl hv) (fun _ => ?_)
  refine triple_bind (save_triple (g := id) (fun _ => Or.inl rfl)
    (fun _ _ => Or.inr ⟨_, rfl⟩)) (fun _ => triple_pure (fun v hv => ?_))
  obtain ⟨-, rfl⟩ := hv
  exact Or.inr ⟨_, rfl⟩

theorem truncatePart_ends (size : Nat) :
    Ends (fun v => ∃ stamp, v = d ∨
      v = { d with part := d.part.map (fun f => f.truncate size stamp) }) (truncatePart size) d :=
  triple_allOrNothing (fun stamp d => { d with part := d.part.map (fun f => f.truncate size stamp) })
    (fun _ _ => rfl) (fun stamp => ⟨stamp, Or.inr rfl⟩) (fun _ => ⟨0, Or.inl rfl⟩)
    (fun _ stamp => ⟨stamp, Or.inr rfl⟩)

theorem truncateLedger_ends (size : Nat) :
    Ends (fun v => ∃ stamp, v = d ∨
      v = { d with ledger := d.ledger.map (fun f => f.truncate size stamp) }) (truncateLedger size)
      d :=
  triple_allOrNothing
    (fun stamp d => { d with ledger := d.ledger.map (fun f => f.truncate size stamp) })
    (fun _ _ => rfl) (fun stamp => ⟨stamp, Or.inr rfl⟩) (fun _ => ⟨0, Or.inl rfl⟩)
    (fun _ stamp => ⟨stamp, Or.inr rfl⟩)

/-- A launch that registers its worker leaves it as the owner of task and lease. -/
theorem launchRegister_registers (o : Owner) :
    Triple whole (fun v => v = d) (launchRegister (checkIdleAmong live) policy t g o)
      (fun _ v => v.active = some o ∧ v.store.state.owner = some o) (fun _ _ => True) := by
  refine at_probe (fun _ => trivial) (at_load (g := id) (fun _ => trivial) (fun _ _ => ?_))
  refine at_quiet fixes_monotonic (fun _ => trivial) (fun now => at_check (fun _ => trivial)
    (fun _ => ?_))
  refine triple_bind (Q := fun _ _ => True) (triple_conseq (keeps_true _) (fun _ _ => trivial)
    (fun _ _ _ => trivial) (fun _ _ _ => trivial)) (fun _ => triple_at (fun v₁ _ => ?_))
  refine at_probe (fun _ => trivial) ?_
  refine triple_bind (save_triple (g := id) (fun _ => trivial) (fun _ _ => trivial)) (fun _ =>
    triple_at (fun v hv => ?_))
  obtain ⟨-, rfl⟩ := hv
  refine triple_allOrNothing (fun _ d => { d with active := some o }) (fun _ _ => rfl)
    (fun _ => ⟨rfl, ?_⟩) (fun _ => trivial) (fun _ _ => trivial)
  exact saved_owner _

/-- A worker that is alive is never reconciled. -/
theorem reconcileReceive_skips {o : Owner} (ho : o ∈ live)
    (howner : d.store.state.owner = some o) (nonce : Text) :
    Ends (fun v => v = d) (reconcileReceive live policy t g nonce) d := by
  refine at_probe (fun _ => rfl) (at_load (g := id) (fun _ => rfl) (fun _ _ => ?_))
  rw [howner]
  refine at_quiet fixes_observe (fun _ => rfl) (fun alive => triple_whenever (fun hdead => ?_)
    (fun _ _ hv => hv))
  exact absurd ho hdead.2.1

/-- The disk after a dead owner was reconciled. -/
def Disk.stopping (d : Disk) (o : Owner) (error : Option String) : Disk :=
  d.saving { d.store.state with owner := some { o with stopped := true }, error := error }

/-- A reconciliation clears the lease and records that the owner has stopped. -/
theorem reconcileReceive_ends (nonce : Text) :
    Ends (fun v => ∃ active, v = { d with active := active } ∨
        ∃ o error, d.store.state.owner = some o ∧
          v = { d.stopping o error with active := active })
      (reconcileReceive live policy t g nonce) d := by
  have hsame : ∃ active, d = { d with active := active } ∨ ∃ o error,
      d.store.state.owner = some o ∧ d = { d.stopping o error with active := active } :=
    ⟨d.active, Or.inl rfl⟩
  refine at_probe (fun _ => hsame) (at_load (g := id) (fun _ => hsame) (fun _ _ => ?_))
  cases ho : d.store.state.owner with
  | none =>
      refine triple_pure (fun v hv => ?_)
      obtain rfl : v = d := hv
      exact ⟨v.active, Or.inl rfl⟩
  | some o =>
  rw [ho] at hsame
  refine at_quiet fixes_observe (fun _ => hsame) (fun alive => triple_whenever (fun _ => ?_)
    (fun _ _ hv => hv ▸ hsame))
  refine at_probe (fun _ => hsame) (at_getDisk (fun d' _ => ?_))
  -- the lease is cleared or left alone
  refine triple_bind (Q := fun _ v => ∃ active, v = { d with active := active }) ?_
    (fun _ => triple_at (fun v hv => ?_))
  · refine triple_whenever (fun _ => at_check (fun _ => hsame) (fun _ => ?_))
      (fun _ v hv => ?_)
    · exact triple_allOrNothing (fun _ d => { d with active := none }) (fun _ _ => rfl)
        (fun _ => ⟨none, rfl⟩) (fun _ => hsame) (fun _ _ => ⟨none, Or.inl rfl⟩)
    obtain rfl : v = d := hv
    exact ⟨v.active, rfl⟩
  · obtain ⟨active, rfl⟩ := hv
    have hcleared : ∃ active', { d with active := active } = { d with active := active' } ∨
        ∃ o' error, some o = some o' ∧
          { d with active := active } = { d.stopping o' error with active := active' } :=
      ⟨active, Or.inl rfl⟩
    refine at_quiet fixes_monotonic (fun _ => hcleared) (fun now => triple_whenever (fun _ => ?_)
      (fun _ _ hv => hv ▸ hcleared))
    refine triple_bind (save_triple (g := id) (fun _ => hcleared)
      (fun _ _ => ⟨active, Or.inr ⟨o, _, rfl, rfl⟩⟩)) (fun _ => triple_pure (fun v hv => ?_))
    obtain ⟨-, rfl⟩ := hv
    exact ⟨active, Or.inr ⟨o, _, rfl, rfl⟩⟩

end Effects

/-! ## Progress of the terminal -/

/-- From `t` to `t'` no action is begun, and what is settled stays. -/
structure Advances (t t' : Terminal) : Prop where
  begun : ∀ a, (t'.op a).isSome → (t.op a).isSome
  settled : ∀ a o, t.op a = some o → o.status ≠ .inProgress → t'.op a = some o
  authorized : t.releaseAuthorization.isSome → t'.releaseAuthorization.isSome

section Terminals

variable {t t' : Terminal} {a : Action} {operationId : Text}

theorem pending_ok {o : Operation} (h : t.pending a operationId = .ok o) :
    t.op a = some o ∧ o.status = .inProgress := by
  unfold Terminal.pending at h
  cases ho : t.op a with
  | none => rw [ho] at h; exact absurd h nofun
  | some o' =>
      rw [ho] at h
      by_cases hc : o'.operationId ≠ operationId ∨ o'.status ≠ .inProgress
      · exact absurd ((if_pos hc).symm.trans h) nofun
      · obtain rfl := Except.ok.inj ((if_neg hc).symm.trans h)
        exact ⟨rfl, not_not.mp (fun hs => hc (Or.inr hs))⟩

/-- A pending operation is replaced; the others and the authorization stay. -/
theorem Advances.of_pending {o : Operation} (ho : t.op a = some o) (hstatus : o.status = .inProgress)
    (hother : ∀ a', a' ≠ a → t'.op a' = t.op a')
    (hauthorized : t.releaseAuthorization.isSome → t'.releaseAuthorization.isSome) :
    Advances t t' := by
  refine ⟨fun a' h => ?_, fun a' o' ho' hsettled => ?_, hauthorized⟩
  · by_cases ha : a' = a
    · rw [ha, ho]
      rfl
    · rw [← hother a' ha]
      exact h
  · by_cases ha : a' = a
    · subst ha
      obtain rfl := Option.some.inj (ho.symm.trans ho')
      exact absurd hstatus hsettled
    · rw [hother a' ha]
      exact ho'

theorem completePrepare_advances {receipt : PrepareReceipt}
    (h : t.completePrepare operationId receipt = .ok t') : Advances t t' := by
  obtain ⟨o, ho, h⟩ := bind_ok h
  obtain ⟨ho, hstatus⟩ := pending_ok ho
  cases hc : validatePrepare receipt t.binding with
  | some code => rw [hc] at h; exact absurd h nofun
  | none =>
      rw [hc] at h
      obtain rfl := Except.ok.inj h
      refine Advances.of_pending ho hstatus (fun a' ha => ?_) (fun h => h)
      cases a' with
      | prepare => exact absurd rfl ha
      | commit => rfl
      | release => rfl

theorem completeCommit_advances {receipt : PublicationReceipt}
    (h : t.completeCommit operationId receipt = .ok t') : Advances t t' := by
  obtain ⟨o, ho, h⟩ := bind_ok h
  obtain ⟨ho, hstatus⟩ := pending_ok ho
  split at h
  next => exact absurd h nofun
  next =>
    cases hp : t.prepare with
    | none => rw [hp] at h; exact absurd h nofun
    | some p =>
        rw [hp] at h
        dsimp only at h
        cases hc : validatePublication receipt t.binding p t.destination with
        | some code => rw [hc] at h; exact absurd h nofun
        | none =>
            rw [hc] at h
            obtain rfl := Except.ok.inj h
            refine Advances.of_pending ho hstatus (fun a' ha => ?_) (fun h => h)
            cases a' with
            | prepare => rfl
            | commit => exact absurd rfl ha
            | release => rfl

/-- An authorization changes no operation. -/
theorem authorizeRelease_advances (h : t.authorizeRelease operationId = .ok t') :
    Advances t t' := by
  obtain ⟨o, ho, h⟩ := bind_ok h
  obtain ⟨ho, hstatus⟩ := pending_ok ho
  split at h
  next =>
    obtain rfl := Except.ok.inj h
    refine Advances.of_pending ho hstatus (fun a' _ => ?_) (fun _ => rfl)
    cases a' with
    | prepare => rfl
    | commit => rfl
    | release => rfl
  next =>
    obtain rfl := Except.ok.inj h
    exact Advances.of_pending ho hstatus (fun _ _ => rfl) (fun h => h)

theorem completeRelease_advances {cleanup : Cleanup}
    (h : t.completeRelease operationId cleanup = .ok t') :
    Advances t t' ∧ t'.releaseAuthorization = t.releaseAuthorization := by
  obtain ⟨o, ho, h⟩ := bind_ok h
  obtain ⟨ho, hstatus⟩ := pending_ok ho
  cases hauthorization : t.releaseAuthorization with
  | none => rw [hauthorization] at h; exact absurd h nofun
  | some authorization =>
  rw [hauthorization] at h
  cases hp : t.publication with
  | none => rw [hp] at h; exact absurd h nofun
  | some publication =>
  rw [hp] at h
  dsimp only at h
  split at h
  next => exact absurd h nofun
  next =>
    obtain rfl := Except.ok.inj h
    refine ⟨Advances.of_pending ho hstatus (fun a' ha => ?_) (fun _ => rfl), rfl⟩
    cases a' with
    | prepare => rfl
    | commit => rfl
    | release => exact absurd rfl ha

theorem failAction_advances {code : String} (h : t.failAction a operationId code = .ok t') :
    Advances t t' ∧ t'.releaseAuthorization = t.releaseAuthorization := by
  obtain ⟨o, ho, h⟩ := bind_ok h
  obtain ⟨ho, hstatus⟩ := pending_ok ho
  split at h
  next => exact absurd h nofun
  next =>
  split at h
  next => exact absurd h nofun
  next =>
    obtain rfl := Except.ok.inj h
    refine ⟨Advances.of_pending ho hstatus (fun a' ha => ?_) (fun hauthorized => ?_), ?_⟩
    · cases a <;> cases a' <;> first | exact absurd rfl ha | rfl
    · cases a <;> exact hauthorized
    · cases a <;> rfl

end Terminals

/-! ## Progress of the task -/

/-- From `s` to `s'` nothing is acknowledged or begun, no other worker is
    registered, and what is settled, cancelled or authorized stays so. -/
structure Progress (s s' : TaskState) : Prop where
  offset : s'.offset = s.offset
  chunkCount : s'.chunkCount = s.chunkCount
  cancelled : s.cancelled = true → s'.cancelled = true
  owner : s'.owner.map Owner.nonce = s.owner.map Owner.nonce
  begun : ∀ a, (s'.op a).isSome → (s.op a).isSome
  settled : ∀ a o, s.op a = some o → o.status ≠ .inProgress → s'.op a = some o
  authorized : s.authorized = true → s'.authorized = true

section States

variable {s s' s'' : TaskState}

theorem Progress.refl (s : TaskState) : Progress s s :=
  ⟨rfl, rfl, fun h => h, rfl, fun _ h => h, fun _ _ h _ => h, fun h => h⟩

theorem Progress.trans (h : Progress s s') (h' : Progress s' s'') : Progress s s'' where
  offset := h'.offset.trans h.offset
  chunkCount := h'.chunkCount.trans h.chunkCount
  cancelled := fun hc => h'.cancelled (h.cancelled hc)
  owner := h'.owner.trans h.owner
  begun := fun a ha => h.begun a (h'.begun a ha)
  settled := fun a o ho hs => h'.settled a o (h.settled a o ho hs) hs
  authorized := fun ha => h'.authorized (h.authorized ha)

@[simp] theorem saved_terminal (s : TaskState) : s.saved.terminal = s.terminal := by
  unfold TaskState.saved
  split
  · rfl
  · rfl

theorem op_congr (h : s'.terminal = s.terminal) (a : Action) : s'.op a = s.op a := by
  unfold TaskState.op
  rw [h]

theorem authorized_congr (h : s'.terminal = s.terminal) : s'.authorized = s.authorized := by
  unfold TaskState.authorized
  rw [h]

/-- The terminal is untouched. -/
theorem Progress.of_terminal (hterminal : s'.terminal = s.terminal) (hoffset : s'.offset = s.offset)
    (hcount : s'.chunkCount = s.chunkCount) (hcancelled : s.cancelled = true → s'.cancelled = true)
    (howner : s'.owner.map Owner.nonce = s.owner.map Owner.nonce) : Progress s s' where
  offset := hoffset
  chunkCount := hcount
  cancelled := hcancelled
  owner := howner
  begun := fun a ha => by rw [← op_congr hterminal a]; exact ha
  settled := fun a o ho _ => by rw [op_congr hterminal a]; exact ho
  authorized := fun ha => by rw [authorized_congr hterminal]; exact ha

/-- A save changes none of it. -/
theorem Progress.saved (s : TaskState) : Progress s s.saved :=
  Progress.of_terminal (saved_terminal s) (saved_offset s) (saved_chunkCount s)
    (fun h => (saved_cancelled s).trans h) (by rw [saved_owner])

theorem Progress.withTerminal {t t' : Terminal} (hs : s.terminal = some t) (h : Advances t t') :
    Progress s (s.withTerminal t') where
  offset := rfl
  chunkCount := rfl
  cancelled := fun hc => hc
  owner := rfl
  begun := fun a ha => by
    unfold TaskState.op at ha ⊢
    rw [hs]
    exact h.begun a ha
  settled := fun a o ho hsettled => by
    unfold TaskState.op at ho ⊢
    rw [hs] at ho
    exact h.settled a o ho hsettled
  authorized := fun ha => by
    unfold TaskState.authorized at ha ⊢
    rw [hs] at ha
    exact h.authorized ha

/-- A restored terminal is the stored one. -/
theorem restored_ok {binding : TaskState → Binding} {t : Terminal}
    (h : s.restored binding = .ok t) : s.terminal = some t := by
  unfold TaskState.restored at h
  cases hs : s.terminal with
  | none => rw [hs] at h; exact absurd h nofun
  | some saved =>
      rw [hs] at h
      rw [(restore_ok h).1]

end States

/-! ## Changes -/

/-- What a change leaves alone also in a task that is not cancelled. -/
structure Mild (s s' : TaskState) : Prop where
  owner : s'.owner = s.owner
  offset : s'.offset = s.offset
  chunkCount : s'.chunkCount = s.chunkCount

theorem Mild.withTerminal (s : TaskState) (t : Terminal) : Mild s (s.withTerminal t) :=
  ⟨rfl, rfl, rfl⟩

/-- What a transaction makes of a cancelled task; only the authorization of a
    release authorizes one. -/
structure Tame (s s' : TaskState) : Prop where
  mild : Mild s s'
  progress : s.cancelled = true → Progress s s'
  unauthorized : s.cancelled = true → s'.authorized = true → s.authorized = true

section Changes

variable {s s' : TaskState} {binding : TaskState → Binding}

theorem Tame.of_terminal (hmild : Mild s s') (hterminal : s'.terminal = s.terminal)
    (hcancelled : s.cancelled = true → s'.cancelled = true) : Tame s s' where
  mild := hmild
  progress := fun _ => Progress.of_terminal hterminal hmild.offset hmild.chunkCount hcancelled
    (by rw [hmild.owner])
  unauthorized := fun _ h => by rw [← authorized_congr hterminal]; exact h

theorem Tame.withTerminal {t t' : Terminal} (hs : s.terminal = some t) (h : Advances t t')
    (hsame : t'.releaseAuthorization = t.releaseAuthorization) : Tame s (s.withTerminal t') where
  mild := Mild.withTerminal s t'
  progress := fun _ => Progress.withTerminal hs h
  unauthorized := fun _ ha => by
    unfold TaskState.authorized at ha ⊢
    rw [hs, Option.any_some, ← hsame]
    exact ha

theorem completePrepare_authorization {t t' : Terminal} {operationId : Text}
    {receipt : PrepareReceipt} (h : t.completePrepare operationId receipt = .ok t') :
    t'.releaseAuthorization = t.releaseAuthorization := by
  obtain ⟨o, -, h⟩ := bind_ok h
  split at h
  next => exact absurd h nofun
  next =>
    obtain rfl := Except.ok.inj h
    rfl

theorem completeCommit_authorization {t t' : Terminal} {operationId : Text}
    {receipt : PublicationReceipt} (h : t.completeCommit operationId receipt = .ok t') :
    t'.releaseAuthorization = t.releaseAuthorization := by
  obtain ⟨o, -, h⟩ := bind_ok h
  split at h
  next => exact absurd h nofun
  next =>
  split at h
  next => exact absurd h nofun
  next =>
  split at h
  next => exact absurd h nofun
  next =>
    obtain rfl := Except.ok.inj h
    rfl

theorem abortTask_tame (h : abortTask s = .ok (some s')) : Tame s s' := by
  obtain rfl := Option.some.inj (Except.ok.inj h)
  exact Tame.of_terminal ⟨rfl, rfl, rfl⟩ rfl (fun _ => rfl)

theorem saveOther_tame (h : saveOther s = .ok (some s')) : Tame s s' := by
  obtain rfl := Option.some.inj (Except.ok.inj h)
  exact Tame.of_terminal ⟨rfl, rfl, rfl⟩ rfl (fun h => h)

theorem stopRegistered_tame {nonce : Text} (h : stopRegistered nonce s = .ok (some s')) :
    Tame s s' ∧ s'.terminal = s.terminal := by
  unfold stopRegistered at h
  split at h
  next =>
    obtain rfl := Option.some.inj (Except.ok.inj h)
    exact ⟨Tame.of_terminal ⟨rfl, rfl, rfl⟩ rfl (fun h => h), rfl⟩
  next => exact absurd (Except.ok.inj h) nofun

theorem persistPrepare_tame {operationId : Text} {receipt : PrepareReceipt}
    (h : persistPrepare binding operationId receipt s = .ok (some s')) : Tame s s' := by
  obtain ⟨t, ht, h⟩ := bind_ok h
  obtain ⟨t', ht', h⟩ := bind_ok h
  obtain rfl := Option.some.inj (Except.ok.inj h)
  exact Tame.withTerminal (restored_ok ht) (completePrepare_advances ht')
    (completePrepare_authorization ht')

theorem persistCommit_tame {operationId : Text} {receipt : PublicationReceipt}
    (h : persistCommit binding operationId receipt s = .ok (some s')) : Tame s s' := by
  obtain ⟨t, ht, h⟩ := bind_ok h
  obtain ⟨t', ht', h⟩ := bind_ok h
  obtain rfl := Option.some.inj (Except.ok.inj h)
  exact Tame.withTerminal (restored_ok ht) (completeCommit_advances ht')
    (completeCommit_authorization ht')

/-- A package is only stored for a task that is not cancelled. -/
theorem packageReady_tame {p : Package} (h : packageReady binding p s = .ok (some s')) :
    Tame s s' := by
  unfold packageReady at h
  split at h
  next => exact absurd h nofun
  next hready =>
    obtain rfl := Option.some.inj (Except.ok.inj h)
    exact ⟨⟨rfl, rfl, rfl⟩, fun hc => absurd (Or.inr hc) hready,
      fun hc => absurd (Or.inr hc) hready⟩

theorem workerFailed_tame {job : Job} {nonce : Text} {code : String} {recoverable : Bool}
    (h : workerFailed binding job nonce code recoverable s = .ok (some s')) : Tame s s' := by
  have hfailed : Tame s { s with error := some code } :=
    Tame.of_terminal ⟨rfl, rfl, rfl⟩ rfl (fun h => h)
  unfold workerFailed at h
  split at h
  next =>
    dsimp only at h
    split at h
    next a hterminal hjob =>
      obtain ⟨t, ht, h⟩ := bind_ok h
      split at h
      next o ho =>
        split at h
        next =>
          obtain ⟨t', ht', h⟩ := bind_ok h
          obtain rfl := Option.some.inj (Except.ok.inj h)
          obtain ⟨hadvances, hsame⟩ := failAction_advances ht'
          have htame := Tame.withTerminal (restored_ok ht) hadvances hsame
          exact ⟨⟨rfl, rfl, rfl⟩, fun hc => (htame.progress hc).trans
            (Progress.of_terminal rfl rfl rfl (fun h => h) rfl), htame.unauthorized⟩
        next =>
          obtain rfl := Option.some.inj (Except.ok.inj h)
          exact hfailed
      next =>
        obtain rfl := Option.some.inj (Except.ok.inj h)
        exact hfailed
    next =>
      obtain rfl := Option.some.inj (Except.ok.inj h)
      exact hfailed
  next => exact absurd (Except.ok.inj h) nofun

/-- The failure of a process that is not the owner stores nothing. -/
theorem workerFailed_other {job : Job} {nonce : Text} {code : String} {recoverable : Bool}
    {o : Owner} (howner : s.owner = some o) (hnonce : o.nonce ≠ nonce) :
    workerFailed binding job nonce code recoverable s = .ok none := by
  unfold workerFailed
  rw [howner, Option.any_some, if_neg]
  rw [beq_iff_eq]
  exact hnonce

theorem finalizeRelease_tame {live : List Owner} {readiness : Readiness}
    (h : finalizeRelease binding live readiness s = .ok (some s')) : Tame s s' := by
  unfold finalizeRelease at h
  split at h
  next => exact absurd (Except.ok.inj h) nofun
  next =>
  obtain ⟨t, ht, h⟩ := bind_ok h
  split at h
  next =>
    split at h
    next => exact absurd (Except.ok.inj h) nofun
    next =>
      cases readiness with
      | waits => exact absurd (Except.ok.inj h) nofun
      | refused code =>
          obtain rfl := Option.some.inj (Except.ok.inj h)
          exact Tame.of_terminal ⟨rfl, rfl, rfl⟩ rfl (fun h => h)
      | ready =>
          obtain ⟨t', ht', h⟩ := bind_ok h
          obtain rfl := Option.some.inj (Except.ok.inj h)
          obtain ⟨hadvances, hsame⟩ := completeRelease_advances ht'
          exact Tame.withTerminal (restored_ok ht) hadvances hsame
  next => exact absurd (Except.ok.inj h) nofun

/-- A release is not finalized while its worker is alive. -/
theorem finalizeRelease_waits {live : List Owner} {readiness : Readiness} {o : Owner}
    (howner : s.owner = some o) (ho : o ∈ live) :
    finalizeRelease binding live readiness s ≠ .ok (some s') := by
  intro h
  unfold finalizeRelease at h
  split at h
  next => exact absurd (Except.ok.inj h) nofun
  next =>
  obtain ⟨t, ht, h⟩ := bind_ok h
  rw [howner] at h
  split at h
  next heq =>
    obtain rfl := Option.some.inj heq
    rw [if_pos (Or.inr (Or.inr ho))] at h
    exact absurd (Except.ok.inj h) nofun
  next => exact absurd (Except.ok.inj h) nofun

theorem persistAuthorization_progress {started : TaskState} {operationId : Text}
    (hstarted : started.terminal = s.terminal)
    (h : persistAuthorization binding started operationId s = .ok (some s')) : Progress s s' := by
  obtain ⟨t, ht, h⟩ := bind_ok h
  obtain ⟨t', ht', h⟩ := bind_ok h
  obtain rfl := Option.some.inj (Except.ok.inj h)
  exact Progress.withTerminal (hstarted.symm.trans (restored_ok ht)) (authorizeRelease_advances ht')

theorem persistAuthorization_mild {started : TaskState} {operationId : Text}
    (h : persistAuthorization binding started operationId s = .ok (some s')) : Mild s s' := by
  obtain ⟨t, ht, h⟩ := bind_ok h
  obtain ⟨t', ht', h⟩ := bind_ok h
  obtain rfl := Option.some.inj (Except.ok.inj h)
  exact Mild.withTerminal s t'

theorem Transaction.tame {k : Task} {w : Worker} {change : Change} (hchange : Transaction k w change)
    (h : change s = .ok (some s')) : Tame s s' := by
  cases hchange with
  | package p hjob => exact packageReady_tame h
  | prepare operationId receipt hjob => exact persistPrepare_tame h
  | commit operationId receipt hjob => exact persistCommit_tame h
  | other => exact saveOther_tame h
  | failed code recoverable => exact workerFailed_tame h

end Changes

/-! ## Workers and the task they started from -/

/-- A live worker owns task and lease, and the task is still at the progress and
    the terminal that the worker started from. -/
structure Attached (d : Disk) (w : Worker) : Prop where
  lease : d.active = some w.owner
  owner : d.store.state.owner = some w.owner
  offset : ∀ e, w.started = some e → e.offset = d.store.state.offset
  chunkCount : ∀ e, w.started = some e → e.chunkCount = d.store.state.chunkCount
  terminal : ∀ e, w.started = some e → e.terminal = d.store.state.terminal

structure Sound (s : System) : Prop where
  proof : Proofless s.disk
  attached : ∀ w ∈ s.live, Attached s.disk w

theorem Created.sound {s : System} (h : Created s) : Sound s where
  proof := fun _ => h.proof
  attached := fun w hw => by
    rw [h.live] at hw
    exact absurd hw List.not_mem_nil

section Steps

variable {k : Task} {s s' : System} {d' : Disk} {p : Party}

theorem Attached.congr {d d' : Disk} {w : Worker} (h : Attached d w)
    (hactive : d'.active = d.active) (howner : d'.store.state.owner = d.store.state.owner)
    (hoffset : d'.store.state.offset = d.store.state.offset)
    (hcount : d'.store.state.chunkCount = d.store.state.chunkCount)
    (hterminal : d'.store.state.terminal = d.store.state.terminal) : Attached d' w where
  lease := hactive.trans h.lease
  owner := howner.trans h.owner
  offset := fun e he => by rw [hoffset]; exact h.offset e he
  chunkCount := fun e he => by rw [hcount]; exact h.chunkCount e he
  terminal := fun e he => by rw [hterminal]; exact h.terminal e he

/-- A worker without a started state is attached by its ownership alone. -/
theorem Attached.idle {d : Disk} {w : Worker} (hw : w.started = none)
    (hactive : d.active = some w.owner) (howner : d.store.state.owner = some w.owner) :
    Attached d w :=
  ⟨hactive, howner, fun _ he => absurd (hw.symm.trans he) nofun,
    fun _ he => absurd (hw.symm.trans he) nofun, fun _ he => absurd (hw.symm.trans he) nofun⟩

theorem Sound.busy (h : Sound s) {w : Worker} (hw : w ∈ s.live) : Busy s.owners s.disk :=
  ⟨w.owner, List.mem_map_of_mem hw, (h.attached w hw).lease⟩

theorem Sound.idle_or_busy (h : Sound s) : s.live = [] ∨ Busy s.owners s.disk := by
  cases hl : s.live with
  | nil => exact Or.inl rfl
  | cons w rest => exact Or.inr (h.busy (hl ▸ List.mem_cons_self))

/-- All live workers are one owner. -/
theorem Sound.owner_unique (h : Sound s) {w x : Worker} (hw : w ∈ s.live) (hx : x ∈ s.live) :
    x.owner = w.owner :=
  Option.some.inj ((h.attached x hx).lease.symm.trans (h.attached w hw).lease)

/-- A call that is refused beside a live worker. -/
theorem Sound.service {α : Type} {m : Guest α} (h : Sound s) (hkeeps : Keeps Proofless m)
    (hbusy : Busy s.owners s.disk → Ends (fun v => v = s.disk) m s.disk)
    (hrun : Ran m s.disk d') : Sound { s with disk := d' } := by
  rcases h.idle_or_busy with hidle | hb
  · exact ⟨hkeeps.ran h.proof hrun, fun w hw => absurd (hidle ▸ hw) List.not_mem_nil⟩
  · obtain rfl : d' = s.disk := (hbusy hb).ran hrun
    exact h

/-- The workers after one of them began or ended its job. -/
theorem mem_begins {w x : Worker} {started : Option TaskState} (hx : x ∈ s.begins w started) :
    ∃ y ∈ s.live, x.owner = y.owner ∧
      (y.owner = w.owner → x.started = started) ∧ (y.owner ≠ w.owner → x = y) := by
  obtain ⟨y, hy, rfl⟩ := List.mem_map.mp hx
  refine ⟨y, hy, ?_⟩
  unfold Worker.restart
  by_cases ho : y.owner = w.owner
  · rw [if_pos ho]
    exact ⟨rfl, fun _ => rfl, fun hn => absurd ho hn⟩
  · rw [if_neg ho]
    exact ⟨rfl, fun he => absurd he ho, fun _ => rfl⟩

theorem Sound.begins_started (h : Sound s) {w x : Worker} {started : Option TaskState}
    (hw : w ∈ s.live) (hx : x ∈ s.begins w started) : x.started = started ∧ x.owner = w.owner := by
  obtain ⟨y, hy, howner, hstarted, -⟩ := mem_begins hx
  exact ⟨hstarted (h.owner_unique hw hy), howner.trans (h.owner_unique hw hy)⟩

/-- A stored change beside workers that have ended their job. -/
theorem Sound.transaction {policy : Policy} {t g : Text} {change : Change} {live : List Worker}
    (h : Sound s) (hrun : Ran (transact policy t g change) s.disk d')
    (hlive : ∀ x ∈ live, Attached s.disk x)
    (hchange : ∀ next, change s.state = .ok (some next) →
      Mild s.state next ∧ ∀ x ∈ live, x.started = none ∨ next.terminal = s.state.terminal) :
    Sound { s with disk := d', live := live } := by
  rcases (transact_ends change).ran hrun with rfl | ⟨next, hnext, rfl⟩
  · exact ⟨h.proof, hlive⟩
  · obtain ⟨hmild, hterminal⟩ := hchange next hnext
    refine ⟨saved_proof next, fun x hx => ?_⟩
    have hx₀ := hlive x hx
    rcases hterminal x hx with hnone | hsame
    · exact Attached.idle hnone hx₀.lease ((saved_owner next).trans (hmild.owner.trans hx₀.owner))
    · exact hx₀.congr rfl ((saved_owner next).trans hmild.owner)
        ((saved_offset next).trans hmild.offset) ((saved_chunkCount next).trans hmild.chunkCount)
        ((saved_terminal next).trans hsame)

/-- A worker's transaction ends the job of every live worker. -/
theorem Sound.ended (h : Sound s) {w x : Worker} (hw : w ∈ s.live) (hx : x ∈ s.begins w none) :
    Attached s.disk x := by
  obtain ⟨hnone, howner⟩ := h.begins_started hw hx
  have hw₀ := h.attached w hw
  exact Attached.idle hnone (howner ▸ hw₀.lease) (howner ▸ hw₀.owner)

theorem load_returned {t g : Text} {e : Envelope} {d : Disk} (hrun : Returned (load t g) d e d') :
    d' = d ∧ e = d.store := by
  obtain ⟨x, rfl, he, rfl⟩ := hrun
  have hload : Triple whole (fun v => v = x.disk) (load t g >>= pure)
      (fun e v => v = x.disk ∧ e = x.disk.store) (fun _ _ => True) :=
    at_load (g := id) (fun _ => trivial) (fun _ _ => triple_pure (fun v hv => ⟨hv, rfl⟩))
  rw [program_bind_pure] at hload
  have hend := hload x rfl
  rw [he] at hend
  exact hend

/-- Every step keeps the workers attached and a cancelled task without proof. -/
theorem Sound.step (h : Sound s) (hstep : Step k p s s') : Sound s' := by
  cases hstep with
  | chunk c hrun =>
      exact h.service (keeps_chunkReceive _ _ _ _ c)
        (fun hb => (chunkReceive_refuses (Or.inr hb) c).ends) hrun
  | chunks offset prepared hrun =>
      exact h.service (keeps_batchReceive _ _ _ _ offset prepared)
        (fun hb => (batchReceive_refuses (Or.inr hb) offset prepared).ends) hrun
  | finish inputs operationId hrun =>
      exact h.service (keeps_finishBegin _ _ _ _ _ inputs operationId)
        (fun hb => finishBegin_ends (Or.inr hb) _ inputs operationId) hrun
  | launched o hfresh hrun =>
      rcases h.idle_or_busy with hidle | hb
      · obtain ⟨x, hx, hdone, rfl⟩ := hrun
        refine ⟨(keeps_launchRegister _ _ _ _ o).ran h.proof ⟨x, hx, rfl⟩, fun w hw => ?_⟩
        rw [hidle] at hw
        obtain rfl := List.mem_singleton.mp hw
        have hend := @launchRegister_registers k.policy s.owners k.transferId k.requestDigest
          s.disk o x hx
        rw [hdone] at hend
        exact Attached.idle rfl hend.1 hend.2
      · exact ((launchRegister_refuses (Or.inr hb) o).returned hrun).elim
  | launchFailed o hrun =>
      exact h.service (keeps_launchRegister _ _ _ _ o)
        (fun hb => (launchRegister_refuses (Or.inr hb) o).ends) hrun
  | reconcile nonce hrun =>
      obtain ⟨disk, bundle, live⟩ := s
      cases live with
      | nil =>
          exact ⟨(keeps_reconcileReceive _ _ _ _ nonce).ran h.proof hrun, fun _ hw => nomatch hw⟩
      | cons w rest =>
          have hw := h.attached w List.mem_cons_self
          obtain rfl := (reconcileReceive_skips (List.mem_map_of_mem List.mem_cons_self) hw.owner
            nonce).ran hrun
          exact h
  | finalize readiness hrun =>
      refine h.transaction hrun h.attached (fun next hnext => ?_)
      refine ⟨(finalizeRelease_tame hnext).mild, fun x hx => ?_⟩
      exact absurd hnext (finalizeRelease_waits (h.attached x hx).owner (List.mem_map_of_mem hx))
  | loaded hw hrun =>
      obtain ⟨rfl, rfl⟩ := load_returned hrun
      refine ⟨h.proof, fun x hx => ?_⟩
      obtain ⟨hstarted, howner⟩ := h.begins_started hw hx
      have hw₀ := h.attached _ hw
      refine ⟨howner ▸ hw₀.lease, howner ▸ hw₀.owner, fun e he => ?_, fun e he => ?_, fun e he => ?_⟩
      · obtain rfl := Option.some.inj (hstarted.symm.trans he)
        rfl
      · obtain rfl := Option.some.inj (hstarted.symm.trans he)
        rfl
      · obtain rfl := Option.some.inj (hstarted.symm.trans he)
        rfl
  | cutPart hw hstarted hrun =>
      obtain ⟨stamp, rfl | rfl⟩ := (truncatePart_ends _).ran hrun
      · exact h
      · exact ⟨h.proof, fun x hx => (h.attached x hx).congr rfl rfl rfl rfl rfl⟩
  | cutLedger size hw hrun =>
      obtain ⟨stamp, rfl | rfl⟩ := (truncateLedger_ends size).ran hrun
      · exact h
      · exact ⟨h.proof, fun x hx => (h.attached x hx).congr rfl rfl rfl rfl rfl⟩
  | verified hw hstarted ledgerSha identity hrun =>
      rcases (verifyFinish_ends _ ledgerSha identity).ran hrun with rfl | ⟨proof, rfl⟩
      · exact h
      · exact ⟨saved_proof _, fun x hx => (h.attached x hx).congr rfl (saved_owner _)
          (saved_offset _) (saved_chunkCount _) (saved_terminal _)⟩
  | bundled hw hjob f => exact ⟨h.proof, h.attached⟩
  | transaction hw hchange hrun =>
      refine h.transaction hrun (fun x hx => h.ended hw hx) (fun next hnext => ?_)
      exact ⟨(hchange.tame hnext).mild, fun x hx => Or.inl (h.begins_started hw hx).1⟩
  | unstarted job nonce code recoverable hother hrun =>
      refine h.transaction hrun h.attached (fun next hnext => ?_)
      refine ⟨(workerFailed_tame hnext).mild, fun x hx => ?_⟩
      have hnone : workerFailed k.binding job nonce code recoverable s.state = .ok none :=
        workerFailed_other (h.attached x hx).owner (hother x hx)
      exact absurd (Except.ok.inj (hnone.symm.trans hnext)) nofun
  | exited live hlive => exact ⟨h.proof, fun x hx => h.attached x (hlive.subset hx)⟩
  | authorized hw hjob hstarted operationId hrun =>
      refine h.transaction hrun (fun x hx => h.ended hw hx) (fun next hnext => ?_)
      exact ⟨persistAuthorization_mild hnext, fun x hx => Or.inl (h.begins_started hw hx).1⟩
  | removed hw hstarted hterminal hauthorized part ledger bundle =>
      exact ⟨h.proof, fun x hx => (h.attached x hx).congr rfl rfl rfl rfl rfl⟩
  | aborted hrun =>
      refine h.transaction hrun h.attached (fun next hnext => ⟨(abortTask_tame hnext).mild, ?_⟩)
      obtain rfl := Option.some.inj (Except.ok.inj hnext)
      exact fun x _ => Or.inr rfl
  | stopped nonce hrun =>
      refine h.transaction hrun h.attached (fun next hnext => ?_)
      exact ⟨(stopRegistered_tame hnext).1.mild, fun x _ => Or.inr (stopRegistered_tame hnext).2⟩
  | elsewhere other hrun =>
      refine h.service (keeps_bind (keeps_checkIdleAmong _) (fun _ => ?_))
        (fun hb => (refuses_bind (checkIdleAmong_refuses hb)).ends) hrun
      exact @keeps_fileEvent (fun _ d => { d with active := other }) (fun _ _ => rfl)

theorem Sound.run {allowed : Party → System → Prop} (h : Sound s) (hrun : Run k allowed s s') :
    Sound s' := by
  induction hrun with
  | refl => exact h
  | tail hrun hallowed hstep ih => exact ih.step hstep

end Steps

/-! ## Cancellation is effective -/

/-- What a later state `s'` of a run keeps of the cancelled state `s`: the
    acknowledged progress and bytes, the begun actions with every settled
    operation, the registered worker, and that there is no proof.  The package
    file may go, once a release is authorized. -/
structure Held (s s' : System) : Prop where
  progress : Progress s.state s'.state
  proof : s'.state.prefixVerification = none
  workers : ∀ w ∈ s'.live, ∃ w₀ ∈ s.live, w.owner = w₀.owner
  bytes : ∀ f', s'.disk.part = some f' →
    ∃ f, s.disk.part = some f ∧ f'.bytes.take s.state.offset = f.bytes.take s.state.offset
  removed : s'.disk.part = none → s.disk.part = none ∨ s'.state.authorized = true

/-- What every later call of a cancelled task meets. -/
structure Closed (k : Task) (s : System) : Prop where
  transferChunk : ∀ c, Refuses (transferChunk k.policy c) s.disk
  transferChunks : ∀ c, Refuses (transferChunks k.policy c) s.disk
  executeVerifyPartial : ∀ t g, Refuses (executeVerifyPartial k.policy t g) s.disk
  chunkReceive : ∀ live t g c, Refuses (chunkReceive (checkIdleAmong live) k.policy t g c) s.disk
  batchReceive : ∀ live t g offset prepared,
    Refuses (batchReceive (checkIdleAmong live) k.policy t g offset prepared) s.disk
  launchRegister : ∀ live t g o, Refuses (launchRegister (checkIdleAmong live) k.policy t g o) s.disk
  verifyFinish : ∀ t g started sha identity,
    Refuses (verifyFinish k.policy t g started sha identity) s.disk
  finishBegin : ∀ live t g inputs operationId, Ends (fun d => d = s.disk)
    (finishBegin (checkIdleAmong live) k.policy k.binding t g inputs operationId) s.disk

section Cancelled

variable {k : Task} {s s' s'' : System} {d' : Disk} {p : Party}

theorem closed_of_cancelled (hc : s.state.cancelled = true) : Closed k s where
  transferChunk := transferChunk_refuses hc
  transferChunks := transferChunks_refuses hc
  executeVerifyPartial := fun _ _ => executeVerifyPartial_refuses hc
  chunkReceive := fun _ _ _ => chunkReceive_refuses (Or.inl hc)
  batchReceive := fun _ _ _ => batchReceive_refuses (Or.inl hc)
  launchRegister := fun _ _ _ => launchRegister_refuses (Or.inl hc)
  verifyFinish := fun _ _ => verifyFinish_refuses hc
  finishBegin := fun _ _ _ => finishBegin_ends (Or.inl hc) k.binding

theorem Held.trans (h : Held s s') (h' : Held s' s'') : Held s s'' where
  progress := h.progress.trans h'.progress
  proof := h'.proof
  workers := fun w hw => by
    obtain ⟨w', hw', ho'⟩ := h'.workers w hw
    obtain ⟨w₀, hw₀, ho⟩ := h.workers w' hw'
    exact ⟨w₀, hw₀, ho'.trans ho⟩
  bytes := fun f'' hf'' => by
    obtain ⟨f', hf', hbytes'⟩ := h'.bytes f'' hf''
    obtain ⟨f, hf, hbytes⟩ := h.bytes f' hf'
    rw [h.progress.offset] at hbytes'
    exact ⟨f, hf, hbytes'.trans hbytes⟩
  removed := fun hnone => by
    rcases h'.removed hnone with hnone' | hauthorized
    · exact (h.removed hnone').imp_right h'.progress.authorized
    · exact Or.inr hauthorized

/-- A step that leaves the files and the workers alone. -/
theorem Held.of_state (hprogress : Progress s.state s'.state)
    (hproof : s'.state.prefixVerification = none) (hpart : s'.disk.part = s.disk.part)
    (hlive : ∀ w ∈ s'.live, ∃ w₀ ∈ s.live, w.owner = w₀.owner) : Held s s' where
  progress := hprogress
  proof := hproof
  workers := hlive
  bytes := fun f' hf' => ⟨f', hpart ▸ hf', rfl⟩
  removed := fun hnone => Or.inl (hpart ▸ hnone)

/-- A step that leaves the whole store alone. -/
theorem Held.of_store (h : Sound s) (hc : s.state.cancelled = true)
    (hstore : s'.disk.store = s.disk.store) (hpart : s'.disk.part = s.disk.part)
    (hlive : ∀ w ∈ s'.live, ∃ w₀ ∈ s.live, w.owner = w₀.owner) : Held s s' := by
  have hstate : s'.state = s.state := congrArg Envelope.state hstore
  exact Held.of_state (hstate ▸ Progress.refl _) (hstate ▸ h.proof hc) hpart hlive

theorem Held.refl (h : Sound s) (hc : s.state.cancelled = true) : Held s s :=
  Held.of_state (Progress.refl _) (h.proof hc) rfl (fun w hw => ⟨w, hw, rfl⟩)

theorem Held.of_disk (h : Sound s) (hc : s.state.cancelled = true) (hd : d' = s.disk) :
    Held s { s with disk := d' } := by
  subst hd
  exact Held.refl h hc

/-- A stored change that makes progress of a cancelled task. -/
theorem Held.transaction {policy : Policy} {t g : Text} {change : Change} {live : List Worker}
    (h : Sound s) (hc : s.state.cancelled = true)
    (hrun : Ran (transact policy t g change) s.disk d')
    (hlive : ∀ w ∈ live, ∃ w₀ ∈ s.live, w.owner = w₀.owner)
    (hchange : ∀ next, change s.state = .ok (some next) → Progress s.state next) :
    Held s { s with disk := d', live := live } := by
  rcases (transact_ends change).ran hrun with rfl | ⟨next, hnext, rfl⟩
  · exact Held.of_state (Progress.refl _) (h.proof hc) rfl hlive
  · have hprogress := (hchange next hnext).trans (Progress.saved next)
    exact Held.of_state hprogress (saved_proof next (hprogress.cancelled hc)) rfl hlive

theorem begins_owner {w x : Worker} {started : Option TaskState} (hx : x ∈ s.begins w started) :
    ∃ w₀ ∈ s.live, x.owner = w₀.owner := by
  obtain ⟨y, hy, howner, -⟩ := mem_begins hx
  exact ⟨y, hy, howner⟩

theorem same_workers : ∀ w ∈ s.live, ∃ w₀ ∈ s.live, w.owner = w₀.owner := fun w hw => ⟨w, hw, rfl⟩

/-- A cut of a live worker is at the acknowledged offset. -/
theorem Held.cut {w : Worker} {started : TaskState} (h : Sound s) (hc : s.state.cancelled = true)
    (hw : w ∈ s.live) (hstarted : w.started = some started)
    (hrun : Ran (truncatePart started.offset) s.disk d') : Held s { s with disk := d' } := by
  obtain ⟨stamp, rfl | rfl⟩ := (truncatePart_ends _).ran hrun
  · exact Held.refl h hc
  · have hoffset : started.offset = s.state.offset := (h.attached w hw).offset started hstarted
    refine ⟨Progress.refl _, h.proof hc, same_workers, fun f' hf' => ?_, fun hnone => ?_⟩
    · obtain ⟨f, hf, rfl⟩ := Option.map_eq_some_iff.mp hf'
      refine ⟨f, hf, ?_⟩
      show (f.bytes.take started.offset).take s.state.offset = f.bytes.take s.state.offset
      rw [hoffset, List.take_take, Nat.min_self]
    · exact Or.inl (Option.map_eq_none_iff.mp hnone)

theorem elsewhere_ends {live : List Owner} {d : Disk} (other : Option Owner) :
    Ends (fun v => v.store = d.store ∧ v.part = d.part ∧ v.ledger = d.ledger)
      (do
        checkIdleAmong live
        allOrNothing (fun _ d => { d with active := other })) d := by
  have hidle : Keeps (fun v => v.store = d.store ∧ v.part = d.part ∧ v.ledger = d.ledger)
      (checkIdleAmong live) :=
    keeps_lease (fun _ _ hv => hv)
  have hput : Keeps (fun v => v.store = d.store ∧ v.part = d.part ∧ v.ledger = d.ledger)
      (allOrNothing (fun _ d => { d with active := other }) : Guest Unit) :=
    keeps_allOrNothing (fun _ _ hv => hv)
  refine triple_pre (keeps_bind hidle (fun _ => hput)) (fun v hv => ?_)
  rw [show v = d from hv]
  exact ⟨rfl, rfl, rfl⟩

/-- A step from a cancelled state. -/
theorem Held.step (h : Sound s) (hc : s.state.cancelled = true) (hstep : Step k p s s') :
    Held s s' := by
  have hclosed : Closed k s := closed_of_cancelled hc
  cases hstep with
  | chunk c hrun => exact Held.of_disk h hc ((hclosed.chunkReceive _ _ _ c).ends.ran hrun)
  | chunks offset prepared hrun =>
      exact Held.of_disk h hc ((hclosed.batchReceive _ _ _ offset prepared).ends.ran hrun)
  | finish inputs operationId hrun =>
      exact Held.of_disk h hc ((hclosed.finishBegin _ _ _ inputs operationId).ran hrun)
  | launched o hfresh hrun => exact ((hclosed.launchRegister _ _ _ o).returned hrun).elim
  | launchFailed o hrun =>
      exact Held.of_disk h hc ((hclosed.launchRegister _ _ _ o).ends.ran hrun)
  | reconcile nonce hrun =>
      obtain ⟨active, rfl | ⟨o, error, ho, rfl⟩⟩ := (reconcileReceive_ends nonce).ran hrun
      · exact Held.of_state (Progress.refl _) (h.proof hc) rfl same_workers
      · refine Held.of_state ?_ (saved_proof _ ((saved_cancelled _).trans hc)) rfl same_workers
        refine Progress.trans ?_ (Progress.saved _)
        refine Progress.of_terminal rfl rfl rfl (fun h => h) ?_
        show some o.nonce = s.disk.store.state.owner.map Owner.nonce
        rw [ho]
        rfl
  | finalize readiness hrun =>
      exact Held.transaction h hc hrun same_workers
        (fun next hnext => (finalizeRelease_tame hnext).progress hc)
  | loaded hw hrun =>
      obtain ⟨rfl, -⟩ := load_returned hrun
      exact Held.of_state (Progress.refl _) (h.proof hc) rfl (fun x hx => begins_owner hx)
  | cutPart hw hstarted hrun => exact Held.cut h hc hw hstarted hrun
  | cutLedger size hw hrun =>
      obtain ⟨stamp, rfl | rfl⟩ := (truncateLedger_ends size).ran hrun
      · exact Held.refl h hc
      · exact Held.of_store h hc rfl rfl same_workers
  | verified hw hstarted ledgerSha identity hrun =>
      exact Held.of_disk h hc ((hclosed.verifyFinish _ _ _ ledgerSha identity).ends.ran hrun)
  | bundled hw hjob f => exact Held.of_state (Progress.refl _) (h.proof hc) rfl same_workers
  | transaction hw hchange hrun =>
      exact Held.transaction h hc hrun (fun x hx => begins_owner hx)
        (fun next hnext => (hchange.tame hnext).progress hc)
  | unstarted job nonce code recoverable hother hrun =>
      exact Held.transaction h hc hrun same_workers
        (fun next hnext => (workerFailed_tame hnext).progress hc)
  | exited live hlive =>
      exact Held.of_state (Progress.refl _) (h.proof hc) rfl
        (fun w hw => ⟨w, hlive.subset hw, rfl⟩)
  | authorized hw hjob hstarted operationId hrun =>
      exact Held.transaction h hc hrun (fun x hx => begins_owner hx) (fun next hnext =>
        persistAuthorization_progress ((h.attached _ hw).terminal _ hstarted) hnext)
  | removed hw hstarted hterminal hauthorized part ledger bundle =>
      have hstored : s.state.authorized = true := by
        have hsame := (h.attached _ hw).terminal _ hstarted
        show s.disk.store.state.terminal.any _ = true
        rw [← hsame, hterminal]
        exact hauthorized
      refine ⟨Progress.refl _, h.proof hc, same_workers, fun f' hf' => ?_,
        fun _ => Or.inr hstored⟩
      cases part with
      | true => exact absurd hf' nofun
      | false => exact ⟨f', hf', rfl⟩
  | aborted hrun =>
      exact Held.transaction h hc hrun same_workers
        (fun next hnext => (abortTask_tame hnext).progress hc)
  | stopped nonce hrun =>
      exact Held.transaction h hc hrun same_workers
        (fun next hnext => (stopRegistered_tame hnext).1.progress hc)
  | elsewhere other hrun =>
      obtain ⟨hstore, hpart, -⟩ := (elsewhere_ends other).ran hrun
      exact Held.of_store h hc hstore hpart same_workers

theorem Held.run {allowed : Party → System → Prop} (h : Sound s) (hc : s.state.cancelled = true)
    (hrun : Run k allowed s s') : Held s s' := by
  induction hrun with
  | refl => exact Held.refl h hc
  | tail hrun hallowed hstep ih =>
      exact ih.trans (Held.step (h.run hrun) (ih.progress.cancelled hc) hstep)

end Cancelled

/-- No release is authorized and no temporary of `s` is gone. -/
structure Retained (s s' : System) : Prop where
  unauthorized : s'.state.authorized = false
  part : s.disk.part.isSome → s'.disk.part.isSome
  ledger : s.disk.ledger.isSome → s'.disk.ledger.isSome
  bundle : s.bundle.isSome → s'.bundle.isSome

section Package

variable {k : Task} {s s' s'' : System} {d' : Disk} {p : Party}

theorem Retained.refl (h : s.state.authorized = false) : Retained s s :=
  ⟨h, fun h => h, fun h => h, fun h => h⟩

theorem Retained.trans (h : Retained s s') (h' : Retained s' s'') : Retained s s'' :=
  ⟨h'.unauthorized, fun hs => h'.part (h.part hs), fun hs => h'.ledger (h.ledger hs),
    fun hs => h'.bundle (h.bundle hs)⟩

theorem Retained.of_disk (h : s.state.authorized = false) (hd : d' = s.disk) :
    Retained s { s with disk := d' } := by
  subst hd
  exact Retained.refl h

theorem Retained.transaction {policy : Policy} {t g : Text} {change : Change} {live : List Worker}
    (h : s.state.authorized = false) (hrun : Ran (transact policy t g change) s.disk d')
    (hchange : ∀ next, change s.state = .ok (some next) → next.authorized = true →
      s.state.authorized = true) : Retained s { s with disk := d', live := live } := by
  rcases (transact_ends change).ran hrun with rfl | ⟨next, hnext, rfl⟩
  · exact ⟨h, fun h => h, fun h => h, fun h => h⟩
  · refine ⟨?_, fun h => h, fun h => h, fun h => h⟩
    show next.saved.authorized = false
    rw [authorized_congr (saved_terminal next), Bool.eq_false_iff]
    intro hauthorized
    exact absurd (hchange next hnext hauthorized) (by rw [h]; exact Bool.false_ne_true)

/-- A step that leaves the files and the terminal alone. -/
theorem Retained.of_terminal (h : s.state.authorized = false)
    (hterminal : s'.state.terminal = s.state.terminal) (hpart : s'.disk.part = s.disk.part)
    (hledger : s'.disk.ledger = s.disk.ledger) (hbundle : s'.bundle = s.bundle) : Retained s s' :=
  ⟨(authorized_congr hterminal).trans h, fun hs => hpart ▸ hs, fun hs => hledger ▸ hs,
    fun hs => hbundle ▸ hs⟩

/-- A step from a cancelled state without authorization, other than the
    authorization itself. -/
theorem Retained.step (hsound : Sound s) (hc : s.state.cancelled = true)
    (h : s.state.authorized = false) (hp : p ≠ .authorization) (hstep : Step k p s s') :
    Retained s s' := by
  have hclosed : Closed k s := closed_of_cancelled hc
  cases hstep with
  | chunk c hrun => exact Retained.of_disk h ((hclosed.chunkReceive _ _ _ c).ends.ran hrun)
  | chunks offset prepared hrun =>
      exact Retained.of_disk h ((hclosed.batchReceive _ _ _ offset prepared).ends.ran hrun)
  | finish inputs operationId hrun =>
      exact Retained.of_disk h ((hclosed.finishBegin _ _ _ inputs operationId).ran hrun)
  | launched o hfresh hrun => exact ((hclosed.launchRegister _ _ _ o).returned hrun).elim
  | launchFailed o hrun =>
      exact Retained.of_disk h ((hclosed.launchRegister _ _ _ o).ends.ran hrun)
  | reconcile nonce hrun =>
      obtain ⟨active, rfl | ⟨o, error, -, rfl⟩⟩ := (reconcileReceive_ends nonce).ran hrun
      · exact Retained.of_terminal h rfl rfl rfl rfl
      · exact Retained.of_terminal h (saved_terminal _) rfl rfl rfl
  | finalize readiness hrun =>
      exact Retained.transaction h hrun
        (fun next hnext => (finalizeRelease_tame hnext).unauthorized hc)
  | loaded hw hrun =>
      obtain ⟨rfl, -⟩ := load_returned hrun
      exact Retained.of_terminal h rfl rfl rfl rfl
  | cutPart hw hstarted hrun =>
      obtain ⟨stamp, rfl | rfl⟩ := (truncatePart_ends _).ran hrun
      · exact Retained.refl h
      · exact ⟨h, fun hs => by simpa using hs, fun hs => hs, fun hs => hs⟩
  | cutLedger size hw hrun =>
      obtain ⟨stamp, rfl | rfl⟩ := (truncateLedger_ends size).ran hrun
      · exact Retained.refl h
      · exact ⟨h, fun hs => hs, fun hs => by simpa using hs, fun hs => hs⟩
  | verified hw hstarted ledgerSha identity hrun =>
      exact Retained.of_disk h ((hclosed.verifyFinish _ _ _ ledgerSha identity).ends.ran hrun)
  | bundled hw hjob f => exact ⟨h, fun hs => hs, fun hs => hs, fun _ => rfl⟩
  | transaction hw hchange hrun =>
      exact Retained.transaction h hrun (fun next hnext => (hchange.tame hnext).unauthorized hc)
  | unstarted job nonce code recoverable hother hrun =>
      exact Retained.transaction h hrun
        (fun next hnext => (workerFailed_tame hnext).unauthorized hc)
  | exited live hlive => exact Retained.of_terminal h rfl rfl rfl rfl
  | authorized hw hjob hstarted operationId hrun => exact absurd rfl hp
  | removed hw hstarted hterminal hauthorized part ledger bundle =>
      -- the worker would have found an authorization that is not stored
      have hstored : s.state.authorized = true := by
        show s.disk.store.state.terminal.any _ = true
        rw [← (hsound.attached _ hw).terminal _ hstarted, hterminal]
        exact hauthorized
      exact absurd (h.symm.trans hstored) Bool.false_ne_true
  | aborted hrun =>
      exact Retained.transaction h hrun (fun next hnext => (abortTask_tame hnext).unauthorized hc)
  | stopped nonce hrun =>
      exact Retained.transaction h hrun
        (fun next hnext => (stopRegistered_tame hnext).1.unauthorized hc)
  | elsewhere other hrun =>
      obtain ⟨hstore, hpart, hledger⟩ := (elsewhere_ends other).ran hrun
      exact Retained.of_terminal h (congrArg (fun e => e.state.terminal) hstore) hpart hledger rfl

end Package

/-! ## Restoring what was begun -/

section Replays

variable {t t' : Terminal} {inputs : Inputs} {operationId : Text} {o : Operation}

/-- An action that was not begun before is begun by its inputs. -/
theorem beginAction_new (h : t.beginAction inputs operationId = .ok (o, t'))
    (hnew : t.op inputs.action = none) :
    t' = t.setOp inputs.action o ∧ o.operationId = operationId ∧ o.inputs = inputs ∧
      o.status = .inProgress := by
  unfold Terminal.beginAction at h
  cases hc : t.checkInputs inputs with
  | some code => rw [hc] at h; exact absurd h nofun
  | none =>
      rw [hc, hnew] at h
      dsimp only at h
      split at h
      next => exact absurd h nofun
      next =>
        obtain ⟨rfl, rfl⟩ := Prod.mk.inj (Except.ok.inj h)
        exact ⟨rfl, rfl, rfl, rfl⟩

/-- A finished operation is begun as it was, and its result is replayed. -/
theorem replayOperation_done (saved : Operation) (authorized : Bool)
    (h : t.beginAction saved.inputs saved.operationId = .ok (o, t'))
    (hid : isIdentifier saved.operationId = true) (hdigest : o.inputDigest = saved.inputDigest)
    (hstatus : saved.status = .done) :
    t.replayOperation authorized saved.inputs.action saved = t'.replayDone saved.inputs.action saved := by
  unfold Terminal.replayOperation
  rw [hid, if_neg Bool.noConfusion, if_neg (not_not.mpr rfl), h]
  dsimp only
  rw [if_neg (not_not.mpr hdigest), hstatus]

/-- An operation in progress is begun as it was. -/
theorem replayOperation_begun (saved : Operation)
    (h : t.beginAction saved.inputs saved.operationId = .ok (o, t'))
    (hid : isIdentifier saved.operationId = true) (hdigest : o.inputDigest = saved.inputDigest)
    (hstatus : saved.status = .inProgress) :
    t.replayOperation false saved.inputs.action saved = .ok t' := by
  unfold Terminal.replayOperation
  rw [hid, if_neg Bool.noConfusion, if_neg (not_not.mpr rfl), h]
  dsimp only
  rw [if_neg (not_not.mpr hdigest), hstatus]
  exact if_neg (fun hc => Bool.noConfusion hc.2)

/-- A snapshot whose history comes out as itself is restored. -/
theorem restore_of_replays {snapshot t₁ t₂ : Terminal} {authorized : Bool}
    (hb : validateBinding snapshot.binding = none)
    (hd : validateDestination snapshot.destination snapshot.binding.direction = none)
    (hauthorized : snapshot.releaseAuthorization.isSome = authorized)
    (h₁ : (Terminal.new snapshot.binding snapshot.destination).replaySaved authorized .prepare
      snapshot.prepareOp = .ok t₁)
    (h₂ : t₁.replaySaved authorized .commit snapshot.commitOp = .ok t₂)
    (h₃ : t₂.replaySaved authorized .release snapshot.releaseOp = .ok snapshot) :
    snapshot.restore snapshot.binding snapshot.destination = .ok snapshot := by
  have hchecks : firstError [validateBinding snapshot.binding,
      validateDestination snapshot.destination snapshot.binding.direction,
      failsWith (snapshot.binding ≠ snapshot.binding ∨ snapshot.destination ≠ snapshot.destination)
        "invalid_terminal_snapshot"] = none := by
    rw [firstError_cons, firstError_cons, firstError_cons, failsWith_none]
    exact ⟨hb, hd, fun h => h.elim (fun h => h rfl) (fun h => h rfl), rfl⟩
  unfold Terminal.restore
  rw [hchecks, hauthorized]
  dsimp only
  rw [h₁, ok_bind, h₂, ok_bind, h₃, ok_bind]
  exact if_neg (not_not.mpr rfl)

/-- A completed prepare changes its own operation, the receipt and the phase. -/
theorem completePrepare_ok {receipt : PrepareReceipt} (ho : t.prepareOp = some o)
    (h : t.completePrepare operationId receipt = .ok t') : ∃ phase, t' = { t with
      prepare := some receipt, localPhase := phase
      prepareOp := some (o.complete (.prepared receipt)) } := by
  obtain ⟨o', ho', h⟩ := bind_ok h
  obtain rfl := Option.some.inj (ho.symm.trans (pending_ok ho').1)
  split at h
  next => exact absurd h nofun
  next => exact ⟨_, (Except.ok.inj h).symm⟩

/-- A pull whose release is begun is restored as it stands. -/
theorem restore_releasing {b : Binding} {d : Destination} {t₁ t₂ t₃ : Terminal} {o₁ o₂ : Operation}
    {prepareId releaseId : Text} {receipt : PrepareReceipt} {publication : PublicationReceipt}
    (hb : validateBinding b = none) (hd : validateDestination d b.direction = none)
    (hprepareId : isIdentifier prepareId = true) (hreleaseId : isIdentifier releaseId = true)
    (h₁ : (Terminal.new b d).beginAction .prepare prepareId = .ok (o₁, t₁))
    (h₂ : t₁.completePrepare prepareId receipt = .ok t₂)
    (h₃ : t₂.beginAction (.release receipt publication) releaseId = .ok (o₂, t₃)) :
    t₃.restore b d = .ok t₃ := by
  obtain ⟨ht₁, rfl, hinputs₁, -⟩ := beginAction_new h₁ rfl
  obtain ⟨phase, ht₂⟩ := completePrepare_ok (by rw [ht₁]; rfl) h₂
  obtain ⟨ht₃, rfl, hinputs₂, hstatus₂⟩ := beginAction_new h₃ (by rw [ht₂, ht₁]; rfl)
  have hprepare : (Terminal.new b d).replaySaved false .prepare
      (some (o₁.complete (.prepared receipt))) = .ok t₂ := by
    have haction : (o₁.complete (.prepared receipt)).inputs.action = .prepare :=
      congrArg Inputs.action hinputs₁
    rw [← hinputs₁] at h₁
    have h := replayOperation_done (o₁.complete (.prepared receipt)) false h₁ hprepareId rfl rfl
    rw [haction] at h
    exact h.trans h₂
  have hrelease : t₂.replaySaved false .release (some o₂) = .ok t₃ := by
    have haction : o₂.inputs.action = .release := congrArg Inputs.action hinputs₂
    rw [← hinputs₂] at h₃
    have h := replayOperation_begun o₂ h₃ hreleaseId rfl hstatus₂
    rw [haction] at h
    exact h
  have hhistory : t₃.binding = b ∧ t₃.destination = d ∧ t₃.releaseAuthorization = none ∧
      t₃.prepareOp = some (o₁.complete (.prepared receipt)) ∧ t₃.commitOp = none ∧
      t₃.releaseOp = some o₂ := by
    rw [ht₃, ht₂, ht₁]
    exact ⟨rfl, rfl, rfl, rfl, rfl, rfl⟩
  obtain ⟨rfl, rfl, hauthorized, hprepareOp, hcommitOp, hreleaseOp⟩ := hhistory
  rw [← hprepareOp] at hprepare
  rw [← hreleaseOp] at hrelease
  exact restore_of_replays hb hd (by rw [hauthorized]; rfl) hprepare (by rw [hcommitOp]; rfl) hrelease

/-- A release in progress that was not authorized is authorized by its operation. -/
theorem authorizeRelease_begun {t : Terminal} {o : Operation} {receipt : PrepareReceipt}
    {publication : PublicationReceipt} (ho : t.releaseOp = some o) (hstatus : o.status = .inProgress)
    (hinputs : o.inputs = .release receipt publication) (hnone : t.releaseAuthorization = none) :
    ∃ t', t.authorizeRelease o.operationId = .ok t' ∧ t'.releaseAuthorization.isSome = true := by
  have hpending : t.pending .release o.operationId = .ok o := by
    unfold Terminal.pending Terminal.op
    dsimp only
    rw [ho]
    exact if_neg (not_or.mpr ⟨not_not.mpr rfl, not_not.mpr hstatus⟩)
  unfold Terminal.authorizeRelease
  rw [hpending, ok_bind, hnone, hinputs]
  exact ⟨_, rfl, rfl⟩

end Replays

/-! ## A release that overtakes its abort -/

/-- Some run of `m` from the disk, without faults. -/
def after {α : Type} (m : Guest α) (d : Disk) : Disk :=
  (m { disk := d, clock := 0, free := 0, script := [] }).2.disk

theorem ran_after {α : Type} (m : Guest α) (d : Disk) : Ran m d (after m d) := ⟨_, rfl, rfl⟩

/-- The machine on which `after` runs. -/
def calm (d : Disk) : Machine Failure Disk := { disk := d, clock := 0, free := 0, script := [] }

section Calm

variable {k : Task} {d : Disk} {s : TaskState}

theorem gives_probe_calm : Gives probe (calm d) () (calm d) := rfl

theorem gives_getDisk_calm : Gives getDisk (calm d) d (calm d) := rfl

/-- A calm machine with the task finds it. -/
theorem gives_load_calm (ht : d.store.state.request.transferId = k.transferId)
    (hd : d.store.state.request.requestDigest = k.requestDigest) :
    Gives (load k.transferId k.requestDigest) (calm d) d.store (calm d) :=
  gives_bind.mpr ⟨_, _, gives_probe_calm, gives_bind.mpr ⟨_, _, gives_getDisk_calm,
    gives_check.mpr ⟨not_not.mpr ht, gives_check.mpr ⟨not_not.mpr hd, rfl⟩⟩⟩⟩

/-- A calm machine saves what fits. -/
theorem gives_save_calm (hguest : guestPrefix s.saved = true)
    (hfits : k.policy.stateFits (d.store.revision + 1) s.saved = true) :
    Gives (save k.policy d.store s) (calm d) { revision := d.store.revision + 1, state := s.saved }
      (calm (d.saving s)) := by
  have hencode : Gives (encode k.policy (d.store.revision + 1) s.saved) (calm d) () (calm d) :=
    gives_check.mpr ⟨by rw [hguest]; exact Bool.noConfusion,
      gives_check.mpr ⟨by rw [hfits]; exact Bool.noConfusion, gives_probe_calm⟩⟩
  exact gives_bind.mpr ⟨_, _, gives_probe_calm, gives_bind.mpr ⟨_, _, gives_getDisk_calm,
    gives_check.mpr ⟨not_not.mpr rfl, gives_bind.mpr ⟨_, _, hencode,
      gives_bind.mpr ⟨(), calm (d.saving s), rfl, rfl⟩⟩⟩⟩⟩

/-- A transaction of a calm machine stores what its change makes of the state. -/
theorem after_transact {change : Change} (ht : d.store.state.request.transferId = k.transferId)
    (hd : d.store.state.request.requestDigest = k.requestDigest)
    (hchange : change d.store.state = .ok (some s)) (hguest : guestPrefix s.saved = true)
    (hfits : k.policy.stateFits (d.store.revision + 1) s.saved = true) :
    after (transact k.policy k.transferId k.requestDigest change) d = d.saving s := by
  have hrun : Gives (transact k.policy k.transferId k.requestDigest change) (calm d) () (calm (d.saving s)) := by
    refine gives_bind.mpr ⟨_, _, gives_probe_calm, gives_bind.mpr ⟨_, _, gives_load_calm ht hd, ?_⟩⟩
    rw [hchange]
    exact gives_bind.mpr ⟨_, _, rfl, gives_bind.mpr ⟨_, _, gives_save_calm hguest hfits, rfl⟩⟩
  exact congrArg (fun r => r.2.disk) hrun

/-- A calm machine registers a worker when none is registered. -/
theorem after_launchRegister {worker : Owner} (ht : d.store.state.request.transferId = k.transferId)
    (hd : d.store.state.request.requestDigest = k.requestDigest)
    (hcancelled : d.store.state.cancelled = false)
    (hdeadline : 0 < d.store.state.deadlineMonotonic) (hidle : d.active = none)
    (hs : s = { d.store.state with owner := some worker, error := none, prefixVerification := none })
    (hguest : guestPrefix s.saved = true)
    (hfits : k.policy.stateFits (d.store.revision + 1) s.saved = true) :
    after (launchRegister (checkIdleAmong []) k.policy k.transferId k.requestDigest worker) d =
      { d.saving s with active := some worker } := by
  have hrun : Gives (launchRegister (checkIdleAmong []) k.policy k.transferId k.requestDigest worker) (calm d) ()
      (calm { d.saving s with active := some worker }) := by
    refine gives_bind.mpr ⟨_, _, gives_probe_calm, gives_bind.mpr ⟨_, _, gives_load_calm ht hd, ?_⟩⟩
    refine gives_bind.mpr ⟨0, calm d, rfl, gives_check.mpr ⟨?_, ?_⟩⟩
    · rw [hcancelled]
      exact not_or.mpr ⟨Bool.noConfusion, not_le.mpr hdeadline⟩
    · have hchecked : Gives (checkIdleAmong []) (calm d) () (calm d) :=
        gives_bind.mpr ⟨_, _, gives_probe_calm, gives_bind.mpr ⟨_, _, gives_getDisk_calm, by rw [hidle]; rfl⟩⟩
      refine gives_bind.mpr ⟨_, _, hchecked, gives_bind.mpr ⟨_, _, gives_probe_calm, ?_⟩⟩
      rw [← hs]
      exact gives_bind.mpr ⟨_, _, gives_save_calm hguest hfits, rfl⟩
  exact congrArg (fun r => r.2.disk) hrun

end Calm

/-- What an authorization makes of a state, for a restored terminal that it authorizes. -/
theorem persistAuthorization_restored {binding : TaskState → Binding} {started : TaskState}
    {operationId : Text} {t t' : Terminal} (hterminal : started.terminal = some t)
    (hrestored : t.restore (binding started) started.request.expectedDestination = .ok t)
    (hauthorized : t.authorizeRelease operationId = .ok t') (s : TaskState) :
    persistAuthorization binding started operationId s = .ok (some (s.withTerminal t')) := by
  unfold persistAuthorization TaskState.restored
  rw [hterminal]
  dsimp only
  rw [hrestored, ok_bind, hauthorized, ok_bind]

def pullRequest : Request :=
  { transferId := ascii "t", requestDigest := List.replicate 64 48
    expectedDestination :=
      { endpoint := ascii "host", identity := [(ascii "id", ascii "h")]
        canonicalPath := ascii "/r" }
    vmUuid := ascii "u", bootIdentity := ascii "b", vmEpoch := ascii "e"
    budget :=
      { maxFiles := 1, maxMetadataBytes := 1, maxLogicalBytes := 1, maxPackageBytes := 1
        minFreeBytes := 0, maxChunkBytes := 1 } }

def pullPolicy : Policy :=
  { policyId := ascii "p", maxChunkBytes := 1, maxBatchChunks := none
    stateFits := fun _ _ => true }

/-- A pull task: its binding has the other direction. -/
def pullTask : Task :=
  { policy := pullPolicy, transferId := pullRequest.transferId
    requestDigest := pullRequest.requestDigest
    binding := fun s => { protocolBinding pullPolicy s with direction := .pull } }

/-- The task after its package is ready. -/
def pullReady : TaskState :=
  { request := pullRequest, deadlineMonotonic := 10, phase := .sourceReady
    package := { size := 1, sha256 := List.replicate 64 48, manifestSha256 := List.replicate 64 48 }
    offset := 0, chunkCount := 0, partialIdentity := none, terminal := none, owner := none
    cancelled := false, error := none, prefixVerification := none }

/-- Its terminal after a prepare is done and a release is begun. -/
def pullReleasing : Except String Terminal := do
  let b := pullTask.binding pullReady
  let (_, t) ← (Terminal.new b pullRequest.expectedDestination).beginAction .prepare (ascii "a")
  let receipt : PrepareReceipt :=
    { binding := b, prepareId := ascii "i", identityDigest := List.replicate 64 48 }
  let t ← t.completePrepare (ascii "a") receipt
  let (_, t) ← t.beginAction (.release receipt
    { binding := b, prepareReceiptSha256 := receiptDigest receipt.toJson
      destination := pullRequest.expectedDestination, manifestSha256 := b.manifestSha256
      directoryIdentity := { device := 1, inode := 2 }, publicationId := ascii "x" }) (ascii "r")
  .ok t

def pullStart : System :=
  { disk :=
      { device := 1, nextInode := 1, part := none, ledger := none
        store :=
          { revision := 1
            state :=
              { pullReady with phase := .sourcePrepared, terminal := pullReleasing.toOption } }
        active := none }
    bundle := some (newFile 1 0), live := [] }

def releaseWorker : Worker :=
  { owner := { job := .release, nonce := ascii "n", pid := 1, birth := 1, stopped := false }
    started := none }

def pullLaunched : System :=
  { pullStart with
    disk := after (launchRegister (checkIdleAmong []) pullTask.policy pullTask.transferId
      pullTask.requestDigest releaseWorker.owner) pullStart.disk
    live := [releaseWorker] }

/-- The worker has loaded the task. -/
def pullLoaded : System :=
  { pullLaunched with live := [{ releaseWorker with started := some pullLaunched.state }] }

def pullCancelled : System :=
  { pullLoaded with
    disk := after (transact pullTask.policy pullTask.transferId pullTask.requestDigest abortTask)
      pullLoaded.disk }

/-- The worker goes on with the state that it loaded before the abort. -/
def pullAuthorized : System :=
  { pullCancelled with
    disk := after (transact pullTask.policy pullTask.transferId pullTask.requestDigest
      (persistAuthorization pullTask.binding pullLaunched.state (ascii "r"))) pullCancelled.disk
    live := [releaseWorker] }

def pullReloaded : System :=
  { pullAuthorized with live := [{ releaseWorker with started := some pullAuthorized.state }] }

def pullRemoved : System := { pullReloaded with bundle := none }

/-- The only worker alive begins or ends its job. -/
theorem begins_single {s : System} {w : Worker} (started : Option TaskState)
    (h : s.live = [w]) : s.begins w started = [{ w with started := started }] := by
  unfold System.begins Worker.restart
  rw [h, List.map_singleton, if_pos rfl]

/-- The only worker alive loads the task. -/
theorem loaded_single {k : Task} {s : System} {w : Worker} (hlive : s.live = [w])
    (ht : s.disk.store.state.request.transferId = k.transferId)
    (hd : s.disk.store.state.request.requestDigest = k.requestDigest) :
    Step k .worker s { s with live := [{ w with started := some s.state }] } := by
  rw [← begins_single (some s.state) hlive]
  exact Step.loaded (hlive ▸ List.mem_singleton_self w)
    ⟨calm s.disk, rfl, congrArg Prod.fst (gives_load_calm ht hd), fixes_load _ _ _⟩

/-- A release worker of a pull removes the bundle. -/
theorem removed_bundle {k : Task} {s : System} {w : Worker} {started : TaskState} {t : Terminal}
    (hw : w ∈ s.live) (hstarted : w.started = some started) (hterminal : started.terminal = some t)
    (hauthorized : t.releaseAuthorization.isSome) :
    Step k .removal s { s with bundle := none } :=
  .removed hw hstarted hterminal hauthorized false false true

/-- The terminal of the pull is restored as it stands, and is not authorized yet. -/
theorem pullReleasing_restored : ∃ t t', pullReleasing = .ok t ∧
    t.restore (pullTask.binding pullReady) pullRequest.expectedDestination = .ok t ∧
    t.releaseAuthorization = none ∧ t.authorizeRelease (ascii "r") = .ok t' ∧
    t'.releaseAuthorization.isSome = true := by
  obtain ⟨t, ht⟩ : ∃ t, pullReleasing = .ok t := by
    have hsome : pullReleasing.toOption.isSome = true := by decide +kernel
    cases h : pullReleasing with
    | ok t => exact ⟨t, rfl⟩
    | error code => rw [h] at hsome; exact absurd hsome Bool.noConfusion
  obtain ⟨⟨o₁, t₁⟩, h₁, h⟩ := bind_ok ht
  obtain ⟨t₂, h₂, h⟩ := bind_ok h
  obtain ⟨⟨o₂, t₃⟩, h₃, h⟩ := bind_ok h
  obtain rfl := Except.ok.inj h
  obtain ⟨ht₁, -, -, -⟩ := beginAction_new h₁ rfl
  obtain ⟨phase, ht₂⟩ := completePrepare_ok (by rw [ht₁]; rfl) h₂
  obtain ⟨ht₃, hid₂, hinputs₂, hstatus₂⟩ := beginAction_new h₃ (by rw [ht₂, ht₁]; rfl)
  have hnone : t₃.releaseAuthorization = none := by rw [ht₃, ht₂, ht₁]; rfl
  obtain ⟨t', ht', hsome⟩ := authorizeRelease_begun (by rw [ht₃]; rfl) hstatus₂ hinputs₂ hnone
  rw [hid₂] at ht'
  exact ⟨t₃, t', ht, restore_releasing (by decide +kernel) (by decide +kernel) (by decide +kernel)
    (by decide +kernel) h₁ h₂ h₃, hnone, ht', hsome⟩

/-! The states of the run, each from the one before it: the digests of the
    receipts are compared with themselves and never computed. -/

theorem saving_terminal (d : Disk) (s : TaskState) : (d.saving s).store.state.terminal = s.terminal :=
  saved_terminal s

theorem pullStart_terminal : pullStart.state.terminal = pullReleasing.toOption := by
  dsimp only [System.state, pullStart]

theorem pullLaunched_disk : pullLaunched.disk = { pullStart.disk.saving
    { pullStart.state with owner := some releaseWorker.owner, error := none, prefixVerification := none } with
    active := some releaseWorker.owner } :=
  after_launchRegister rfl rfl rfl (by decide +kernel) rfl rfl rfl rfl

theorem pullLaunched_terminal : pullLaunched.state.terminal = pullReleasing.toOption := by
  show pullLaunched.disk.store.state.terminal = _
  rw [pullLaunched_disk]
  simp only [saving_terminal, pullStart_terminal]

theorem pullLaunched_request : pullLaunched.state.request = pullRequest ∧
    pullLaunched.state.package = pullReady.package := by
  show pullLaunched.disk.store.state.request = _ ∧ pullLaunched.disk.store.state.package = _
  rw [pullLaunched_disk]
  exact ⟨rfl, rfl⟩

theorem pullLaunched_found : pullLaunched.disk.store.state.request.transferId = pullTask.transferId ∧
    pullLaunched.disk.store.state.request.requestDigest = pullTask.requestDigest :=
  ⟨congrArg Request.transferId pullLaunched_request.1, congrArg Request.requestDigest pullLaunched_request.1⟩

theorem pullCancelled_disk : pullCancelled.disk =
    pullLaunched.disk.saving { pullLaunched.state with cancelled := true } :=
  after_transact pullLaunched_found.1 pullLaunched_found.2 rfl rfl rfl

theorem pullCancelled_terminal : pullCancelled.state.terminal = pullReleasing.toOption := by
  show pullCancelled.disk.store.state.terminal = _
  rw [pullCancelled_disk]
  simp only [saving_terminal, pullLaunched_terminal]

theorem pullCancelled_state : pullCancelled.state.cancelled = true ∧
    pullCancelled.state.request = pullRequest := by
  show pullCancelled.disk.store.state.cancelled = true ∧ pullCancelled.disk.store.state.request = _
  rw [pullCancelled_disk]
  exact ⟨rfl, pullLaunched_request.1⟩

theorem pullCancelled_unauthorized : pullCancelled.state.authorized = false := by
  obtain ⟨t, _, ht, _, hnone, _⟩ := pullReleasing_restored
  unfold TaskState.authorized
  rw [pullCancelled_terminal, ht]
  exact congrArg Option.isSome hnone

/-- The binding of the pull pins its request and its package. -/
theorem pullTask_binding {s : TaskState} (hrequest : s.request = pullRequest)
    (hpackage : s.package = pullReady.package) : pullTask.binding s = pullTask.binding pullReady := by
  dsimp only [pullTask, protocolBinding]
  rw [hrequest, hpackage]
  rfl

/-- A cancelled task is saved without a proof. -/
theorem guestPrefix_withTerminal {s : TaskState} (h : s.cancelled = true) (t : Terminal) :
    guestPrefix (s.withTerminal t).saved = true := by
  unfold TaskState.saved
  rw [if_pos (show (s.withTerminal t).cancelled = true ∨ _ from Or.inl h)]
  rfl

theorem saving_withTerminal (d : Disk) (s : TaskState) (t : Terminal) :
    (d.saving (s.withTerminal t)).store.state.terminal = some t :=
  saved_terminal _

theorem saving_request (d : Disk) (s : TaskState) (t : Terminal) :
    (d.saving (s.withTerminal t)).store.state.request = s.request :=
  saved_request _

/-- The authorization passes over the abort, and saves what it loaded before it. -/
theorem pullAuthorized_disk : ∃ t, t.releaseAuthorization.isSome = true ∧
    pullAuthorized.disk = pullCancelled.disk.saving (pullCancelled.state.withTerminal t) := by
  obtain ⟨t, t', ht, hrestored, -, ht', hsome⟩ := pullReleasing_restored
  obtain ⟨hrequest, hpackage⟩ := pullLaunched_request
  obtain ⟨hcancelled, hsame⟩ := pullCancelled_state
  have hchange : persistAuthorization pullTask.binding pullLaunched.state (ascii "r")
      pullCancelled.state = .ok (some (pullCancelled.state.withTerminal t')) := by
    refine persistAuthorization_restored (t := t) (by rw [pullLaunched_terminal, ht]; rfl) ?_ ht' _
    rw [pullTask_binding hrequest hpackage, hrequest]
    exact hrestored
  have hafter := after_transact (k := pullTask) (d := pullCancelled.disk) (congrArg Request.transferId hsame)
    (congrArg Request.requestDigest hsame) hchange (guestPrefix_withTerminal hcancelled t') rfl
  refine ⟨t', hsome, ?_⟩
  unfold pullAuthorized
  dsimp only
  rw [hafter]

theorem pullAuthorized_terminal : ∃ t, pullAuthorized.state.terminal = some t ∧
    t.releaseAuthorization.isSome = true := by
  obtain ⟨t, hsome, hdisk⟩ := pullAuthorized_disk
  exact ⟨t, by rw [System.state, hdisk, saving_withTerminal], hsome⟩

theorem pullAuthorized_request : pullAuthorized.disk.store.state.request = pullRequest := by
  obtain ⟨t, -, hdisk⟩ := pullAuthorized_disk
  rw [hdisk, saving_request]
  exact pullCancelled_state.2

theorem state_live (s : System) (live : List Worker) : { s with live := live }.state = s.state := rfl

theorem state_bundle (s : System) (bundle : Option FileNode) : { s with bundle := bundle }.state = s.state := rfl

theorem pullRemoved_state : pullRemoved.state = pullAuthorized.state :=
  (state_bundle pullReloaded none).trans (state_live pullAuthorized _)

theorem pullStart_created : Created pullStart := ⟨rfl, rfl⟩

/-- The run up to the abort, which finds the worker at work. -/
theorem pullCancelled_run : AnyRun pullTask pullStart pullCancelled := by
  have hlaunched : Step pullTask .service pullStart pullLaunched :=
    .launched releaseWorker.owner rfl ⟨calm pullStart.disk, rfl, by decide +kernel, rfl⟩
  have hloaded : Step pullTask .worker pullLaunched pullLoaded :=
    loaded_single rfl pullLaunched_found.1 pullLaunched_found.2
  exact .tail (.tail (.tail (.refl _) trivial hlaunched) trivial hloaded) trivial
    (.aborted (ran_after _ _))

/-- What the worker does afterwards. -/
theorem pullRemoved_run : AnyRun pullTask pullCancelled pullRemoved := by
  have hauthorized : Step pullTask .authorization pullCancelled pullAuthorized := by
    have hstep := @Step.authorized pullTask pullCancelled
      { releaseWorker with started := some pullLaunched.state } pullLaunched.state _
      (List.mem_singleton_self _) rfl rfl (ascii "r") (ran_after _ _)
    rw [begins_single _ rfl] at hstep
    exact hstep
  have hloaded : Step pullTask .worker pullAuthorized pullReloaded :=
    loaded_single rfl (congrArg Request.transferId pullAuthorized_request)
      (congrArg Request.requestDigest pullAuthorized_request)
  obtain ⟨t, ht, hsome⟩ := pullAuthorized_terminal
  exact .tail (.tail (.tail (.refl _) trivial hauthorized) trivial hloaded) trivial
    (removed_bundle (List.mem_singleton_self _) rfl ht hsome)

theorem pullRemoved_authorized : pullRemoved.state.authorized = true := by
  obtain ⟨t, ht, hsome⟩ := pullAuthorized_terminal
  rw [pullRemoved_state, TaskState.authorized, ht]
  exact hsome

end GuestTask
