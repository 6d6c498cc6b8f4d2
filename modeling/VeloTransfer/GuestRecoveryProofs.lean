import VeloTransfer.GuestHistoryProofs

/-! # Resuming a push task — which crash points are recovered

    A repeated `transfer_begin` launches the `verify_partial` worker.  On a calm
    machine before the deadline of the task:

    * `recovers_of_unstarted` — when the protected identity is stored, or no file
      exists, the worker proves exactly the acknowledged chunks, the files keep no
      tail, and the next chunk is accepted;
    * `stuck_run` — when a reception file exists but no identity is stored,
      no request is ever answered again and no proof is ever stored;
    * `crash_recovers_iff` — so these are the only crash points of a reception
      call that are not recovered. -/

namespace GuestTask

open EffectPrograms Program FaultScript FileNodes ChunkLog CanonicalJson JsonLine Sha256 GuestTerminal

/-! ## The resumed task -/

section Resume

variable {deadline room : Nat} {i : Intent} {h : List Bytes} {v₀ : Disk} {policy : Policy}
  {worker : Owner}

/-- The task as its worker finds it, with the files as they were in `v₀`. -/
structure Resumed (i : Intent) (h : List Bytes) (worker : Owner) (v₀ v : Disk) : Prop where
  received : Received i v h
  owner : v.store.state.owner = some worker
  error : v.store.state.error = none
  unproved : v.store.state.prefixVerification = none
  part : v.part = v₀.part
  ledger : v.ledger = v₀.ledger
  identity : v.store.state.partialIdentity = v₀.store.state.partialIdentity

/-- Storing a state with the same acknowledged chunks and identity. -/
theorem Received.restore {v : Disk} (hr : Received i v h) {s : TaskState} {revision : Nat}
    (hfits : Fits i s h) (hid : s.partialIdentity = v.store.state.partialIdentity) :
    Received i { v with store := { revision := revision, state := s } } h where
  request := hfits.request
  package := hfits.package
  deadline := hfits.deadline
  live := hfits.live
  phase := hfits.phase
  device := hr.device
  offset := hfits.offset
  count := hfits.count
  fit := hr.fit
  bounded := hr.bounded
  complete := hr.complete
  budget := hr.budget
  started := fun hstarted hnone => hr.started hstarted (hid.symm.trans hnone)
  unpinned := fun hnone => hr.unpinned (hid.symm.trans hnone)
  pinned := by
    intro f hf
    obtain ⟨p, l, hpin⟩ := hr.pinned f (hid.symm.trans hf)
    exact ⟨p, l, ⟨hpin.part, hpin.ledger, hpin.partInfo, hpin.ledgerInfo, hpin.data, hpin.lines⟩⟩

/-- The state that a launch stores. -/
def TaskState.launched (s : TaskState) (worker : Owner) : TaskState :=
  { s with owner := some worker, error := none, prefixVerification := none }

theorem launched_saved (s : TaskState) (worker : Owner) :
    (s.launched worker).saved = s.launched worker := by
  unfold TaskState.saved
  split
  · rfl
  · rfl

theorem Fits.launched {s : TaskState} (hs : Fits i s h) (worker : Owner) :
    Fits i (s.launched worker) h :=
  ⟨hs.request, hs.package, hs.deadline, hs.live, hs.phase, hs.offset, hs.count⟩

theorem completes_ownerRuns {α : Type} {owner : Option Owner} {k : Bool → Guest α}
    {Q : α → Disk → Prop}
    (hk : Completes Disk.reception deadline room (fun v => v = v₀) (k false) Q) :
    Completes Disk.reception deadline room (fun v => v = v₀) (ownerRuns owner >>= k) Q := by
  refine completes_bind (Q := fun b v => v = v₀ ∧ b = false) ?_ ?_
  · cases owner with
    | none => exact completes_pure (fun v hv => ⟨hv, rfl⟩)
    | some o =>
        refine completes_ite (fun _ => completes_pure (fun v hv => ⟨hv, rfl⟩)) (fun _ => ?_)
        refine completes_bind completes_observe (fun alive => completes_pure ?_)
        rintro v ⟨hv, rfl⟩
        exact ⟨hv, rfl⟩
  · rintro b s hcalm hroom ⟨hv, rfl⟩
    exact hk s hcalm hroom hv

/-- A repeated begin registers and activates its worker. -/
theorem completes_transferBegin (worker : Owner) {request : Request} (hr : Received i v₀ h) (hroomy : policy.Roomy) (hrequest : request = i.request)
    (hdeadline : deadline ≤ i.deadlineMonotonic) :
    Completes Disk.reception deadline room (fun v => v = v₀) (transferBegin policy request worker)
      (fun _ v => Resumed i h worker v₀ v) := by
  have hrequest' : v₀.store.state.request = request := hr.request.trans hrequest.symm
  refine completes_probe (completes_load (by rw [hrequest']) (by rw [hrequest']) (completes_check
    (not_not.mpr hrequest') (completes_ownerRuns (completes_ite (fun _ => ?_) (fun hne =>
      absurd ⟨hr.phase.imp_right And.left, rfl⟩ hne)))))
  refine completes_probe (completes_load (by rw [hrequest']) (by rw [hrequest'])
    (completes_monotonic (fun now hnow => completes_check ?_ (completes_checkIdle
      (completes_probe ?_)))))
  · rw [hr.live, hr.deadline]
    rintro (hbad | hlate)
    · exact Bool.false_ne_true hbad
    · omega
  refine completes_bind (completes_save (s := v₀.store.state.launched worker) hroomy rfl
    (guestPrefix_saved rfl)) (fun _ => ?_)
  refine completes_bind (Q := fun _ v => Resumed i h worker v₀ v) ?_
    (fun _ => completes_bind completes_observe (fun _ => completes_pure (fun v hv => hv.1)))
  refine completes_allOrNothing (fun _ v => v) (fun _ _ => rfl) ?_
  rintro stamp v ⟨-, rfl⟩
  rw [launched_saved]
  exact ⟨hr.restore (hr.fits.launched worker) rfl, rfl, rfl, rfl, rfl, rfl, rfl⟩

/-- The proof that a verification stores. -/
def provenBy (i : Intent) (h : List Bytes) (worker : Owner) : PrefixVerification :=
  { requestDigest := i.request.requestDigest, workerNonce := worker.nonce
    verifiedOffset := h.flatten.length, chunkCount := h.length
    ledgerSha256 := hexdigest (ledgerFrom .count 0 h) }

/-- The worker has proved the acknowledged chunks, and left no tail. -/
structure Proven (i : Intent) (h : List Bytes) (worker : Owner) (v : Disk) : Prop where
  received : Received i v h
  settled : Settled v h
  proof : v.store.state.prefixVerification = some (provenBy i h worker)
  unstarted : Unstarted v
  quick : Quick v

/-- The state that a verification stores. -/
def TaskState.proven (s : TaskState) (f : Option Fingerprint) (proof : PrefixVerification) :
    TaskState :=
  { s with partialIdentity := f, prefixVerification := some proof }

/-- The proof fits the state that it is stored with. -/
theorem guestPrefix_proven {s : TaskState} (hs : Fits i s h)
    (hproof : s.prefixVerification = some (provenBy i h worker)) (howner : s.owner = some worker)
    (hjob : worker.job = .verifyPartial) (hnonce : worker.nonce ≠ []) (herror : s.error = none)
    (hhex : isHex i.request.requestDigest = true) : guestPrefix s = true := by
  unfold guestPrefix
  rw [hproof]
  show (isHex i.request.requestDigest && isHex (hexdigest (ledgerFrom .count 0 h)) &&
    (i.request.requestDigest == s.request.requestDigest) && (h.flatten.length == s.offset) &&
    (h.length == s.chunkCount) && (worker.nonce != []) && _ && !s.cancelled && s.error.isNone) = true
  rw [howner, hhex, isHex_hexdigest, hs.request, hs.offset, hs.count, hs.live, herror]
  simp [hnonce, hjob, provenBy]

/-- Storing the fingerprint of settled files, or none when there are none. -/
theorem Received.repin {v : Disk} (hr : Received i v h) (hsettled : Settled v h) {s : TaskState}
    {revision : Nat} (hfits : Fits i s h)
    (hid : (v.part = none ∧ s.partialIdentity = none) ∨ ∃ p l, v.part = some p ∧
      v.ledger = some l ∧ s.partialIdentity = some (fingerprint v s p l)) :
    Received i { v with store := { revision := revision, state := s } } h := by
  rcases hid with ⟨hpart, hid⟩ | ⟨p, l, hp, hl, hid⟩
  · rcases hsettled with ⟨-, hledger, rfl⟩ | ⟨p, l, hexact⟩
    · refine ⟨hfits.request, hfits.package, hfits.deadline, hfits.live, hfits.phase, hr.device,
        hfits.offset, hfits.count, hr.fit, hr.bounded, hr.complete, hr.budget, ?_, fun _ => rfl, ?_⟩
      · intro hstarted
        obtain ⟨f, hf⟩ := Option.ne_none_iff_exists'.mp (hr.started hstarted)
        obtain ⟨p, l, hpin⟩ := hr.pinned f hf
        rw [hpin.part] at hpart
        exact absurd hpart (by simp)
      intro f hf
      rw [show s.partialIdentity = some f from hf] at hid
      exact absurd hid (by simp)
    · rw [hexact.part] at hpart
      exact absurd hpart (by simp)
  · rcases hsettled with ⟨hnone, -, -⟩ | ⟨p', l', hexact⟩
    · rw [hnone] at hp
      exact absurd hp (by simp)
    · obtain rfl : p' = p := Option.some.inj (hexact.part.symm.trans hp)
      obtain rfl : l' = l := Option.some.inj (hexact.ledger.symm.trans hl)
      exact Received.of_exact hr.within hr.device hexact hfits hid rfl rfl

/-- The identity of a verified state is the present fingerprint, or there are no files. -/
theorem VerifiedState.identity {v : Disk} {force : Bool} {s : TaskState} {r : Option Text × TaskState}
    (hverified : VerifiedState force s h r v) (hr : Received i v h) (hsettled : Settled v h)
    (hsame : v.store.state.partialIdentity = s.partialIdentity) :
    (v.part = none ∧ v.ledger = none ∧ h = [] ∧ r.2.partialIdentity = none) ∨
      ∃ p l, v.part = some p ∧ v.ledger = some l ∧
        r.2.partialIdentity = some (fingerprint v s p l) := by
  rcases hsettled with ⟨hp, hl, rfl⟩ | ⟨p, l, hexact⟩
  · refine Or.inl ⟨hp, hl, rfl, ?_⟩
    rw [hverified.absent hp]
    cases hown : s.partialIdentity with
    | none => rfl
    | some f =>
        obtain ⟨p, l, hpin⟩ := hr.pinned f (hsame.trans hown)
        rw [hpin.part] at hp
        exact absurd hp (by simp)
  · exact Or.inr ⟨p, l, hexact.part, hexact.ledger,
      hverified.present p l hexact.part hexact.ledger⟩

/-- The worker stores its proof. -/
theorem completes_executeVerifyPartial (hr : Received i v₀ h) (hunstarted : Unstarted v₀)
    (howner : v₀.store.state.owner = some worker) (herror : v₀.store.state.error = none)
    (hroomy : policy.Roomy) (husable : i.request.budget.Usable)
    (hdeadline : deadline ≤ i.deadlineMonotonic) (hhex : isHex i.request.requestDigest = true)
    (hjob : worker.job = .verifyPartial) (hnonce : worker.nonce ≠ []) :
    Completes Disk.reception deadline room (fun v => v = v₀)
      (executeVerifyPartial policy i.request.transferId i.request.requestDigest)
      (fun _ v => Proven i h worker v) := by
  have husable' : v₀.store.state.request.budget.Usable := by rw [hr.request]; exact husable
  have hdeadline' : deadline ≤ v₀.store.state.deadlineMonotonic := by
    rw [hr.deadline]
    exact hdeadline
  have hlive := hr.live
  refine completes_load (by rw [hr.request]) (by rw [hr.request]) (completes_budgetCheck rfl husable'
    hdeadline' hlive (completes_check (by rw [hlive]; exact Bool.false_ne_true) ?_))
  refine completes_bind (completes_verifiedPartial hr hunstarted husable hdeadline
    (fun hshort => Bool.noConfusion hshort)) (fun r => completes_at (fun v hv => ?_))
  obtain ⟨sha, s⟩ := r
  obtain ⟨hstore, hr₁, hsettled, hverified⟩ := hv
  have hsha : sha = some (hexdigest (ledgerFrom .count 0 h)) :=
    hverified.digest.resolve_right (fun hbad => Bool.noConfusion hbad.1)
  have hlive₁ := hr₁.live
  refine completes_probe (completes_load (by rw [hr₁.request]) (by rw [hr₁.request])
    (completes_check ?_ (completes_budgetCheck (by rw [hstore]) husable' hdeadline' hlive₁ ?_)))
  · rw [hstore, hlive]
    simp
  refine completes_disk (fun d hd => ?_)
  have hpart : d.part = v.part := by rw [← hd]; rfl
  have hledger : d.ledger = v.ledger := by rw [← hd]; rfl
  rw [hpart, hledger]
  have hid := hverified.identity hr₁ hsettled (congrArg (fun e => e.state.partialIdentity) hstore)
  refine completes_bind (Q := fun _ v' => v' = v) ?_ (fun _ => ?_)
  · refine completes_whenever (fun hfiles => ?_) (fun _ v' hv' => hv')
    rcases hid with ⟨hp, hl, rfl, -⟩ | ⟨p, l, hp, hl, hid⟩
    · rw [hp, hl, hr₁.offset] at hfiles
      simp at hfiles
    · refine completes_fingerprint hp hl (completes_raiseIf ?_ (fun v' hv' => hv'))
      rw [hid, hstore]
      exact not_not.mpr rfl
  -- the final save stores the proof beside the refreshed identity
  have hown : v.store.state.owner = some worker := by rw [hstore]; exact howner
  have herr : v.store.state.error = none := by rw [hstore]; exact herror
  have hproof : some
      { requestDigest := i.request.requestDigest
        workerNonce := v.store.state.owner.elim [] Owner.nonce
        verifiedOffset := v.store.state.offset, chunkCount := v.store.state.chunkCount
        ledgerSha256 := sha.getD [] : PrefixVerification } = some (provenBy i h worker) := by
    rw [hown, hr₁.offset, hr₁.count, hsha]
    rfl
  rw [hproof]
  have hfits : Fits i (v.store.state.proven s.partialIdentity (provenBy i h worker)) h :=
    ⟨hr₁.request, hr₁.package, hr₁.deadline, hr₁.live, hr₁.phase, hr₁.offset, hr₁.count⟩
  have hsaved : (v.store.state.proven s.partialIdentity (provenBy i h worker)).saved
      = v.store.state.proven s.partialIdentity (provenBy i h worker) := by
    unfold TaskState.saved
    rw [if_neg]
    rintro (hbad | hbad)
    · exact Bool.false_ne_true (hr₁.live.symm.trans hbad)
    · rw [show (v.store.state.proven s.partialIdentity (provenBy i h worker)).error = none from herr]
        at hbad
      exact Bool.false_ne_true hbad
  refine completes_bind (completes_save (s := v.store.state.proven s.partialIdentity
    (provenBy i h worker)) hroomy rfl ?_) (fun _ => completes_pure ?_)
  · rw [hsaved]
    exact guestPrefix_proven hfits rfl hown hjob hnonce herr hhex
  · rintro v' ⟨-, rfl⟩
    rw [hsaved]
    refine ⟨hr₁.repin hsettled hfits ?_, ?_, rfl, ?_, ?_⟩
    · rcases hid with ⟨hp, -, -, hid⟩ | ⟨p, l, hp, hl, hid⟩
      · exact Or.inl ⟨hp, hid⟩
      · refine Or.inr ⟨p, l, hp, hl, hid.trans ?_⟩
        rw [← hstore]
        rfl
    · rcases hsettled with hs | ⟨p, l, hexact⟩
      · exact Or.inl hs
      · exact Or.inr ⟨p, l, hexact.part, hexact.ledger, hexact.data, hexact.lines⟩
    · rcases hid with ⟨hp, hl, -, -⟩ | ⟨p, l, -, -, hid⟩
      · exact fun _ => ⟨hp, hl⟩
      · intro hnone
        have hnone' : s.partialIdentity = none := hnone
        rw [hid] at hnone'
        exact absurd hnone' (by simp)
    · rcases hid with ⟨-, -, rfl, -⟩ | ⟨p, l, hp, hl, hid⟩
      · refine Or.inl ⟨?_, ?_⟩
        · show v.store.state.offset ≤ _
          rw [hr₁.offset]
          exact Nat.zero_le _
        · show v.store.state.chunkCount ≤ _
          rw [hr₁.count]
          exact Nat.zero_le _
      · refine Or.inr (fun p' l' hp' hl' => ?_)
        obtain rfl : p = p' := Option.some.inj (hp.symm.trans hp')
        obtain rfl : l = l' := Option.some.inj (hl.symm.trans hl')
        refine hid.trans ?_
        rw [← hstore]
        rfl

/-- The worker runs to its end. -/
theorem completes_runVerifyPartial (hr : Received i v₀ h) (hunstarted : Unstarted v₀)
    (howner : v₀.store.state.owner = some worker) (herror : v₀.store.state.error = none)
    (hroomy : policy.Roomy) (husable : i.request.budget.Usable)
    (hdeadline : deadline ≤ i.deadlineMonotonic) (hhex : isHex i.request.requestDigest = true)
    (hjob : worker.job = .verifyPartial) (hnonce : worker.nonce ≠ []) :
    Completes Disk.reception deadline room (fun v => v = v₀)
      (runVerifyPartial policy i.request.transferId i.request.requestDigest worker)
      (fun _ v => Proven i h worker v) := by
  refine completes_handle (completes_probe (completes_load (by rw [hr.request]) (by rw [hr.request])
    (completes_check (not_not.mpr howner) ?_)))
  exact completes_executeVerifyPartial hr hunstarted howner herror hroomy husable hdeadline hhex
    hjob hnonce

end Resume

/-! ## The other visits to a task -/

section Visits

variable {i : Intent} {h : List Bytes} {policy : Policy} {α : Type}

/-- A program after which exactly the chunks `h` are still acknowledged. -/
def KeepsReceived (i : Intent) (h : List Bytes) (m : Guest α) : Prop :=
  ∀ v₀, Received i v₀ h →
    Triple view (fun v => v = v₀) m (fun _ v => Received i v h) (fun _ v => Received i v h)

theorem fixes_ownerRuns (owner : Option Owner) : Fixes Machine.disk (ownerRuns owner) := by
  unfold ownerRuns
  split
  · exact fixes_pure _
  · exact fixes_ite (fixes_pure _) (fixes_bind fixes_observe (fun _ => fixes_pure _))

theorem fixes_checkFingerprint (s : TaskState) (f : Option Fingerprint) :
    Fixes Machine.disk (checkFingerprint s f) :=
  fixes_bind (fixes_partialFingerprint s) (fun _ => fixes_raiseIf _ _)

/-- A save of a state with the same chunks and identity keeps them. -/
theorem keeps_save {v₀ : Disk} (hr : Received i v₀ h) {envelope : Envelope} {s : TaskState}
    (hfits : Fits i s h) (hid : s.partialIdentity = v₀.store.state.partialIdentity) :
    Triple view (fun v => v = v₀) (save policy envelope s) (fun _ v => Received i v h)
      (fun _ v => Received i v h) := by
  have hnew : Received i { v₀ with store :=
      { revision := envelope.revision + 1, state := s.saved } } h :=
    hr.restore hfits.saved (by rw [saved_partialIdentity]; exact hid)
  exact triple_post (save_triple (fun _ => hr) (fun _ _ => hnew)) (fun _ v hv => hv.2 ▸ hnew)

theorem keeps_transferBegin (request : Request) (worker : Owner) :
    KeepsReceived i h (transferBegin policy request worker) := by
  intro v₀ hr
  have hK : ∀ e : Option Failure, (fun (_ : Option Failure) v => Received i v h) e v₀ := fun _ => hr
  refine at_probe hK (at_load hK (fun _ _ => at_check hK (fun _ =>
    at_quiet (fixes_ownerRuns _) hK (fun runs => triple_ite (fun _ => ?_) (fun _ =>
      triple_pure (fun v hv => hv ▸ hr))))))
  refine at_probe hK (at_load hK (fun _ _ => at_quiet fixes_monotonic hK (fun now =>
    at_check hK (fun _ => triple_skip fixes_checkIdle (fun e _ hv => hv ▸ hr) (fun _ =>
      at_probe hK ?_)))))
  refine triple_bind (keeps_save hr (hr.fits.launched worker) rfl) (fun _ => ?_)
  exact triple_skip (fixes_allOrNothing (fun _ _ => rfl)) (fun e v hv => hv) (fun _ =>
    triple_fixes (fixes_onDisk fixes_probe) (fun e v hv => hv))

theorem keeps_runVerifyPartial (t g : Text) (worker : Owner) :
    KeepsReceived i h (runVerifyPartial policy t g worker) := by
  intro v₀ hr
  have hK : ∀ e : Option Failure, (fun (_ : Option Failure) v => Received i v h) e v₀ := fun _ => hr
  refine triple_handle (H := fun _ v => Received i v h) ?_ (fun f => triple_at (fun v hv => ?_))
  · refine triple_conseq (K := fun _ v => Received i v h) ?_ (fun _ hv => hv) (fun _ _ hv => hv) ?_
    rotate_left
    · rintro (_ | e) v hv
      · exact hv
      · exact hv
    refine at_probe hK (at_load hK (fun _ _ => at_check hK (fun _ => at_load hK (fun _ _ =>
      at_quiet (fixes_budgetCheck _ _) hK (fun _ => at_check hK (fun _ => ?_))))))
    refine triple_bind (verifiedPartial_triple hr (fun e v _ hv => hv))
      (fun r => triple_at (fun v hv => ?_))
    obtain ⟨sha, s⟩ := r
    obtain ⟨hstore, hr₁, hsettled, hverified⟩ := hv
    have hK₁ : ∀ e : Option Failure, (fun (_ : Option Failure) v => Received i v h) e v :=
      fun _ => hr₁
    refine at_probe hK₁ (at_load hK₁ (fun _ _ => at_check hK₁ (fun _ =>
      at_quiet (fixes_budgetCheck _ _) hK₁ (fun _ => at_getDisk (fun d hd =>
      at_quiet (fixes_whenever (fixes_checkFingerprint _ _)) hK₁ (fun _ => ?_))))))
    have hid := hverified.identity hr₁ hsettled (congrArg (fun e => e.state.partialIdentity) hstore)
    have hfits := hr₁.fits
    have hnew : ∀ revision proof, Received i { v with store :=
        { revision := revision
          state := (v.store.state.proven s.partialIdentity proof).saved } } h := by
      intro revision proof
      refine hr₁.repin hsettled (Fits.saved ⟨hfits.request, hfits.package, hfits.deadline,
        hfits.live, hfits.phase, hfits.offset, hfits.count⟩) ?_
      rw [saved_partialIdentity]
      rcases hid with ⟨hp, -, -, hid⟩ | ⟨p, l, hp, hl, hid⟩
      · exact Or.inl ⟨hp, hid⟩
      · refine Or.inr ⟨p, l, hp, hl, hid.trans ?_⟩
        unfold fingerprint
        rw [saved_offset, saved_chunkCount, ← hstore]
        rfl
    exact triple_bind (save_triple hK₁ (fun e _ => hnew _ _)) (fun _ =>
      triple_pure (fun v hv => hv.2 ▸ hnew _ _))
  · have hK' : ∀ e : Option Failure, (fun (_ : Option Failure) v => Received i v h) e v := fun _ => hv
    refine at_probe hK' (at_load hK' (fun _ _ => triple_ite (fun _ => ?_) (fun _ =>
      triple_pure (fun v' hv' => hv' ▸ hv))))
    have hfits := hv.fits
    exact triple_bind (keeps_save hv ⟨hfits.request, hfits.package, hfits.deadline, hfits.live,
      hfits.phase, hfits.offset, hfits.count⟩ rfl) (fun _ => triple_pure (fun _ hv => hv))

theorem keeps_reconcileExit (t g : Text) : KeepsReceived i h (reconcileExit policy t g) := by
  intro v₀ hr
  have hK : ∀ e : Option Failure, (fun (_ : Option Failure) v => Received i v h) e v₀ := fun _ => hr
  refine at_load hK (fun _ _ => at_quiet (fixes_ownerRuns _) hK (fun runs => triple_ite
    (fun _ => triple_pure (fun v hv => hv ▸ hr)) (fun _ => at_probe hK (at_load hK (fun _ _ => ?_)))))
  split
  · exact triple_pure (fun v hv => hv ▸ hr)
  · refine at_probe hK (at_getDisk (fun d hd => ?_))
    refine triple_skip (fixes_whenever (fixes_bind (fixes_raiseIf _ _) (fun _ => fixes_clearLease)))
      (fun e v hv => hv ▸ hr) (fun _ => at_quiet fixes_monotonic hK (fun now => ?_))
    have hfits := hr.fits
    exact triple_bind (keeps_save hr ⟨hfits.request, hfits.package, hfits.deadline, hfits.live,
      hfits.phase, hfits.offset, hfits.count⟩ rfl) (fun _ => triple_pure (fun _ hv => hv))

theorem keeps_transferStatus (t g : Text) : KeepsReceived i h (transferStatus policy t g) := by
  intro v₀ hr
  refine triple_bind (Q := fun _ v => Received i v h) ?_ (fun _ => triple_at (fun v hv => ?_))
  · refine triple_handle (H := fun _ v => Received i v h) ?_ (fun f => ?_)
    · refine triple_conseq (keeps_reconcileExit t g v₀ hr) (fun _ hv => hv) (fun _ _ hv => hv) ?_
      rintro (_ | e) v hv
      · exact hv
      · exact hv
    · exact triple_ite (fun _ => triple_pure (fun v hv => hv)) (fun _ =>
        triple_raise (fun v hv => hv))
  · have hK : ∀ e : Option Failure, (fun (_ : Option Failure) v => Received i v h) e v := fun _ => hv
    refine at_load hK (fun _ _ => at_getDisk (fun d hd =>
      at_quiet (fixes_whenever (fixes_checkFingerprint _ _)) hK (fun _ => ?_)))
    exact triple_ite (fun _ => triple_pure (fun v' hv' => hv' ▸ hv)) (fun _ =>
      triple_pure (fun v' hv' => hv' ▸ hv))

end Visits

/-! ## Files without an identity -/

/-- A reception file exists, but the task state names no owner of it. -/
def Stuck (v : Disk) : Prop :=
  v.store.state.partialIdentity = none ∧ (v.part ≠ none ∨ v.ledger ≠ none)

section Stuck

variable {v₀ : Disk} {K : Option Failure → Disk → Prop} {policy : Policy}

/-- No verification accepts such files. -/
theorem verifiedPartial_stuck {s : TaskState} {force shortCall : Bool} {cancel : CancelCheck}
    (hs : s.partialIdentity = none) (hfiles : v₀.part ≠ none ∨ v₀.ledger ≠ none)
    (hK : ∀ e, K e v₀) :
    Triple view (fun v => v = v₀) (verifiedPartial s force shortCall cancel) (fun _ _ => False) K := by
  unfold verifiedPartial
  refine at_quiet (fixes_budgetCheck _ _) hK (fun _ => at_getDisk (fun d hd => ?_))
  have hpart : d.part = v₀.part := by rw [← hd]; rfl
  have hledger : d.ledger = v₀.ledger := by rw [← hd]; rfl
  rw [hpart, hledger]
  refine triple_ite (fun hnone => ?_) (fun _ => at_probe hK ?_)
  · exact absurd hnone (by tauto)
  split
  · refine at_check hK (fun _ => ?_)
    rw [hs]
    exact triple_raise (fun v hv => hv ▸ hK _)
  · exact triple_raise (fun v hv => hv ▸ hK _)

/-- **A stuck task answers no request**, and stays as it is. -/
theorem run_stuck {call : Call} (hstuck : Stuck v₀) :
    Triple view (fun v => v = v₀) (call.run policy) (fun _ _ => False) (fun _ v => v = v₀) := by
  have hK : ∀ e : Option Failure, (fun (_ : Option Failure) v => v = v₀) e v₀ := fun _ => rfl
  cases call with
  | chunk c =>
      refine triple_bind (Q := fun _ _ => False) ?_ (fun _ => triple_pure (fun _ hv => hv))
      refine at_check hK (fun _ => at_probe hK (at_load hK (fun _ _ => ?_)))
      refine at_quiet fixes_monotonic hK (fun _ => at_check hK (fun _ => at_check hK (fun _ =>
        at_quiet (fixes_chunkTexts _ _ _) hK (fun _ => at_quiet (fixes_decodeChunk _ _ _) hK
        (fun _ => at_probe hK (at_load hK (fun _ _ => at_check hK (fun _ => ?_))))))))
      refine triple_skip fixes_checkIdle (fun e _ hv => hv) (fun _ => at_check hK (fun _ =>
        at_check hK (fun _ => ?_)))
      exact triple_bind (verifiedPartial_stuck hstuck.1 hstuck.2 hK)
        (fun _ s hs => hs.elim)
  | batch c =>
      refine triple_bind (Q := fun _ _ => False) ?_ (fun _ => triple_pure (fun _ hv => hv))
      refine at_check hK (fun _ => at_check hK (fun _ => at_probe hK (at_load hK (fun _ _ =>
        at_check hK (fun _ => at_check hK (fun _ => at_check hK (fun _ =>
        at_quiet (fixes_prepareBatch _ _ _ _) hK (fun _ => at_probe hK (at_load hK (fun _ _ =>
        at_check hK (fun _ => at_check hK (fun _ => at_check hK (fun _ => at_check hK (fun _ =>
        at_probe hK (at_getDisk (fun d hd => at_check hK (fun _ =>
        at_quiet (fixes_space _ _ _) hK (fun _ => at_quiet (fixes_encodeProspective _ _ _ _ _) hK
        (fun _ => ?_)))))))))))))))))))
      refine triple_skip fixes_checkIdle (fun e _ hv => hv) (fun _ => ?_)
      exact triple_bind (verifiedPartial_stuck hstuck.1 hstuck.2 hK)
        (fun _ s hs => hs.elim)

/-- A state with an error is saved without a proof. -/
theorem saved_unproved {s : TaskState} (herror : s.error.isSome = true) :
    s.saved.prefixVerification = none := by
  unfold TaskState.saved
  rw [if_pos (Or.inr herror)]

/-- A stuck task without a proof. -/
def StuckUnproved (v : Disk) : Prop := Stuck v ∧ v.store.state.prefixVerification = none

/-- **The worker of a stuck task** stores no proof. -/
theorem runVerifyPartial_stuck (t g : Text) (worker : Owner) (hstuck : StuckUnproved v₀) :
    Triple view (fun v => v = v₀) (runVerifyPartial policy t g worker)
      (fun _ v => StuckUnproved v) (fun _ v => StuckUnproved v) := by
  refine triple_handle (H := fun _ v => v = v₀) ?_ (fun f => ?_)
  · have hK : ∀ e : Option Failure, (fun (_ : Option Failure) v => v = v₀) e v₀ := fun _ => rfl
    refine triple_conseq (K := fun _ v => v = v₀) ?_ (fun _ hv => hv) (fun _ _ hv => hv) ?_
    rotate_left
    · rintro (_ | e) v rfl
      · exact hstuck
      · rfl
    refine at_probe hK (at_load hK (fun _ _ => at_check hK (fun _ => at_load hK (fun _ _ =>
      at_quiet (fixes_budgetCheck _ _) hK (fun _ => at_check hK (fun _ => ?_))))))
    exact triple_bind (verifiedPartial_stuck hstuck.1.1 hstuck.1.2 hK) (fun _ s hs => hs.elim)
  · have hK : ∀ e : Option Failure, (fun (_ : Option Failure) v => StuckUnproved v) e v₀ :=
      fun _ => hstuck
    refine at_probe hK (at_load hK (fun _ _ => triple_ite (fun _ => ?_) (fun _ =>
      triple_pure (fun v hv => hv ▸ hstuck))))
    have hnew : ∀ code, StuckUnproved { v₀ with store :=
        { revision := v₀.store.revision + 1
          state := ({ v₀.store.state with error := some code } : TaskState).saved } } := by
      intro code
      refine ⟨⟨?_, hstuck.1.2⟩, ?_⟩
      · rw [saved_partialIdentity]
        exact hstuck.1.1
      · exact saved_unproved rfl
    refine triple_bind (save_triple hK (fun e _ => hnew _)) (fun _ => triple_pure (fun v hv => ?_))
    rw [hv.2]
    exact hnew _

end Stuck

/-! ## Crash points -/

/-- A visit to a task: a reception request, a repeated begin, the run of its
    worker, or a status query. -/
inductive Visit where
  | call (c : Call)
  | begin (request : Request) (worker : Owner)
  | verify (transferId digest : Text) (worker : Owner)
  | status (transferId digest : Text)
deriving Repr, DecidableEq

def Visit.run (policy : Policy) : Visit → Guest Unit
  | .call c => do
      let _ ← c.run policy
      pure ()
  | .begin request worker => transferBegin policy request worker
  | .verify t g worker => runVerifyPartial policy t g worker
  | .status t g => do
      let _ ← transferStatus policy t g
      pure ()

/-- The machine after a sequence of visits, whatever each of them ended in. -/
def visits (policy : Policy) (before : List Visit) (m : Machine Failure Disk) :
    Machine Failure Disk :=
  before.foldl (fun m visit => (visit.run policy m).2) m

/-- What the stored task says of itself. -/
def Disk.intent (d : Disk) : Intent :=
  { request := d.store.state.request, package := d.store.state.package
    deadlineMonotonic := d.store.state.deadlineMonotonic, device := d.device, started := False }

/-- What `transfer_begin` has checked of the request that it stores. -/
def Admitted (d : Disk) : Prop :=
  isHex d.store.state.request.requestDigest = true ∧ d.store.state.request.budget.Usable ∧
    0 < d.store.state.deadlineMonotonic

/-- Resuming the task before its deadline, on a machine on which nothing else goes
    wrong, recovers what it has acknowledged: the worker proves exactly these
    chunks, the files keep no tail, and the next chunk is accepted. -/
def Recovers (policy : Policy) (d : Disk) : Prop :=
  ∀ worker m, worker.job = .verifyPartial → worker.nonce ≠ [] → m.disk = d →
    Calm d.store.state.deadlineMonotonic m →
    ∃ m₁ m₂ h, transferBegin policy d.store.state.request worker m = (.done (), m₁) ∧
      runVerifyPartial policy d.store.state.request.transferId d.store.state.request.requestDigest
        worker m₁ = (.done (), m₂) ∧
      Acknowledged d h ∧ m₂.disk.partBytes = h.flatten ∧ m₂.disk.ledgerBytes = ledgerFrom .count 0 h ∧
      m₂.disk.store.state.prefixVerification = some (provenBy d.intent h worker) ∧
      ∀ (c : ChunkCall) (data : Bytes), c.Carries policy m₂.disk.store.state data →
        c.offset = d.store.state.offset →
        Next d.intent h data m.free →
        ∃ m₃, transferChunk policy c m₂
          = (.done { verifiedOffset := d.store.state.offset + data.length, replayed := false }, m₃)

section Crash

variable {policy : Policy} {i : Intent} {h : List Bytes}

theorem Received.intent {d : Disk} (hr : Received i d.reception h) :
    Received d.intent d.reception h := by
  obtain ⟨request, package, deadline, device, started⟩ := i
  have hrequest : d.store.state.request = request := hr.request
  have hpackage : d.store.state.package = package := hr.package
  have hdeadline : d.store.state.deadlineMonotonic = deadline := hr.deadline
  have hdevice : d.device = device := hr.device
  subst hrequest hpackage hdeadline hdevice
  exact ⟨rfl, rfl, rfl, hr.live, hr.phase, rfl, hr.offset, hr.count, hr.fit, hr.bounded, hr.complete,
    hr.budget, False.elim, hr.unpinned, hr.pinned⟩

theorem Received.start {d : Disk} (hr : Received i d.reception h)
    (hid : d.store.state.partialIdentity ≠ none) :
    Received { i with started := True } d.reception h :=
  ⟨hr.request, hr.package, hr.deadline, hr.live, hr.phase, hr.device, hr.offset, hr.count, hr.fit,
    hr.bounded, hr.complete, hr.budget, fun _ => hid, hr.unpinned, hr.pinned⟩

theorem Settled.bytes {d : Disk} (hsettled : Settled d.reception h) :
    d.partBytes = h.flatten ∧ d.ledgerBytes = ledgerFrom .count 0 h := by
  rcases hsettled with ⟨hp, hl, rfl⟩ | ⟨p, l, hexact⟩
  · have hp' : d.part = none := hp
    have hl' : d.ledger = none := hl
    rw [Disk.partBytes, Disk.ledgerBytes, hp', hl']
    exact ⟨rfl, rfl⟩
  · have hp' : d.part = some p := hexact.part
    have hl' : d.ledger = some l := hexact.ledger
    rw [Disk.partBytes, Disk.ledgerBytes, hp', hl']
    exact ⟨hexact.data, hexact.lines⟩

/-- **A task with an owner for its files recovers.** -/
theorem recovers_of_unstarted {d : Disk} (hr : Received i d.reception h) (hadmitted : Admitted d)
    (hroomy : policy.Roomy) (hunstarted : Unstarted d) : Recovers policy d := by
  obtain ⟨hhex, husable, -⟩ := hadmitted
  have hr := hr.intent
  rintro worker m hjob hnonce rfl hcalm
  obtain ⟨_, m₁, hbegin, hcalm₁, hfree₁, hresumed⟩ := completes_transferBegin worker hr hroomy rfl
    (Nat.le_refl _) m hcalm (Nat.le_refl _) rfl
  have hunstarted₁ : Unstarted m₁.disk.reception := by
    intro hnone
    rw [hresumed.part, hresumed.ledger]
    exact hunstarted (hresumed.identity.symm.trans hnone)
  obtain ⟨_, m₂, hverify, hcalm₂, hfree₂, hproven⟩ := completes_runVerifyPartial hresumed.received
    hunstarted₁ hresumed.owner hresumed.error hroomy husable (Nat.le_refl _) hhex hjob hnonce m₁
    hcalm₁ (Nat.le_of_eq hfree₁.symm) rfl
  obtain ⟨hdata, hlines⟩ := hproven.settled.bytes
  refine ⟨m₁, m₂, h, hbegin, hverify, hr.acknowledged, hdata, hlines, hproven.proof, ?_⟩
  intro c data hcarries hoffset hnext
  have hlength : m.disk.store.state.offset = h.flatten.length := hr.offset
  have hopen : Open m.disk.intent m.disk.intent.deadlineMonotonic m₂.disk.reception :=
    ⟨hproven.unstarted, husable, Nat.le_refl _, hproven.quick⟩
  obtain ⟨r, m₃, hrun, -, -, data', hdata', -, hcase⟩ := completes_transferChunk hproven.received
    hopen hcarries (Or.inr ⟨by omega, hroomy, hnext⟩) m₂ hcalm₂
    (Nat.le_of_eq (hfree₂.trans hfree₁).symm) rfl
  obtain rfl : data' = data := Option.some.inj (hdata'.symm.trans hcarries.data)
  have hfull : 0 < data'.length := List.length_pos_iff.mpr hcarries.full
  refine ⟨m₃, hrun.trans ?_⟩
  rcases hcase with ⟨-, -, -, hrange, -⟩ | ⟨hrep, -, -, hverified⟩
  · omega
  · obtain ⟨verifiedOffset, replayed⟩ := r
    obtain rfl : replayed = false := hrep
    have hverified' : verifiedOffset = m.disk.store.state.offset + data'.length := by
      rw [hlength]
      simpa using hverified
    rw [hverified']

/-- Some worker of a resumed task. -/
def sampleWorker : Owner :=
  { job := .verifyPartial, nonce := ascii "nonce", pid := 1, birth := 1, stopped := false }

/-- **A stuck task does not recover.** -/
theorem not_recovers_of_stuck {d : Disk} (hr : Received i d.reception h) (hadmitted : Admitted d)
    (hroomy : policy.Roomy) (hstuck : Stuck d.reception) : ¬ Recovers policy d := by
  intro hrecovers
  have hr := hr.intent
  have hcalm : Calm d.store.state.deadlineMonotonic
      ({ disk := d, clock := 0, free := 0, script := [] } : Machine Failure Disk) :=
    ⟨by simp, by simpa using hadmitted.2.2⟩
  obtain ⟨m₁, m₂, h', hbegin, hverify, -, -, -, hproof, -⟩ := hrecovers
    sampleWorker { disk := d, clock := 0, free := 0, script := [] } rfl (by decide) rfl
    hcalm
  obtain ⟨_, m₁', hbegin', -, -, hresumed⟩ := completes_transferBegin sampleWorker hr hroomy rfl
    (Nat.le_refl _) { disk := d, clock := 0, free := 0, script := [] } hcalm (Nat.le_refl _) rfl
  obtain rfl : m₁ = m₁' := congrArg Prod.snd (hbegin.symm.trans hbegin')
  have hstuck₁ : StuckUnproved m₁.disk.reception := by
    refine ⟨⟨hresumed.identity.trans hstuck.1, ?_⟩, hresumed.unproved⟩
    rw [hresumed.part, hresumed.ledger]
    exact hstuck.2
  have hrun : endsIn _ _ (runVerifyPartial policy _ _ _ m₁).1 _ :=
    runVerifyPartial_stuck d.store.state.request.transferId d.store.state.request.requestDigest
      sampleWorker hstuck₁ m₁ rfl
  rw [hverify] at hrun
  have hnone : m₂.disk.store.state.prefixVerification = none := hrun.2
  rw [hnone] at hproof
  exact absurd hproof (by simp)

theorem KeepsReceived.after {α : Type} {program : Guest α} (hm : KeepsReceived i h program)
    {m : Machine Failure Disk} (hr : Received i m.disk.reception h) :
    Received i (program m).2.disk.reception h := by
  have hrun := hm _ hr m rfl
  rcases hresult : program m with ⟨o, m'⟩
  rw [hresult] at hrun
  cases o with
  | done a => exact hrun
  | raised e => exact hrun
  | crashed => exact hrun

theorem snd_discard {α : Type} (program : Guest α) (m : Machine Failure Disk) :
    ((do let _ ← program; pure () : Guest Unit) m).2 = (program m).2 := by
  show (andThen program (fun _ => pure ()) m).2 = _
  unfold andThen
  rcases program m with ⟨o, m'⟩
  cases o <;> rfl

/-- A reception request leaves the acknowledged chunks, or adds its own. -/
theorem received_call (policy : Policy) (call : Call) {m : Machine Failure Disk}
    (hr : Received i m.disk.reception h) :
    ∃ h', Received i (call.run policy m).2.disk.reception h' := by
  have hrun := run_triple policy call hr m rfl
  rcases hresult : call.run policy m with ⟨o, m'⟩
  rw [hresult] at hrun
  cases o with
  | done a =>
      obtain ⟨new, -, -, ⟨-, -, hv⟩ | ⟨-, -, hv, -⟩⟩ := hrun
      · exact ⟨h ++ new, hv⟩
      · exact ⟨h, hv⟩
  | raised e => exact hrun.elim (fun hv => ⟨h, hv⟩) (fun ⟨_, new, _, _, _, hv⟩ => ⟨h ++ new, hv⟩)
  | crashed => exact hrun.elim (fun hv => ⟨h, hv⟩) (fun ⟨_, new, _, _, _, hv⟩ => ⟨h ++ new, hv⟩)

/-- Every visit keeps the invariant of reception. -/
theorem received_visits (policy : Policy) (before : List Visit) (m : Machine Failure Disk)
    (hr : Received i m.disk.reception h) :
    ∃ h', Received i (visits policy before m).disk.reception h' := by
  induction before generalizing m h with
  | nil => exact ⟨h, hr⟩
  | cons visit rest ih =>
      suffices hstep : ∃ h', Received i (visit.run policy m).2.disk.reception h' from
        hstep.elim (fun h' hr' => ih _ hr')
      cases visit with
      | call c =>
          rw [show ((Visit.call c).run policy m).2 = (c.run policy m).2 from snd_discard _ m]
          exact received_call policy c hr
      | begin request worker => exact ⟨h, (keeps_transferBegin request worker).after hr⟩
      | verify t g worker => exact ⟨h, (keeps_runVerifyPartial t g worker).after hr⟩
      | status t g =>
          rw [show ((Visit.status t g).run policy m).2 = (transferStatus policy t g m).2
            from snd_discard _ m]
          exact ⟨h, (keeps_transferStatus t g).after hr⟩

/-- The request of a task and its deadline stay as they were admitted. -/
theorem Admitted.of_received {d d' : Disk} {h' : List Bytes} (hd : Admitted d)
    (hr : Received i d.reception h) (hr' : Received i d'.reception h') : Admitted d' := by
  have hrequest : d'.store.state.request = d.store.state.request :=
    hr'.request.trans hr.request.symm
  have hdeadline : d'.store.state.deadlineMonotonic = d.store.state.deadlineMonotonic :=
    hr'.deadline.trans hr.deadline.symm
  rw [Admitted, hrequest, hdeadline]
  exact hd

/-- **Crash points of reception**: whatever visits a begun push task has had, and
    wherever a reception request dies (or fails), resuming it recovers if and only
    if a protected identity is stored or no reception file exists; it always
    recovers when the identity was stored before the request. -/
theorem crash_recovers_iff (policy : Policy) (m₀ : Machine Failure Disk) (before : List Visit)
    (call : Call) (hroomy : policy.Roomy) (hbegun : Begun m₀.disk) (hadmitted : Admitted m₀.disk) :
    (Recovers policy (call.run policy (visits policy before m₀)).2.disk ↔
      Unstarted (call.run policy (visits policy before m₀)).2.disk) ∧
    ((visits policy before m₀).disk.store.state.partialIdentity ≠ none →
      Recovers policy (call.run policy (visits policy before m₀)).2.disk) := by
  obtain ⟨i, h₀⟩ := hbegun.received
  obtain ⟨h, hr⟩ := received_visits policy before m₀ h₀
  obtain ⟨h', hr'⟩ := received_call policy call hr
  have hadmitted' := hadmitted.of_received h₀ hr'
  refine ⟨⟨fun hrecovers => ?_, recovers_of_unstarted hr' hadmitted' hroomy⟩, fun hid => ?_⟩
  · intro hnone
    by_contra hfiles
    refine not_recovers_of_stuck hr' hadmitted' hroomy ⟨hnone, ?_⟩ hrecovers
    exact not_and_or.mp hfiles
  · obtain ⟨h'', hr''⟩ := received_call policy call (hr.start hid)
    exact recovers_of_unstarted hr' hadmitted' hroomy
      (fun hnone => absurd hnone (hr''.started trivial))

end Crash

namespace Sample

/-- The process dies after `received.part` was created. -/
def diesAfterPart : List (Event Failure) := faultAfter 8 (.crash 0)

/-- The process dies before anything was created. -/
def diesEarly : List (Event Failure) := faultAfter 4 (.crash 0)

end Sample

/-- The first chunk of a task, with a crash behind the creation of `received.part`:
    the task does not recover, and its next requests fail. -/
theorem part_created_not_recovered :
    Begun (Sample.machine Sample.diesAfterPart).disk ∧
      Admitted (Sample.machine Sample.diesAfterPart).disk ∧ Sample.policy.Roomy ∧
      (transferChunk Sample.policy Sample.chunk (Sample.machine Sample.diesAfterPart)).1 = .crashed ∧
      ¬ Recovers Sample.policy
        (transferChunk Sample.policy Sample.chunk (Sample.machine Sample.diesAfterPart)).2.disk ∧
      (transferChunk Sample.policy Sample.chunk
        (transferChunk Sample.policy Sample.chunk (Sample.machine Sample.diesAfterPart)).2).1
          = .raised (.error "source_unavailable") := by
  have hbegun : Begun (Sample.machine Sample.diesAfterPart).disk := ⟨_, _, _, rfl, rfl, rfl⟩
  have hadmitted : Admitted (Sample.machine Sample.diesAfterPart).disk :=
    ⟨isHex_hexdigest _, ⟨by decide, by decide, by decide⟩, by decide⟩
  have hroomy : Sample.policy.Roomy := fun _ _ => rfl
  refine ⟨hbegun, hadmitted, hroomy, by decide +kernel, ?_, by decide +kernel⟩
  obtain ⟨i, h₀⟩ := hbegun.received
  obtain ⟨h', hr'⟩ := received_call Sample.policy (.chunk Sample.chunk) h₀
  rw [show ((Call.chunk Sample.chunk).run Sample.policy (Sample.machine Sample.diesAfterPart)).2
    = (transferChunk Sample.policy Sample.chunk (Sample.machine Sample.diesAfterPart)).2 by
      decide +kernel] at hr'
  refine not_recovers_of_stuck hr' (hadmitted.of_received h₀ hr') hroomy ⟨?_, Or.inl ?_⟩
  · decide +kernel
  · decide +kernel

theorem crash_recovers_iff_sample :
    (Recovers Sample.policy ((Call.chunk Sample.chunk).run Sample.policy
        (visits Sample.policy [] (Sample.machine Sample.diesEarly))).2.disk ↔
      Unstarted ((Call.chunk Sample.chunk).run Sample.policy
        (visits Sample.policy [] (Sample.machine Sample.diesEarly))).2.disk) ∧
    ((visits Sample.policy [] (Sample.machine Sample.diesEarly)).disk.store.state.partialIdentity
        ≠ none →
      Recovers Sample.policy ((Call.chunk Sample.chunk).run Sample.policy
        (visits Sample.policy [] (Sample.machine Sample.diesEarly))).2.disk) :=
  crash_recovers_iff _ _ _ _ (fun _ _ => rfl) ⟨_, _, _, rfl, rfl, rfl⟩
    ⟨isHex_hexdigest _, ⟨by decide, by decide, by decide⟩, by decide⟩

end GuestTask
