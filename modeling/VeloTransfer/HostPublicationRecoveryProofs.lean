import VeloTransfer.HostPublicationRunProofs

/-! # Publications that nobody disturbs

    With nobody else at the two paths, every run of `publish` leaves one of two
    states behind, wherever it fails or dies: the staging directory waits for its
    rename, or it is at the destination and its intent is in the journal.  From
    either a run that meets no fault returns the publication of that intent. -/

namespace HostPublication

open EffectPrograms Program FaultScript CanonicalJson JsonLine Manifest Sha256 GuestTerminal

/-! ## The two states -/

/-- What no step of a publication changes. -/
def Journal.core (j : Journal) : Journal :=
  { j with revision := 0, phase := .created, publishedEver := false, intent := none, receipt := none
           receiptRef := none }

/-- **A pull that is ready to be published**: its journal passes the checks, and its
    staging directory `node` is the registered one, with the tree of the manifest. -/
structure Prepared (cfg : Config) (node : Node) (j₀ : Journal) : Prop where
  budget : ¬ (cfg.budget.maxFiles = 0 ∨ cfg.budget.maxMetadataBytes = 0 ∨ cfg.maxPackageBytes = 0)
  check : j₀.check cfg = .ok ()
  manifest : j₀.checkManifest cfg = .ok ()
  volume : j₀.staging.stagingIdentity.device = j₀.staging.parentIdentity.device
  identity : identityOf (some node) = .ok j₀.staging.stagingIdentity
  tree : verifyTree cfg.unicode cfg.budget cfg.manifest node = .ok ()

/-- The intent is one that recovery accepts. -/
def Valid (cfg : Config) (j : Journal) (i : PublishIntent) : Prop :=
  recoverPublication i j.binding j.prepare cfg.descriptor j.staging.stagingIdentity
    j.staging.parentIdentity j.binding.manifestSha256 = .ok i.publication

/-- The staging directory waits for its rename. -/
structure Waiting (cfg : Config) (node : Node) (j₀ : Journal) (held : Option PublishIntent) (d : Disk) :
    Prop where
  quiet : d.moves = []
  core : d.journal.core = j₀.core
  parent : d.area.parent = j₀.staging.parentIdentity
  destination : d.area.destination = none
  staging : d.area.staging = some node
  isPrivate : d.area.stagingPrivate = true
  unpublished : d.journal.publishedEver = false
  unproven : d.journal.receipt = none
  noEvidence : d.evidence = none
  intent : d.journal.intent = held
  valid : ∀ i, held = some i → Valid cfg j₀ i

/-- The staging directory is at the destination. -/
structure Renamed (cfg : Config) (node : Node) (j₀ : Journal) (i : PublishIntent) (d : Disk) : Prop where
  quiet : d.moves = []
  core : d.journal.core = j₀.core
  parent : d.area.parent = j₀.staging.parentIdentity
  destination : d.area.destination = some node
  staging : d.area.staging = none
  intent : d.journal.intent = some i
  valid : Valid cfg j₀ i
  receipt : ∀ r, d.journal.receipt = some r → r = i.publication
  evidence : ∀ r, d.evidence = some r → r = i.publication

/-- **What a run leaves**: one of the two states, with the intent that was there. -/
inductive Left (cfg : Config) (node : Node) (j₀ : Journal) (want : Option PublishIntent) (d : Disk) : Prop where
  | waiting (held : Option PublishIntent) (h : Waiting cfg node j₀ held d)
      (hwant : ∀ i, want = some i → held = some i)
  | renamed (i : PublishIntent) (h : Renamed cfg node j₀ i d) (hwant : ∀ i', want = some i' → i' = i)

/-! ## Programs that look only -/

/-- Without others at the paths the program changes nothing durable. -/
def Still {α : Type} (m : Host α) : Prop :=
  ∀ d₀ : Disk, d₀.moves = [] → Triple (onDisk id) (fun v => v = d₀) m (fun _ v => v = d₀) (fun _ v => v = d₀)

section Still

variable {α β : Type} {m : Host α} {cfg : Config}

theorem still_bind {k : α → Host β} (hm : Still m) (hk : ∀ a, Still (k a)) : Still (m >>= k) :=
  fun d₀ h => triple_bind (hm d₀ h) (fun a => hk a d₀ h)

theorem still_fixes (hm : Fixes Machine.disk m) : Still m :=
  fun _ _ => triple_fixes (fixes_onDisk hm) (fun _ _ hv => hv)

theorem still_handle {h : Failure → Host α} (hm : Still m) (hh : ∀ e, Still (h e)) : Still (handle m h) :=
  fun d₀ hd => triple_recover (hm d₀ hd) (fun _ hv => hv) (fun e => hh e d₀ hd)

theorem still_rejectIf {c : Prop} [Decidable c] (code : String) : Still (rejectIf c code) :=
  still_fixes (fixes_raiseIf _ _)

theorem still_lift (x : Except String α) : Still (lift x) := by
  cases x with
  | ok a => exact still_fixes (fixes_pure a)
  | error code => exact still_fixes (fixes_raise _)

theorem outside_quiet {d : Disk} (h : d.moves = []) : d.outside = d := by
  unfold Disk.outside
  rw [h]

theorem fixes_look_rest : Fixes Machine.disk (do
    probe
    let d ← getDisk
    pure d.area : Host Area) :=
  fixes_bind fixes_probe (fun _ => fixes_bind fixes_getDisk (fun _ => fixes_pure _))

/-- A look at a quiet area. -/
theorem at_look {d₀ : Disk} {k : Area → Host β} {Q : β → Disk → Prop} {K : Option Failure → Disk → Prop}
    (hquiet : d₀.moves = []) (hK : ∀ e, K e d₀)
    (hk : Triple (onDisk id) (fun v => v = d₀) (k d₀.area) Q K) :
    Triple (onDisk id) (fun v => v = d₀) (look >>= k) Q K := by
  have hset : Triple (onDisk id) (fun v => v = d₀) (setDisk Disk.outside >>= fun _ => (do
      probe
      let d ← getDisk
      k d.area : Host β)) Q K := by
    refine at_setDisk (g := id) Disk.outside (fun _ => rfl) ?_
    rw [outside_quiet hquiet]
    refine at_probe hK (at_getDisk (fun d hd => ?_))
    rw [show d = d₀ from hd]
    exact hk
  simpa only [look, program_bind_assoc, program_pure_bind] using hset

theorem still_look : Still look := by
  intro d₀ hquiet
  have h := at_look (k := fun a => (pure a : Host Area)) (Q := fun _ v => v = d₀) (K := fun _ v => v = d₀)
    hquiet (fun _ => rfl) (triple_pure (fun _ hv => hv))
  simpa only [look, program_bind_assoc, program_pure_bind] using h

theorem still_checkParent (stage : Staging) : Still (checkParent stage) :=
  still_bind still_look (fun _ => still_rejectIf _)

theorem still_budgetCheck (deadline : Nat) : Still (budgetCheck cfg deadline) :=
  still_bind (still_rejectIf _) (fun _ => still_bind (still_fixes fixes_monotonic) (fun _ => still_rejectIf _))

theorem still_verifyAt (deadline : Nat) (place : Area → Option Node) (stage : Staging) :
    Still (verifyAt cfg deadline place stage) := by
  refine still_bind (still_budgetCheck deadline) (fun _ => still_bind still_look (fun a => ?_))
  refine still_bind (still_lift _) (fun identity => still_bind (still_rejectIf _) (fun _ => ?_))
  cases place a with
  | none => exact still_fixes (fixes_raise _)
  | some node => exact still_lift _

theorem still_readJournal : Still readJournal :=
  still_fixes (fixes_bind fixes_probe (fun _ => fixes_bind fixes_getDisk (fun _ => fixes_pure _)))

/-- The journal that is read is that of the disk. -/
theorem at_readJournal {d₀ : Disk} {k : Journal → Host β} {Q : β → Disk → Prop}
    {K : Option Failure → Disk → Prop} (hK : ∀ e, K e d₀)
    (hk : Triple (onDisk id) (fun v => v = d₀) (k d₀.journal) Q K) :
    Triple (onDisk id) (fun v => v = d₀) (readJournal >>= k) Q K := by
  have hread : Triple (onDisk id) (fun v => v = d₀) (do
      probe
      let d ← getDisk
      k d.journal : Host β) Q K := by
    refine at_probe hK (at_getDisk (fun d hd => ?_))
    rw [show d = d₀ from hd]
    exact hk
  simpa only [readJournal, program_bind_assoc, program_pure_bind] using hread

theorem still_checkStaging (stage : Staging) : Still (checkStaging stage) :=
  still_bind still_look (fun _ => still_bind (still_lift _) (fun _ => still_bind (still_rejectIf _)
    (fun _ => still_checkParent stage)))

theorem still_beforeRename (j : Journal) : Still (beforeRename cfg j) := by
  refine still_bind still_look (fun a => still_bind (still_rejectIf _) (fun _ => still_bind (still_rejectIf _)
    (fun _ => still_bind (still_checkStaging _) (fun _ => still_bind (still_rejectIf _) (fun _ => ?_)))))
  refine still_bind still_look (fun b => still_bind (still_rejectIf _) (fun _ => ?_))
  exact still_bind (still_verifyAt _ _ _) (fun _ => still_bind (still_handle (still_fixes fixes_probe)
    (fun _ => still_fixes (fixes_raise _))) (fun _ => still_checkStaging _))

theorem still_afterRename (j : Journal) : Still (afterRename cfg j) := by
  refine still_bind (still_handle (still_fixes fixes_probe) (fun _ => still_fixes (fixes_raise _))) (fun _ => ?_)
  refine still_bind (still_checkParent _) (fun _ => still_bind still_look (fun a => ?_))
  exact still_bind (still_lift _) (fun _ => still_bind (still_rejectIf _) (fun _ => still_verifyAt _ _ _))

/-- `_load` without others. -/
theorem at_load {d₀ : Disk} (hquiet : d₀.moves = []) :
    Triple (onDisk id) (fun v => v = d₀) (load cfg) (fun j v => v = d₀ ∧ j = d₀.journal) (fun _ v => v = d₀) := by
  have hrest : ∀ j : Journal, Still (do
      lift (j.check cfg)
      let now ← monotonic
      rejectIf (j.deadlineMonotonic ≤ now) "invalid_deadline"
      let a ← look
      rejectIf (isLink a.destination = true) "link_or_reparse"
      checkParent j.staging
      probe
      lift (j.checkManifest cfg)
      lift (j.checkPublication cfg)) := by
    intro j
    refine still_bind (still_lift _) (fun _ => still_bind (still_fixes fixes_monotonic) (fun now =>
      still_bind (still_rejectIf _) (fun _ => still_bind still_look (fun a => still_bind (still_rejectIf _)
        (fun _ => still_bind (still_checkParent _) (fun _ => ?_))))))
    exact still_bind (still_fixes fixes_probe) (fun _ => still_bind (still_lift _) (fun _ => still_lift _))
  refine at_readJournal (fun _ => rfl) ?_
  have hend := triple_bind (hrest d₀.journal d₀ hquiet) (fun _ => triple_pure (a := d₀.journal)
    (Q := fun j v => v = d₀ ∧ j = d₀.journal) (K := fun _ v => v = d₀) (fun v hv => ⟨hv, rfl⟩))
  simpa only [program_bind_assoc] using hend

end Still

/-! ## The saves and the rename -/

/-- The disk after a save. -/
def Disk.saved (set : Journal → Journal) (d : Disk) : Disk :=
  { d with journal := { set d.journal with revision := d.journal.revision + 1 } }

section Changes

variable {cfg : Config} {node : Node} {j₀ : Journal} {i : PublishIntent} {held : Option PublishIntent}

theorem still_readBack : Still readBack :=
  still_handle (still_fixes (fixes_bind fixes_probe (fun _ => fixes_bind fixes_getDisk (fun _ => fixes_pure _))))
    (fun _ => still_fixes (fixes_pure _))

/-- A save is done, or not, whatever it raises. -/
theorem triple_save {I I' : Disk → Prop} {set : Journal → Journal} (hquiet : ∀ d, I d → d.moves = [])
    (hnew : ∀ d, I d → I' (d.saved set)) :
    Triple (onDisk id) I (save cfg set) (fun _ => I') (fun _ d => I d ∨ I' d) := by
  refine triple_at (fun d₀ hd₀ => ?_)
  refine at_readJournal (fun _ => Or.inl hd₀) ?_
  refine at_check (fun _ => Or.inl hd₀) (fun _ => at_check (fun _ => Or.inl hd₀) (fun _ =>
    at_check (fun _ => Or.inl hd₀) (fun _ => at_probe (fun _ => Or.inl hd₀) ?_)))
  have hsaved : I' (d₀.saved set) := hnew d₀ hd₀
  refine triple_post (triple_replaceRecord (fun e => { e with journal :=
    { set d₀.journal with revision := d₀.journal.revision + 1 } }) (fun _ _ => True) (fun _ => rfl)
    (fun v hv => ?_) (fun _ => Or.inl hd₀) (Or.inr hsaved) (fun _ _ => Or.inr hsaved))
    (fun _ v hv => hv ▸ hsaved)
  have hmoves : v.moves = [] := by
    rcases hv with rfl | rfl
    · exact hquiet _ hd₀
    · exact hquiet d₀ hd₀
  refine triple_conseq (still_readBack v hmoves) (fun _ h => h) (fun _ _ h => ⟨h, trivial⟩) (fun _ w hw => ?_)
  obtain rfl := hw
  rcases hv with rfl | rfl
  · exact Or.inl hd₀
  · exact Or.inr hsaved

theorem Renamed.saved_markPublished {d : Disk} (h : Renamed cfg node j₀ i d) :
    Renamed cfg node j₀ i (d.saved Journal.markPublished) :=
  { quiet := h.quiet, core := h.core, parent := h.parent, destination := h.destination
    staging := h.staging, intent := h.intent, valid := h.valid, receipt := h.receipt
    evidence := h.evidence }

theorem Renamed.saved_finish {d : Disk} (h : Renamed cfg node j₀ i d) (reference : Text) :
    Renamed cfg node j₀ i (d.saved (Journal.finish i.publication reference)) :=
  { quiet := h.quiet, core := h.core, parent := h.parent, destination := h.destination
    staging := h.staging, intent := h.intent, valid := h.valid
    receipt := fun _ hr => (Option.some.inj hr).symm, evidence := h.evidence }

theorem Waiting.saved_intent {d : Disk} (h : Waiting cfg node j₀ none d) (hvalid : Valid cfg j₀ i) :
    Waiting cfg node j₀ (some i) (d.saved (fun current => { current with intent := some i })) :=
  { quiet := h.quiet, core := h.core, parent := h.parent, destination := h.destination
    staging := h.staging, isPrivate := h.isPrivate, unpublished := h.unpublished
    unproven := h.unproven, noEvidence := h.noEvidence, intent := rfl
    valid := fun _ hi => (Option.some.inj hi) ▸ hvalid }

theorem Waiting.rename {d : Disk} (h : Waiting cfg node j₀ (some i) d) : Renamed cfg node j₀ i d.rename :=
  { quiet := h.quiet, core := h.core, parent := h.parent, destination := h.staging, staging := rfl
    intent := h.intent, valid := h.valid i rfl
    receipt := fun _ hr => absurd (h.unproven.symm.trans hr) nofun
    evidence := fun _ hr => absurd (h.noEvidence.symm.trans hr) nofun }

theorem Renamed.evidence_written {d : Disk} (h : Renamed cfg node j₀ i d) :
    Renamed cfg node j₀ i { d with evidence := some i.publication } :=
  { quiet := h.quiet, core := h.core, parent := h.parent, destination := h.destination
    staging := h.staging, intent := h.intent, valid := h.valid, receipt := h.receipt
    evidence := fun _ hr => (Option.some.inj hr).symm }

/-- A program that looks only keeps what holds of a quiet disk. -/
theorem triple_still {α : Type} {I : Disk → Prop} {m : Host α} (hm : Still m) (hquiet : ∀ d, I d → d.moves = []) :
    Triple (onDisk id) I m (fun _ => I) (fun _ => I) :=
  triple_at (fun d₀ hd₀ => triple_conseq (hm d₀ (hquiet d₀ hd₀)) (fun _ h => h) (fun _ _ h => h ▸ hd₀)
    (fun _ _ h => h ▸ hd₀))

theorem renamed_quiet : ∀ d, Renamed cfg node j₀ i d → d.moves = [] := fun _ h => h.quiet

theorem waiting_quiet : ∀ d, Waiting cfg node j₀ held d → d.moves = [] := fun _ h => h.quiet

theorem triple_markPublished : Triple (onDisk id) (Renamed cfg node j₀ i) (markPublished cfg)
    (fun _ => Renamed cfg node j₀ i) (fun _ => Renamed cfg node j₀ i) := by
  refine triple_bind (triple_still still_readJournal renamed_quiet) (fun j => triple_whenever (fun _ => ?_)
    (fun _ _ h => h))
  exact triple_conseq (triple_save renamed_quiet (fun _ h => h.saved_markPublished)) (fun _ h => h)
    (fun _ _ h => h) (fun _ _ h => h.elim id id)

theorem triple_verifyPublished (j : Journal) : Triple (onDisk id) (Renamed cfg node j₀ i)
    (verifyDestination cfg j) (fun _ => Renamed cfg node j₀ i) (fun _ => Renamed cfg node j₀ i) := by
  have hstill : ∀ {α : Type} {m : Host α}, Still m → Triple (onDisk id) (Renamed cfg node j₀ i) m
      (fun _ => Renamed cfg node j₀ i) (fun _ => Renamed cfg node j₀ i) :=
    fun hm => triple_still hm renamed_quiet
  refine triple_bind (hstill still_look) (fun a => triple_bind (hstill (still_rejectIf _)) (fun _ => ?_))
  refine triple_bind (hstill (still_checkParent _)) (fun _ => triple_bind (hstill still_look) (fun b => ?_))
  refine triple_bind (hstill (still_lift _)) (fun _ => triple_bind (hstill (still_rejectIf _)) (fun _ => ?_))
  exact triple_bind triple_markPublished (fun _ => hstill (still_bind (still_verifyAt _ _ _)
    (fun _ => still_checkParent _)))

/-- **The rename of a waiting directory.** -/
theorem triple_rename_waiting : Triple (onDisk id) (Waiting cfg node j₀ (some i)) renameNoreplace
    (fun _ => Renamed cfg node j₀ i)
    (fun _ d => Waiting cfg node j₀ (some i) d ∨ Renamed cfg node j₀ i d) := by
  refine triple_at (fun d₀ hd₀ => ?_)
  refine at_setDisk (g := id) Disk.outside (fun _ => rfl) ?_
  rw [outside_quiet hd₀.quiet]
  refine at_getDisk (fun d hd => at_check (fun _ => Or.inl hd₀) (fun _ => at_check (fun _ => Or.inl hd₀)
    (fun _ => ?_)))
  exact triple_allOrNothing (fun _ => Disk.rename) (fun _ _ => rfl) (fun _ => hd₀.rename) (fun _ => Or.inl hd₀)
    (fun _ _ => Or.inr hd₀.rename)

theorem triple_advance_waiting (j : Journal) : Triple (onDisk id) (Waiting cfg node j₀ (some i)) (advance cfg j)
    (fun _ => Renamed cfg node j₀ i)
    (fun _ d => Waiting cfg node j₀ (some i) d ∨ Renamed cfg node j₀ i d) := by
  have hbefore : ∀ {α : Type} {m : Host α}, Still m → Triple (onDisk id) (Waiting cfg node j₀ (some i)) m
      (fun _ => Waiting cfg node j₀ (some i))
      (fun _ d => Waiting cfg node j₀ (some i) d ∨ Renamed cfg node j₀ i d) :=
    fun hm => triple_conseq (triple_still hm waiting_quiet) (fun _ h => h) (fun _ _ h => h) (fun _ _ h => Or.inl h)
  have hafter : ∀ {α : Type} {m : Host α} {Q : α → Disk → Prop}, Triple (onDisk id) (Renamed cfg node j₀ i) m Q
      (fun _ => Renamed cfg node j₀ i) → Triple (onDisk id) (Renamed cfg node j₀ i) m Q
      (fun _ d => Waiting cfg node j₀ (some i) d ∨ Renamed cfg node j₀ i d) :=
    fun hm => triple_conseq hm (fun _ h => h) (fun _ _ h => h) (fun _ _ h => Or.inr h)
  have hpublish : Triple (onDisk id) (Waiting cfg node j₀ (some i)) (publishDirectory cfg j)
      (fun _ => Renamed cfg node j₀ i)
      (fun _ d => Waiting cfg node j₀ (some i) d ∨ Renamed cfg node j₀ i d) := by
    refine triple_bind (hbefore (still_beforeRename j)) (fun _ => triple_bind triple_rename_waiting (fun _ => ?_))
    refine hafter (triple_recover (triple_still (still_afterRename j) renamed_quiet) (fun _ h => h) (fun e => ?_))
    exact triple_bind triple_markPublished (fun _ => triple_raise (fun _ h => h))
  refine triple_bind (hbefore (still_rejectIf _)) (fun _ => triple_bind (hbefore still_look) (fun a => ?_))
  refine triple_bind (hbefore (still_rejectIf _)) (fun _ => triple_bind hpublish (fun _ => ?_))
  exact hafter (triple_bind triple_markPublished (fun _ => triple_verifyPublished j))

theorem triple_recover_renamed (j : Journal) : Triple (onDisk id) (Renamed cfg node j₀ i) (recover cfg j)
    (fun _ => Renamed cfg node j₀ i) (fun _ => Renamed cfg node j₀ i) := by
  refine triple_bind (triple_verifyPublished j) (fun _ => triple_still ?_ renamed_quiet)
  refine still_bind still_look (fun a => still_bind (still_rejectIf _) (fun _ => ?_))
  refine still_bind (still_handle (still_fixes fixes_probe) (fun _ => still_fixes (fixes_raise _))) (fun _ => ?_)
  exact still_bind (still_checkParent _) (fun _ => still_bind still_look (fun b =>
    still_bind (still_lift _) (fun _ => still_rejectIf _)))

theorem triple_writeEvidence : Triple (onDisk id) (Renamed cfg node j₀ i) (writeEvidence cfg i.publication)
    (fun reference d => Renamed cfg node j₀ i d ∧ reference = digestJson i.publication.toJson)
    (fun _ => Renamed cfg node j₀ i) := by
  refine triple_at (fun d₀ hd₀ => at_probe (fun _ => hd₀) (at_getDisk (fun d _ => ?_)))
  cases d.evidence with
  | some stored =>
      exact at_check (fun _ => hd₀) (fun _ => at_probe (fun _ => hd₀)
        (triple_pure (fun v hv => ⟨hv ▸ hd₀, rfl⟩)))
  | none =>
      refine at_check (fun _ => hd₀) (fun _ => triple_bind (Q := fun _ => Renamed cfg node j₀ i)
        (triple_allOrNothing (fun _ e => { e with evidence := some i.publication }) (fun _ _ => rfl)
          (fun _ => hd₀.evidence_written) (fun _ => hd₀) (fun _ _ => hd₀.evidence_written)) (fun _ => ?_))
      exact triple_pure (fun v hv => ⟨hv, rfl⟩)

end Changes

/-! ## The whole run -/

section Run

variable {cfg : Config} {node : Node} {j₀ j : Journal} {i : PublishIntent} {held want : Option PublishIntent}
  {d₀ d : Disk}

theorem lift_ok {α : Type} (a : α) : lift (.ok a) = (pure a : Host α) := rfl

theorem staging_of_core (h : j.core = j₀.core) : j.staging = j₀.staging :=
  have hcore : j.core.staging = j₀.core.staging := congrArg Journal.staging h
  hcore

theorem binding_of_core (h : j.core = j₀.core) : j.binding = j₀.binding :=
  have hcore : j.core.binding = j₀.core.binding := congrArg Journal.binding h
  hcore

theorem prepare_of_core (h : j.core = j₀.core) : j.prepare = j₀.prepare :=
  have hcore : j.core.prepare = j₀.core.prepare := congrArg Journal.prepare h
  hcore

theorem publicationReceipt_ok {b : Binding} {p : PrepareReceipt} {d : Destination} {identity : DirectoryIdentity}
    {publicationId : Text} {r : PublicationReceipt}
    (h : publicationReceipt b p d identity publicationId = .ok r) :
    validatePublication r b p d = none ∧ r.directoryIdentity = identity := by
  unfold publicationReceipt at h
  obtain ⟨-, h⟩ := refuse_ok h
  obtain ⟨-, h⟩ := refuse_ok h
  obtain ⟨hvalid, h⟩ := refuse_ok h
  obtain rfl := Except.ok.inj h
  exact ⟨hvalid, rfl⟩

/-- Recovery accepts the intent of a new receipt. -/
theorem valid_of_receipt {publicationId : Text} {r : PublicationReceipt}
    (h : publicationReceipt j₀.binding j₀.prepare cfg.descriptor j₀.staging.stagingIdentity publicationId = .ok r) :
    Valid cfg j₀ { publication := r, parentIdentity := j₀.staging.parentIdentity } := by
  obtain ⟨hvalid, hidentity⟩ := publicationReceipt_ok h
  have hnone : firstError [validatePublication r j₀.binding j₀.prepare cfg.descriptor,
      failsWith (r.directoryIdentity ≠ j₀.staging.stagingIdentity ∨
        j₀.staging.parentIdentity ≠ j₀.staging.parentIdentity ∨
        j₀.binding.manifestSha256 ≠ j₀.binding.manifestSha256) "publication_recovery_conflict"] = none := by
    rw [firstError_cons, firstError_cons]
    refine ⟨hvalid, failsWith_none.mpr ?_, rfl⟩
    rintro (hne | hne | hne)
    · exact hne hidentity
    · exact hne rfl
    · exact hne rfl
  unfold Valid recoverPublication
  rw [hnone]

/-- The intent that is published is the one that is held, or a new one. -/
theorem triple_intentOf (hd₀ : Waiting cfg node j₀ held d₀) (hwant : ∀ i, want = some i → held = some i) :
    Triple (onDisk id) (fun v => v = d₀) (intentOf cfg d₀.journal)
      (fun i d => Waiting cfg node j₀ (some i) d ∧ ∀ i', want = some i' → i' = i)
      (fun _ => Left cfg node j₀ want) := by
  have hleft : ∀ d, Waiting cfg node j₀ held d → Left cfg node j₀ want d :=
    fun d hd => .waiting held hd hwant
  unfold intentOf
  rw [hd₀.intent]
  cases held with
  | some i =>
      refine triple_pure (fun v hv => ⟨hv ▸ hd₀, fun i' hi => ?_⟩)
      exact (Option.some.inj (hwant i' hi)).symm
  | none =>
      have hfresh : ∀ i, want = some i → False := fun i hi => absurd (hwant i hi) nofun
      refine triple_conseq (P := Waiting cfg node j₀ none) (K := fun _ => Left cfg node j₀ want) ?_
        (fun v hv => hv ▸ hd₀) (fun _ _ h => h) (fun _ _ h => h)
      have hstill : ∀ {α : Type} {m : Host α}, Still m → Triple (onDisk id) (Waiting cfg node j₀ none) m
          (fun _ => Waiting cfg node j₀ none) (fun _ => Left cfg node j₀ want) :=
        fun hm => triple_conseq (triple_still hm waiting_quiet) (fun _ h => h) (fun _ _ h => h)
          (fun _ _ h => hleft _ h)
      refine triple_bind (hstill (still_rejectIf _)) (fun _ => triple_bind (hstill still_look) (fun a => ?_))
      refine triple_bind (hstill (still_rejectIf _)) (fun _ => triple_bind (hstill (still_verifyAt _ _ _))
        (fun _ => triple_bind (hstill (still_fixes (fixes_bind fixes_observe (fun _ => fixes_pure _))))
          (fun publicationId => ?_)))
      cases hreceipt : publicationReceipt d₀.journal.binding d₀.journal.prepare cfg.descriptor
        d₀.journal.staging.stagingIdentity publicationId with
      | error code =>
          exact triple_bind (Q := fun _ _ => False) (triple_raise (fun _ hv => hleft _ hv)) (fun _ _ h => h.elim)
      | ok receipt =>
          rw [binding_of_core hd₀.core, prepare_of_core hd₀.core, staging_of_core hd₀.core] at hreceipt
          have hvalid := valid_of_receipt hreceipt
          rw [← staging_of_core hd₀.core] at hvalid
          rw [lift_ok, program_pure_bind]
          refine triple_bind (triple_conseq (triple_save waiting_quiet (fun d hd => hd.saved_intent hvalid))
            (fun _ h => h) (fun _ _ h => h) (fun _ d hd => ?_)) (fun _ => triple_pure (fun v hv => ⟨hv, ?_⟩))
          · rcases hd with hd | hd
            · exact hleft _ hd
            · exact .waiting _ hd (fun i hi => absurd (hfresh i hi) id)
          · exact fun i' hi => absurd (hfresh i' hi) id

theorem recoverPublication_valid (hvalid : Valid cfg j₀ i) (hcore : j.core = j₀.core)
    (hparent : d.area.parent = j₀.staging.parentIdentity) :
    recoverPublication i j.binding j.prepare cfg.descriptor j.staging.stagingIdentity d.area.parent
      j.binding.manifestSha256 = .ok i.publication := by
  rw [binding_of_core hcore, prepare_of_core hcore, staging_of_core hcore, hparent]
  exact hvalid

/-- **Every run leaves one of the two states**, and one that returns has returned
    the publication of the intent. -/
theorem triple_publish_left : Triple (onDisk id) (Left cfg node j₀ want) (publish cfg)
    (fun r d => ∃ i, Renamed cfg node j₀ i d ∧ (∀ i', want = some i' → i' = i) ∧
      r = (i.publication, digestJson i.publication.toJson))
    (fun _ => Left cfg node j₀ want) := by
  -- the end of the run, once the directory is at the destination
  have hrest : ∀ (j : Journal) (i : PublishIntent), j.core = j₀.core → (∀ i', want = some i' → i' = i) →
      Triple (onDisk id) (Renamed cfg node j₀ i) (do
        let b ← look
        let receipt ← lift (recoverPublication i j.binding j.prepare cfg.descriptor
          j.staging.stagingIdentity b.parent j.binding.manifestSha256)
        let reference ← writeEvidence cfg receipt
        save cfg (Journal.finish receipt reference)
        pure (receipt, reference))
      (fun r d => ∃ i, Renamed cfg node j₀ i d ∧ (∀ i', want = some i' → i' = i) ∧
        r = (i.publication, digestJson i.publication.toJson))
      (fun _ => Left cfg node j₀ want) := by
    intro j i hcore hwant
    have hK : ∀ (e : Option Failure) d, Renamed cfg node j₀ i d → Left cfg node j₀ want d :=
      fun _ d hd => .renamed i hd hwant
    refine triple_at (fun d hd => at_look hd.quiet (fun e => hK e _ hd) ?_)
    rw [recoverPublication_valid hd.valid hcore hd.parent, lift_ok, program_pure_bind]
    refine triple_pre ?_ (fun v (hv : v = d) => hv ▸ hd)
    refine triple_bind (triple_conseq triple_writeEvidence (fun _ h => h) (fun _ _ h => h) hK)
      (fun reference => triple_pull (fun href => ?_))
    refine triple_bind (triple_conseq (triple_save renamed_quiet (fun d hd => hd.saved_finish reference))
      (fun _ h => h) (fun _ _ h => h) (fun e d h => h.elim (hK e d) (hK e d))) (fun _ => ?_)
    exact triple_pure (fun v hv => ⟨i, hv, hwant, by rw [href]⟩)
  refine triple_at (fun d₀ hd₀ => ?_)
  cases hd₀ with
  | waiting held h hwant =>
      refine triple_bind (triple_conseq (at_load h.quiet) (fun _ h => h) (fun _ _ h => h)
        (fun _ _ hv => hv ▸ .waiting held h hwant)) (fun j => triple_pull (fun hj => ?_))
      subst hj
      refine triple_bind (triple_intentOf h hwant) (fun i => triple_pull (fun hi => triple_at (fun d hd => ?_)))
      have hK : ∀ d, Waiting cfg node j₀ (some i) d → Left cfg node j₀ want d := by
        intro d hd
        refine .waiting _ hd (fun i' hi' => ?_)
        rw [hi i' hi']
      refine at_look hd.quiet (fun _ => hK _ hd) ?_
      have hadvance : renameOrRecover cfg d₀.journal d.area = advance cfg d₀.journal := by
        unfold renameOrRecover
        rw [hd.destination]
        rfl
      rw [hadvance]
      refine triple_pre ?_ (fun v (hv : v = d) => hv ▸ hd)
      refine triple_bind (triple_conseq (triple_advance_waiting d₀.journal) (fun _ h => h) (fun _ _ h => h)
        (fun _ d h => h.elim (hK d) (fun h => .renamed i h hi))) (fun _ => hrest _ i h.core hi)
  | renamed i h hwant =>
      have hK : ∀ (e : Option Failure) d, Renamed cfg node j₀ i d → Left cfg node j₀ want d :=
        fun _ d hd => .renamed i hd hwant
      refine triple_bind (triple_conseq (at_load h.quiet) (fun _ h => h) (fun _ _ h => h)
        (fun e _ hv => hv ▸ hK e _ h)) (fun j => triple_pull (fun hj => ?_))
      subst hj
      have hintent : intentOf cfg d₀.journal = pure i := by
        unfold intentOf
        rw [h.intent]
      rw [hintent, program_pure_bind]
      refine at_look h.quiet (fun e => hK e _ h) ?_
      have hrecover : renameOrRecover cfg d₀.journal d₀.area = recover cfg d₀.journal := by
        unfold renameOrRecover
        rw [h.destination]
        rfl
      rw [hrecover]
      refine triple_pre ?_ (fun v (hv : v = d₀) => hv ▸ h)
      exact triple_bind (triple_conseq (triple_recover_renamed d₀.journal) (fun _ h => h) (fun _ _ h => h) hK)
        (fun _ => hrest _ i h.core hwant)

end Run

/-! ## A run that meets no fault -/

/-- On a calm machine with that disk the program returns, and leaves the disk. -/
def Passes {α : Type} (deadline : Nat) (d : Disk) (m : Host α) : Prop :=
  Completes id deadline 0 (fun v => v = d) m (fun _ v => v = d)

section Calm

variable {α β : Type} {deadline : Nat} {cfg : Config} {node : Node} {j₀ j : Journal} {i : PublishIntent}
  {held : Option PublishIntent} {d : Disk}

theorem passes_check {c : Prop} [Decidable c] {code : String} (hc : ¬ c) : Passes deadline d (rejectIf c code) :=
  completes_raiseIf hc (fun _ hv => hv)

theorem passes_probe : Passes deadline d (probe : Host Unit) := by
  rw [← program_bind_pure probe]
  exact completes_probe (completes_pure (fun _ hv => hv))

theorem completes_look {k : Area → Host β} {R : β → Disk → Prop} (hquiet : d.moves = [])
    (hk : Completes id deadline 0 (fun v => v = d) (k d.area) R) :
    Completes id deadline 0 (fun v => v = d) (look >>= k) R := by
  have hset : Completes id deadline 0 (fun v => v = d) (setDisk Disk.outside >>= fun _ => (do
      probe
      let d ← getDisk
      k d.area : Host β)) R := by
    refine completes_setDisk (g := id) Disk.outside (fun _ => rfl) ?_
    rw [outside_quiet hquiet]
    refine completes_probe (completes_getDisk (fun e he => ?_))
    rw [show e = d from he]
    exact hk
  simpa only [look, program_bind_assoc, program_pure_bind] using hset

theorem completes_readJournal {k : Journal → Host β} {R : β → Disk → Prop}
    (hk : Completes id deadline 0 (fun v => v = d) (k d.journal) R) :
    Completes id deadline 0 (fun v => v = d) (readJournal >>= k) R := by
  have hread : Completes id deadline 0 (fun v => v = d) (do
      probe
      let d ← getDisk
      k d.journal : Host β) R := by
    refine completes_probe (completes_getDisk (fun e he => ?_))
    rw [show e = d from he]
    exact hk
  simpa only [readJournal, program_bind_assoc, program_pure_bind] using hread

theorem passes_checkParent {stage : Staging} (hquiet : d.moves = []) (h : d.area.parent = stage.parentIdentity) :
    Passes deadline d (checkParent stage) :=
  completes_look hquiet (passes_check (not_not.mpr h))

/-- A directory is no link. -/
theorem isLink_of_identity {identity : DirectoryIdentity} (h : identityOf (some node) = .ok identity) :
    isLink (some node) = false := by
  cases node with
  | other => exact absurd h nofun
  | file content i => rfl
  | directory i children => rfl

theorem passes_verifyAt (hp : Prepared cfg node j₀) {place : Area → Option Node} (hquiet : d.moves = [])
    (hplace : place d.area = some node) : Passes deadline d (verifyAt cfg deadline place j₀.staging) := by
  have hbudget : Passes deadline d (budgetCheck cfg deadline) := by
    refine completes_check hp.budget (completes_monotonic (fun now hnow => passes_check ?_))
    exact Nat.not_le.mpr hnow
  refine completes_bind hbudget (fun _ => completes_look hquiet ?_)
  rw [hplace, hp.identity, lift_ok, program_pure_bind]
  refine completes_check (not_not.mpr rfl) ?_
  show Passes deadline d (lift (verifyTree cfg.unicode cfg.budget cfg.manifest node))
  rw [hp.tree]
  exact completes_pure (fun _ hv => hv)

theorem passes_checkStaging (hp : Prepared cfg node j₀) (h : Waiting cfg node j₀ held d) :
    Passes deadline d (checkStaging j₀.staging) := by
  refine completes_look h.quiet ?_
  rw [h.staging, hp.identity, lift_ok, program_pure_bind]
  exact completes_check (not_not.mpr rfl) (passes_checkParent h.quiet h.parent)

theorem passes_sync (code : String) : Passes deadline d (handle probe (fun _ => reject code)) :=
  completes_handle passes_probe

/-- A save with room in the journal. -/
theorem completes_save {set : Journal → Journal} (hroom : ∀ j, cfg.journalFits j = true)
    (hever : ¬ (d.journal.publishedEver = true ∧ (set d.journal).publishedEver = false))
    (hkeeps : d.journal.keeps { set d.journal with revision := d.journal.revision + 1 }) :
    Completes id deadline 0 (fun v => v = d) (save cfg set) (fun _ v => v = d.saved set) := by
  refine completes_readJournal (completes_check hever (completes_check (not_not.mpr hkeeps)
    (completes_check ?_ (completes_probe ?_))))
  · rw [hroom]
    exact nofun
  · exact completes_replaceRecord (fun e => { e with journal :=
      { set d.journal with revision := d.journal.revision + 1 } }) (fun _ => rfl) (fun v hv => by rw [hv]; rfl)

theorem completes_markPublished (hroom : ∀ j, cfg.journalFits j = true) (h : Renamed cfg node j₀ i d) :
    Completes id deadline 0 (fun v => v = d) (markPublished cfg) (fun _ => Renamed cfg node j₀ i) := by
  refine completes_readJournal (completes_whenever (fun _ => ?_) (fun _ v hv => hv ▸ h))
  refine completes_post (completes_save hroom (fun hlost => absurd hlost.2 nofun)
    ⟨fun _ => rfl, fun _ => rfl⟩) (fun _ v hv => ?_)
  exact hv ▸ h.saved_markPublished

variable (hp : Prepared cfg node j₀) (hdeadline : deadline = j₀.deadlineMonotonic)
  (hroom : ∀ j, cfg.journalFits j = true) (hcore : j.core = j₀.core)

include hp hcore

theorem passes_beforeRename (hline : j.deadlineMonotonic = deadline) (h : Waiting cfg node j₀ held d) :
    Passes deadline d (beforeRename cfg j) := by
  unfold beforeRename
  rw [staging_of_core hcore, hline]
  refine completes_look h.quiet (completes_check ?_ (completes_check ?_ ?_))
  · rw [h.staging, h.destination, isLink_of_identity hp.identity]
    exact fun hlink => hlink.elim nofun nofun
  · rw [h.destination]
    exact nofun
  · refine completes_bind (passes_checkStaging hp h) (fun _ => completes_check (not_not.mpr hp.volume) ?_)
    refine completes_look h.quiet (completes_check ?_ ?_)
    · rw [h.isPrivate]
      exact nofun
    · refine completes_bind (passes_verifyAt hp h.quiet h.staging) (fun _ => ?_)
      exact completes_bind (passes_sync _) (fun _ => passes_checkStaging hp h)

theorem passes_afterRename (hline : j.deadlineMonotonic = deadline) (h : Renamed cfg node j₀ i d) :
    Passes deadline d (afterRename cfg j) := by
  unfold afterRename
  rw [staging_of_core hcore, hline]
  refine completes_bind (passes_sync _) (fun _ => completes_bind (passes_checkParent h.quiet h.parent)
    (fun _ => completes_look h.quiet ?_))
  rw [h.destination, hp.identity, lift_ok, program_pure_bind]
  exact completes_check (not_not.mpr rfl) (passes_verifyAt hp h.quiet h.destination)

include hroom

theorem completes_verifyDestination (hline : j.deadlineMonotonic = deadline) (h : Renamed cfg node j₀ i d) :
    Completes id deadline 0 (fun v => v = d) (verifyDestination cfg j) (fun _ => Renamed cfg node j₀ i) := by
  unfold verifyDestination
  rw [staging_of_core hcore, hline]
  refine completes_look h.quiet (completes_check ?_ ?_)
  · rw [h.destination, isLink_of_identity hp.identity]
    exact nofun
  refine completes_bind (passes_checkParent h.quiet h.parent) (fun _ => completes_look h.quiet ?_)
  rw [h.destination, hp.identity, lift_ok, program_pure_bind]
  refine completes_check (not_not.mpr rfl) (completes_bind (completes_markPublished hroom h) (fun _ => ?_))
  refine completes_at (fun e he => ?_)
  refine completes_bind (passes_verifyAt hp he.quiet he.destination) (fun _ => ?_)
  exact completes_post (passes_checkParent he.quiet he.parent) (fun _ v hv => hv ▸ he)

theorem completes_advance (hline : j.deadlineMonotonic = deadline) (hever : j.publishedEver = false)
    (hreceipt : j.receipt = none) (h : Waiting cfg node j₀ (some i) d) :
    Completes id deadline 0 (fun v => v = d) (advance cfg j) (fun _ => Renamed cfg node j₀ i) := by
  have hrename : Completes id deadline 0 (fun v => v = d) renameNoreplace (fun _ => Renamed cfg node j₀ i) := by
    refine completes_setDisk (g := id) Disk.outside (fun _ => rfl) ?_
    rw [outside_quiet h.quiet]
    refine completes_getDisk (fun e he => ?_)
    obtain rfl : e = d := he
    refine completes_check ?_ (completes_check ?_ ?_)
    · rw [h.destination]
      exact nofun
    · rw [h.staging]
      exact nofun
    · exact completes_allOrNothing (fun _ => Disk.rename) (fun _ _ => rfl) (fun _ v hv => hv ▸ h.rename)
  have hpublish : Completes id deadline 0 (fun v => v = d) (publishDirectory cfg j)
      (fun _ => Renamed cfg node j₀ i) := by
    refine completes_bind (passes_beforeRename hp hcore hline h) (fun _ => completes_bind hrename (fun _ => ?_))
    refine completes_at (fun e he => completes_handle ?_)
    exact completes_post (passes_afterRename hp hcore hline he) (fun _ v hv => hv ▸ he)
  refine completes_check ?_ (completes_look h.quiet (completes_check ?_ ?_))
  · rw [hever, hreceipt]
    exact fun hor => hor.elim nofun (fun hne => hne rfl)
  · rw [h.staging]
    exact nofun
  · refine completes_bind hpublish (fun _ => completes_at (fun e he => ?_))
    refine completes_bind (completes_markPublished hroom he) (fun _ => completes_at (fun f hf => ?_))
    exact completes_verifyDestination hp hroom hcore hline hf

theorem completes_recover (hline : j.deadlineMonotonic = deadline) (h : Renamed cfg node j₀ i d) :
    Completes id deadline 0 (fun v => v = d) (recover cfg j) (fun _ => Renamed cfg node j₀ i) := by
  refine completes_bind (completes_verifyDestination hp hroom hcore hline h) (fun _ => ?_)
  refine completes_at (fun e he => completes_look he.quiet (completes_check ?_ ?_))
  · rw [he.staging]
    exact nofun
  rw [staging_of_core hcore]
  refine completes_bind (passes_sync _) (fun _ => completes_bind (passes_checkParent he.quiet he.parent) (fun _ => ?_))
  refine completes_look he.quiet ?_
  rw [he.destination, hp.identity, lift_ok, program_pure_bind]
  exact completes_post (passes_check (not_not.mpr rfl)) (fun _ v hv => hv ▸ he)

end Calm

/-! ## A calm run returns -/

section Returns

variable {deadline : Nat} {cfg : Config} {node : Node} {j₀ j : Journal} {i : PublishIntent}
  {held want : Option PublishIntent} {d : Disk}

theorem check_of_core (h : j.core = j₀.core) : j.check cfg = j₀.check cfg := by
  have hcheck : j.core.check cfg = j₀.core.check cfg := by rw [h]
  exact hcheck

theorem checkManifest_of_core (h : j.core = j₀.core) : j.checkManifest cfg = j₀.checkManifest cfg := by
  have hcheck : j.core.checkManifest cfg = j₀.core.checkManifest cfg := by rw [h]
  exact hcheck

theorem deadline_of_core (h : j.core = j₀.core) : j.deadlineMonotonic = j₀.deadlineMonotonic :=
  have hcore : j.core.deadlineMonotonic = j₀.core.deadlineMonotonic := congrArg Journal.deadlineMonotonic h
  hcore

theorem validPublication_of_valid (h : Valid cfg j₀ i) :
    validatePublication i.publication j₀.binding j₀.prepare cfg.descriptor = none := by
  unfold Valid recoverPublication at h
  cases hcheck : firstError [validatePublication i.publication j₀.binding j₀.prepare cfg.descriptor,
      failsWith (i.publication.directoryIdentity ≠ j₀.staging.stagingIdentity ∨
        i.parentIdentity ≠ j₀.staging.parentIdentity ∨
        j₀.binding.manifestSha256 ≠ j₀.binding.manifestSha256) "publication_recovery_conflict"] with
  | some code =>
      rw [hcheck] at h
      exact absurd h nofun
  | none =>
      rw [firstError_cons] at hcheck
      exact hcheck.1

theorem checkPublication_ok (hcore : j.core = j₀.core) (hvalid : ∀ i, j.intent = some i → Valid cfg j₀ i)
    (hnone : j.intent = none → j.receipt = none)
    (hreceipt : ∀ i r, j.intent = some i → j.receipt = some r → r = i.publication) :
    j.checkPublication cfg = .ok () := by
  unfold Journal.checkPublication
  cases hintent : j.intent with
  | none =>
      show require (j.receipt = none) _ = _
      unfold require
      rw [if_pos (hnone hintent)]
  | some i =>
      have hv := hvalid i hintent
      have hrecover : recoverPublication i j.binding j.prepare cfg.descriptor j.staging.stagingIdentity
          j.staging.parentIdentity j.binding.manifestSha256 = .ok i.publication := by
        rw [binding_of_core hcore, prepare_of_core hcore, staging_of_core hcore]
        exact hv
      have hidentity : i.publication.directoryIdentity = j.staging.stagingIdentity :=
        (recoverPublication_ok hrecover).2
      show (recoverPublication i j.binding j.prepare cfg.descriptor j.staging.stagingIdentity
          j.staging.parentIdentity j.binding.manifestSha256 >>= fun recovered => _) = _
      rw [hrecover]
      show (require (i.publication.directoryIdentity = j.staging.stagingIdentity) _ >>= fun _ => _) = _
      unfold require
      rw [if_pos hidentity]
      cases hr : j.receipt with
      | none => rfl
      | some r =>
          obtain rfl := hreceipt i r hintent hr
          have hvalidated : validatePublication i.publication j.binding j.prepare cfg.descriptor = none := by
            rw [binding_of_core hcore, prepare_of_core hcore]
            exact validPublication_of_valid hv
          show (refuse (validatePublication i.publication j.binding j.prepare cfg.descriptor) >>= fun _ => _) = _
          rw [hvalidated]
          exact if_pos rfl

/-- The receipt of any other identifier passes, when that of the check does. -/
theorem publicationReceipt_new {b : Binding} {p : PrepareReceipt} {dest : Destination}
    {identity : DirectoryIdentity} {publicationId other : Text} {r : PublicationReceipt}
    (h : publicationReceipt b p dest identity publicationId = .ok r) (hother : checkIdentifier other = none) :
    ∃ r', publicationReceipt b p dest identity other = .ok r' := by
  unfold publicationReceipt at h
  obtain ⟨hprepare, h⟩ := refuse_ok h
  obtain ⟨hdestination, h⟩ := refuse_ok h
  obtain ⟨hvalid, -⟩ := refuse_ok h
  have hnew : validatePublication
      { binding := b, prepareReceiptSha256 := receiptDigest p.toJson, destination := dest,
        manifestSha256 := b.manifestSha256, directoryIdentity := identity,
        publicationId := other } b p dest = none := by
    unfold validatePublication at hvalid ⊢
    rw [firstError_cons, firstError_cons, firstError_cons, firstError_cons, firstError_cons,
      firstError_cons] at hvalid ⊢
    exact ⟨hvalid.1, hvalid.2.1, hvalid.2.2.1, hvalid.2.2.2.1, hvalid.2.2.2.2.1, hother, rfl⟩
  unfold publicationReceipt
  rw [hprepare, hdestination]
  show ∃ r', (refuse (validatePublication _ b p dest) >>= fun _ => _) = .ok r'
  rw [hnew]
  exact ⟨_, rfl⟩

theorem Prepared.receipt (hp : Prepared cfg node j₀) :
    ∃ r, publicationReceipt j₀.binding j₀.prepare cfg.descriptor j₀.staging.stagingIdentity
      (ascii "validation-only") = .ok r := by
  have h := hp.check
  unfold Journal.check at h
  obtain ⟨-, h⟩ := refuse_ok h
  obtain ⟨-, h⟩ := require_ok h
  obtain ⟨-, h⟩ := require_ok h
  obtain ⟨-, h⟩ := refuse_ok h
  obtain ⟨-, h⟩ := require_ok h
  obtain ⟨-, h⟩ := require_ok h
  cases hreceipt : publicationReceipt j₀.binding j₀.prepare cfg.descriptor j₀.staging.stagingIdentity
    (ascii "validation-only") with
  | ok r => exact ⟨r, rfl⟩
  | error code =>
      rw [hreceipt] at h
      exact absurd h nofun

theorem completes_load (hp : Prepared cfg node j₀) (hquiet : d.moves = []) (hcore : d.journal.core = j₀.core)
    (hline : j₀.deadlineMonotonic = deadline) (hparent : d.area.parent = j₀.staging.parentIdentity)
    (hlink : isLink d.area.destination = false) (hpublication : d.journal.checkPublication cfg = .ok ()) :
    Completes id deadline 0 (fun v => v = d) (load cfg) (fun j v => v = d ∧ j = d.journal) := by
  refine completes_readJournal ?_
  rw [check_of_core hcore, hp.check, lift_ok, program_pure_bind, deadline_of_core hcore, hline]
  refine completes_monotonic (fun now hnow => completes_check (Nat.not_le.mpr hnow) (completes_look hquiet ?_))
  refine completes_check (by rw [hlink]; exact nofun) ?_
  rw [staging_of_core hcore]
  refine completes_bind (passes_checkParent hquiet hparent) (fun _ => completes_probe ?_)
  rw [checkManifest_of_core hcore, hp.manifest, hpublication, lift_ok, program_pure_bind, program_pure_bind]
  exact completes_pure (fun v hv => ⟨hv, rfl⟩)

theorem completes_intentOf (hp : Prepared cfg node j₀) (hroom : ∀ j, cfg.journalFits j = true)
    (hline : j₀.deadlineMonotonic = deadline) (h : Waiting cfg node j₀ held d) :
    Completes id deadline 0 (fun v => v = d) (intentOf cfg d.journal)
      (fun i => Waiting cfg node j₀ (some i)) := by
  unfold intentOf
  rw [h.intent]
  cases held with
  | some i => exact completes_pure (fun v hv => hv ▸ h)
  | none =>
      rw [staging_of_core h.core, binding_of_core h.core, prepare_of_core h.core, deadline_of_core h.core, hline]
      refine completes_check ?_ (completes_look h.quiet (completes_check ?_ ?_))
      · rw [h.unpublished, h.unproven]
        exact fun hor => hor.elim nofun (fun hne => hne rfl)
      · rw [h.destination]
        exact nofun
      refine completes_bind (passes_verifyAt hp h.quiet h.staging) (fun _ => ?_)
      have hid : Completes id deadline 0 (fun v => v = d) newPublicationId
          (fun t v => v = d ∧ t = 112 :: decimal 0) :=
        completes_bind completes_observe (fun n => completes_pure (fun v hv => ⟨hv.1, by rw [hv.2]⟩))
      have hever : ¬ (d.journal.publishedEver = true ∧ d.journal.publishedEver = false) := by
        rw [h.unpublished]
        exact fun hlost => absurd hlost.1 nofun
      refine completes_bind hid (fun t => completes_at (fun e he => ?_))
      obtain ⟨rfl, rfl⟩ := he
      obtain ⟨r, hr⟩ := hp.receipt
      obtain ⟨receipt, hreceipt⟩ := publicationReceipt_new hr
        (show checkIdentifier (112 :: decimal 0) = none by decide)
      have hvalid := valid_of_receipt hreceipt
      rw [hreceipt, lift_ok, program_pure_bind]
      refine completes_bind (completes_save hroom hever ⟨fun hne => absurd h.intent hne, fun _ => rfl⟩)
        (fun _ => completes_pure (fun v hv => ?_))
      rw [hv]
      exact h.saved_intent hvalid

theorem completes_writeEvidence (hevidence : ∀ r, cfg.evidenceFits r = true) (h : Renamed cfg node j₀ i d) :
    Completes id deadline 0 (fun v => v = d) (writeEvidence cfg i.publication)
      (fun _ => Renamed cfg node j₀ i) := by
  refine completes_probe (completes_getDisk (fun e he => ?_))
  obtain rfl : e = d := he
  cases hstored : e.evidence with
  | some stored =>
      refine completes_check (not_not.mpr (h.evidence stored hstored)) (completes_probe ?_)
      exact completes_pure (fun v hv => hv ▸ h)
  | none =>
      refine completes_check (by rw [hevidence]; exact nofun) ?_
      refine completes_bind (Q := fun _ => Renamed cfg node j₀ i) (completes_allOrNothing
        (fun _ e => { e with evidence := some i.publication }) (fun _ _ => rfl) (fun _ v hv => ?_))
        (fun _ => completes_pure (fun _ hv => hv))
      rw [hv]
      exact h.evidence_written

/-- **A run that meets no fault returns**, from each of the two states: with time
    and room left it ends with the publication of its intent. -/
theorem completes_publish (hp : Prepared cfg node j₀) (hroom : ∀ j, cfg.journalFits j = true)
    (hevidence : ∀ r, cfg.evidenceFits r = true) (hline : j₀.deadlineMonotonic = deadline) :
    Completes id deadline 0 (Left cfg node j₀ want) (publish cfg)
      (fun r d => ∃ i, Renamed cfg node j₀ i d ∧ (∀ i', want = some i' → i' = i) ∧
        r = (i.publication, digestJson i.publication.toJson)) := by
  -- the end of the run, once the directory is at the destination
  have hrest : ∀ (j : Journal) (i : PublishIntent), j.core = j₀.core →
      Completes id deadline 0 (Renamed cfg node j₀ i) (do
        let b ← look
        let receipt ← lift (recoverPublication i j.binding j.prepare cfg.descriptor
          j.staging.stagingIdentity b.parent j.binding.manifestSha256)
        let reference ← writeEvidence cfg receipt
        save cfg (Journal.finish receipt reference)
        pure (receipt, reference)) (fun _ _ => True) := by
    intro j i hcore
    refine completes_at (fun d hd => completes_look hd.quiet ?_)
    rw [recoverPublication_valid hd.valid hcore hd.parent, lift_ok, program_pure_bind]
    refine completes_bind (completes_writeEvidence hevidence hd) (fun reference => completes_at (fun e he => ?_))
    refine completes_bind (completes_save hroom (fun hlost => absurd hlost.2 nofun) ⟨fun _ => rfl, fun hne => ?_⟩)
      (fun _ => completes_pure (fun _ _ => trivial))
    obtain ⟨r, hr⟩ := Option.ne_none_iff_exists'.mp hne
    rw [hr, he.receipt r hr]
    rfl
  have hreturns : Completes id deadline 0 (Left cfg node j₀ want) (publish cfg) (fun _ _ => True) := by
    refine completes_at (fun d hd => ?_)
    cases hd with
    | waiting held h hwant =>
        have hpublication : d.journal.checkPublication cfg = .ok () := by
          refine checkPublication_ok h.core (fun i hi => h.valid i (h.intent ▸ hi)) (fun _ => h.unproven) ?_
          exact fun i r _ hr => absurd (h.unproven.symm.trans hr) nofun
        refine completes_bind (completes_load hp h.quiet h.core hline h.parent (by rw [h.destination]; rfl)
          hpublication) (fun j => completes_at (fun e he => ?_))
        obtain ⟨rfl, rfl⟩ := he
        refine completes_bind (completes_intentOf hp hroom hline h) (fun i => completes_at (fun f hf => ?_))
        refine completes_look hf.quiet ?_
        have hadvance : renameOrRecover cfg e.journal f.area = advance cfg e.journal := by
          unfold renameOrRecover
          rw [hf.destination]
          rfl
        rw [hadvance]
        exact completes_bind (completes_advance hp hroom h.core ((deadline_of_core h.core).trans hline)
          h.unpublished h.unproven hf) (fun _ => hrest _ i h.core)
    | renamed i h hwant =>
        have hpublication : d.journal.checkPublication cfg = .ok () := by
          refine checkPublication_ok h.core (fun i' hi => ?_) (fun hnone => absurd (h.intent.symm.trans hnone) nofun) ?_
          · rw [← Option.some.inj (h.intent.symm.trans hi)]
            exact h.valid
          · intro i' r hi hr
            rw [← Option.some.inj (h.intent.symm.trans hi)]
            exact h.receipt r hr
        refine completes_bind (completes_load hp h.quiet h.core hline h.parent
          (by rw [h.destination]; exact isLink_of_identity hp.identity) hpublication)
          (fun j => completes_at (fun e he => ?_))
        obtain ⟨rfl, rfl⟩ := he
        have hintent : intentOf cfg e.journal = pure i := by
          unfold intentOf
          rw [h.intent]
        rw [hintent, program_pure_bind]
        refine completes_look h.quiet ?_
        have hrecover : renameOrRecover cfg e.journal e.area = recover cfg e.journal := by
          unfold renameOrRecover
          rw [h.destination]
          rfl
        rw [hrecover]
        exact completes_bind (completes_recover hp hroom h.core ((deadline_of_core h.core).trans hline) h)
          (fun _ => hrest _ i h.core)
  exact completes_post (hreturns.triple triple_publish_left) (fun _ _ h => h.2)

end Returns

/-! ## What publication guarantees -/

section Guarantees

variable {cfg : Config} {node : Node} {j₀ : Journal} {want : Option PublishIntent} {d₀ d : Disk}

theorem Left.quiet (h : Left cfg node j₀ want d) : d.moves = [] := by
  cases h with
  | waiting held h hwant => exact h.quiet
  | renamed i h hwant => exact h.quiet

/-- With nobody else there, every run of a history leaves one of the two states. -/
theorem history_left (hstart : Left cfg node j₀ want d₀) (h : History cfg (fun _ => False) d₀ d) :
    Left cfg node j₀ want d := by
  induction h with
  | start => exact hstart
  | run d m hd hm hmoves ih =>
      have hnone : m.disk.moves = [] := List.eq_nil_iff_forall_not_mem.mpr hmoves
      have hdisk : m.disk = d := by
        rw [hm, hnone, ← ih.quiet]
      have hbegin : Left cfg node j₀ want m.disk := hdisk ▸ ih
      have hrun := triple_publish_left m hbegin
      rcases hout : publish cfg m with ⟨o, m'⟩
      rw [hout] at hrun
      cases o with
      | done r =>
          obtain ⟨i, hrenamed, hwant, -⟩ := hrun
          exact .renamed i hrenamed hwant
      | raised e => exact hrun
      | crashed => exact hrun

/-- A returned receipt is that of the intent in the journal. -/
theorem left_of_done {m m' : Machine Failure Disk} {r : PublicationReceipt × Text}
    (hstart : Left cfg node j₀ want m.disk) (hrun : publish cfg m = (.done r, m')) :
    ∃ i, Left cfg node j₀ (some i) m'.disk ∧ (∀ i', want = some i' → i' = i) ∧
      r = (i.publication, digestJson i.publication.toJson) := by
  have hpost := triple_publish_left m hstart
  rw [hrun] at hpost
  obtain ⟨i, hrenamed, hwant, hr⟩ := hpost
  exact ⟨i, .renamed i hrenamed (fun i' hi => (Option.some.inj hi).symm), hwant, hr⟩

/-- **Publication is exclusive, renames once and can be restarted.**  Whatever others
    do and wherever it ends, a run changes the two paths by one rename at most, to a
    destination that is not there; it returns a receipt only when it has seen the
    registered directory at the destination, with the tree of the manifest.  Over
    all runs there is one rename, unless others bring the registered directory back
    to the staging path.  When nobody else is there, every run leaves the directory
    at one of the two paths, a run that meets no fault returns, and all receipts
    that are ever returned are the same. -/
theorem publish_guarantees (cfg : Config) (d₀ : Disk) :
    (∀ m : Machine Failure Disk, Since (scene m.disk) 0 (scene (publish cfg m).2.disk) ∨
      Since (scene m.disk) 1 (scene (publish cfg m).2.disk)) ∧
    (∀ (m m' : Machine Failure Disk) (r : PublicationReceipt × Text), publish cfg m = (.done r, m') →
      Seen cfg.manifest (scene m.disk) (scene m'.disk) ∧
        r.1.directoryIdentity = m.disk.journal.staging.stagingIdentity) ∧
    (renamesIn d₀.changes = 0 → ∀ d, History cfg (KeepsAway d₀.journal.staging.stagingIdentity) d₀ d →
      renamesIn d.changes ≤ 1) ∧
    (∀ node, Prepared cfg node d₀.journal → Waiting cfg node d₀.journal none d₀ →
      ∀ d, History cfg (fun _ => False) d₀ d → Left cfg node d₀.journal none d ∧
        (∀ m : Machine Failure Disk, m.disk = d → Calm d₀.journal.deadlineMonotonic m →
          (∀ j, cfg.journalFits j = true) → (∀ r, cfg.evidenceFits r = true) →
          ∃ r m', publish cfg m = (.done r, m')) ∧
        ∀ (m m' : Machine Failure Disk) (r : PublicationReceipt × Text), m.disk = d →
          publish cfg m = (.done r, m') → ∀ d', History cfg (fun _ => False) m'.disk d' →
          ∀ (n n' : Machine Failure Disk) (r' : PublicationReceipt × Text), n.disk = d' →
            publish cfg n = (.done r', n') → r' = r) := by
  refine ⟨publish_since cfg, ?_, fun hnone d hd => (history_tight hnone hd).once, ?_⟩
  · intro m m' r hrun
    have hpost := triple_publish_since cfg (scene m.disk) m (since_refl _)
    rw [hrun] at hpost
    obtain ⟨⟨hsince, hseen⟩, hidentity⟩ := hpost
    refine ⟨hseen, hidentity.trans ?_⟩
    obtain ⟨pre, post, node, hstory, -⟩ := hseen
    exact congrArg Staging.stagingIdentity hstory.stage
  · intro node hp hwaiting d hd
    have hleft : Left cfg node d₀.journal none d :=
      history_left (.waiting none hwaiting (fun _ hi => absurd hi nofun)) hd
    refine ⟨hleft, ?_, ?_⟩
    · rintro m rfl hcalm hroom hevidence
      obtain ⟨r, m', hrun, -⟩ := completes_publish hp hroom hevidence rfl m hcalm (Nat.zero_le _) hleft
      exact ⟨r, m', hrun⟩
    · rintro m m' r rfl hrun d' hd' n n' r' rfl hrun'
      obtain ⟨i, hafter, -, rfl⟩ := left_of_done hleft hrun
      obtain ⟨i', -, hsame, rfl⟩ := left_of_done (history_left hafter hd') hrun'
      rw [hsame i rfl]

end Guarantees

/-! ## A directory that is put back

    The process dies right after the rename; somebody moves the directory back,
    and the next run renames it again. -/

def sampleNode : Node :=
  .directory { device := 7, inode := 12, size := 0, mtimeNs := 0 }
    [(ascii "a", .file [104, 105] { device := 7, inode := 13, size := 2, mtimeNs := 0 })]

def sampleManifest : Document :=
  { evidenceRefs := []
    entries := [{ path := ascii "a"
                  kind := .file 2 (hexdigest [104, 105]) { device := 7, inode := 13, size := 2, mtimeNs := 0 } }] }

def sampleDigest : Text := List.replicate 64 48

def sampleBinding : Binding :=
  { transferId := ascii "t1", requestDigest := sampleDigest, direction := .pull, vmUuid := ascii "vm"
    bootIdentity := ascii "boot", vmEpoch := ascii "1", policyId := ascii "p", packageSize := 10
    packageSha256 := sampleDigest, manifestSha256 := digestJson sampleManifest.toJson }

def sampleConfig : Config :=
  { direction := .pull, transferId := ascii "t1", guestRequest := ascii "g", requestDigest := sampleDigest
    vmUuid := ascii "vm", bootIdentity := ascii "boot", vmEpoch := ascii "1"
    descriptor := { endpoint := ascii "host", identity := [(ascii "device", ascii "7")]
                    canonicalPath := ascii "/data/out" }
    unicode := { nfc := id, casefold := id, lower := id }
    budget := { maxFiles := 10, maxMetadataBytes := 1000, maxLogicalBytes := 1000 }
    maxPackageBytes := 1000, maxDigits := 4300, manifest := sampleManifest
    journalFits := fun _ => true, evidenceFits := fun _ => true }

def sampleJournal : Journal :=
  { revision := 5, deadlineMonotonic := 100, phase := .verifying, binding := sampleBinding
    guestRequest := ascii "g"
    prepare := { binding := sampleBinding, prepareId := ascii "q", identityDigest := sampleDigest }
    staging := { stagingDirectory := ascii "/data/.velo-stage-1", destinationDirectory := ascii "/data/out"
                 stagingIdentity := { device := 7, inode := 12 }, parentIdentity := { device := 7, inode := 2 } }
    publishedEver := false, intent := none, receipt := none, receiptRef := none }

def sampleDisk : Disk :=
  { journal := sampleJournal, evidence := none
    area := { parent := { device := 7, inode := 2 }, destination := none, staging := some sampleNode
              stagingPrivate := true }
    moves := [], changes := [] }

/-- The twenty-first effect is the rename, after which the process dies. -/
def dyingMachine : Machine Failure Disk :=
  { disk := sampleDisk, clock := 0, free := 0
    script := List.replicate 20 .calm ++ [{ tick := 0, stamp := 0, reading := 0, fault := .crash 1 }] }

def putBack (a : Area) : Area := { a with staging := a.destination, destination := none }

def laterMachine : Machine Failure Disk :=
  { disk := { (publish sampleConfig dyingMachine).2.disk with moves := [putBack] }, clock := 0, free := 0
    script := [] }

/-- **Two renames for one journal.** -/
theorem renamed_twice :
    ∃ d₀ d, History sampleConfig (fun _ => True) d₀ d ∧ renamesIn d₀.changes = 0 ∧ renamesIn d.changes = 2 := by
  have hfirst : History sampleConfig (fun _ => True) sampleDisk (publish sampleConfig dyingMachine).2.disk :=
    .run sampleDisk dyingMachine .start rfl (fun _ _ => trivial)
  refine ⟨sampleDisk, (publish sampleConfig laterMachine).2.disk, ?_, rfl, by decide +kernel⟩
  exact .run _ laterMachine hfirst rfl (fun _ _ => trivial)

theorem sample_prepared : Prepared sampleConfig sampleNode sampleDisk.journal :=
  { budget := by decide
    check := by decide +kernel
    manifest := by decide +kernel
    volume := rfl
    identity := rfl
    tree := by decide +kernel }

theorem sample_waiting : Waiting sampleConfig sampleNode sampleDisk.journal none sampleDisk :=
  { quiet := rfl, core := rfl, parent := rfl, destination := rfl, staging := rfl, isPrivate := rfl
    unpublished := rfl, unproven := rfl, noEvidence := rfl, intent := rfl, valid := fun _ hi => absurd hi nofun }

/-- The sample is published, by a run that meets no fault. -/
theorem publish_guarantees_sample : ∃ r m', publish sampleConfig
    { disk := sampleDisk, clock := 0, free := 0, script := [] } = (.done r, m') :=
  ((publish_guarantees sampleConfig sampleDisk).2.2.2 sampleNode sample_prepared sample_waiting sampleDisk
    .start).2.1 _ rfl ⟨fun _ he => absurd he List.not_mem_nil, by decide⟩ (fun _ => rfl) (fun _ => rfl)

end HostPublication
