import VeloTransfer.HostPartialProofs

/-! # The host's partial package — what is acknowledged under every fault

    `Held cfg t v h s p l` says that the journal of `v` has acknowledged exactly
    the chunks `h` in its state `s`, and that the registered files `p` and `l`
    start with what `h` lays down.  An unacknowledged tail may follow.

    `resume`, `append` and `verify` keep `Held`; only the end of an accepted
    `append` moves to `h ++ [data]`. -/

namespace HostPartial

open EffectPrograms Program FaultScript FileNodes ChunkLog CanonicalJson JsonLine Sha256 GuestTerminal

/-! ## The invariant -/

/-- The state names the directory and the files, by device and inode. -/
structure Registered (v : Disk) (s : State) (p l : FileNode) : Prop where
  directory : v.directory = some s.directory
  part : v.part = some p
  ledger : v.ledger = some l
  owners : ∃ part ledger, s.part = some part ∧ s.ledger = some ledger ∧
    part.device = v.device ∧ part.inode = p.inode ∧
    ledger.device = v.device ∧ ledger.inode = l.inode

/-- The bounds of acknowledged chunks. -/
structure Within (cfg : Config) (h : List Bytes) : Prop where
  fit : ChunksFit 0 h
  bounded : ∀ c ∈ h, c.length ≤ cfg.budget.maxChunkBytes
  complete : h.flatten.length ≤ cfg.binding.packageSize
  budget : (ledgerFrom .size 0 h).length ≤ cfg.budget.maxMetadataBytes

/-- A READY state that has acknowledged the chunks `h`. -/
structure Counts (s : State) (h : List Bytes) : Prop where
  phase : s.phase = .ready
  offset : s.verifiedOffset = h.flatten.length
  count : s.chunkCount = h.length
  bytes : s.ledgerBytes = (ledgerFrom .size 0 h).length

/-- The chunks `h` are acknowledged in `v`, by the state `s` and in the files `p` and `l`. -/
structure Held (cfg : Config) (t : Nat) (v : Disk) (h : List Bytes) (s : State) (p l : FileNode) :
    Prop where
  binding : v.journal.binding = cfg.binding
  guestRequest : v.journal.guestRequest = cfg.guestRequest
  deadline : v.journal.deadlineMonotonic = t
  state : v.journal.receivePartial = some s
  counts : Counts s h
  within : Within cfg h
  registered : Registered v s p l
  data : h.flatten <+: p.bytes
  lines : ledgerFrom .size 0 h <+: l.bytes

def Holds (cfg : Config) (t : Nat) (v : Disk) (h : List Bytes) : Prop :=
  ∃ s p l, Held cfg t v h s p l

/-- Both files hold exactly what is acknowledged. -/
structure Exact (h : List Bytes) (p l : FileNode) : Prop where
  data : p.bytes = h.flatten
  lines : l.bytes = ledgerFrom .size 0 h

section Steps

variable {cfg : Config} {t : Nat} {h : List Bytes} {v₀ : Disk} {s : State} {p l : FileNode}
  {K : Option Failure → Disk → Prop} {α : Type} {Q : α → Disk → Prop}

abbrev disk : Machine Failure Disk → Disk := onDisk id

theorem Counts.valid (hc : Counts s h) (hw : Within cfg h) (hr : Registered v₀ s p l) :
    s.Valid cfg := by
  obtain ⟨part, ledger, hpart, hledger, -⟩ := hr.owners
  refine ⟨by rw [hc.offset]; exact hw.complete, ?_, ?_, fun hne => absurd hc.phase hne⟩
  · rw [hpart, hc.phase]
    exact ⟨fun _ => by decide, fun _ => rfl⟩
  · rw [hledger, hc.phase]
    exact ⟨fun _ => rfl, fun _ => rfl⟩

/-! ## Steps that change nothing -/

theorem fixes_budgetCheck (deadline : Nat) : Fixes Machine.disk (budgetCheck cfg deadline) :=
  fixes_bind (fixes_raiseIf _ _) (fun _ => fixes_bind fixes_monotonic (fun _ => fixes_raiseIf _ _))

theorem fixes_space (deadline required : Nat) : Fixes Machine.disk (space cfg deadline required) := by
  refine fixes_bind (fixes_budgetCheck _) (fun _ => fixes_bind ?_ (fun _ => fixes_raiseIf _ _))
  refine fixes_handle fixes_freeSpace ?_
  intro f
  cases f with
  | error code => exact fixes_raise _
  | osError => exact fixes_raise _

theorem fixes_withIo {m : Host α} (hm : Fixes Machine.disk m) : Fixes Machine.disk (withIo m) := by
  refine fixes_handle hm ?_
  intro f
  cases f with
  | error code => exact fixes_raise _
  | osError => exact fixes_raise _

theorem fixes_checkSame (p l : FileNode) : Fixes Machine.disk (checkSame p l) :=
  fixes_bind fixes_probe (fun _ => fixes_bind fixes_getDisk (fun _ => fixes_raiseIf _ _))

theorem fixes_readPieces (deadline fuel left : Nat) (data : Bytes) :
    Fixes Machine.disk (readPieces cfg deadline fuel left data) := by
  induction fuel generalizing left data with
  | zero => exact fixes_pure _
  | succ fuel ih =>
      exact fixes_ite (fixes_pure _) (fixes_bind (fixes_budgetCheck _) (fun _ =>
        fixes_bind (fixes_raiseIf _ _) (fun _ => fixes_bind (ih _ _) (fun _ => fixes_pure _))))

theorem fixes_readWhole (deadline fuel : Nat) (data : Bytes) :
    Fixes Machine.disk (readWhole cfg deadline fuel data) := by
  induction fuel generalizing data with
  | zero => exact fixes_pure _
  | succ fuel ih =>
      exact fixes_bind (fixes_budgetCheck _) (fun _ => fixes_ite (fixes_pure _)
        (fixes_bind (ih _) (fun _ => fixes_pure _)))

theorem fixes_readBack : Fixes Machine.disk readBack :=
  fixes_handle (fixes_bind fixes_probe (fun _ => fixes_bind fixes_getDisk (fun _ => fixes_pure _)))
    (fun _ => fixes_pure _)

/-! ## Steps on a held partial -/

theorem at_load {k : Journal → Host α} (hK : ∀ e, K e v₀)
    (hk : Triple disk (fun v => v = v₀) (k v₀.journal) Q K) :
    Triple disk (fun v => v = v₀) (load cfg >>= k) Q K := by
  refine triple_bind (Q := fun e v => v = v₀ ∧ e = v₀.journal) ?_ ?_
  · refine at_probe hK (at_getDisk (fun d hd => ?_))
    obtain rfl : d = v₀ := hd
    exact at_check hK (fun _ => at_quiet fixes_monotonic hK (fun _ => at_check hK (fun _ =>
      at_quiet (fixes_budgetCheck _) hK (fun _ => at_check hK (fun _ =>
      triple_pure (fun v hv => ⟨hv, rfl⟩))))))
  · rintro e m ⟨hv, rfl⟩
    exact hk m hv

theorem at_ready {envelope : Journal} {k : State → Host α} (hs : envelope.receivePartial = some s)
    (hK : ∀ e, K e v₀) (hk : Triple disk (fun v => v = v₀) (k s) Q K) :
    Triple disk (fun v => v = v₀) (ready cfg envelope >>= k) Q K := by
  refine triple_bind (Q := fun s' v => v = v₀ ∧ s' = s) ?_ ?_
  · unfold ready
    rw [hs]
    exact at_check hK (fun _ => at_check hK (fun _ => triple_pure (fun v hv => ⟨hv, rfl⟩)))
  · rintro s' m ⟨hv, rfl⟩
    exact hk m hv

theorem at_checkOwned {k : FileNode × FileNode → Host α} (hr : Registered v₀ s p l)
    (hK : ∀ e, K e v₀) (hk : Triple disk (fun v => v = v₀) (k (p, l)) Q K) :
    Triple disk (fun v => v = v₀) (checkOwned s >>= k) Q K := by
  refine triple_bind (Q := fun r v => v = v₀ ∧ r = (p, l)) ?_ ?_
  · refine at_probe hK (at_getDisk (fun d hd => at_check hK (fun _ => ?_)))
    obtain rfl : d = v₀ := hd
    obtain ⟨part, ledger, hpart, hledger, -⟩ := hr.owners
    rw [hpart, hledger, hr.part, hr.ledger]
    exact at_check hK (fun _ => triple_pure (fun v hv => ⟨hv, rfl⟩))
  · rintro r m ⟨hv, rfl⟩
    exact hk m hv

/-- Handling an `OSError` keeps what holds at every early end. -/
theorem triple_withIo {m : Host α} {P : Disk → Prop} {H : Disk → Prop}
    (hm : Triple disk P m Q (fun _ v => H v)) :
    Triple disk P (withIo m) Q (fun _ v => H v) := by
  refine triple_handle (H := fun _ v => H v) (triple_conseq hm (fun _ h => h) (fun _ _ h => h) ?_) ?_
  · rintro (_ | e) v hv
    · exact hv
    · exact hv
  · intro f
    cases f with
    | error code => exact triple_raise (fun v hv => hv)
    | osError => exact triple_raise (fun v hv => hv)

/-! ## Journaling -/

/-- How a save ends early when the new journal may be stored. -/
def Unconfirmed : Option Failure → Prop
  | none => True
  | some .osError => False
  | some (.error code) => code = "storage_durability_unknown" ∨ code = "storage_reconcile_required"

/-- The disk after a save of a state. -/
def Disk.saved (v : Disk) (s : State) : Disk :=
  { v with journal :=
      { v.journal with revision := v.journal.revision + 1, receivePartial := some s } }

theorem readBack_triple (hK : ∀ e, e = none → K e v₀) :
    Triple disk (fun v => v = v₀) readBack
      (fun o v => v = v₀ ∧ (o = none ∨ o = some v₀.journal)) K := by
  refine triple_handle (H := fun _ v => v = v₀) ?_ (fun f => triple_pure (fun v hv => ⟨hv, Or.inl rfl⟩))
  refine at_probe ?_ (at_getDisk (fun d hd => triple_pure (fun v hv => ⟨hv, Or.inr ?_⟩)))
  · rintro (_ | e)
    · exact hK none rfl
    · rfl
  · obtain rfl : d = v₀ := hd
    rfl

theorem commit_triple {new : Journal} (hold : ∀ e, K e v₀)
    (hnew : ∀ e, Unconfirmed e → K e { v₀ with journal := new }) :
    Triple disk (fun v => v = v₀)
      (replaceRecord (fun d => { d with journal := new }) readBack (classifyCommit new))
      (fun _ v => v = { v₀ with journal := new }) K := by
  refine triple_replaceRecord (fun v => { v with journal := new })
    (fun v o => o = none ∨ o = some v.journal) ?_ (fun v hv => ?_) hold
    (hnew none trivial) ?_
  · exact fun d => rfl
  · refine readBack_triple ?_
    rintro e rfl
    rcases hv with rfl | rfl
    · exact hold none
    · exact hnew none trivial
  · rintro o (rfl | rfl)
    · exact hnew _ (Or.inr rfl)
    · have hseen : classifyCommit new (some new) = .error "storage_durability_unknown" := if_pos rfl
      show K (some (classifyCommit new (some new))) _
      rw [hseen]
      exact hnew _ (Or.inl rfl)

/-- A save on the loaded journal stores the state, or it is not confirmed. -/
theorem save_triple {s' : State} (hold : ∀ e, K e v₀)
    (hnew : ∀ e, Unconfirmed e → K e (v₀.saved s')) :
    Triple disk (fun v => v = v₀) (save cfg v₀.journal s') (fun _ v => v = v₀.saved s') K := by
  refine at_probe hold (at_getDisk (fun d hd => at_check hold (fun _ => ?_)))
  obtain rfl : d = v₀ := hd
  refine at_probe hold (at_getDisk (fun d' hd' => at_check hold (fun _ => at_check hold (fun _ =>
    at_probe hold ?_))))
  exact commit_triple hold hnew

/-! ## Holding the chunks -/

def Disk.onPart (v : Disk) (f : FileNode → FileNode) : Disk := { v with part := v.part.map f }

def Disk.onLedger (v : Disk) (f : FileNode → FileNode) : Disk := { v with ledger := v.ledger.map f }

/-- A change of the package that leaves the acknowledged bytes. -/
theorem Held.onPart {v : Disk} (hh : Held cfg t v h s p l) (f : FileNode → FileNode)
    (hinode : (f p).inode = p.inode) (hdata : h.flatten <+: (f p).bytes) :
    Held cfg t (v.onPart f) h s (f p) l where
  binding := hh.binding
  guestRequest := hh.guestRequest
  deadline := hh.deadline
  state := hh.state
  counts := hh.counts
  within := hh.within
  registered := by
    obtain ⟨hdir, hpart, hledger, r, r', hr, hr', hdevice, howner, howner'⟩ := hh.registered
    refine ⟨hdir, ?_, hledger, r, r', hr, hr', hdevice, howner.trans hinode.symm, howner'⟩
    show v.part.map f = _
    rw [hpart]
    rfl
  data := hdata
  lines := hh.lines

/-- A change of the ledger that leaves the acknowledged records. -/
theorem Held.onLedger {v : Disk} (hh : Held cfg t v h s p l) (f : FileNode → FileNode)
    (hinode : (f l).inode = l.inode) (hlines : ledgerFrom .size 0 h <+: (f l).bytes) :
    Held cfg t (v.onLedger f) h s p (f l) where
  binding := hh.binding
  guestRequest := hh.guestRequest
  deadline := hh.deadline
  state := hh.state
  counts := hh.counts
  within := hh.within
  registered := by
    obtain ⟨hdir, hpart, hledger, r, r', hr, hr', hdevice, howner, hdevice', howner'⟩ := hh.registered
    refine ⟨hdir, hpart, ?_, r, r', hr, hr', hdevice, howner, hdevice', howner'.trans hinode.symm⟩
    show v.ledger.map f = _
    rw [hledger]
    rfl
  data := hh.data
  lines := hlines

/-- The state that a save stores for the files that are there. -/
theorem Held.of_saved {v : Disk} (hh : Held cfg t v h s p l) (s' : State) (h' : List Bytes)
    (hdir : s'.directory = s.directory) (hcounts : Counts s' h') (hwithin : Within cfg h')
    (hdata : h'.flatten <+: p.bytes) (hlines : ledgerFrom .size 0 h' <+: l.bytes) :
    Held cfg t (v.saved (s'.register v.device p l)) h' (s'.register v.device p l) p l where
  binding := hh.binding
  guestRequest := hh.guestRequest
  deadline := hh.deadline
  state := rfl
  counts := ⟨hcounts.phase, hcounts.offset, hcounts.count, hcounts.bytes⟩
  within := hwithin
  registered := ⟨hh.registered.directory.trans (congrArg some hdir.symm), hh.registered.part,
    hh.registered.ledger, _, _, rfl, rfl, rfl, rfl, rfl, rfl⟩
  data := hdata
  lines := hlines

theorem Held.setContinuity {v : Disk} (hh : Held cfg t v h s p l) (k : Option Continuity) :
    Held cfg t { v with continuity := k } h s p l :=
  ⟨hh.binding, hh.guestRequest, hh.deadline, hh.state, hh.counts, hh.within,
    ⟨hh.registered.directory, hh.registered.part, hh.registered.ledger, hh.registered.owners⟩,
    hh.data, hh.lines⟩

/-- The chunks `h` stay acknowledged, and the files lose at most a tail. -/
def Kept (cfg : Config) (t : Nat) (h : List Bytes) (p l : FileNode) (v : Disk) : Prop :=
  ∃ s' p' l', Held cfg t v h s' p' l' ∧ p'.bytes <+: p.bytes ∧ l'.bytes <+: l.bytes

theorem Held.kept (hh : Held cfg t v₀ h s p l) : Kept cfg t h p l v₀ :=
  ⟨s, p, l, hh, List.prefix_refl _, List.prefix_refl _⟩

theorem Kept.holds {v : Disk} (hk : Kept cfg t h p l v) : Holds cfg t v h := by
  obtain ⟨s', p', l', hh, -⟩ := hk
  exact ⟨s', p', l', hh⟩

/-! ## Reading the files -/

theorem readPieces_triple {deadline fuel left : Nat} {data : Bytes} (hfuel : left ≤ fuel)
    (hleft : left ≤ data.length) (hK : ∀ e, K e v₀) :
    Triple disk (fun v => v = v₀) (readPieces cfg deadline fuel left data)
      (fun a v => v = v₀ ∧ a = data.take left) K := by
  induction fuel generalizing left data with
  | zero =>
      obtain rfl : left = 0 := Nat.le_zero.mp hfuel
      exact triple_pure (fun v hv => ⟨hv, rfl⟩)
  | succ fuel ih =>
      refine triple_ite (fun hzero => triple_pure (fun v hv => ⟨hv, by rw [hzero]; rfl⟩))
        (fun hpos => at_quiet (fixes_budgetCheck _) hK (fun _ => at_check hK (fun hpiece => ?_)))
      have hlength : (data.take (min left block)).length = min left block := by
        rw [List.length_take]
        omega
      have hpiece' : 0 < (data.take (min left block)).length := List.length_pos_iff.mpr hpiece
      rw [hlength] at hpiece' ⊢
      refine triple_bind (Q := fun rest v => v = v₀ ∧
        rest = (data.drop (min left block)).take (left - min left block))
        (ih (by omega) (by rw [List.length_drop]; omega)) (fun rest => triple_pure ?_)
      rintro v ⟨hv, rfl⟩
      refine ⟨hv, ?_⟩
      rw [← List.take_add]
      congr 1
      omega

/-- The loop over the acknowledged records ends behind the last of them. -/
theorem readLedger_triple {deadline position ledgerPosition : Nat} {chunks : List Bytes}
    {tail tail' : Bytes} (hfit : ChunksFit position chunks) (hK : ∀ e, K e v₀) :
    Triple disk (fun v => v = v₀)
      (readLedger cfg deadline s chunks.length position ledgerPosition
        (ledgerFrom .size position chunks ++ tail) (chunks.flatten ++ tail'))
      (fun r v => v = v₀ ∧ r = (position + chunks.flatten.length,
        ledgerPosition + (ledgerFrom .size position chunks).length)) K := by
  induction chunks generalizing position ledgerPosition with
  | nil => exact triple_pure (fun v hv => ⟨hv, rfl⟩)
  | cons c chunks ih =>
      show Triple disk _ (readLedger cfg deadline s (chunks.length + 1) position ledgerPosition _ _) _ _
      unfold readLedger
      dsimp only
      rw [readline_ledgerFrom hfit (by decide), drop_ledgerFrom]
      refine at_quiet (fixes_budgetCheck _) hK (fun _ => at_check hK (fun _ => ?_))
      rw [hfit.head.loads]
      dsimp only
      rw [recordOf_loads hfit.head]
      refine at_check hK (fun _ => ?_)
      have hdata : (c :: chunks).flatten ++ tail' = c ++ (chunks.flatten ++ tail') := by
        rw [List.flatten_cons, List.append_assoc]
      rw [hdata]
      refine triple_bind (readPieces_triple (Nat.le_refl _) ?_ hK) (fun chunk => triple_at
        (fun v hv => ?_))
      · rw [List.length_append]
        exact Nat.le_add_right _ _
      · obtain ⟨rfl, -⟩ := hv
        refine at_check hK (fun _ => ?_)
        have hdrop : (c ++ (chunks.flatten ++ tail')).drop (chunkRecord position c).count
            = chunks.flatten ++ tail' := List.drop_left
        rw [hdrop]
        refine triple_post (ih hfit.tail) ?_
        rintro r w ⟨hw, rfl⟩
        refine ⟨hw, ?_⟩
        rw [List.flatten_cons, ledgerFrom_cons, List.length_append, List.length_append,
          ← Nat.add_assoc, ← Nat.add_assoc]
        rfl

/-! ## Resuming -/

/-- A file that is no longer than the acknowledged bytes holds exactly these. -/
theorem exact_of_length {as bs : Bytes} (h : as <+: bs) (hlen : ¬ bs.length > as.length) : bs = as :=
  (h.eq_of_length_le (Nat.not_lt.mp hlen)).symm

theorem prefix_of_eq {as bs : Bytes} (h : as = bs) : as <+: bs := h ▸ List.prefix_refl as

/-- Cutting the tail of the package keeps what is acknowledged. -/
theorem truncatePart_triple (hh : Held cfg t v₀ h s p l) (hK : ∀ e v, Kept cfg t h p l v → K e v) :
    Triple disk (fun v => v = v₀) (truncatePart h.flatten.length)
      (fun _ v => ∃ p', Held cfg t v h s p' l ∧ v.journal = v₀.journal ∧ p'.bytes = h.flatten ∧
        p'.bytes <+: p.bytes) K := by
  have hcut : ∀ stamp, (p.truncate h.flatten.length stamp).bytes = h.flatten :=
    fun _ => prefix_take hh.data
  have hpre : ∀ stamp, (p.truncate h.flatten.length stamp).bytes <+: p.bytes :=
    fun _ => List.take_prefix _ _
  have hheld := fun stamp => hh.onPart (fun f => f.truncate h.flatten.length stamp) rfl
    (prefix_of_eq (hcut stamp).symm)
  refine triple_allOrNothing
    (fun stamp v => v.onPart (fun f => f.truncate h.flatten.length stamp))
    (fun _ _ => rfl) (fun stamp => ?_) (fun e => hK e _ hh.kept) (fun e stamp => hK e _ ?_)
  · exact ⟨_, hheld stamp, rfl, hcut stamp, hpre stamp⟩
  · exact ⟨s, _, l, hheld stamp, hpre stamp, List.prefix_refl _⟩

theorem truncateLedger_triple (hh : Held cfg t v₀ h s p l)
    (hK : ∀ e v, Kept cfg t h p l v → K e v) :
    Triple disk (fun v => v = v₀) (truncateLedger (ledgerFrom .size 0 h).length)
      (fun _ v => ∃ l', Held cfg t v h s p l' ∧ v.journal = v₀.journal ∧
        l'.bytes = ledgerFrom .size 0 h ∧ l'.bytes <+: l.bytes) K := by
  have hcut : ∀ stamp, (l.truncate (ledgerFrom .size 0 h).length stamp).bytes
      = ledgerFrom .size 0 h := fun _ => prefix_take hh.lines
  have hpre : ∀ stamp, (l.truncate (ledgerFrom .size 0 h).length stamp).bytes <+: l.bytes :=
    fun _ => List.take_prefix _ _
  have hheld := fun stamp => hh.onLedger
    (fun f => f.truncate (ledgerFrom .size 0 h).length stamp) rfl (prefix_of_eq (hcut stamp).symm)
  refine triple_allOrNothing
    (fun stamp v => v.onLedger (fun f => f.truncate (ledgerFrom .size 0 h).length stamp))
    (fun _ _ => rfl) (fun stamp => ?_) (fun e => hK e _ hh.kept) (fun e stamp => hK e _ ?_)
  · exact ⟨_, hheld stamp, rfl, hcut stamp, hpre stamp⟩
  · exact ⟨s, p, _, hheld stamp, List.prefix_refl _, hpre stamp⟩

/-- The tails are cut off, the package's first. -/
theorem discardTails_triple (hh : Held cfg t v₀ h s p l)
    (hK : ∀ e v, Kept cfg t h p l v → K e v) :
    Triple disk (fun v => v = v₀)
      (discardTails p l h.flatten.length (ledgerFrom .size 0 h).length)
      (fun _ v => ∃ p' l', Held cfg t v h s p' l' ∧ v.journal = v₀.journal ∧ Exact h p' l' ∧
        p'.bytes <+: p.bytes ∧ l'.bytes <+: l.bytes) K := by
  refine triple_whenever (fun _ => at_probe (fun e => hK e _ hh.kept) ?_) ?_
  · refine triple_conseq (triple_withIo (H := Kept cfg t h p l) ?_) (fun _ hv => hv)
      (fun _ _ hv => hv) hK
    refine triple_bind (Q := fun _ v => ∃ p', Held cfg t v h s p' l ∧ v.journal = v₀.journal ∧
      p'.bytes = h.flatten ∧ p'.bytes <+: p.bytes) ?_ (fun _ => triple_at (fun v hv => ?_))
    · refine triple_whenever (fun _ => truncatePart_triple hh (fun _ _ hv => hv)) ?_
      rintro hlen v rfl
      exact ⟨p, hh, rfl, exact_of_length hh.data hlen, List.prefix_refl _⟩
    · obtain ⟨p', hh', hjournal, hp', hpre⟩ := hv
      refine triple_whenever (fun _ => ?_) ?_
      · refine triple_conseq (truncateLedger_triple (K := fun _ => Kept cfg t h p l) hh' ?_)
          (fun _ hv => hv) ?_ (fun _ _ hv => hv)
        · rintro e w ⟨s'', p'', l'', hheld, hpre', hpre''⟩
          exact ⟨s'', p'', l'', hheld, hpre'.trans hpre, hpre''⟩
        · rintro _ w ⟨l', hheld, hj, hl', hpre'⟩
          exact ⟨p', l', hheld, hj.trans hjournal, ⟨hp', hl'⟩, hpre, hpre'⟩
      · rintro hlen w rfl
        exact ⟨p', l, hh', hjournal, ⟨hp', exact_of_length hh'.lines hlen⟩, hpre,
          List.prefix_refl _⟩
  · rintro hlen v rfl
    refine ⟨p, l, hh, rfl, ⟨exact_of_length hh.data (fun hlt => hlen (Or.inl hlt)),
      exact_of_length hh.lines (fun hlt => hlen (Or.inr hlt))⟩, List.prefix_refl _,
      List.prefix_refl _⟩

/-- What a returned resume has left: both files hold exactly the acknowledged
    chunks, and their present identities are journaled. -/
structure Resumed (cfg : Config) (t : Nat) (h : List Bytes) (p l : FileNode) (r : Response)
    (v : Disk) : Prop where
  files : ∃ s' p' l', Held cfg t v h s' p' l' ∧ Exact h p' l' ∧ r = respond s' ∧
    v.continuity = some (continuityOf v.device s' p' l') ∧
    p'.bytes <+: p.bytes ∧ l'.bytes <+: l.bytes

theorem Resumed.kept {r : Response} {v : Disk} (hr : Resumed cfg t h p l r v) :
    Kept cfg t h p l v := by
  obtain ⟨s', p', l', hh, -, -, -, hp, hl⟩ := hr.files
  exact ⟨s', p', l', hh, hp, hl⟩

/-- **Resuming** keeps what is acknowledged, and restores exactly that when it returns. -/
theorem resume_triple (hh : Held cfg t v₀ h s p l) (hK : ∀ e v, Kept cfg t h p l v → K e v) :
    Triple disk (fun v => v = v₀) (resume cfg) (Resumed cfg t h p l) K := by
  have hK₀ : ∀ e, K e v₀ := fun e => hK e _ hh.kept
  unfold resume
  refine at_load hK₀ (at_ready hh.state hK₀ (at_checkOwned hh.registered hK₀ (at_check hK₀ (fun _ =>
    at_check hK₀ (fun _ => at_probe hK₀ ?_)))))
  obtain ⟨tail, htail⟩ := hh.lines
  obtain ⟨tail', htail'⟩ := hh.data
  have hscan : Triple disk (fun v => v = v₀) (withIo (do
      let scanned ← readLedger cfg v₀.journal.deadlineMonotonic s s.chunkCount 0 0 l.bytes p.bytes
      rejectIf (scanned.1 ≠ s.verifiedOffset ∨ scanned.2 ≠ s.ledgerBytes) "partial_corrupt"
      checkSame p l
      pure (scanned.1, scanned.2)))
      (fun r v => v = v₀ ∧ r = (h.flatten.length, (ledgerFrom .size 0 h).length))
      (fun _ v => v = v₀) := by
    refine triple_withIo (H := fun v => v = v₀) ?_
    rw [hh.counts.count, ← htail, ← htail']
    refine triple_bind (readLedger_triple hh.within.fit (fun _ => rfl)) (fun r => triple_at
      (fun v hv => ?_))
    obtain ⟨rfl, rfl⟩ := hv
    refine at_check (fun _ => rfl) (fun _ => at_quiet (fixes_checkSame _ _) (fun _ => rfl)
      (fun _ => triple_pure (fun w hw => ⟨hw, ?_⟩)))
    rw [Nat.zero_add, Nat.zero_add]
  refine triple_bind (triple_conseq hscan (fun _ hv => hv) (fun _ _ hv => hv) ?_) (fun r =>
    triple_at (fun v hv => ?_))
  · rintro e v rfl
    exact hK₀ e
  obtain ⟨rfl, rfl⟩ := hv
  refine at_quiet (fixes_budgetCheck _) hK₀ (fun _ => ?_)
  refine triple_bind (discardTails_triple hh hK) (fun _ => triple_at (fun v₁ hv₁ => ?_))
  obtain ⟨p', l', hh', hjournal, hexact, hp, hl⟩ := hv₁
  have hK₁ : ∀ e, K e v₁ := fun e => hK e _ ⟨s, p', l', hh', hp, hl⟩
  refine at_checkOwned hh'.registered hK₁ (at_getDisk (fun d hd => ?_))
  obtain rfl : d = v₁ := hd
  refine at_quiet (fixes_whenever (fixes_budgetCheck _)) hK₁ (fun _ => ?_)
  have hsaved : Held cfg t (d.saved (s.register d.device p' l')) h (s.register d.device p' l') p' l' :=
    hh'.of_saved s h rfl hh'.counts hh'.within hh'.data hh'.lines
  rw [← hjournal]
  refine triple_bind (save_triple hK₁ (fun e _ => hK e _ ⟨_, p', l', hsaved, hp, hl⟩)) (fun _ =>
    triple_at (fun v₂ hv₂ => ?_))
  subst hv₂
  refine at_setDisk (fun v => { v with
    continuity := some (continuityOf d.device (s.register d.device p' l') p' l') })
    (fun _ => rfl) (triple_pure ?_)
  rintro v rfl
  exact ⟨_, p', l', hsaved.setContinuity _, hexact, rfl, rfl, hp, hl⟩

/-- The journal and the state behind a resume. -/
theorem resumed_triple (hh : Held cfg t v₀ h s p l) (hK : ∀ e v, Kept cfg t h p l v → K e v) :
    Triple disk (fun v => v = v₀) (resumed cfg)
      (fun r v => r.1 = v.journal ∧ ∃ p' l', Held cfg t v h r.2 p' l' ∧ p'.bytes <+: p.bytes ∧
        l'.bytes <+: l.bytes) K := by
  refine triple_bind (resume_triple hh hK) (fun r => triple_at (fun v hv => ?_))
  have hK₁ : ∀ e, K e v := fun e => hK e _ hv.kept
  obtain ⟨s', p', l', hh', -, -, -, hp, hl⟩ := hv.files
  refine at_load hK₁ (at_ready hh'.state hK₁ (triple_pure ?_))
  rintro w rfl
  exact ⟨rfl, p', l', hh', hp, hl⟩

/-! ## Appending -/

theorem refresh_triple (hh : Held cfg t v₀ h s p l) (hK : ∀ e v, Kept cfg t h p l v → K e v) :
    Triple disk (fun v => v = v₀) (refresh cfg v₀.journal s)
      (fun r v => r.1 = v.journal ∧ Held cfg t v h r.2.1 r.2.2.1 r.2.2.2 ∧
        r.2.2.1.bytes <+: p.bytes ∧ r.2.2.2.bytes <+: l.bytes) K := by
  refine at_getDisk (fun d hd => ?_)
  obtain rfl : d = v₀ := hd
  refine triple_bind (Q := fun r v => r.1 = v.journal ∧ ∃ p' l', Held cfg t v h r.2 p' l' ∧
    p'.bytes <+: p.bytes ∧ l'.bytes <+: l.bytes) ?_ (fun r => triple_at (fun v hv => ?_))
  · refine triple_ite (fun _ => resumed_triple hh hK) (fun _ => triple_pure ?_)
    rintro v rfl
    exact ⟨rfl, p, l, hh, List.prefix_refl _, List.prefix_refl _⟩
  obtain ⟨hjournal, p', l', hh', hp, hl⟩ := hv
  have hK₁ : ∀ e w, Kept cfg t h p' l' w → K e w := by
    rintro e w ⟨s'', p'', l'', hheld, hp', hl'⟩
    exact hK e w ⟨s'', p'', l'', hheld, hp'.trans hp, hl'.trans hl⟩
  refine at_checkOwned hh'.registered (fun e => hK₁ e _ hh'.kept) (at_getDisk (fun d' _ =>
    triple_ite (fun _ => triple_pure ?_) (fun _ => ?_)))
  · rintro w rfl
    exact ⟨hjournal, hh', hp, hl⟩
  · refine triple_bind (resumed_triple hh' hK₁) (fun r' => triple_at (fun w hw => ?_))
    obtain ⟨hjournal', p'', l'', hh'', hp', hl'⟩ := hw
    refine at_checkOwned hh''.registered
      (fun e => hK₁ e _ ⟨r'.2, p'', l'', hh'', hp', hl'⟩) (triple_pure ?_)
    rintro x rfl
    exact ⟨hjournal', hh'', hp'.trans hp, hl'.trans hl⟩

/-- The chunk that a new append lays down behind the acknowledged ones. -/
structure Next (cfg : Config) (h : List Bytes) (data : Bytes) : Prop where
  full : data ≠ []
  bounded : data.length ≤ cfg.budget.maxChunkBytes
  complete : h.flatten.length + data.length ≤ cfg.binding.packageSize
  budget : (ledgerFrom .size 0 h).length + ((chunkRecord h.flatten.length data).line .size).length
    ≤ cfg.budget.maxMetadataBytes

theorem ledgerFrom_extend (h : List Bytes) (data : Bytes) :
    ledgerFrom .size 0 (h ++ [data])
      = ledgerFrom .size 0 h ++ (chunkRecord h.flatten.length data).line .size := by
  rw [ledgerFrom_append, ledgerFrom_cons, Nat.zero_add]
  show _ ++ (_ ++ []) = _
  rw [List.append_nil]

theorem flatten_extend (h : List Bytes) (data : Bytes) : (h ++ [data]).flatten = h.flatten ++ data := by
  rw [List.flatten_append, List.flatten_cons, List.flatten_nil, List.append_nil]

theorem Within.extend (hw : Within cfg h) {data : Bytes} (hn : Next cfg h data)
    (hfile : h.flatten.length + data.length ≤ maxFileSize) : Within cfg (h ++ [data]) where
  fit := by
    refine ⟨fun c hc => ?_, ?_⟩
    · rcases List.mem_append.mp hc with hc | hc
      · exact hw.fit.1 c hc
      · rw [List.mem_singleton.mp hc]
        exact hn.full
    · rw [flatten_extend, List.length_append, Nat.zero_add]
      exact hfile
  bounded := by
    intro c hc
    rcases List.mem_append.mp hc with hc | hc
    · exact hw.bounded c hc
    · rw [List.mem_singleton.mp hc]
      exact hn.bounded
  complete := by
    rw [flatten_extend, List.length_append]
    exact hn.complete
  budget := by
    rw [ledgerFrom_extend, List.length_append]
    exact hn.budget

theorem Counts.extend (hc : Counts s h) (data : Bytes) :
    Counts (s.extend data.length ((chunkRecord h.flatten.length data).line .size).length)
      (h ++ [data]) where
  phase := hc.phase
  offset := by
    rw [flatten_extend, List.length_append, ← hc.offset]
    rfl
  count := by
    rw [List.length_append, ← hc.count]
    rfl
  bytes := by
    rw [ledgerFrom_extend, List.length_append, ← hc.bytes]
    rfl

/-- A write behind the acknowledged bytes keeps these, wherever it stops. -/
theorem writePart_triple {data : Bytes} (hh : Held cfg t v₀ h s p l) (hp : p.bytes = h.flatten)
    (hK : ∀ e v, Holds cfg t v h → K e v) :
    Triple disk (fun v => v = v₀) (writePart h.flatten.length data)
      (fun _ v => h.flatten.length + data.length ≤ maxFileSize ∧ v.journal = v₀.journal ∧
        ∃ p', Held cfg t v h s p' l ∧ p'.bytes = h.flatten ++ data) K := by
  have hwrite : ∀ progress stamp,
      (p.writeAt h.flatten.length (written progress data) stamp).bytes
        = h.flatten ++ written progress data := by
    intro progress stamp
    rw [← hp, writeAt_end]
  have hheld := fun progress stamp => hh.onPart
    (fun f => f.writeAt h.flatten.length (written progress data) stamp) rfl
    (by rw [hwrite]; exact List.prefix_append _ _)
  refine at_check (fun e => hK e _ ⟨_, _, _, hh⟩) (fun hfile => ?_)
  refine triple_effect (fun progress stamp v =>
    v.onPart (fun f => f.writeAt h.flatten.length (written progress data) stamp))
    (fun _ _ _ => rfl) ?_ ?_
  · rintro stamp v rfl
    exact ⟨Nat.not_lt.mp hfile, rfl, _, hheld none stamp, hwrite none stamp⟩
  · rintro e n stamp v rfl
    exact hK e _ ⟨_, _, _, hheld (some n) stamp⟩

theorem writeLedger_triple {line : Bytes} (hh : Held cfg t v₀ h s p l)
    (hl : l.bytes = ledgerFrom .size 0 h) (hK : ∀ e v, Holds cfg t v h → K e v) :
    Triple disk (fun v => v = v₀) (writeLedger (ledgerFrom .size 0 h).length line)
      (fun _ v => v.journal = v₀.journal ∧
        ∃ l', Held cfg t v h s p l' ∧ l'.bytes = ledgerFrom .size 0 h ++ line) K := by
  have hwrite : ∀ progress stamp,
      (l.writeAt (ledgerFrom .size 0 h).length (written progress line) stamp).bytes
        = ledgerFrom .size 0 h ++ written progress line := by
    intro progress stamp
    rw [← hl, writeAt_end]
  have hheld := fun progress stamp => hh.onLedger
    (fun f => f.writeAt (ledgerFrom .size 0 h).length (written progress line) stamp) rfl
    (by rw [hwrite]; exact List.prefix_append _ _)
  refine at_check (fun e => hK e _ ⟨_, _, _, hh⟩) (fun _ => ?_)
  refine triple_effect (fun progress stamp v =>
    v.onLedger (fun f => f.writeAt (ledgerFrom .size 0 h).length (written progress line) stamp))
    (fun _ _ _ => rfl) ?_ ?_
  · rintro stamp v rfl
    exact ⟨rfl, _, hheld none stamp, hwrite none stamp⟩
  · rintro e n stamp v rfl
    exact hK e _ ⟨_, _, _, hheld (some n) stamp⟩

theorem checkWritten_triple (hr : Registered v₀ s p l) (hK : ∀ e, K e v₀) :
    Triple disk (fun v => v = v₀) checkWritten (fun r v => v = v₀ ∧ r = (p, l)) K := by
  refine at_probe hK (at_getDisk (fun d hd => ?_))
  obtain rfl : d = v₀ := hd
  rw [hr.part, hr.ledger]
  exact triple_pure (fun v hv => ⟨hv, rfl⟩)

/-- What an append may leave when it ends early: the acknowledged chunks, or with
    an unconfirmed save one more. -/
def AppendEarly (cfg : Config) (t : Nat) (h : List Bytes) (offset : Nat) (data : Bytes)
    (e : Option Failure) (v : Disk) : Prop :=
  Holds cfg t v h ∨ (Unconfirmed e ∧ offset = h.flatten.length ∧ Holds cfg t v (h ++ [data]))

/-- Exactly the chunks `h` are in the files, and the present identities of these are known. -/
structure Fresh (cfg : Config) (t : Nat) (v : Disk) (h : List Bytes) (s : State) (p l : FileNode) : Prop where
  held : Held cfg t v h s p l
  exact : Exact h p l
  continuity : v.continuity = some (continuityOf v.device s p l)

/-- A stored chunk is acknowledged by its save, and not before. -/
theorem store_triple {data : Bytes} (hh : Held cfg t v₀ h s p l) (hn : Next cfg h data)
    (hK : ∀ e v, AppendEarly cfg t h h.flatten.length data e v → K e v) :
    Triple disk (fun v => v = v₀)
      (store cfg v₀.journal s p l data ((chunkRecord h.flatten.length data).line .size))
      (fun r v => ∃ s' p' l', Fresh cfg t v (h ++ [data]) s' p' l' ∧ r = respond s') K := by
  have hold : ∀ e v, Holds cfg t v h → K e v := fun e v hv => hK e v (Or.inl hv)
  have hwritten : Triple disk (fun v => v = v₀) (withIo (do
      rejectIf (p.bytes.length ≠ s.verifiedOffset ∨ l.bytes.length ≠ s.ledgerBytes) "partial_changed"
      writePart s.verifiedOffset data
      writeLedger s.ledgerBytes ((chunkRecord h.flatten.length data).line .size)
      checkWritten))
      (fun r v => h.flatten.length + data.length ≤ maxFileSize ∧ v.journal = v₀.journal ∧
        Held cfg t v h s r.1 r.2 ∧ r.1.bytes = h.flatten ++ data ∧
        r.2.bytes = ledgerFrom .size 0 h ++ (chunkRecord h.flatten.length data).line .size)
      (fun _ v => Holds cfg t v h) := by
    refine triple_withIo (H := fun v => Holds cfg t v h)
      (at_check (fun _ => ⟨_, _, _, hh⟩) (fun hsizes => ?_))
    rw [hh.counts.offset, hh.counts.bytes] at hsizes ⊢
    obtain ⟨hp, hl⟩ := not_or.mp hsizes
    have hp' := exact_of_length hh.data (by omega)
    have hl' := exact_of_length hh.lines (by omega)
    refine triple_bind (writePart_triple hh hp' (fun _ _ hv => hv)) (fun _ => triple_at
      (fun v hv => ?_))
    obtain ⟨hfile, hjournal, q, hq, hqbytes⟩ := hv
    refine triple_bind (writeLedger_triple hq hl' (fun _ _ hv => hv)) (fun _ => triple_at
      (fun w hw => ?_))
    obtain ⟨hjournal', m, hm, hmbytes⟩ := hw
    refine triple_post (checkWritten_triple hm.registered (fun _ => ⟨_, _, _, hm⟩)) ?_
    rintro r x ⟨rfl, rfl⟩
    exact ⟨hfile, hjournal'.trans hjournal, hm, hqbytes, hmbytes⟩
  refine at_probe (fun e => hold e _ ⟨_, _, _, hh⟩) ?_
  refine triple_bind (triple_conseq hwritten (fun _ hv => hv) (fun _ _ hv => hv) hold) (fun r =>
    triple_at (fun v hv => ?_))
  obtain ⟨hfile, hjournal, hh', hp, hl⟩ := hv
  have hK₁ : ∀ e, K e v := fun e => hold e _ ⟨_, _, _, hh'⟩
  refine at_getDisk (fun d hd => at_quiet (fixes_budgetCheck _) hK₁ (fun _ => ?_))
  obtain rfl : d = v := hd
  rw [← hjournal]
  have hsaved := hh'.of_saved
    (s.extend data.length ((chunkRecord h.flatten.length data).line .size).length) (h ++ [data]) rfl
    (hh.counts.extend data) (hh.within.extend hn hfile)
    (prefix_of_eq ((flatten_extend h data).trans hp.symm))
    (prefix_of_eq ((ledgerFrom_extend h data).trans hl.symm))
  refine triple_bind (save_triple hK₁ (fun e he => hK e _ (Or.inr ⟨he, rfl, _, _, _, hsaved⟩)))
    (fun _ => triple_at (fun w hw => ?_))
  subst hw
  refine at_setDisk (fun v => { v with
    continuity := some (continuityOf d.device
      ((s.extend data.length ((chunkRecord h.flatten.length data).line .size).length).register
        d.device r.1 r.2) r.1 r.2) }) (fun _ => rfl) (triple_pure ?_)
  rintro x rfl
  have hexact : Exact (h ++ [data]) r.1 r.2 :=
    ⟨hp.trans (flatten_extend h data).symm, hl.trans (ledgerFrom_extend h data).symm⟩
  exact ⟨_, _, _, ⟨hsaved.setContinuity _, hexact, rfl⟩, rfl⟩

/-! ## Replaying -/

/-- `data` is an acknowledged chunk, at its own offset. -/
def Acknowledges (h : List Bytes) (offset : Nat) (data : Bytes) : Prop :=
  ∃ before after, h = before ++ data :: after ∧ offset = before.flatten.length

theorem fixes_findReplay {deadline n : Nat} {r : Record} {data records : Bytes} :
    Fixes Machine.disk (findReplay cfg deadline s p l r data n records) := by
  induction n generalizing records with
  | zero => exact fixes_raise _
  | succ n ih =>
      refine fixes_bind (fixes_budgetCheck _) (fun _ => fixes_bind (fixes_raiseIf _ _) (fun _ => ?_))
      split
      · exact fixes_raise _
      · split
        · exact fixes_raise _
        · exact fixes_ite (fixes_bind (fixes_raiseIf _ _) (fun _ => fixes_bind (fixes_raiseIf _ _)
            (fun _ => fixes_bind (fixes_checkSame _ _) (fun _ => fixes_pure _)))) ih

theorem field_offset (r : Record) :
    field (ascii "offset") (r.toJson .size).sortKeys = some (.int r.offset) := by
  rw [Record.sortKeys_toJson]
  rfl

/-- A replay that the loop over the records accepts is one of the chunks. -/
theorem findReplay_triple {deadline position offset : Nat} {chunks : List Bytes}
    {data tail : Bytes} (hfit : ChunksFit position chunks) (hdata : data ≠ [])
    (hstored : chunks.flatten <+: p.bytes.drop position) (hK : ∀ e, K e v₀) :
    Triple disk (fun v => v = v₀)
      (findReplay cfg deadline s p l ⟨offset, data.length, hexdigest data⟩ data chunks.length
        (ledgerFrom .size position chunks ++ tail))
      (fun r v => v = v₀ ∧ r = respond s ∧ ∃ before after, chunks = before ++ data :: after ∧
        offset = position + before.flatten.length) K := by
  induction chunks generalizing position with
  | nil => exact triple_raise (fun v hv => hv ▸ hK _)
  | cons c chunks ih =>
      show Triple disk _ (findReplay cfg deadline s p l _ data (chunks.length + 1) _) _ _
      unfold findReplay
      dsimp only
      rw [readline_ledgerFrom hfit (by decide), drop_ledgerFrom]
      refine at_quiet (fixes_budgetCheck _) hK (fun _ => at_check hK (fun _ => ?_))
      rw [hfit.head.loads]
      dsimp only
      rw [field_offset]
      dsimp only
      rw [List.flatten_cons] at hstored
      refine triple_ite (fun hoffset => ?_) (fun _ => ?_)
      · -- the record at this offset must be the one that the replay would write
        obtain rfl : position = offset := Int.ofNat_inj.mp (beq_iff_eq.mp hoffset)
        refine at_check hK (fun hrecord => at_check hK (fun hbytes =>
          at_quiet (fixes_checkSame _ _) hK (fun _ => triple_pure ?_)))
        have hline := congrArg (fun x => x.getD [] ++ [10]) (not_not.mp hrecord)
        have hsame : chunkRecord position c = ⟨position, data.length, hexdigest data⟩ :=
          Record.line_injective ⟨hfit.head.positive, hfit.head.digest⟩
            ⟨List.length_pos_iff.mpr hdata, isHex_hexdigest data⟩
            ((Record.line_sortKeys .size _).symm.trans hline)
        have hlength : c.length = data.length := congrArg Record.count hsame
        rintro v rfl
        refine ⟨rfl, rfl, [], chunks, ?_, rfl⟩
        have hc : (p.bytes.drop position).take c.length = c :=
          prefix_take ((List.prefix_append _ _).trans hstored)
        have hd : (p.bytes.drop position).take data.length = data := not_not.mp hbytes
        rw [← hc, hlength, hd]
        rfl
      · have htail : chunks.flatten <+: p.bytes.drop (position + c.length) := by
          obtain ⟨rest, hrest⟩ := hstored
          rw [← List.drop_drop, ← hrest, List.append_assoc, List.drop_left]
          exact List.prefix_append _ _
        refine triple_post (ih hfit.tail htail) ?_
        rintro r v ⟨hv, hr, before, after, rfl, rfl⟩
        refine ⟨hv, hr, c :: before, after, rfl, ?_⟩
        rw [List.flatten_cons, List.length_append, Nat.add_assoc]

theorem replay_triple {deadline offset : Nat} {data : Bytes} (hh : Held cfg t v₀ h s p l)
    (hdata : data ≠ []) (hK : ∀ e, K e v₀) :
    Triple disk (fun v => v = v₀) (replay cfg deadline s offset data (hexdigest data))
      (fun r v => v = v₀ ∧ r = respond s ∧ Acknowledges h offset data) K := by
  refine at_checkOwned hh.registered hK (at_getDisk (fun d hd => at_check hK (fun _ =>
    at_probe hK ?_)))
  refine triple_handle (H := fun _ v => v = v₀) ?_ ?_
  · obtain ⟨tail, htail⟩ := hh.lines
    rw [hh.counts.count, ← htail]
    refine triple_conseq (findReplay_triple (K := fun _ v => v = v₀) hh.within.fit hdata hh.data
      (fun _ => rfl)) (fun _ hv => hv) ?_ ?_
    · rintro r v ⟨hv, hr, before, after, hsplit, hoffset⟩
      exact ⟨hv, hr, before, after, hsplit, by rw [hoffset, Nat.zero_add]⟩
    · rintro (_ | e) v rfl
      · exact hK none
      · rfl
  · intro f
    cases f with
    | error code => exact triple_raise (fun v hv => hv ▸ hK _)
    | osError => exact triple_raise (fun v hv => hv ▸ hK _)

/-- What an answered append has done: it was a replay of an acknowledged chunk, or
    its chunk is acknowledged behind the others. -/
def AppendDone (cfg : Config) (t : Nat) (h : List Bytes) (offset : Nat) (data : Bytes)
    (r : Response) (v : Disk) : Prop :=
  ∃ s' p' l', r = respond s' ∧
    ((Acknowledges h offset data ∧ Held cfg t v h s' p' l') ∨
      (offset = h.flatten.length ∧ data ≠ [] ∧ Held cfg t v (h ++ [data]) s' p' l'))

/-- **Appending** keeps what is acknowledged, and adds the next chunk only. -/
theorem append_triple {offset : Nat} {data : Bytes} {sha : Text} (hh : Held cfg t v₀ h s p l) :
    Triple disk (fun v => v = v₀) (append cfg offset data sha) (AppendDone cfg t h offset data)
      (AppendEarly cfg t h offset data) := by
  have hold : ∀ e v, Holds cfg t v h → AppendEarly cfg t h offset data e v :=
    fun _ _ hv => Or.inl hv
  have hK₀ : ∀ e, AppendEarly cfg t h offset data e v₀ := fun e => hold e _ ⟨_, _, _, hh⟩
  unfold append
  refine at_check hK₀ (fun hvalid => at_load hK₀ (at_ready hh.state hK₀ (at_check hK₀ (fun hsize =>
    at_check hK₀ (fun hdigest => ?_)))))
  have hdata : data ≠ [] := fun heq => hvalid (Or.inl heq)
  obtain rfl : hexdigest data = sha := not_not.mp hdigest
  refine triple_bind (refresh_triple hh (fun e _ hk => hold e _ hk.holds)) (fun r => triple_at
    (fun v hv => ?_))
  obtain ⟨envelope, s', p', l'⟩ := r
  obtain ⟨hjournal, hh', -, -⟩ := hv
  have hK₁ : ∀ e, AppendEarly cfg t h offset data e v := fun e => hold e _ ⟨_, _, _, hh'⟩
  refine triple_ite (fun _ => ?_) (fun _ => at_check hK₁ (fun hoffset => at_check hK₁ (fun hbudget =>
    at_quiet (fixes_space _ _) hK₁ (fun _ => ?_))))
  · refine triple_post (replay_triple hh' hdata hK₁) ?_
    rintro r w ⟨rfl, hr, hack⟩
    exact ⟨s', p', l', hr, Or.inl ⟨hack, hh'⟩⟩
  · obtain rfl : offset = h.flatten.length := (not_not.mp hoffset).trans hh'.counts.offset
    have hn : Next cfg h data := by
      have hbytes : s'.ledgerBytes = (ledgerFrom .size 0 h).length := hh'.counts.bytes
      rw [hbytes] at hbudget
      exact ⟨hdata, by omega, by omega, Nat.not_lt.mp hbudget⟩
    obtain rfl : envelope = v.journal := hjournal
    refine triple_post (store_triple hh' hn (fun _ _ he => he)) ?_
    rintro r w ⟨s'', p'', l'', hfresh, hr⟩
    exact ⟨s'', p'', l'', hr, Or.inr ⟨rfl, hdata, hfresh.held⟩⟩

/-! ## Verifying -/

theorem readWhole_triple {deadline fuel : Nat} {data : Bytes} (hfuel : data.length < fuel)
    (hK : ∀ e, K e v₀) :
    Triple disk (fun v => v = v₀) (readWhole cfg deadline fuel data)
      (fun a v => v = v₀ ∧ a = data) K := by
  induction fuel generalizing data with
  | zero => omega
  | succ fuel ih =>
      refine at_quiet (fixes_budgetCheck _) hK (fun _ => triple_ite (fun hempty => triple_pure ?_)
        (fun hfull => ?_))
      · rintro v hv
        refine ⟨hv, ?_⟩
        cases data with
        | nil => rfl
        | cons b data => exact absurd hempty (by simp [block])
      · have hpos : 0 < (data.take block).length := List.length_pos_iff.mpr hfull
        refine triple_bind (ih ?_) (fun rest => triple_pure ?_)
        · rw [List.length_drop]
          have := List.length_take_le' block data
          omega
        · rintro v ⟨hv, rfl⟩
          refine ⟨hv, ?_⟩
          have hlength : (data.take block).length = min block data.length := List.length_take
          rcases Nat.le_total block data.length with hle | hle
          · rw [hlength, Nat.min_eq_left hle, List.take_append_drop]
          · rw [hlength, Nat.min_eq_right hle, List.drop_length, List.append_nil,
              List.take_of_length_le hle]

/-- What a returned verification says of the package file. -/
def Checked (cfg : Config) (t : Nat) (h : List Bytes) (p l : FileNode) (r : Verified) (v : Disk) :
    Prop :=
  ∃ s' p' l', Held cfg t v h s' p' l' ∧ p'.bytes <+: p.bytes ∧ l'.bytes <+: l.bytes ∧
    p'.bytes.length = cfg.binding.packageSize ∧ hexdigest p'.bytes = cfg.binding.packageSha256 ∧
    r = { size := cfg.binding.packageSize, sha256 := cfg.binding.packageSha256,
          expectedManifestSha256 := cfg.binding.manifestSha256 }

/-- **Verifying** accepts the complete package only, with its digest. -/
theorem verify_triple (hh : Held cfg t v₀ h s p l) (hK : ∀ e v, Kept cfg t h p l v → K e v) :
    Triple disk (fun v => v = v₀) (verify cfg) (Checked cfg t h p l) K := by
  refine triple_bind (resumed_triple hh hK) (fun r => triple_at (fun v hv => ?_))
  obtain ⟨envelope, s'⟩ := r
  obtain ⟨-, p', l', hh', hp, hl⟩ := hv
  have hK₁ : ∀ e, K e v := fun e => hK e _ ⟨_, _, _, hh', hp, hl⟩
  refine at_check hK₁ (fun _ => at_checkOwned hh'.registered hK₁ (at_probe hK₁ ?_))
  have hread : Triple disk (fun w => w = v) (withIo (do
      let content ← readWhole cfg envelope.deadlineMonotonic (p'.bytes.length + 1) p'.bytes
      checkSame p' l'
      pure content))
      (fun c w => w = v ∧ c = p'.bytes) (fun _ w => w = v) := by
    refine triple_withIo (H := fun w => w = v) ?_
    refine triple_bind (readWhole_triple (Nat.lt_succ_self _) (fun _ => rfl)) (fun c => triple_at
      (fun w hw => ?_))
    obtain ⟨rfl, rfl⟩ := hw
    exact at_quiet (fixes_checkSame _ _) (fun _ => rfl) (fun _ => triple_pure (fun x hx => ⟨hx, rfl⟩))
  refine triple_bind (triple_conseq hread (fun _ hw => hw) (fun _ _ hw => hw)
    (fun e w hw => hw ▸ hK₁ e)) (fun c => triple_at (fun w hw => ?_))
  obtain ⟨rfl, rfl⟩ := hw
  refine at_quiet (fixes_budgetCheck _) hK₁ (fun _ => at_check hK₁ (fun hsize =>
    at_check hK₁ (fun hsha => triple_pure ?_)))
  rintro x rfl
  have hlength : p'.bytes.length = cfg.binding.packageSize :=
    not_not.mp (fun hne => hsize (Or.inl hne))
  have hdigest : hexdigest p'.bytes = cfg.binding.packageSha256 := not_not.mp hsha
  refine ⟨s', p', l', hh', hp, hl, hlength, hdigest, ?_⟩
  rw [hlength, hdigest]

end Steps

end HostPartial
