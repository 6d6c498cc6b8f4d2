import Mathlib
import VeloTransfer.GuestCalmProofs
import VeloTransfer.HostReceptionProofs

/-! # Crash recovery of the host's partial package

    Any sequence of `append`, `resume` and `verify` calls is made on a partial
    that has reached READY, under any script of outside failures; the process may
    be restarted at any time, and whatever it leaves behind the acknowledged bytes
    of either file may be torn.

    * `completes_resume` — without outside failures a resume returns;
    * `completes_replay` — and so does the append of an acknowledged chunk;
    * `Recoverable` says what one call may do to the acknowledged chunks;
    * `partial_recovers` — every sequence leaves a recoverable partial. -/

namespace HostPartial

open EffectPrograms Program FaultScript FileNodes ChunkLog CanonicalJson JsonLine Sha256 GuestTerminal

/-! ## Calls without outside failures -/

/-- What a resume needs besides a calm machine: a budget that is not refused, and
    room for the next journal in its state budget. -/
structure Resumable (cfg : Config) (v : Disk) : Prop where
  usable : cfg.budget.Usable
  package : cfg.binding.packageSize ≤ cfg.budget.maxPackageBytes
  fits : ∀ s device p l, v.journal.receivePartial = some s →
    cfg.journalFits (v.journal.revision + 1) (s.register device p l) = true

section Calm

variable {cfg : Config} {t room : Nat} {h : List Bytes} {v₀ : Disk} {s : State} {p l : FileNode}
  {α : Type} {Q : α → Disk → Prop}

theorem completes_disk {k : Disk → Host α}
    (hk : Completes id t room (fun v => v = v₀) (k v₀) Q) :
    Completes id t room (fun v => v = v₀) (getDisk >>= k) Q := by
  refine completes_getDisk (fun d hd => ?_)
  obtain rfl : d = v₀ := hd
  exact hk

theorem completes_budgetCheck_end (husable : cfg.budget.Usable) :
    Completes id t room (fun v => v = v₀) (budgetCheck cfg t) (fun _ v => v = v₀) := by
  obtain ⟨hfiles, hmetadata, hpackage⟩ := husable
  exact completes_check (by omega) (completes_monotonic (fun now hnow =>
    completes_raiseIf (by omega) (fun v hv => hv)))

theorem completes_budgetCheck {k : Unit → Host α} (husable : cfg.budget.Usable)
    (hk : Completes id t room (fun v => v = v₀) (k ()) Q) :
    Completes id t room (fun v => v = v₀) (budgetCheck cfg t >>= k) Q :=
  completes_bind (completes_budgetCheck_end husable) (fun _ => hk)

theorem completes_load {k : Journal → Host α} (hh : Held cfg t v₀ h s p l)
    (husable : cfg.budget.Usable) (hpackage : cfg.binding.packageSize ≤ cfg.budget.maxPackageBytes)
    (hk : Completes id t room (fun v => v = v₀) (k v₀.journal) Q) :
    Completes id t room (fun v => v = v₀) (load cfg >>= k) Q := by
  refine completes_bind (Q := fun e v => v = v₀ ∧ e = v₀.journal) ?_ ?_
  · refine completes_probe (completes_disk (completes_check ?_ (completes_monotonic (fun now hnow =>
      completes_check ?_ ?_))))
    · rintro (hne | hne)
      · exact hne hh.binding
      · exact hne hh.guestRequest
    · rw [hh.deadline]
      omega
    · rw [hh.deadline]
      exact completes_budgetCheck husable (completes_check (by omega)
        (completes_pure (fun v hv => ⟨hv, rfl⟩)))
  · rintro e m hcalm hroom ⟨hv, rfl⟩
    exact hk m hcalm hroom hv

theorem completes_ready {k : State → Host α} (hh : Held cfg t v₀ h s p l)
    (hk : Completes id t room (fun v => v = v₀) (k s) Q) :
    Completes id t room (fun v => v = v₀) (ready cfg v₀.journal >>= k) Q := by
  refine completes_bind (Q := fun s' v => v = v₀ ∧ s' = s) ?_ ?_
  · unfold ready
    rw [hh.state]
    exact completes_check (not_not.mpr (hh.counts.valid hh.within hh.registered))
      (completes_check (not_not.mpr hh.counts.phase) (completes_pure (fun v hv => ⟨hv, rfl⟩)))
  · rintro s' m hcalm hroom ⟨hv, rfl⟩
    exact hk m hcalm hroom hv

theorem completes_checkOwned {k : FileNode × FileNode → Host α} (hr : Registered v₀ s p l)
    (hk : Completes id t room (fun v => v = v₀) (k (p, l)) Q) :
    Completes id t room (fun v => v = v₀) (checkOwned s >>= k) Q := by
  refine completes_bind (Q := fun r v => v = v₀ ∧ r = (p, l)) ?_ ?_
  · obtain ⟨part, ledger, hpart, hledger, hdevice, hinode, hdevice', hinode'⟩ := hr.owners
    refine completes_probe (completes_disk (completes_check (not_not.mpr hr.directory) ?_))
    rw [hpart, hledger, hr.part, hr.ledger]
    refine completes_check ?_ (completes_pure (fun v hv => ⟨hv, rfl⟩))
    rintro (hne | hne | hne | hne)
    · exact hne hdevice
    · exact hne hinode
    · exact hne hdevice'
    · exact hne hinode'
  · rintro r m hcalm hroom ⟨hv, rfl⟩
    exact hk m hcalm hroom hv

theorem completes_checkSame {k : Unit → Host α} (hr : Registered v₀ s p l)
    (hk : Completes id t room (fun v => v = v₀) (k ()) Q) :
    Completes id t room (fun v => v = v₀) (checkSame p l >>= k) Q := by
  refine completes_bind (Q := fun _ v => v = v₀) ?_ (fun _ => hk)
  refine completes_probe (completes_disk (completes_raiseIf ?_ (fun v hv => hv)))
  rintro (hne | hne)
  · exact hne hr.part
  · exact hne hr.ledger

theorem completes_readPieces {fuel left : Nat} {data : Bytes} (husable : cfg.budget.Usable)
    (hleft : left ≤ data.length) :
    Completes id t room (fun v => v = v₀) (readPieces cfg t fuel left data) (fun _ v => v = v₀) := by
  induction fuel generalizing left data with
  | zero => exact completes_pure (fun v hv => hv)
  | succ fuel ih =>
      refine completes_ite (fun _ => completes_pure (fun v hv => hv)) (fun hpos =>
        completes_budgetCheck husable (completes_check ?_ ?_))
      · have hblock : 0 < block := by decide
        intro hempty
        have hlength := congrArg List.length hempty
        rw [List.length_take, List.length_nil] at hlength
        omega
      · refine completes_bind (ih ?_) (fun _ => completes_pure (fun v hv => hv))
        rw [List.length_drop, List.length_take]
        omega

/-- Every acknowledged record passes its checks. -/
theorem completes_readLedger {position ledgerPosition : Nat} {chunks : List Bytes}
    {tail tail' : Bytes} (hfit : ChunksFit position chunks)
    (hbounded : ∀ c ∈ chunks, c.length ≤ cfg.budget.maxChunkBytes) (husable : cfg.budget.Usable)
    (hbytes : ledgerPosition + (ledgerFrom .size position chunks).length ≤ s.ledgerBytes) :
    Completes id t room (fun v => v = v₀)
      (readLedger cfg t s chunks.length position ledgerPosition
        (ledgerFrom .size position chunks ++ tail) (chunks.flatten ++ tail'))
      (fun _ v => v = v₀) := by
  induction chunks generalizing position ledgerPosition with
  | nil => exact completes_pure (fun v hv => hv)
  | cons c chunks ih =>
      show Completes _ _ _ _ (readLedger cfg t s (chunks.length + 1) position ledgerPosition _ _) _
      unfold readLedger
      dsimp only
      rw [readline_ledgerFrom hfit (by decide), drop_ledgerFrom]
      rw [ledgerFrom_cons, List.length_append] at hbytes
      have hline := hfit.head.length .size
      refine completes_budgetCheck husable (completes_check ?_ ?_)
      · rintro (hlong | hend | hover)
        · omega
        · have hisline : IsLine ((chunkRecord position c).line .size) := hfit.head.isLine
          obtain ⟨body, hbody, -⟩ := hisline
          rw [hbody, List.getLast?_append] at hend
          exact hend rfl
        · omega
      · rw [hfit.head.loads]
        dsimp only
        rw [recordOf_loads hfit.head]
        dsimp only
        have hhex : isHex (chunkRecord position c).sha256 = true := isHex_hexdigest c
        have hsize : (chunkRecord position c).count ≤ cfg.budget.maxChunkBytes :=
          hbounded c List.mem_cons_self
        refine completes_check ?_ ?_
        · rintro (hne | hlarge | hbad | hne)
          · exact hne rfl
          · omega
          · rw [hhex] at hbad
            exact Bool.noConfusion hbad
          · exact hne (Record.line_sortKeys .size _)
        have hdata : (c :: chunks).flatten ++ tail' = c ++ (chunks.flatten ++ tail') := by
          rw [List.flatten_cons, List.append_assoc]
        have hdrop : (c ++ (chunks.flatten ++ tail')).drop (chunkRecord position c).count
            = chunks.flatten ++ tail' := List.drop_left
        have htake : (c ++ (chunks.flatten ++ tail')).take (chunkRecord position c).count = c :=
          List.take_left
        have hleft : (chunkRecord position c).count ≤ (c ++ (chunks.flatten ++ tail')).length := by
          rw [List.length_append]
          exact Nat.le_add_right _ _
        rw [hdata]
        refine completes_bind ((completes_readPieces husable hleft).triple
          (readPieces_triple (K := fun _ _ => True) (Nat.le_refl _) hleft (fun _ => trivial)))
          (fun chunk => completes_at (fun v hv => ?_))
        obtain ⟨rfl, -, rfl⟩ := hv
        rw [htake, hdrop]
        refine completes_check (not_not.mpr rfl) (ih hfit.tail
          (fun d hd => hbounded d (List.mem_cons_of_mem _ hd)) ?_)
        show ledgerPosition + _ + (ledgerFrom .size (position + c.length) chunks).length ≤ _
        omega

/-- The loop over the acknowledged records returns behind the last of them. -/
theorem completes_readLedger_end {position ledgerPosition : Nat} {chunks : List Bytes}
    {tail tail' : Bytes} (hfit : ChunksFit position chunks)
    (hbounded : ∀ c ∈ chunks, c.length ≤ cfg.budget.maxChunkBytes) (husable : cfg.budget.Usable)
    (hbytes : ledgerPosition + (ledgerFrom .size position chunks).length ≤ s.ledgerBytes) :
    Completes id t room (fun v => v = v₀)
      (readLedger cfg t s chunks.length position ledgerPosition
        (ledgerFrom .size position chunks ++ tail) (chunks.flatten ++ tail'))
      (fun r v => v = v₀ ∧ r = (position + chunks.flatten.length,
        ledgerPosition + (ledgerFrom .size position chunks).length)) :=
  completes_post ((completes_readLedger hfit hbounded husable hbytes).triple
    (readLedger_triple (K := fun _ _ => True) hfit (fun _ => trivial))) (fun _ _ hv => hv.2)

theorem completes_truncate {c : Prop} [Decidable c] {put : Nat → Disk → Disk} :
    Completes id t room (fun v => v = v₀) (whenever c (allOrNothing put) : Host Unit)
      (fun _ _ => True) :=
  completes_whenever (fun _ => completes_allOrNothing put (fun _ _ => rfl) (fun _ _ _ => trivial))
    (fun _ _ _ => trivial)

theorem completes_true {m : Host α} (hm : ∀ v, Completes id t room (fun w => w = v) m Q) :
    Completes id t room (fun _ => True) m Q :=
  completes_at (fun v _ => hm v)

/-- Nothing stops the cutting of the tails. -/
theorem completes_discardTails {position ledgerPosition : Nat} :
    Completes id t room (fun v => v = v₀) (discardTails p l position ledgerPosition)
      (fun _ _ => True) := by
  refine completes_whenever (fun _ => completes_probe (completes_handle ?_)) (fun _ _ _ => trivial)
  exact completes_bind completes_truncate (fun _ => completes_true (fun _ => completes_truncate))

theorem completes_save {s' : State}
    (hfits : cfg.journalFits (v₀.journal.revision + 1) s' = true) :
    Completes id t room (fun v => v = v₀) (save cfg v₀.journal s') (fun _ v => v = v₀.saved s') := by
  refine completes_probe (completes_disk (completes_check ?_ ?_))
  · rintro (hne | hne)
    · exact hne rfl
    · exact hne rfl
  refine completes_probe (completes_disk (completes_check (not_not.mpr rfl) (completes_check ?_
    (completes_probe ?_))))
  · show ¬ cfg.journalFits (v₀.journal.revision + 1) s' = false
    rw [hfits]
    exact Bool.noConfusion
  · refine completes_replaceRecord (fun v => { v with journal := (v₀.saved s').journal })
      (fun _ => rfl) ?_
    rintro v rfl
    rfl

/-- **A resume returns** on a calm machine. -/
theorem completes_resume (hh : Held cfg t v₀ h s p l) (hr : Resumable cfg v₀) :
    Completes id t room (fun v => v = v₀) (resume cfg) (fun r v => Resumed cfg t h p l r v) := by
  suffices hdone : Completes id t room (fun v => v = v₀) (resume cfg) (fun _ _ => True) from
    completes_post (hdone.triple (resume_triple (K := fun _ _ => True) hh (fun _ _ _ => trivial)))
      (fun _ _ hv => hv.2)
  unfold resume
  refine completes_load hh hr.usable hr.package (completes_ready hh (completes_checkOwned
    hh.registered (completes_check ?_ (completes_check ?_ (completes_probe ?_)))))
  · have hdata := hh.data.length_le
    have hlines := hh.lines.length_le
    rw [hh.counts.offset, hh.counts.bytes]
    omega
  · rw [hh.counts.bytes]
    exact Nat.not_lt.mpr hh.within.budget
  obtain ⟨tail, htail⟩ := hh.lines
  obtain ⟨tail', htail'⟩ := hh.data
  refine completes_bind (Q := fun r v => v = v₀ ∧
    r = (h.flatten.length, (ledgerFrom .size 0 h).length)) ?_ (fun r => completes_at (fun v hv => ?_))
  · refine completes_handle ?_
    rw [hh.counts.count, hh.deadline, ← htail, ← htail']
    refine completes_bind (completes_readLedger_end hh.within.fit hh.within.bounded hr.usable ?_)
      (fun r => completes_at (fun v hv => ?_))
    · rw [hh.counts.bytes, Nat.zero_add]
    obtain ⟨rfl, rfl⟩ := hv
    rw [Nat.zero_add, Nat.zero_add]
    refine completes_check ?_ (completes_checkSame hh.registered (completes_pure
      (fun w hw => ⟨hw, rfl⟩)))
    rintro (hne | hne)
    · exact hne hh.counts.offset.symm
    · exact hne hh.counts.bytes.symm
  obtain ⟨rfl, rfl⟩ := hv
  rw [hh.deadline]
  refine completes_budgetCheck hr.usable (completes_bind (completes_discardTails.triple
    (discardTails_triple (K := fun _ _ => True) hh (fun _ _ _ => trivial))) (fun _ => completes_at
    (fun v₁ hv₁ => ?_)))
  obtain ⟨-, p', l', hh', hjournal, -⟩ := hv₁
  refine completes_checkOwned hh'.registered (completes_disk ?_)
  refine completes_bind (Q := fun _ w => w = v₁) (completes_whenever
    (fun _ => completes_budgetCheck_end hr.usable) (fun _ _ hw => hw)) (fun _ => ?_)
  rw [← hjournal]
  refine completes_bind (completes_save ?_) (fun _ => ?_)
  · rw [hjournal]
    exact hr.fits _ _ _ _ hh.state
  · exact completes_setDisk (fun v => { v with
      continuity := some (continuityOf v₁.device (s.register v₁.device p' l') p' l') })
      (fun _ => rfl) (completes_pure (fun _ _ => trivial))

/-! ## The append of an acknowledged chunk -/

/-- The loop over the records finds an acknowledged chunk at its offset. -/
theorem completes_findReplay {position : Nat} {before after : List Bytes} {data tail : Bytes}
    (hfit : ChunksFit position (before ++ data :: after)) (hr : Registered v₀ s p l)
    (hstored : (before ++ data :: after).flatten <+: p.bytes.drop position)
    (husable : cfg.budget.Usable) :
    Completes id t room (fun v => v = v₀)
      (findReplay cfg t s p l ⟨position + before.flatten.length, data.length, hexdigest data⟩ data
        (before ++ data :: after).length
        (ledgerFrom .size position (before ++ data :: after) ++ tail))
      (fun _ v => v = v₀) := by
  induction before generalizing position with
  | nil =>
      show Completes _ _ _ _ (findReplay cfg t s p l _ data (after.length + 1) _) _
      unfold findReplay
      dsimp only
      have hline := hfit.head.length .size
      rw [List.nil_append, readline_ledgerFrom hfit (by decide)]
      refine completes_budgetCheck husable (completes_check (by omega) ?_)
      rw [hfit.head.loads]
      dsimp only
      rw [field_offset]
      have hbytes : (p.bytes.drop position).take data.length = data :=
        prefix_take ((List.prefix_append _ _).trans hstored)
      refine completes_ite (fun _ => ?_) (fun hne => absurd (beq_iff_eq.mpr rfl) hne)
      exact completes_check (not_not.mpr (Record.dumps_sortKeys .size _))
        (completes_check (not_not.mpr hbytes) (completes_checkSame hr
          (completes_pure (fun v hv => hv))))
  | cons c before ih =>
      have hfit' : ChunksFit position (c :: (before ++ data :: after)) := hfit
      show Completes _ _ _ _ (findReplay cfg t s p l _ data
        ((before ++ data :: after).length + 1) (ledgerFrom .size position
          (c :: (before ++ data :: after)) ++ tail)) _
      unfold findReplay
      dsimp only
      have hline := hfit'.head.length .size
      rw [readline_ledgerFrom hfit' (by decide), drop_ledgerFrom]
      refine completes_budgetCheck husable (completes_check (by omega) ?_)
      rw [hfit'.head.loads]
      dsimp only
      rw [field_offset]
      dsimp only
      have hstored' : (before ++ data :: after).flatten <+: p.bytes.drop (position + c.length) := by
        obtain ⟨rest, hrest⟩ := hstored
        rw [← List.drop_drop, ← hrest, List.cons_append, List.flatten_cons, List.append_assoc,
          List.drop_left]
        exact List.prefix_append _ _
      have hshift : position + (c :: before).flatten.length
          = position + c.length + before.flatten.length := by
        rw [List.flatten_cons, List.length_append, Nat.add_assoc]
      -- the records before the chunk start in front of its offset
      have hbefore : isOffset (position + (c :: before).flatten.length)
          (.int (chunkRecord position c).offset) = false := by
        have hpos := hfit'.head.positive
        have hcount : (chunkRecord position c).count = c.length := rfl
        have hoffset : (chunkRecord position c).offset = position := rfl
        rw [hshift, hoffset]
        simp only [isOffset, beq_eq_false_iff_ne]
        omega
      rw [hbefore, hshift]
      exact ih hfit'.tail hstored'

/-- **A replay is answered** on a calm machine. -/
theorem completes_replay {offset : Nat} {data : Bytes} (hh : Held cfg t v₀ h s p l)
    (husable : cfg.budget.Usable) (hack : Acknowledges h offset data)
    (hcontinuity : some (continuityOf v₀.device s p l) = v₀.continuity) :
    Completes id t room (fun v => v = v₀) (replay cfg t s offset data (hexdigest data))
      (fun _ v => v = v₀) := by
  obtain ⟨before, after, rfl, rfl⟩ := hack
  refine completes_checkOwned hh.registered (completes_disk (completes_check
    (not_not.mpr hcontinuity) (completes_probe (completes_handle ?_))))
  obtain ⟨tail, htail⟩ := hh.lines
  rw [hh.counts.count, ← htail, ← Nat.zero_add before.flatten.length]
  exact completes_findReplay hh.within.fit hh.registered hh.data husable

theorem completes_resumed (hh : Held cfg t v₀ h s p l) (hr : Resumable cfg v₀) :
    Completes id t room (fun v => v = v₀) (resumed cfg)
      (fun r v => r.1 = v.journal ∧ ∃ p' l', Held cfg t v h r.2 p' l' ∧
        some (continuityOf v.device r.2 p' l') = v.continuity) := by
  refine completes_bind (completes_resume hh hr) (fun r => completes_at (fun v hv => ?_))
  obtain ⟨s', p', l', hh', -, -, hcontinuity, -⟩ := hv.files
  refine completes_load hh' hr.usable hr.package (completes_ready hh' (completes_pure ?_))
  rintro w rfl
  exact ⟨rfl, p', l', hh', hcontinuity.symm⟩

/-- An append finds the files under a fresh continuity. -/
theorem completes_refresh (hh : Held cfg t v₀ h s p l) (hr : Resumable cfg v₀) :
    Completes id t room (fun v => v = v₀) (refresh cfg v₀.journal s)
      (fun r v => r.1 = v.journal ∧ Held cfg t v h r.2.1 r.2.2.1 r.2.2.2 ∧
        some (continuityOf v.device r.2.1 r.2.2.1 r.2.2.2) = v.continuity) := by
  have hagain : ∀ {s' p' l'}, Held cfg t v₀ h s' p' l' → Completes id t room (fun v => v = v₀)
      (do
        let resumption ← resumed cfg
        let owned ← checkOwned resumption.2
        pure (resumption.1, resumption.2, owned.1, owned.2))
      (fun r v => r.1 = v.journal ∧ Held cfg t v h r.2.1 r.2.2.1 r.2.2.2 ∧
        some (continuityOf v.device r.2.1 r.2.2.1 r.2.2.2) = v.continuity) := by
    intro s' p' l' hh'
    refine completes_bind (completes_resumed hh' hr) (fun r => completes_at (fun v hv => ?_))
    obtain ⟨hjournal, p'', l'', hh'', hcontinuity⟩ := hv
    refine completes_checkOwned hh''.registered (completes_pure ?_)
    rintro w rfl
    exact ⟨hjournal, hh'', hcontinuity⟩
  refine completes_disk ?_
  by_cases hnone : v₀.continuity = none
  · -- a first append of the process resumes, and its continuity is then fresh
    have hcontinued : continued cfg v₀.continuity v₀.journal s = resumed cfg := if_pos hnone
    rw [hcontinued]
    refine completes_bind (completes_resumed hh hr) (fun r => completes_at (fun v hv => ?_))
    obtain ⟨hjournal, p', l', hh', hcontinuity⟩ := hv
    refine completes_checkOwned hh'.registered (completes_disk ?_)
    refine completes_ite (fun _ => completes_pure ?_) (fun hne => absurd hcontinuity hne)
    rintro w rfl
    exact ⟨hjournal, hh', hcontinuity⟩
  · have hcontinued : continued cfg v₀.continuity v₀.journal s = pure (v₀.journal, s) := if_neg hnone
    rw [hcontinued]
    refine completes_bind (Q := fun r v => v = v₀ ∧ r = (v₀.journal, s))
      (completes_pure (fun v hv => ⟨hv, rfl⟩)) (fun r => completes_at (fun v hv => ?_))
    obtain ⟨rfl, rfl⟩ := hv
    refine completes_checkOwned hh.registered (completes_disk (completes_ite
      (fun hcontinuity => completes_pure ?_) (fun _ => hagain hh)))
    rintro w rfl
    exact ⟨rfl, hh, hcontinuity⟩

theorem Acknowledges.range {offset : Nat} {data : Bytes} (hack : Acknowledges h offset data) :
    data ∈ h ∧ offset + data.length ≤ h.flatten.length := by
  obtain ⟨before, after, rfl, rfl⟩ := hack
  refine ⟨by simp, ?_⟩
  rw [List.flatten_append, List.flatten_cons, List.length_append, List.length_append]
  omega

/-- **The append of an acknowledged chunk returns** on a calm machine. -/
theorem completes_append {offset : Nat} {data : Bytes} (hh : Held cfg t v₀ h s p l)
    (hr : Resumable cfg v₀) (hack : Acknowledges h offset data) :
    Completes id t room (fun v => v = v₀) (append cfg offset data (hexdigest data))
      (fun _ _ => True) := by
  obtain ⟨hmem, hrange⟩ := hack.range
  have hfull : data ≠ [] := hh.within.fit.1 data hmem
  have hpos : 0 < data.length := List.length_pos_iff.mpr hfull
  have hbound := hh.within.bounded data hmem
  have hcomplete := hh.within.complete
  unfold append
  refine completes_check ?_ (completes_load hh hr.usable hr.package (completes_ready hh
    (completes_check (by omega) (completes_check (not_not.mpr rfl) ?_))))
  · rw [isHex_hexdigest]
    rintro (hempty | hbad)
    · exact hfull hempty
    · exact Bool.noConfusion hbad
  refine completes_bind (completes_refresh hh hr) (fun r => completes_at (fun v hv => ?_))
  obtain ⟨envelope, s', p', l'⟩ := r
  obtain ⟨hjournal, hh', hcontinuity⟩ := hv
  obtain rfl : envelope = v.journal := hjournal
  have hoffset : s'.verifiedOffset = h.flatten.length := hh'.counts.offset
  refine completes_ite (fun _ => ?_) (fun hge => absurd (by omega) hge)
  show Completes id t room _ (replay cfg v.journal.deadlineMonotonic s' offset data _) _
  rw [hh'.deadline]
  exact completes_post (completes_replay hh' hr.usable hack hcontinuity) (fun _ _ _ => trivial)

/-! ## The append of the next chunk -/

theorem completes_space {required : Nat} {k : Unit → Host α} (husable : cfg.budget.Usable)
    (hroom : required + cfg.budget.minFreeBytes ≤ room)
    (hk : Completes id t room (fun v => v = v₀) (k ()) Q) :
    Completes id t room (fun v => v = v₀) (space cfg t required >>= k) Q := by
  refine completes_bind (Q := fun _ v => v = v₀) (completes_budgetCheck husable ?_) (fun _ => hk)
  refine completes_bind (completes_handle completes_freeSpace) (fun free => completes_at (fun v hv => ?_))
  obtain ⟨rfl, hfree⟩ := hv
  exact completes_raiseIf (by omega) (fun v hv => hv)

/-- What a store needs besides a calm machine: files that the file system holds, and a
    place for the next journal. -/
structure Storable (cfg : Config) (h : List Bytes) (data : Bytes) : Prop where
  part : h.flatten.length + data.length ≤ maxFileSize
  ledger : (ledgerFrom .size 0 (h ++ [data])).length ≤ maxFileSize
  fits : ∀ revision s, cfg.journalFits revision s = true

theorem completes_store {data : Bytes} (hf : Fresh cfg t v₀ h s p l) (hn : Next cfg h data)
    (husable : cfg.budget.Usable) (hs : Storable cfg h data) :
    Completes id t room (fun v => v = v₀)
      (store cfg v₀.journal s p l data ((chunkRecord h.flatten.length data).line .size))
      (fun r v => ∃ s' p' l', Fresh cfg t v (h ++ [data]) s' p' l' ∧ r = respond s') := by
  suffices hdone : Completes id t room (fun v => v = v₀)
      (store cfg v₀.journal s p l data ((chunkRecord h.flatten.length data).line .size)) (fun _ _ => True) from
    completes_post (hdone.triple (store_triple (K := fun _ _ => True) hf.held hn (fun _ _ _ => trivial)))
      (fun _ _ hv => hv.2)
  have hledger := hs.ledger
  rw [ledgerFrom_extend, List.length_append] at hledger
  refine completes_probe (completes_bind (Q := fun _ v => v.journal = v₀.journal) (completes_handle ?_) ?_)
  · refine completes_check ?_ ?_
    · rw [hf.exact.data, hf.exact.lines, hf.held.counts.offset, hf.held.counts.bytes]
      exact fun hne => hne.elim (fun hne => hne rfl) (fun hne => hne rfl)
    rw [hf.held.counts.offset, hf.held.counts.bytes]
    -- the two writes leave the files that were there in place
    let opened (v : Disk) : Prop := v.journal = v₀.journal ∧ v.part.isSome = true ∧ v.ledger.isSome = true
    have hopened : opened v₀ := ⟨rfl, by rw [hf.held.registered.part]; rfl, by rw [hf.held.registered.ledger]; rfl⟩
    refine completes_bind (Q := fun _ v => opened v) (completes_check (Nat.not_lt.mpr hs.part)
      (completes_effect (fun stamp v => v.onPart (fun f => f.writeAt h.flatten.length data stamp))
      (fun _ _ => rfl) ?_)) (fun _ => ?_)
    · rintro stamp v rfl
      exact ⟨rfl, by rw [Disk.onPart, Option.isSome_map]; exact hopened.2.1, hopened.2.2⟩
    refine completes_bind (Q := fun _ v => opened v) (completes_check (Nat.not_lt.mpr hledger)
      (completes_effect (fun stamp v => v.onLedger (fun f => f.writeAt (ledgerFrom .size 0 h).length
        ((chunkRecord h.flatten.length data).line .size) stamp)) (fun _ _ => rfl) ?_)) (fun _ => ?_)
    · rintro stamp v ⟨hjournal, hpart, hledger⟩
      exact ⟨hjournal, hpart, by rw [Disk.onLedger, Option.isSome_map]; exact hledger⟩
    refine completes_probe (completes_getDisk (fun v hv => ?_))
    obtain ⟨hjournal, hpart, hledger⟩ := hv
    obtain ⟨p', hp'⟩ := Option.isSome_iff_exists.mp hpart
    obtain ⟨l', hl'⟩ := Option.isSome_iff_exists.mp hledger
    rw [show v.part = some p' from hp', show v.ledger = some l' from hl']
    refine completes_pure ?_
    rintro w rfl
    exact hjournal
  · refine fun r => completes_at (fun v hv => completes_disk ?_)
    rw [hf.held.deadline]
    refine completes_budgetCheck husable ?_
    rw [← hv]
    exact completes_bind (completes_save (hs.fits _ _)) (fun _ => completes_setDisk (fun w => { w with
      continuity := some (continuityOf v.device ((s.extend data.length ((chunkRecord h.flatten.length data).line
        .size).length).register v.device r.1 r.2) r.1 r.2) }) (fun _ => rfl) (completes_pure (fun _ _ => trivial)))

/-- **The append of the next chunk returns** on a calm machine. -/
theorem completes_appendNext {data : Bytes} (hf : Fresh cfg t v₀ h s p l) (hn : Next cfg h data)
    (husable : cfg.budget.Usable) (hpackage : cfg.binding.packageSize ≤ cfg.budget.maxPackageBytes)
    (hs : Storable cfg h data)
    (hroom : data.length + ((chunkRecord h.flatten.length data).line .size).length + cfg.budget.minFreeBytes ≤ room) :
    Completes id t room (fun v => v = v₀) (append cfg h.flatten.length data (hexdigest data))
      (fun r v => ∃ s' p' l', Fresh cfg t v (h ++ [data]) s' p' l' ∧ r = respond s') := by
  have hbounded := hn.bounded
  have hcomplete := hn.complete
  have hbudget := hn.budget
  unfold append
  refine completes_check ?_ (completes_load hf.held husable hpackage (completes_ready hf.held
    (completes_check (by omega) (completes_check (not_not.mpr rfl) ?_))))
  · rw [isHex_hexdigest]
    rintro (hempty | hbad)
    · exact hn.full hempty
    · exact Bool.noConfusion hbad
  refine completes_bind (Q := fun r v => v = v₀ ∧ r = (v₀.journal, s, p, l)) ?_ (fun r => completes_at
    (fun v hv => ?_))
  · have hcontinued : continued cfg v₀.continuity v₀.journal s = pure (v₀.journal, s) := by
      refine if_neg ?_
      rw [hf.continuity]
      exact Option.some_ne_none _
    refine completes_disk ?_
    rw [hcontinued]
    refine completes_bind (Q := fun r v => v = v₀ ∧ r = (v₀.journal, s))
      (completes_pure (fun v hv => ⟨hv, rfl⟩)) (fun r => completes_at (fun v hv => ?_))
    obtain ⟨rfl, rfl⟩ := hv
    exact completes_checkOwned hf.held.registered (completes_disk (completes_ite
      (fun _ => completes_pure (fun w hw => ⟨hw, rfl⟩)) (fun hne => absurd hf.continuity.symm hne)))
  obtain ⟨rfl, rfl⟩ := hv
  have hoffset : s.verifiedOffset = h.flatten.length := hf.held.counts.offset
  refine completes_ite (fun hlt => absurd hlt (by omega)) (fun _ => completes_check (not_not.mpr hoffset.symm)
    (completes_check ?_ ?_))
  · rw [hf.held.counts.bytes]
    exact Nat.not_lt.mpr hbudget
  · rw [hf.held.deadline]
    exact completes_space husable hroom (completes_store hf hn husable hs)

end Calm

/-! ## What is acknowledged -/

def Disk.partBytes (d : Disk) : Bytes := d.part.elim [] FileNode.bytes

def Disk.ledgerBytes (d : Disk) : Bytes := d.ledger.elim [] FileNode.bytes

/-- The state `s` and the files show that the chunks `h` are acknowledged. -/
structure Shows (d : Disk) (s : State) (h : List Bytes) : Prop where
  state : d.journal.receivePartial = some s
  records : readRecords .size s.chunkCount d.ledgerBytes = some (recordsFrom 0 h)
  count : s.chunkCount = h.length
  offset : s.verifiedOffset = ((recordsFrom 0 h).map Record.count).sum
  bytes : d.partBytes.take s.verifiedOffset = h.flatten
  held : s.verifiedOffset ≤ d.partBytes.length

/-- The chunks `h` are acknowledged on the disk, as its journal and files show. -/
def Acknowledged (d : Disk) (h : List Bytes) : Prop := ∃ s, Shows d s h

/-- One list of chunks only has these records and these bytes. -/
theorem recordsFrom_unique {position : Nat} {h h' : List Bytes}
    (hrecords : recordsFrom position h = recordsFrom position h') (hbytes : h.flatten = h'.flatten) :
    h = h' := by
  induction h generalizing position h' with
  | nil =>
      cases h' with
      | nil => rfl
      | cons c' h' => exact absurd hrecords (List.cons_ne_nil _ _).symm
  | cons c h ih =>
      cases h' with
      | nil => exact absurd hrecords (List.cons_ne_nil _ _)
      | cons c' h' =>
          obtain ⟨hhead, htail⟩ := List.cons.inj hrecords
          have hlength : c.length = c'.length := congrArg Record.count hhead
          rw [List.flatten_cons, List.flatten_cons] at hbytes
          obtain ⟨rfl, hrest⟩ := List.append_inj hbytes hlength
          rw [ih htail hrest]

theorem Acknowledged.unique {d : Disk} {h h' : List Bytes} (hh : Acknowledged d h)
    (hh' : Acknowledged d h') : h' = h := by
  obtain ⟨s, hs⟩ := hh
  obtain ⟨s', hs'⟩ := hh'
  obtain rfl : s = s' := Option.some.inj (hs.state.symm.trans hs'.state)
  exact recordsFrom_unique (Option.some.inj (hs'.records.symm.trans hs.records))
    (hs'.bytes.symm.trans hs.bytes)

section Runs

variable {cfg : Config} {t : Nat} {h : List Bytes} {s : State} {p l : FileNode}

theorem Held.partBytes {d : Disk} (hh : Held cfg t d h s p l) : d.partBytes = p.bytes := by
  rw [Disk.partBytes, hh.registered.part]
  rfl

theorem Held.ledgerBytes {d : Disk} (hh : Held cfg t d h s p l) : d.ledgerBytes = l.bytes := by
  rw [Disk.ledgerBytes, hh.registered.ledger]
  rfl

/-- The invariant of reception gives what the journal and the files show. -/
theorem Held.shows {d : Disk} (hh : Held cfg t d h s p l) : Shows d s h where
  state := hh.state
  records := by
    obtain ⟨tail, htail⟩ := hh.lines
    rw [hh.ledgerBytes, hh.counts.count, ← htail]
    exact readRecords_ledgerFrom hh.within.fit tail
  count := hh.counts.count
  offset := by rw [recordsFrom_counts, hh.counts.offset]
  bytes := by
    rw [hh.partBytes, hh.counts.offset]
    exact prefix_take hh.data
  held := by
    rw [hh.partBytes, hh.counts.offset]
    exact hh.data.length_le

theorem Holds.acknowledged {d : Disk} (hh : Holds cfg t d h) : Acknowledged d h := by
  obtain ⟨s, p, l, hheld⟩ := hh
  exact ⟨s, hheld.shows⟩

/-! ## Calls and restarts -/

inductive Call where
  | append (offset : Nat) (data : Bytes) (sha : Text)
  | resume
  | verify
deriving Repr, DecidableEq

inductive Answer where
  | response (r : Response)
  | verified (r : Verified)
deriving Repr, DecidableEq

def Call.run (cfg : Config) : Call → Host Answer
  | .append offset data sha => do
      let r ← HostPartial.append cfg offset data sha
      pure (.response r)
  | .resume => do
      let r ← HostPartial.resume cfg
      pure (.response r)
  | .verify => do
      let r ← HostPartial.verify cfg
      pure (.verified r)

/-- What a process that dies leaves behind the acknowledged bytes of the files. -/
structure Torn where
  part : Bytes
  ledger : Bytes
  stamp : Nat
deriving Repr, DecidableEq

def tear (f : FileNode) (size : Nat) (tail : Bytes) (stamp : Nat) : FileNode :=
  (f.truncate size stamp).writeAt size tail stamp

/-- The disk of the next process: the tails are torn, and no continuity is left. -/
def Disk.restart (d : Disk) (torn : Torn) : Disk :=
  match d.journal.receivePartial with
  | none => { d with continuity := none }
  | some s =>
      { d with
        part := d.part.map (fun f => tear f s.verifiedOffset torn.part torn.stamp)
        ledger := d.ledger.map (fun f => tear f s.ledgerBytes torn.ledger torn.stamp)
        continuity := none }

/-- A call, with what it leaves torn should the process die in it; or a process
    that is restarted between two calls. -/
inductive Step where
  | call (c : Call) (torn : Torn)
  | restart (torn : Torn)
deriving Repr, DecidableEq

def restarted (torn : Torn) (m : Machine Failure Disk) : Machine Failure Disk :=
  { m with disk := m.disk.restart torn }

/-- A process that died in its call is restarted. -/
def settle (torn : Torn) : Outcome Failure Answer × Machine Failure Disk → Machine Failure Disk
  | (.crashed, m) => restarted torn m
  | (.raised _, m) => m
  | (.done _, m) => m

def Step.run (cfg : Config) : Step → Machine Failure Disk → Machine Failure Disk
  | .call c torn, m => settle torn (c.run cfg m)
  | .restart torn, m => restarted torn m

/-- The machine after a sequence of calls and restarts. -/
def runs (cfg : Config) (steps : List Step) (m : Machine Failure Disk) : Machine Failure Disk :=
  steps.foldl (fun m step => step.run cfg m) m

/-- The chunk of an append, with its offset. -/
def Step.chunk : Step → Option (Nat × Bytes)
  | .call (.append offset data _) _ => some (offset, data)
  | _ => none

theorem tear_bytes {f : FileNode} {as : Bytes} (hf : as <+: f.bytes) (tail : Bytes) (stamp : Nat) :
    (tear f as.length tail stamp).bytes = as ++ tail := by
  have hcut : (f.truncate as.length stamp).bytes = as := prefix_take hf
  have hend := writeAt_end (f.truncate as.length stamp) tail stamp
  rw [hcut] at hend
  exact hend

/-- A restart keeps what is acknowledged. -/
theorem Holds.restart {d : Disk} (hh : Holds cfg t d h) (torn : Torn) :
    Holds cfg t (d.restart torn) h := by
  obtain ⟨s, p, l, hheld⟩ := hh
  have hpart := hheld.onPart (fun f => tear f s.verifiedOffset torn.part torn.stamp) rfl (by
    rw [hheld.counts.offset, tear_bytes hheld.data]
    exact List.prefix_append _ _)
  have hboth := hpart.onLedger (fun f => tear f s.ledgerBytes torn.ledger torn.stamp) rfl (by
    rw [hheld.counts.bytes, tear_bytes hheld.lines]
    exact List.prefix_append _ _)
  have hrestart : d.restart torn = { (d.onPart (fun f => tear f s.verifiedOffset torn.part
      torn.stamp)).onLedger (fun f => tear f s.ledgerBytes torn.ledger torn.stamp) with
    continuity := none } := by
    unfold Disk.restart
    rw [hheld.state]
    rfl
  rw [hrestart]
  exact ⟨s, _, _, hboth.setContinuity none⟩

/-! ## One call -/

/-- A response with the offset and the count of the chunks `h`. -/
def Reports (r : Response) (h : List Bytes) : Prop :=
  r.verifiedOffset = h.flatten.length ∧ r.chunkCount = h.length

/-- The append of the next chunk is acknowledged. -/
def Follows (call : Call) (h : List Bytes) (d' : Disk) : Prop :=
  ∃ data sha, call = .append h.flatten.length data sha ∧ Acknowledged d' (h ++ [data])

/-- What a call may do to a partial that has acknowledged `h`. -/
structure Recoverable (cfg : Config) (call : Call) (h : List Bytes) (d : Disk)
    (o : Outcome Failure Answer) (d' : Disk) : Prop where
  resumed : ∀ r, call = .resume → o = .done (.response r) → Acknowledged d' h ∧ Reports r h ∧
    d'.partBytes = h.flatten ∧ d'.ledgerBytes = ledgerFrom .size 0 h
  cut : call = .resume ∨ call = .verify → Acknowledged d' h ∧ d'.partBytes <+: d.partBytes ∧
    d'.ledgerBytes <+: d.ledgerBytes
  appended : ∀ offset data sha r, call = .append offset data sha → o = .done (.response r) →
    (Acknowledges h offset data ∧ Acknowledged d' h ∧ Reports r h) ∨
      (offset = h.flatten.length ∧ Acknowledged d' (h ++ [data]) ∧ Reports r (h ++ [data]))
  rejected : ∀ offset data sha, call = .append offset data sha → offset ≠ h.flatten.length →
    ¬ Acknowledges h offset data → (∀ a, o ≠ .done a) ∧ Acknowledged d' h
  failed : ∀ e, o = .raised e → Acknowledged d' h ∨ (Unconfirmed (some e) ∧ Follows call h d')
  died : o = .crashed → Acknowledged d' h ∨ Follows call h d'
  verified : ∀ r, o = .done (.verified r) → Acknowledged d' h ∧
    d'.partBytes.length = cfg.binding.packageSize ∧
    hexdigest d'.partBytes = cfg.binding.packageSha256 ∧
    r.size = cfg.binding.packageSize ∧ r.sha256 = cfg.binding.packageSha256

/-- An answered call, in terms of the invariant. -/
def CallDone (cfg : Config) (t : Nat) (h : List Bytes) (p l : FileNode) :
    Call → Answer → Disk → Prop
  | .append offset data _, .response r, v => AppendDone cfg t h offset data r v
  | .resume, .response r, v => Resumed cfg t h p l r v
  | .verify, .verified r, v => Checked cfg t h p l r v
  | _, _, _ => False

def CallEarly (cfg : Config) (t : Nat) (h : List Bytes) (p l : FileNode) :
    Call → Option Failure → Disk → Prop
  | .append offset data _, e, v => AppendEarly cfg t h offset data e v
  | .resume, _, v => Kept cfg t h p l v
  | .verify, _, v => Kept cfg t h p l v

theorem run_triple {v₀ : Disk} (call : Call) (hh : Held cfg t v₀ h s p l) :
    Triple disk (fun v => v = v₀) (call.run cfg) (CallDone cfg t h p l call)
      (CallEarly cfg t h p l call) := by
  cases call with
  | append offset data sha =>
      exact triple_bind (append_triple hh) (fun r => triple_pure (fun v hv => hv))
  | resume =>
      exact triple_bind (resume_triple hh (fun _ _ hv => hv)) (fun r => triple_pure (fun v hv => hv))
  | verify =>
      exact triple_bind (verify_triple hh (fun _ _ hv => hv)) (fun r => triple_pure (fun v hv => hv))

theorem AppendDone.cases {offset : Nat} {data : Bytes} {r : Response} {d : Disk}
    (ha : AppendDone cfg t h offset data r d) :
    (Acknowledges h offset data ∧ Acknowledged d h ∧ Reports r h) ∨
      (offset = h.flatten.length ∧ Acknowledged d (h ++ [data]) ∧ Reports r (h ++ [data])) := by
  obtain ⟨s', p', l', rfl, ⟨hack, hh⟩ | ⟨hoffset, -, hh⟩⟩ := ha
  · exact Or.inl ⟨hack, ⟨s', hh.shows⟩, hh.counts.offset, hh.counts.count⟩
  · exact Or.inr ⟨hoffset, ⟨s', hh.shows⟩, hh.counts.offset, hh.counts.count⟩

theorem Kept.cut {d d' : Disk} (hh : Held cfg t d h s p l) (hk : Kept cfg t h p l d') :
    Acknowledged d' h ∧ d'.partBytes <+: d.partBytes ∧ d'.ledgerBytes <+: d.ledgerBytes := by
  obtain ⟨s', p', l', hh', hp, hl⟩ := hk
  rw [hh.partBytes, hh.ledgerBytes, hh'.partBytes, hh'.ledgerBytes]
  exact ⟨⟨s', hh'.shows⟩, hp, hl⟩

theorem Checked.kept {r : Verified} {d : Disk} (hc : Checked cfg t h p l r d) :
    Kept cfg t h p l d := by
  obtain ⟨s', p', l', hh, hp, hl, -⟩ := hc
  exact ⟨s', p', l', hh, hp, hl⟩

theorem CallEarly.acknowledged {call : Call} {e : Option Failure} {d : Disk}
    (hc : CallEarly cfg t h p l call e d) :
    Acknowledged d h ∨ (Unconfirmed e ∧ Follows call h d) := by
  cases call with
  | append offset data sha =>
      rcases hc with hv | ⟨he, rfl, hv⟩
      · exact Or.inl hv.acknowledged
      · exact Or.inr ⟨he, data, sha, rfl, hv.acknowledged⟩
  | resume => exact Or.inl (Kept.holds hc).acknowledged
  | verify => exact Or.inl (Kept.holds hc).acknowledged

/-- **One call** is recoverable, whatever the outside does during it. -/
theorem recoverable_run {m : Machine Failure Disk} (call : Call) (hh : Holds cfg t m.disk h) :
    Recoverable cfg call h m.disk (call.run cfg m).1 (call.run cfg m).2.disk := by
  obtain ⟨s, p, l, hheld⟩ := hh
  have hrun := run_triple call hheld m rfl
  rcases hresult : call.run cfg m with ⟨o, m'⟩
  rw [hresult] at hrun
  constructor
  · rintro r rfl rfl
    obtain ⟨s', p', l', hh', hexact, rfl, -⟩ := hrun.files
    exact ⟨⟨s', hh'.shows⟩, ⟨hh'.counts.offset, hh'.counts.count⟩,
      hh'.partBytes.trans hexact.data, hh'.ledgerBytes.trans hexact.lines⟩
  · rintro (rfl | rfl)
    · cases o with
      | done a =>
          cases a with
          | response r => exact (Resumed.kept hrun).cut hheld
          | verified r => exact hrun.elim
      | raised e => exact Kept.cut hheld hrun
      | crashed => exact Kept.cut hheld hrun
    · cases o with
      | done a =>
          cases a with
          | response r => exact hrun.elim
          | verified r => exact (Checked.kept hrun).cut hheld
      | raised e => exact Kept.cut hheld hrun
      | crashed => exact Kept.cut hheld hrun
  · rintro offset data sha r rfl rfl
    exact AppendDone.cases hrun
  · rintro offset data sha rfl hoffset hack
    cases o with
    | done a =>
        cases a with
        | response r =>
            rcases AppendDone.cases hrun with ⟨hack', -⟩ | ⟨hoffset', -⟩
            · exact absurd hack' hack
            · exact absurd hoffset' hoffset
        | verified r => exact hrun.elim
    | raised e =>
        rcases hrun with hv | ⟨-, hoffset', -⟩
        · exact ⟨fun a => nofun, hv.acknowledged⟩
        · exact absurd hoffset' hoffset
    | crashed =>
        rcases hrun with hv | ⟨-, hoffset', -⟩
        · exact ⟨fun a => nofun, hv.acknowledged⟩
        · exact absurd hoffset' hoffset
  · rintro e rfl
    exact CallEarly.acknowledged hrun
  · rintro rfl
    exact (CallEarly.acknowledged hrun).imp_right And.right
  · rintro r rfl
    cases call with
    | append offset data sha => exact hrun.elim
    | resume => exact hrun.elim
    | verify =>
        obtain ⟨s', p', l', hh', -, -, hsize, hsha, rfl⟩ := hrun
        exact ⟨⟨s', hh'.shows⟩, (congrArg List.length hh'.partBytes).trans hsize,
          (congrArg hexdigest hh'.partBytes).trans hsha, rfl, rfl⟩

/-! ## Sequences of calls and restarts -/

/-- What `initialize` has left: a READY state without chunks, under a budget that
    its checks have passed. -/
structure Begun (cfg : Config) (d : Disk) : Prop where
  usable : cfg.budget.Usable
  package : cfg.binding.packageSize ≤ cfg.budget.maxPackageBytes
  binding : d.journal.binding = cfg.binding
  guestRequest : d.journal.guestRequest = cfg.guestRequest
  state : ∃ s p l, d.journal.receivePartial = some s ∧ Counts s [] ∧ Registered d s p l

theorem Begun.holds {d : Disk} (hd : Begun cfg d) : Holds cfg d.journal.deadlineMonotonic d [] := by
  obtain ⟨s, p, l, hstate, hcounts, hregistered⟩ := hd.state
  refine ⟨s, p, l, hd.binding, hd.guestRequest, rfl, hstate, hcounts, ?_, hregistered,
    List.nil_prefix, List.nil_prefix⟩
  exact ⟨⟨by simp, by simp⟩, by simp, Nat.zero_le _, Nat.zero_le _⟩

/-- The offsets and the data of chunks that are laid out one behind the other. -/
def layout (h : List Bytes) : List (Nat × Bytes) := ((recordsFrom 0 h).map Record.offset).zip h

theorem layout_extend (h : List Bytes) (data : Bytes) :
    layout (h ++ [data]) = layout h ++ [(h.flatten.length, data)] := by
  have hlength : ((recordsFrom 0 h).map Record.offset).length = h.length := by
    rw [List.length_map, recordsFrom_length]
  rw [layout, recordsFrom_append, List.map_append, List.zip_append hlength, Nat.zero_add]
  rfl

theorem runs_append (steps : List Step) (step : Step) (m : Machine Failure Disk) :
    runs cfg (steps ++ [step]) m = step.run cfg (runs cfg steps m) := by
  rw [runs, List.foldl_append]
  rfl

/-- A call keeps the acknowledged chunks, or it is the append of the next one. -/
theorem holds_call {m : Machine Failure Disk} (c : Call) (torn : Torn) (hh : Holds cfg t m.disk h) :
    Holds cfg t (c.run cfg m).2.disk h ∨
      ∃ data, (Step.call c torn).chunk = some (h.flatten.length, data) ∧
        Holds cfg t (c.run cfg m).2.disk (h ++ [data]) := by
  obtain ⟨s, p, l, hheld⟩ := hh
  have hrun := run_triple c hheld m rfl
  rcases hresult : c.run cfg m with ⟨o, m'⟩
  rw [hresult] at hrun
  have hearly : ∀ {e}, CallEarly cfg t h p l c e m'.disk → Holds cfg t m'.disk h ∨
      ∃ data, (Step.call c torn).chunk = some (h.flatten.length, data) ∧
        Holds cfg t m'.disk (h ++ [data]) := by
    intro e hc
    cases c with
    | append offset data sha =>
        rcases hc with hv | ⟨-, rfl, hv⟩
        · exact Or.inl hv
        · exact Or.inr ⟨data, rfl, hv⟩
    | resume => exact Or.inl (Kept.holds hc)
    | verify => exact Or.inl (Kept.holds hc)
  cases o with
  | raised e => exact hearly hrun
  | crashed => exact hearly hrun
  | done a =>
      cases c with
      | append offset data sha =>
          cases a with
          | response r =>
              obtain ⟨s', p', l', -, ⟨-, hh'⟩ | ⟨rfl, -, hh'⟩⟩ := hrun
              · exact Or.inl ⟨s', p', l', hh'⟩
              · exact Or.inr ⟨data, rfl, s', p', l', hh'⟩
          | verified r => exact hrun.elim
      | resume =>
          cases a with
          | response r => exact Or.inl (Resumed.kept hrun).holds
          | verified r => exact hrun.elim
      | verify =>
          cases a with
          | response r => exact hrun.elim
          | verified r => exact Or.inl (Checked.kept hrun).holds

theorem holds_settle {r : Outcome Failure Answer × Machine Failure Disk} (torn : Torn)
    (hh : Holds cfg t r.2.disk h) : Holds cfg t (settle torn r).disk h := by
  obtain ⟨o, m⟩ := r
  cases o with
  | done a => exact hh
  | raised e => exact hh
  | crashed => exact hh.restart torn

/-- A step keeps the acknowledged chunks, or it is the append of the next one. -/
theorem holds_step {m : Machine Failure Disk} (step : Step) (hh : Holds cfg t m.disk h) :
    Holds cfg t (step.run cfg m).disk h ∨ ∃ data, step.chunk = some (h.flatten.length, data) ∧
      Holds cfg t (step.run cfg m).disk (h ++ [data]) := by
  cases step with
  | restart torn => exact Or.inl (hh.restart torn)
  | call c torn =>
      rcases holds_call c torn hh with hv | ⟨data, hchunk, hv⟩
      · exact Or.inl (holds_settle torn hv)
      · exact Or.inr ⟨data, hchunk, holds_settle torn hv⟩

/-- Every sequence keeps the invariant, for the chunks of some of its appends. -/
theorem holds_runs {m₀ : Machine Failure Disk} (h₀ : Holds cfg t m₀.disk []) (steps : List Step) :
    ∃ h, (layout h).Sublist (steps.filterMap Step.chunk) ∧ Holds cfg t (runs cfg steps m₀).disk h := by
  induction steps using List.reverseRecOn with
  | nil => exact ⟨[], List.Sublist.refl _, h₀⟩
  | append_singleton steps step ih =>
      obtain ⟨h, hsub, hh⟩ := ih
      rw [runs_append, List.filterMap_append]
      rcases holds_step step hh with hh' | ⟨data, hchunk, hh'⟩
      · exact ⟨h, hsub.trans (List.sublist_append_left _ _), hh'⟩
      · refine ⟨h ++ [data], ?_, hh'⟩
        rw [layout_extend, List.filterMap_cons, hchunk]
        exact hsub.append (List.Sublist.refl _)

/-- No outside failure comes before the deadline, and the next journal has room. -/
structure Untroubled (cfg : Config) (m : Machine Failure Disk) : Prop where
  calm : Calm m.disk.journal.deadlineMonotonic m
  fits : ∀ s device p l, m.disk.journal.receivePartial = some s →
    cfg.journalFits (m.disk.journal.revision + 1) (s.register device p l) = true

/-- What holds after a sequence of calls and restarts: exactly the chunks of some
    of its appends are acknowledged, one behind the other; every next call is
    recoverable; a resume that is not troubled returns, and so does the append of
    an acknowledged chunk. -/
def RecoverableAfter (cfg : Config) (steps : List Step) (m₀ : Machine Failure Disk) : Prop :=
  ∃ h, (layout h).Sublist (steps.filterMap Step.chunk) ∧
    Acknowledged (runs cfg steps m₀).disk h ∧
    (∀ h', Acknowledged (runs cfg steps m₀).disk h' → h' = h) ∧
    (∀ call, Recoverable cfg call h (runs cfg steps m₀).disk
      (call.run cfg (runs cfg steps m₀)).1 (call.run cfg (runs cfg steps m₀)).2.disk) ∧
    (∀ torn, Acknowledged ((runs cfg steps m₀).disk.restart torn) h) ∧
    (Untroubled cfg (runs cfg steps m₀) →
      (∃ r, (resume cfg (runs cfg steps m₀)).1 = .done r) ∧
      ∀ offset data, Acknowledges h offset data →
        ∃ r, (append cfg offset data (hexdigest data) (runs cfg steps m₀)).1 = .done r)

theorem completes_returns {α : Type} {room : Nat} {m : Host α} {Q : α → Disk → Prop}
    {s : Machine Failure Disk} (hm : Completes id t room (fun v => v = s.disk) m Q)
    (hcalm : Calm t s) (hroom : room ≤ s.free) : ∃ a, (m s).1 = .done a := by
  obtain ⟨a, s', hrun, -⟩ := hm s hcalm hroom rfl
  exact ⟨a, by rw [hrun]⟩

/-- **The partial recovers** from every sequence of calls, failures, process deaths
    and torn tails. -/
theorem partial_recovers (cfg : Config) (m₀ : Machine Failure Disk) (hbegun : Begun cfg m₀.disk)
    (steps : List Step) : RecoverableAfter cfg steps m₀ := by
  obtain ⟨h, hsub, hh⟩ := holds_runs hbegun.holds steps
  refine ⟨h, hsub, hh.acknowledged, fun h' hh' => hh.acknowledged.unique hh',
    fun call => recoverable_run call hh, fun torn => (hh.restart torn).acknowledged, ?_⟩
  intro huntroubled
  obtain ⟨s, p, l, hheld⟩ := hh
  have hresumable : Resumable cfg (runs cfg steps m₀).disk :=
    ⟨hbegun.usable, hbegun.package, huntroubled.fits⟩
  have hcalm := huntroubled.calm
  rw [hheld.deadline] at hcalm
  refine ⟨completes_returns (completes_resume hheld hresumable) hcalm (Nat.zero_le _), ?_⟩
  intro offset data hack
  exact completes_returns (completes_append hheld hresumable hack) hcalm (Nat.zero_le _)

end Runs

/-! ## A package of two bytes -/

namespace Sample

def cfg : Config :=
  { binding :=
      { transferId := ascii "transfer", requestDigest := hexdigest [], direction := .pull
        vmUuid := ascii "vm", bootIdentity := ascii "boot", vmEpoch := ascii "epoch"
        policyId := ascii "policy", packageSize := 2, packageSha256 := hexdigest [7, 8]
        manifestSha256 := hexdigest [] }
    guestRequest := ascii "request"
    budget :=
      { maxFiles := 8, maxMetadataBytes := 4096, maxLogicalBytes := 4096, maxPackageBytes := 4096
        minFreeBytes := 0, maxChunkBytes := 4096 }
    journalFits := fun _ _ => true }

def file (inode : Nat) : FileNode := newFile inode 0

/-- The partial as `initialize` leaves it. -/
def state : State :=
  { phase := .ready, directory := ⟨1, 2⟩, part := some ((file 3).info 1)
    ledger := some ((file 4).info 1), verifiedOffset := 0, chunkCount := 0, ledgerBytes := 0 }

def disk : Disk :=
  { device := 1, directory := some ⟨1, 2⟩, part := some (file 3), ledger := some (file 4)
    journal := { revision := 1, deadlineMonotonic := 1000, binding := cfg.binding
                 guestRequest := cfg.guestRequest, receivePartial := some state }
    continuity := none }

/-- The process dies while the second chunk is stored. -/
def machine : Machine Failure Disk :=
  { disk := disk, clock := 0, free := 10000
    script := List.replicate 27 Event.calm ++ [⟨0, 0, 0, .crash 9⟩] }

def torn : Torn := { part := [9, 9], ledger := [9], stamp := 5 }

def steps : List Step :=
  [.call (.append 0 [7] (hexdigest [7])) torn, .call (.append 1 [8] (hexdigest [8])) torn]

end Sample

/-- The first chunk is acknowledged, the second is not, and a resume restores the
    package of one byte. -/
example : (runs Sample.cfg Sample.steps Sample.machine).disk.partBytes = [7, 9, 9] ∧
    (resume Sample.cfg (runs Sample.cfg Sample.steps Sample.machine)).2.disk.partBytes = [7] := by
  decide +kernel

theorem partial_recovers_sample : RecoverableAfter Sample.cfg Sample.steps Sample.machine :=
  partial_recovers Sample.cfg Sample.machine
    ⟨⟨by decide, by decide, by decide⟩, by decide, rfl, rfl, Sample.state, Sample.file 3, Sample.file 4, rfl,
      ⟨rfl, rfl, rfl, rfl⟩, ⟨rfl, rfl, rfl, _, _, rfl, rfl, rfl, rfl, rfl, rfl⟩⟩ Sample.steps

end HostPartial
