import VeloTransfer.JournalHistoryProofs

/-! # Continuing after a crash — what a later run of the journal can do

    Between the steps of `create` lies one state from which nobody continues: the
    task directory without a state file.  Everywhere else a later run creates the
    journal or resumes it (`Continuable`).  The temporary files that interrupted
    evidence writes leave behind count against the limit of the evidence directory;
    there is at most one for each of them (`leftovers_run`). -/

namespace HostJournal

open EffectPrograms Program FaultScript FileNodes CanonicalJson JsonLine BoundedJson JsonDict
open Sha256 GuestTerminal

/-! ## The evidence directory -/

/-- The evidence files, and the temporary files that are left. -/
def Disk.shelf (d : Disk) : List (Text × FileNode) × List Nat := (d.evidence, d.evidenceTemporaries)

section Shelf

variable {α β : Type} {j : Journal} {v₀ : List (Text × FileNode) × List Nat}

/-- The files that are there after a write of `raw` under `name`, wherever it ended. -/
def Shelved (name : Text) (raw : Bytes) (v₀ v : List (Text × FileNode) × List Nat) : Prop :=
  v.2.length ≤ v₀.2.length + 1 ∧
    (v.1 = v₀.1 ∨ v₀.1.lookup name = none ∧ ∃ f, v.1 = (name, f) :: v₀.1 ∧ f.bytes = raw)

theorem shelved_same (name : Text) (raw : Bytes) : Shelved name raw v₀ v₀ :=
  ⟨Nat.le_succ _, Or.inl rfl⟩

theorem shelved_unlinked {name : Text} {raw : Bytes} {v : List (Text × FileNode) × List Nat}
    {inode : Nat} (h : Shelved name raw v₀ v) : Shelved name raw v₀ (v.1, v.2.erase inode) :=
  ⟨Nat.le_trans (List.length_erase_le) h.1, h.2⟩

theorem readFile_shelf {K : Option Failure → List (Text × FileNode) × List Nat → Prop} {f : FileNode}
    (hK : Harmless K v₀) : Triple (onDisk Disk.shelf) (fun v => v = v₀) (readFile j f)
      (fun raw v => v = v₀ ∧ raw = f.bytes) K :=
  at_rejectIf hK (by decide) (fun _ => at_outside hK (by decide) (triple_pure (fun _ hv => ⟨hv, rfl⟩)))

theorem unlinkEvidence_shelf {name : Text} {raw : Bytes} {inode : Nat}
    {v : List (Text × FileNode) × List Nat} (hv : Shelved name raw v₀ v) :
    Triple (onDisk Disk.shelf) (fun w => w = v) (unlinkEvidence inode)
      (fun _ w => Shelved name raw v₀ w) (fun _ w => Shelved name raw v₀ w) := by
  refine triple_recover (A := Shelved name raw v₀) ?_ (fun _ hw => hw) (fun _ => triple_pure (fun _ hw => hw))
  exact triple_allOrNothing (fun _ w => (w.1, w.2.erase inode)) (fun _ _ => rfl)
    (fun _ => shelved_unlinked hv) (fun _ => hv) (fun _ _ => shelved_unlinked hv)

/-- After a failure the temporary file is removed, if it can be. -/
theorem unlinked_shelf {name : Text} {raw : Bytes} {inode : Nat} {e : Failure}
    {Q : Unit → List (Text × FileNode) × List Nat → Prop} :
    Triple (onDisk Disk.shelf) (Shelved name raw v₀)
      (do
        unlinkEvidence inode
        raise e) Q (fun _ v => Shelved name raw v₀ v) :=
  triple_at (fun _ hv => triple_bind (unlinkEvidence_shelf hv) (fun _ => triple_raise (fun _ h => h)))

theorem placeEvidence_shelf {name : Text} {raw : Bytes} {inode : Nat}
    (hnew : v₀.1.lookup name = none) :
    Triple (onDisk Disk.shelf) (fun v => v = v₀) (placeEvidence name inode raw)
      (fun _ v => v.2 = v₀.2 ∧ ∃ f, v.1 = (name, f) :: v₀.1 ∧ f.bytes = raw)
      (fun _ v => Shelved name raw v₀ v) := by
  refine triple_recover (A := Shelved name raw v₀) ?_ (fun _ hv => hv) (fun _ => unlinked_shelf)
  have hmade : Shelved name raw v₀ (v₀.1, inode :: v₀.2) := ⟨Nat.le_refl _, Or.inl rfl⟩
  have hplaced : ∀ f : FileNode, f.bytes = raw → Shelved name raw v₀ ((name, f) :: v₀.1, v₀.2) :=
    fun f hf => ⟨Nat.le_succ _, Or.inr ⟨hnew, f, rfl, hf⟩⟩
  refine triple_bind (Q := fun _ v => v = (v₀.1, inode :: v₀.2)) ?_ (fun _ => ?_)
  · refine triple_recover (A := Shelved name raw v₀) ?_ (fun _ hv => hv) (fun _ => triple_raise (fun _ hv => hv))
    exact triple_allOrNothing (fun _ v => (v.1, inode :: v.2)) (fun _ _ => rfl) (fun _ => rfl)
      (fun _ => shelved_same name raw) (fun _ _ => hmade)
  have hleft : Harmless (fun _ v => Shelved name raw v₀ v) (v₀.1, inode :: v₀.2) := fun _ _ => hmade
  refine triple_bind (Q := fun _ v => v = (v₀.1, inode :: v₀.2)) ?_ (fun _ => ?_)
  · refine triple_recover (A := fun v => v = (v₀.1, inode :: v₀.2))
      (triple_fixes (fixes_onDisk fixes_probe) (fun _ _ hv => hv)) ?_ (fun _ => triple_raise ?_)
    · rintro v rfl
      exact hmade
    · rintro v rfl
      exact hmade
  refine at_requireWriter hleft (at_outside hleft (by decide) ?_)
  refine triple_recover (A := Shelved name raw v₀) ?_ (fun _ hv => hv) (fun _ => triple_raise (fun _ hv => hv))
  -- the rename takes the temporary file with it
  refine triple_allOrNothing (fun stamp v => ((name, { newFile inode stamp with bytes := raw }) :: v.1,
    v.2.erase inode)) (fun _ _ => rfl) ?_ (fun _ => hmade) ?_
  · intro stamp
    exact ⟨List.erase_cons_head _ _, _, rfl, rfl⟩
  · intro _ stamp
    show Shelved name raw v₀ (_, (inode :: v₀.2).erase inode)
    rw [List.erase_cons_head]
    exact hplaced _ rfl

theorem confirmEvidence_shelf {name : Text} {raw : Bytes} {inode : Nat}
    {v : List (Text × FileNode) × List Nat} (hv : Shelved name raw v₀ v) :
    Triple (onDisk Disk.shelf) (fun w => w = v) (confirmEvidence inode) (fun _ w => w = v)
      (fun _ w => Shelved name raw v₀ w) := by
  have hleft : Harmless (fun _ w => Shelved name raw v₀ w) v := fun _ _ => hv
  refine triple_recover (A := Shelved name raw v₀) (at_outside hleft (by decide) ?_) (fun _ hw => hw)
    (fun _ => unlinked_shelf)
  refine triple_recover (A := fun w => w = v)
    (triple_fixes (fixes_onDisk fixes_probe) (fun _ _ hw => hw)) ?_ (fun _ => triple_raise ?_)
  · rintro w rfl
    exact hv
  · rintro w rfl
    exact hv

/-- What a write that returned leaves behind. -/
def Shelves (j : Journal) (name : Text) (raw : Bytes) (v₀ : List (Text × FileNode) × List Nat)
    (ref : EvidenceRef) (v : List (Text × FileNode) × List Nat) : Prop :=
  v.2 = v₀.2 ∧ ∃ f, v.1.lookup name = some f ∧ f.bytes = raw ∧ ref = j.evidenceRef name raw f ∧
    (v.1 = v₀.1 ∨ v₀.1.lookup name = none ∧ v.1 = (name, f) :: v₀.1)

theorem repeatEvidence_shelf {name : Text} {raw : Bytes} {f : FileNode}
    (hf : v₀.1.lookup name = some f) :
    Triple (onDisk Disk.shelf) (fun v => v = v₀) (repeatEvidence j name raw f)
      (Shelves j name raw v₀) (fun _ v => Shelved name raw v₀ v) := by
  have hleft : Harmless (fun _ v => Shelved name raw v₀ v) v₀ := fun _ _ => shelved_same name raw
  refine triple_bind (readFile_shelf hleft) (fun current => triple_pull (fun hcurrent => ?_))
  refine at_rejectIf hleft (by decide) (fun hsame => at_outside hleft (by decide) ?_)
  refine triple_bind (readFile_shelf hleft) (fun _ => triple_pull (fun _ => ?_))
  refine at_rejectIf hleft (by decide) (fun _ => triple_pure ?_)
  rintro v rfl
  exact ⟨rfl, f, hf, hcurrent.symm.trans (not_not.mp hsame), rfl, Or.inl rfl⟩

theorem newEvidence_shelf {name : Text} {raw : Bytes} (hnew : v₀.1.lookup name = none) :
    Triple (onDisk Disk.shelf) (fun v => v = v₀) (newEvidence j name raw)
      (Shelves j name raw v₀) (fun _ v => Shelved name raw v₀ v) := by
  have hleft : Harmless (fun _ v => Shelved name raw v₀ v) v₀ := fun _ _ => shelved_same name raw
  refine at_outside hleft (by decide) (at_getDisk (fun d _ => at_rejectIf hleft (by decide) (fun _ => ?_)))
  refine triple_bind (placeEvidence_shelf hnew) (fun _ => triple_at (fun v hv => ?_))
  obtain ⟨hcount, f, hfiles, hbytes⟩ := hv
  have hplaced : Shelved name raw v₀ v :=
    ⟨Nat.le_succ_of_le (Nat.le_of_eq (congrArg List.length hcount)), Or.inr ⟨hnew, f, hfiles, hbytes⟩⟩
  have hleft' : Harmless (fun _ v => Shelved name raw v₀ v) v := fun _ _ => hplaced
  refine triple_bind (confirmEvidence_shelf hplaced) (fun _ => at_getDisk (fun d' hd' => ?_))
  have hlookup : d'.evidence.lookup name = some f := by
    rw [show d'.evidence = v.1 from congrArg Prod.fst hd', hfiles]
    exact List.lookup_cons_self
  rw [hlookup]
  refine triple_bind (readFile_shelf hleft') (fun stored => triple_pull (fun _ => ?_))
  refine at_rejectIf hleft' (by decide) (fun _ => triple_pure ?_)
  rintro w rfl
  refine ⟨hcount, f, ?_, hbytes, rfl, Or.inr ⟨hnew, hfiles⟩⟩
  rw [hfiles]
  exact List.lookup_cons_self

/-- **A write of evidence** that returned has its bytes under its name and no
    temporary file; one that was cut off left at most one. -/
theorem writeEvidence_shelf (name : Text) (value : Json) :
    Triple (onDisk Disk.shelf) (fun v => v = v₀) (writeEvidence j name value)
      (fun ref v => ∃ raw, j.evidenceBytes value = .ok raw ∧ Shelves j name raw v₀ ref v)
      (fun _ v => v = v₀ ∨ ∃ raw, j.evidenceBytes value = .ok raw ∧ Shelved name raw v₀ v) := by
  have hleft : Harmless (fun _ v => v = v₀ ∨ ∃ raw, j.evidenceBytes value = .ok raw ∧
      Shelved name raw v₀ v) v₀ := fun _ _ => Or.inl rfl
  refine at_requireWriter hleft (at_rejectIf hleft (by decide) (fun _ => ?_))
  refine at_lift (fun _ _ => Or.inl rfl) (fun raw hraw => ?_)
  refine triple_bind (Q := fun _ v => v = v₀) ?_ (fun _ => at_requireWriter hleft (at_getDisk (fun d hd => ?_)))
  · refine at_getDisk (fun d _ => triple_bind (Q := fun _ v => v = v₀) ?_ (fun _ => ?_))
    · refine triple_whenever (fun _ => ?_) (fun _ _ hv => hv)
      refine triple_recover (A := fun v => v = v₀) ?_ (fun _ hv => Or.inl hv)
        (fun _ => triple_raise (fun _ hv => Or.inl hv))
      exact triple_fixes (fixes_bind (fixes_allOrNothing (fun _ _ => rfl))
        (fun _ => fixes_onDisk fixes_probe)) (fun _ _ hv => hv)
    · refine triple_recover (A := fun v => v = v₀)
        (triple_fixes (fixes_onDisk fixes_probe) (fun _ _ hv => hv)) (fun _ hv => Or.inl hv)
        (fun _ => triple_raise (fun _ hv => Or.inl hv))
  · have hfiles : d.evidence = v₀.1 := congrArg Prod.fst hd
    rw [hfiles]
    split
    next f hf =>
      exact triple_conseq (repeatEvidence_shelf hf) (fun _ h => h) (fun _ _ h => ⟨raw, hraw, h⟩)
        (fun _ _ h => Or.inr ⟨raw, hraw, h⟩)
    next hnew =>
      exact triple_conseq (newEvidence_shelf hnew) (fun _ h => h) (fun _ _ h => ⟨raw, hraw, h⟩)
        (fun _ _ h => Or.inr ⟨raw, hraw, h⟩)

/-! ## The state leaves the evidence alone -/

/-- The shelf stays. -/
abbrev Unshelved (m : Store α) : Prop := Fixes (onDisk Disk.shelf) m

theorem unshelved_rejectIf {c : Prop} [Decidable c] {code : String} : Unshelved (rejectIf c code) :=
  fixes_raiseIf c _

theorem unshelved_check (code : String) : Unshelved (check code) :=
  fixes_handle (fixes_onDisk fixes_probe) (fun _ => fixes_raise _)

theorem unshelved_lift (x : Except String α) : Unshelved (lift x) := by
  cases x with
  | ok a => exact fixes_pure a
  | error code => exact fixes_raise _

theorem unshelved_rejectOn (error : Option String) : Unshelved (rejectOn error) := by
  cases error with
  | none => exact fixes_pure ()
  | some code => exact fixes_raise _

theorem unshelved_getDisk : Unshelved (getDisk : Store Disk) := fixes_onDisk fixes_getDisk

theorem unshelved_setMemory (f : Memory → Memory) : Unshelved (setMemory f) := fun _ => rfl

theorem unshelved_requireWriter (task : Bool) : Unshelved (requireWriter task) :=
  fixes_bind unshelved_getDisk (fun _ => fixes_bind unshelved_rejectIf (fun _ =>
    fixes_bind (unshelved_check _) (fun _ => unshelved_rejectIf)))

variable (j)

theorem unshelved_readStateFile : Unshelved (readStateFile j) := by
  refine fixes_bind (unshelved_requireWriter true) (fun _ => fixes_bind unshelved_getDisk (fun d => ?_))
  split
  · exact fixes_raise _
  · exact fixes_bind (unshelved_check _) (fun _ => fixes_bind (unshelved_lift _) (fun e =>
      fixes_bind unshelved_rejectIf (fun _ => fixes_bind (unshelved_setMemory _) (fun _ =>
        fixes_pure e))))

theorem unshelved_observedState : Unshelved (observedState j) := by
  refine fixes_handle (fixes_bind unshelved_getDisk (fun d => ?_)) (fun _ => fixes_pure _)
  split
  · exact fixes_pure _
  · exact fixes_bind (unshelved_readStateFile j) (fun _ => fixes_pure _)

theorem unshelved_commit (raw : Bytes) (revision : Nat) (initial : Bool) :
    Unshelved (commit j raw revision initial) := by
  refine fixes_bind (unshelved_requireWriter true) (fun _ => fixes_bind (unshelved_check _) (fun _ =>
    fixes_bind unshelved_getDisk (fun d => fixes_bind unshelved_rejectIf (fun _ =>
      fixes_bind unshelved_rejectIf (fun _ => fixes_bind unshelved_rejectIf (fun _ => ?_))))))
  refine fixes_handle ?_ (fun _ => fixes_bind (unshelved_setMemory _) (fun _ =>
    fixes_bind (unshelved_observedState j) (fun _ => fixes_bind ?_ (fun _ => fixes_raise _))))
  · refine fixes_bind (fixes_allOrNothing (fun _ _ => rfl)) (fun _ =>
      fixes_bind (fixes_onDisk fixes_probe) (fun _ => fixes_bind (unshelved_requireWriter true) (fun _ =>
        fixes_bind (fixes_onDisk fixes_probe) (fun _ => fixes_bind unshelved_getDisk (fun d' => ?_)))))
    exact fixes_bind unshelved_rejectIf (fun _ => fixes_bind unshelved_rejectIf (fun _ =>
      fixes_bind (fixes_allOrNothing (fun _ _ => rfl)) (fun _ =>
        fixes_bind (fixes_onDisk fixes_probe) (fun _ => fixes_bind (fixes_onDisk fixes_probe) (fun _ =>
          unshelved_setMemory _)))))
  · exact fixes_handle (fixes_allOrNothing (fun _ _ => rfl)) (fun _ => fixes_pure ())

theorem unshelved_load : Unshelved (load j) :=
  fixes_bind (unshelved_requireWriter false) (fun _ => fixes_bind unshelved_getDisk (fun _ =>
    fixes_bind unshelved_rejectIf (fun _ => fixes_bind unshelved_rejectIf (fun _ =>
      unshelved_readStateFile j))))

theorem unshelved_create (deadline data : Json) : Unshelved (create j deadline data) := by
  refine fixes_bind (unshelved_requireWriter false) (fun _ => fixes_bind unshelved_getDisk (fun d =>
    fixes_bind unshelved_rejectIf (fun _ => fixes_bind (fixes_onDisk fixes_monotonic) (fun _ =>
      fixes_bind unshelved_rejectIf (fun _ => fixes_bind (unshelved_rejectOn _) (fun _ =>
        fixes_bind (unshelved_lift _) (fun raw => fixes_bind unshelved_rejectIf (fun _ => ?_))))))))
  refine fixes_bind (fixes_handle (fixes_bind (fixes_allOrNothing (fun _ _ => rfl))
    (fun _ => fixes_onDisk fixes_probe)) (fun _ => fixes_raise _)) (fun _ => ?_)
  exact fixes_bind (unshelved_check _) (fun _ => fixes_bind (unshelved_commit j raw 0 true) (fun _ =>
    fixes_bind (unshelved_setMemory _) (fun _ => fixes_pure _)))

theorem unshelved_save (expected : Int) (data : Json) : Unshelved (save j expected data) :=
  fixes_bind (unshelved_requireWriter false) (fun _ => fixes_bind unshelved_rejectIf (fun _ =>
    fixes_bind (unshelved_load j) (fun _ => fixes_bind unshelved_rejectIf (fun _ =>
      fixes_bind (unshelved_rejectOn _) (fun _ => fixes_bind (unshelved_rejectOn _) (fun _ =>
        fixes_bind (unshelved_lift _) (fun raw => fixes_bind (unshelved_commit j raw _ false) (fun _ =>
          fixes_pure _))))))))

theorem unshelved_readEvidence (ref : EvidenceRef) : Unshelved (readEvidence j ref) := by
  refine fixes_bind (unshelved_requireWriter true) (fun _ => fixes_bind unshelved_getDisk (fun d =>
    fixes_bind unshelved_rejectIf (fun _ => fixes_bind unshelved_rejectIf (fun _ =>
      fixes_bind unshelved_rejectIf (fun _ => ?_)))))
  split
  · exact fixes_raise _
  · exact fixes_bind (fixes_bind unshelved_rejectIf (fun _ => fixes_bind (unshelved_check _) (fun _ =>
      fixes_pure _))) (fun raw => fixes_bind unshelved_rejectIf (fun _ => unshelved_lift _))

end Shelf

/-! ## Leftovers of interrupted writes -/

section Leftovers

variable (j : Journal)

/-- The command is a write of evidence that did not return. -/
def Cut (c : Command) (o : Outcome Failure Answer) : Bool :=
  match c, o with
  | .write _ _, .done _ => false
  | .write _ _, _ => true
  | _, _ => false

/-- How many writes of evidence a run cuts off. -/
def cuts : List Command → Machine Failure Disk → Nat
  | [], _ => 0
  | c :: cs, m => (if Cut c (perform j c m).1 then 1 else 0) + cuts cs (afterwards (perform j c m))

variable {j}

theorem afterwards_shelf (r : Outcome Failure Answer × Machine Failure Disk) :
    (afterwards r).disk.shelf = r.2.disk.shelf := by
  obtain ⟨o, m⟩ := r
  cases o <;> rfl

theorem write_leftovers {v₀ : List (Text × FileNode) × List Nat} (name : Text) (value : PyJson) :
    Triple (onDisk Disk.shelf) (fun v => v = v₀) (perform j (.write name value))
      (fun _ v => v.2.length ≤ v₀.2.length) (fun _ v => v.2.length ≤ v₀.2.length + 1) := by
  refine triple_bind (triple_conseq (writeEvidence_shelf _ _) (fun _ h => h) ?_ ?_)
    (fun _ => triple_pure (fun _ hv => hv))
  · rintro ref v ⟨raw, -, hcount, -⟩
    exact Nat.le_of_eq (congrArg List.length hcount)
  · rintro o v (rfl | ⟨raw, -, hcount, -⟩)
    · exact Nat.le_succ _
    · exact hcount

/-- **One command leaves at most one temporary file, and only if it is a write that
    was cut off.** -/
theorem leftovers_step (c : Command) (m : Machine Failure Disk) :
    (perform j c m).2.disk.evidenceTemporaries.length ≤
      m.disk.evidenceTemporaries.length + (if Cut c (perform j c m).1 then 1 else 0) := by
  have hfixed : ∀ {p : Store Answer}, Unshelved p →
      (p m).2.disk.evidenceTemporaries.length ≤ m.disk.evidenceTemporaries.length := by
    intro p hp
    exact Nat.le_of_eq (congrArg (fun v => v.2.length) (show Disk.shelf _ = Disk.shelf _ from hp m))
  cases c with
  | «open» resume => exact Nat.le_refl _
  | create deadline data =>
      exact hfixed (fixes_bind (unshelved_create j _ _) (fun _ => fixes_pure _))
  | load => exact hfixed (fixes_bind (unshelved_load j) (fun _ => fixes_pure _))
  | save expected data =>
      exact hfixed (fixes_bind (unshelved_save j _ _) (fun _ => fixes_pure _))
  | read ref => exact hfixed (fixes_bind (unshelved_readEvidence j ref) (fun _ => fixes_pure _))
  | write name value =>
      have h := write_leftovers (j := j) name value m rfl
      revert h
      cases (perform j (.write name value) m).1 with
      | done a => exact fun h => h
      | raised e => exact fun h => h
      | crashed => exact fun h => h

/-- **Leftovers of a run**: at most one for each write that was cut off. -/
theorem leftovers_run (cs : List Command) (m : Machine Failure Disk) :
    (run j cs m).disk.evidenceTemporaries.length ≤
      m.disk.evidenceTemporaries.length + cuts j cs m := by
  induction cs generalizing m with
  | nil => exact Nat.le_refl _
  | cons c cs ih =>
      have hstep := leftovers_step (j := j) c m
      have hrest := ih (afterwards (perform j c m))
      rw [show (afterwards (perform j c m)).disk.evidenceTemporaries
        = (perform j c m).2.disk.evidenceTemporaries from congrArg Prod.snd (afterwards_shelf _)] at hrest
      show (run j cs (afterwards (perform j c m))).disk.evidenceTemporaries.length ≤
        m.disk.evidenceTemporaries.length + ((if Cut c (perform j c m).1 then 1 else 0) +
          cuts j cs (afterwards (perform j c m)))
      omega

end Leftovers

/-! ## Calm runs

    Without outside failures and with room on the disk, an operation whose checks
    pass returns. -/

section Calm

variable {α β : Type} {deadline room : Nat} {P : Disk → Prop} {R : β → Disk → Prop} {j : Journal}

theorem completes_get {k : Disk → Store β}
    (hk : ∀ d, P d → Completes id deadline room P (k d) R) :
    Completes id deadline room P (getDisk >>= k) R := by
  refine completes_getDisk (fun d hd => completes_pre (hk d hd) ?_)
  rintro d' rfl
  exact hd

theorem completes_attempt {m : Store Unit} {Q : Unit → Disk → Prop}
    (hm : Completes id deadline room P m Q) : Completes id deadline room P (attempt m) Q :=
  completes_handle hm

theorem completes_quiet_probe : Completes id deadline room P (probe : Store Unit) (fun _ d => P d) :=
  completes_bind completes_observe (fun _ => completes_pure (fun _ hv => hv.1))

/-- A process with the writer lock, in the task directory. -/
structure Ready (s : Option FileNode) (d : Disk) : Prop where
  lock : d.memory.isSome = true
  task : d.task = true
  state : d.state = s

theorem completes_writer {task : Bool} {k : Unit → Store β}
    (hP : ∀ d, P d → d.memory.isSome = true ∧ (task = true → d.task = true))
    (hk : Completes id deadline room P (k ()) R) :
    Completes id deadline room P (requireWriter task >>= k) R := by
  refine completes_bind (Q := fun _ d => P d) (completes_get (fun d hd => ?_)) (fun _ => hk)
  obtain ⟨hlock, htask⟩ := hP d hd
  refine completes_check ?_ (completes_outside (completes_raiseIf ?_ (fun _ hv => hv)))
  · rw [← Option.not_isSome, hlock]
    exact nofun
  · rintro ⟨h1, h2⟩
    rw [htask h1] at h2
    exact nomatch h2

theorem completes_memory {f : Memory → Memory} {k : Unit → Store β} {T : Disk → Prop}
    (hP : ∀ d, P d → T { d with memory := d.memory.map f })
    (hk : Completes id deadline room T (k ()) R) :
    Completes id deadline room P (setMemory f >>= k) R := by
  refine completes_at (fun d hd => completes_setMemory (completes_pre hk ?_))
  rintro d' rfl
  exact hP d hd

theorem ready_memory {s : Option FileNode} {f : Memory → Memory} {d : Disk} (h : Ready s d) :
    Ready s { d with memory := d.memory.map f } :=
  { lock := by rw [Option.isSome_map]; exact h.lock, task := h.task, state := h.state }

theorem completes_replaceState {s : Option FileNode} {raw : Bytes} {initial : Bool} {inode : Nat}
    (hinitial : initial = true → s = none) :
    Completes id deadline room (Ready s) (replaceState raw initial s inode) (fun _ _ => True) := by
  refine completes_bind (Q := fun _ d => Ready s d) (completes_allOrNothing
    (fun _ d => { d with temporaries := inode :: d.temporaries, nextInode := d.nextInode + 1 })
    (fun _ _ => rfl) (fun _ d hd => ⟨hd.lock, hd.task, hd.state⟩)) (fun _ => ?_)
  refine completes_probe (completes_writer (fun d hd => ⟨hd.lock, fun _ => hd.task⟩)
    (completes_probe (completes_get (fun d hd => ?_))))
  refine completes_check ?_ (completes_check ?_ ?_)
  · rintro ⟨h1, h2⟩
    rw [hd.state, hinitial h1] at h2
    exact nomatch h2
  · rintro ⟨-, h2⟩
    exact h2 hd.state
  refine completes_bind (Q := fun _ _ => True) (completes_allOrNothing
    (fun stamp d => { d with state := some { newFile inode stamp with bytes := raw }
                             temporaries := d.temporaries.erase inode })
    (fun _ _ => rfl) (fun _ _ _ => trivial)) (fun _ => ?_)
  refine completes_probe (completes_probe ?_)
  exact completes_memory (T := fun _ => True) (fun _ _ => trivial)
    (k := fun _ => pure ()) (completes_pure (fun _ _ => trivial))

theorem completes_commit {s : Option FileNode} {raw : Bytes} {revision : Nat} {initial : Bool}
    (hinitial : initial = true ↔ s = none)
    (hP : ∀ d, P d → Ready s d ∧ ∀ f, s = some f → d.stateMoved f = false) :
    Completes id deadline room P (commit j raw revision initial) (fun _ _ => True) := by
  refine completes_writer (fun d hd => ⟨(hP d hd).1.lock, fun _ => (hP d hd).1.task⟩)
    (completes_outside (completes_get (fun d hd => ?_)))
  obtain ⟨hready, hseen⟩ := hP d hd
  refine completes_check ?_ (completes_check ?_ (completes_check ?_ ?_))
  · rintro ⟨h1, h2⟩
    rw [hready.state, hinitial.mp h1] at h2
    exact nomatch h2
  · rintro ⟨h1, h2⟩
    rw [hready.state] at h2
    exact absurd (hinitial.mpr (Option.isNone_iff_eq_none.mp h2)) (by rw [h1]; exact nofun)
  · rintro ⟨-, h2⟩
    rw [hready.state] at h2
    cases hs : s with
    | none => rw [hs] at h2; exact nomatch h2
    | some f =>
        rw [hs, Option.map_some, Option.getD_some, hseen f hs] at h2
        exact nomatch h2
  · rw [hready.state]
    exact completes_handle (completes_pre (completes_replaceState hinitial.mp) (fun d hd => (hP d hd).1))

/-- A process that may load the state of the file `f`. -/
structure Loadable (f : FileNode) (d : Disk) : Prop where
  ready : Ready (some f) d
  allowed : Memory.isResume d.memory = true ∨ Memory.isCreated d.memory = true
  same : d.stateMoved f = false

theorem completes_load {f : FileNode} {e : Envelope} (he : Wrote j f.bytes e)
    (hP : ∀ d, P d → Loadable f d) :
    Completes id deadline room P (load j) (fun a d => a = e ∧ Loadable f d) := by
  refine completes_writer (fun d hd => ⟨(hP d hd).ready.lock, nofun⟩) (completes_get (fun d hd => ?_))
  obtain ⟨hready, hallowed, -⟩ := hP d hd
  refine completes_check ?_ (completes_check ?_ ?_)
  · rintro ⟨h1, h2⟩
    rw [h1, h2] at hallowed
    exact hallowed.elim nofun nofun
  · rw [hready.task]
    exact nofun
  refine completes_writer (fun d hd => ⟨(hP d hd).ready.lock, fun _ => (hP d hd).ready.task⟩)
    (completes_get (fun d' hd' => ?_))
  rw [(hP d' hd').ready.state]
  refine completes_outside ?_
  rw [he.read]
  show Completes id deadline room P (rejectIf (d'.stateMoved f = true) "state_changed" >>= fun _ =>
    setStateId (some f.inode) >>= fun _ => pure e) (fun a d => a = e ∧ Loadable f d)
  refine completes_check (by rw [(hP d' hd').same]; exact nofun) ?_
  refine completes_memory (T := Loadable f) (fun d hd => ?_) (completes_pure (fun _ hd => ⟨rfl, hd⟩))
  obtain ⟨hready, hallowed, -⟩ := hP d hd
  refine { ready := ready_memory hready, allowed := ?_, same := ?_ }
  · cases hm : d.memory with
    | none => rw [hm] at hallowed; exact hallowed
    | some m => rw [hm] at hallowed; exact hallowed
  · unfold Disk.stateMoved
    cases d.memory with
    | none => rfl
    | some m =>
        show (true && some f.inode != some f.inode) = false
        rw [bne_self_eq_false, Bool.and_false]

theorem completes_save {f : FileNode} {e : Envelope} {data : Json} {raw : Bytes}
    (he : Wrote j f.bytes e) (hvalid : validateJson (j.limits j.limit) data = none)
    (hsaved : Saved j e data raw) :
    Completes id deadline room (Loadable f) (save j e.revision data) (fun _ _ => True) := by
  refine completes_writer (fun d hd => ⟨hd.ready.lock, nofun⟩) (completes_check (by omega) ?_)
  refine completes_bind (completes_load he (fun _ hd => hd)) (fun a => ?_)
  refine completes_at (fun d hd => ?_)
  obtain ⟨rfl, hd⟩ := hd
  refine completes_check (fun h => h rfl) ?_
  rw [hvalid, hsaved.phase, hsaved.encoded]
  show Completes id deadline room (fun d' => d' = d)
    (commit j raw (a.revision + 1) false >>= fun _ => pure _) (fun _ _ => True)
  refine completes_bind (Q := fun _ _ => True) (completes_commit (s := some f) ?_ ?_)
    (fun _ => completes_pure (fun _ _ => trivial))
  · exact ⟨nofun, nofun⟩
  · rintro d' rfl
    exact ⟨hd.ready, fun f' hf' => Option.some.inj hf' ▸ hd.same⟩

/-- The first state, in a task directory of its own. -/
theorem completes_firstState {r : Bytes} {e : Envelope} :
    Completes id deadline room (fun d => d.memory.isSome = true ∧ d.state = none)
      (do
        createTask
        check "task_unsafe"
        commit j r 0 true
        setMemory (fun m => { m with created := true })
        pure e : Store Envelope) (fun a _ => a = e) := by
  refine completes_bind (Q := fun _ d => Ready none d) (completes_handle
    (completes_bind (Q := fun _ d => Ready none d) (completes_allOrNothing
      (fun _ d => { d with task := true }) (fun _ _ => rfl) ?_) (fun _ => completes_quiet_probe)))
    (fun _ => completes_outside ?_)
  · rintro _ d ⟨hlock, hstate⟩
    exact ⟨hlock, rfl, hstate⟩
  refine completes_bind (completes_commit (s := none) ⟨fun _ => rfl, fun _ => rfl⟩
    (fun d hd => ⟨hd, nofun⟩)) (fun _ => ?_)
  exact completes_memory (T := fun _ => True) (fun _ _ => trivial) (completes_pure (fun _ _ => rfl))

/-- There is room for `raw` under `name`, or it is there. -/
def Room (j : Journal) (name : Text) (raw : Bytes) (d : Disk) : Prop :=
  (∃ f, d.evidence.lookup name = some f ∧ f.bytes = raw) ∨
    (d.evidence.lookup name = none ∧ d.entries < j.maxEvidenceFiles)

/-- A process with the writer lock, in a task directory with this evidence. -/
structure Writable (files : List (Text × FileNode)) (entries : Nat) (d : Disk) : Prop where
  lock : d.memory.isSome = true
  task : d.task = true
  files : d.evidence = files
  entries : d.entries = entries

/-- A process that may use the evidence directory. -/
structure Served (d : Disk) : Prop where
  lock : d.memory.isSome = true
  task : d.task = true
  directory : d.evidenceDirectory = true

variable {files : List (Text × FileNode)} {count : Nat}

theorem Writable.access {d : Disk} (h : Writable files count d) :
    d.memory.isSome = true ∧ (true = true → d.task = true) := ⟨h.lock, fun _ => h.task⟩

theorem completes_makeDirectory :
    Completes id deadline room (Writable files count) makeDirectory
      (fun _ d => Writable files count d ∧ Served d) := by
  refine completes_getDisk (fun d hd => completes_bind
    (Q := fun _ d => Writable files count d ∧ Served d) ?_ (fun _ => completes_handle completes_quiet_probe))
  obtain ⟨h1, h2, h3, h4⟩ : Writable files count d := hd
  refine completes_whenever (fun _ => completes_handle ?_) (fun hdirectory d' hd' => ?_)
  · refine completes_bind (Q := fun _ d => Writable files count d ∧ Served d) (completes_allOrNothing
      (fun _ d => { d with evidenceDirectory := true }) (fun _ _ => rfl) ?_) (fun _ => completes_quiet_probe)
    rintro _ d' rfl
    exact ⟨⟨h1, h2, h3, h4⟩, h1, h2, rfl⟩
  · obtain rfl : d' = d := hd'
    exact ⟨⟨h1, h2, h3, h4⟩, h1, h2, Bool.eq_true_of_not_eq_false hdirectory⟩

theorem completes_readFile {f : FileNode} (hf : f.bytes.length ≤ j.evidenceLimit) :
    Completes id deadline room P (readFile j f) (fun raw d => P d ∧ raw = f.bytes) :=
  completes_check (Nat.not_lt.mpr hf) (completes_outside (completes_pure (fun _ hd => ⟨hd, rfl⟩)))

/-- Assume what is said of the value. -/
theorem completes_pull {φ : Prop} {m : Store β} (h : φ → Completes id deadline room P m R) :
    Completes id deadline room (fun d => P d ∧ φ) m R :=
  fun s hcalm hroom hP => h hP.2 s hcalm hroom hP.1

theorem completes_repeatEvidence {name : Text} {raw : Bytes} {f : FileNode} (hf : f.bytes = raw)
    (hlength : raw.length ≤ j.evidenceLimit) :
    Completes id deadline room P (repeatEvidence j name raw f) (fun _ d => P d) := by
  obtain rfl := hf
  refine completes_bind (completes_readFile hlength) (fun current => completes_pull (fun h => ?_))
  refine completes_check (fun hne => hne h) (completes_outside ?_)
  refine completes_bind (completes_readFile hlength) (fun repeated => completes_pull (fun h' => ?_))
  exact completes_check (fun hne => hne h') (completes_pure (fun _ hd => hd))

theorem completes_placeEvidence {name : Text} {inode : Nat} {raw : Bytes} :
    Completes id deadline room Served (placeEvidence name inode raw)
      (fun _ d => Served d ∧ ∃ f, d.evidence.lookup name = some f ∧ f.bytes = raw) := by
  refine completes_handle (completes_bind (Q := fun _ => Served)
    (completes_attempt (completes_allOrNothing
      (fun _ d => { d with evidenceTemporaries := inode :: d.evidenceTemporaries
                           nextInode := d.nextInode + 1 }) (fun _ _ => rfl) ?_)) (fun _ => ?_))
  · rintro _ d ⟨h1, h2, h3⟩
    exact ⟨h1, h2, h3⟩
  refine completes_bind (completes_attempt completes_quiet_probe) (fun _ => ?_)
  refine completes_writer (fun _ hd => ⟨hd.lock, fun _ => hd.task⟩) (completes_outside (completes_handle ?_))
  refine completes_allOrNothing
    (fun stamp d => { d with evidence := (name, { newFile inode stamp with bytes := raw }) :: d.evidence
                             evidenceTemporaries := d.evidenceTemporaries.erase inode })
    (fun _ _ => rfl) ?_
  rintro stamp d ⟨h1, h2, h3⟩
  exact ⟨⟨h1, h2, h3⟩, _, List.lookup_cons_self, rfl⟩

theorem completes_newEvidence {name : Text} {raw : Bytes} (hcount : count < j.maxEvidenceFiles)
    (hlength : raw.length ≤ j.evidenceLimit) :
    Completes id deadline room (fun d => Writable files count d ∧ Served d) (newEvidence j name raw)
      (fun _ => Served) := by
  refine completes_outside (completes_get (fun d hd => completes_check ?_ ?_))
  · rintro ⟨-, h2⟩
    rw [hd.1.entries] at h2
    exact absurd h2 (Nat.not_le.mpr hcount)
  refine completes_bind (completes_pre completes_placeEvidence (fun _ hd => hd.2)) (fun _ => ?_)
  refine completes_bind (completes_handle (completes_outside (completes_attempt completes_quiet_probe)))
    (fun _ => completes_get (fun d' hd' => ?_))
  obtain ⟨-, f, hf, rfl⟩ := hd'
  rw [show d'.evidence.lookup name = some f from hf]
  refine completes_bind (completes_readFile hlength) (fun stored => completes_pull (fun h => ?_))
  exact completes_check (fun hne => hne h) (completes_pure (fun _ hd => hd.1))

theorem evidenceBytes_length {value : Json} {raw : Bytes} (h : j.evidenceBytes value = .ok raw) :
    raw.length ≤ j.evidenceLimit := by
  unfold Journal.evidenceBytes at h
  split at h
  · exact absurd h nofun
  · split at h
    · exact absurd h nofun
    · split at h
      · exact absurd h nofun
      next hlength => exact Except.ok.inj h ▸ Nat.le_of_not_lt hlength

/-- **A write of evidence returns** when there is room for it. -/
theorem completes_writeEvidence {name : Text} {value : Json} {raw : Bytes} {d₀ : Disk}
    (hname : isName name = true) (hraw : j.evidenceBytes value = .ok raw)
    (hlock : d₀.memory.isSome = true) (htask : d₀.task = true) (hroom : Room j name raw d₀) :
    Completes id deadline room (fun d => d = d₀) (writeEvidence j name value) (fun _ => Served) := by
  refine completes_pre (P := Writable d₀.evidence d₀.entries) ?_ ?_
  · refine completes_writer (fun _ hd => hd.access) (completes_check (by rw [hname]; exact nofun) ?_)
    rw [hraw]
    show Completes id deadline room _ (makeDirectory >>= fun _ => requireWriter true >>= fun _ => _) _
    refine completes_bind completes_makeDirectory (fun _ => completes_writer (fun _ hd => hd.1.access)
      (completes_get (fun d hd => ?_)))
    rw [hd.1.files]
    have hlength := evidenceBytes_length hraw
    rcases hroom with ⟨f, hf, hbytes⟩ | ⟨hnone, hcount⟩
    · rw [hf]
      exact completes_post (completes_repeatEvidence hbytes hlength) (fun _ _ hd => hd.2)
    · rw [hnone]
      exact completes_newEvidence hcount hlength
  · rintro d rfl
    exact ⟨hlock, htask, rfl, rfl⟩

end Calm

/-! ## Creating the journal -/

section Create

variable {α β : Type} {j : Journal} {s : Machine Failure Disk}

theorem bind_run {m : Store α} {k : α → Store β} {s' : Machine Failure Disk} {a : α}
    (h : m s = (.done a, s')) : (m >>= k) s = k a s' := by
  show andThen m k s = _
  unfold andThen
  rw [h]

theorem rejectIf_run {c : Prop} [Decidable c] {code : String} (hc : ¬ c) :
    rejectIf c code s = (.done (), s) := by
  unfold rejectIf raiseIf
  rw [if_neg hc]
  rfl

theorem check_run {code : String} (hs : s.script = []) : check code s = (.done (), s) := by
  obtain ⟨disk, clock, free, script⟩ := s
  obtain rfl : script = [] := hs
  rfl

theorem writer_run (hs : s.script = []) (hlock : s.disk.memory.isSome = true) :
    requireWriter false s = (.done (), s) := by
  show (rejectIf (s.disk.memory.isNone = true) "writer_lock_required" >>= fun _ =>
    check "writer_lock_changed" >>= fun _ => rejectIf (false = true ∧ s.disk.task = false) _) s = _
  rw [bind_run (rejectIf_run (by rw [← Option.not_isSome, hlock]; exact nofun)),
    bind_run (check_run hs), rejectIf_run (fun h => absurd h.1 nofun)]

/-- What the checks of `create` ask for at the time `now`. -/
structure Admissible (j : Journal) (now : Nat) (deadline data : Json) (raw : Bytes) : Prop where
  finite : finiteDeadline deadline = true
  later : (now : ℚ) < numberValue deadline
  bounded : numberValue deadline ≤ now + j.maxDuration
  phase : phaseData data none true = none
  encoded : j.encode 0 deadline data = .ok raw

/-- **A new run creates the journal** when there is no task directory yet. -/
theorem create_calm {deadline data : Json} {raw : Bytes} (hs : s.script = [])
    (hmemory : s.disk.memory = some ⟨false, false, none⟩) (htask : s.disk.task = false)
    (hstate : s.disk.state = none) (h : Admissible j s.clock deadline data raw) :
    (create j deadline data s).1 = .done { document := j.document 0 deadline data, revision := 0
                                           deadline := deadline, data := data } := by
  have hlock : s.disk.memory.isSome = true := by rw [hmemory]; rfl
  unfold create
  rw [bind_run (writer_run hs hlock)]
  show ((rejectIf (Memory.isResume s.disk.memory = true) "resume_required" >>= _) s).1 = _
  rw [bind_run (rejectIf_run (by rw [hmemory]; exact nofun))]
  show ((rejectIf (finiteDeadline deadline = false ∨ numberValue deadline ≤ (s.clock : ℚ) ∨
    numberValue deadline > s.clock + j.maxDuration) "invalid_deadline" >>= _) s).1 = _
  rw [bind_run (rejectIf_run ?_), h.phase, h.encoded]
  · show ((rejectIf (s.disk.task = true) "resume_required" >>= _) s).1 = _
    rw [bind_run (rejectIf_run (by rw [htask]; exact nofun))]
    obtain ⟨a, s', hrun, -, -, rfl⟩ := completes_firstState (r := raw) s (calm_of_nil hs)
      (Nat.zero_le _) ⟨hlock, hstate⟩
    exact congrArg Prod.fst hrun
  · rw [not_or, not_or, h.finite]
    exact ⟨nofun, not_le.mpr h.later, not_lt.mpr h.bounded⟩

end Create

/-! ## The incomplete task -/

section Incomplete

variable {j : Journal}

/-- A task directory without a state file. -/
def Disk.Incomplete (d : Disk) : Prop := d.layout = (true, none)

instance (d : Disk) : Decidable d.Incomplete := inferInstanceAs (Decidable (d.layout = (true, none)))

theorem readable_incomplete : Readable j (true, none) :=
  fun f hf => absurd hf (Option.some_ne_none f).symm

/-- **Nobody continues from an incomplete task.** -/
theorem incomplete_stuck {m : Machine Failure Disk} (hm : m.disk.Incomplete) :
    (∀ e, (load j m).1 ≠ .done e) ∧
      (∀ deadline data e, j.Sound → Value deadline → Value data →
        (create j deadline data m).1 ≠ .done e) := by
  constructor
  · intro e he
    have h := load_triple (K := fun _ _ => True) (readable_incomplete (j := j)) (fun _ _ => trivial) m hm
    rw [he] at h
    obtain ⟨-, f, hf, -⟩ := h
    exact absurd hf (Option.some_ne_none f).symm
  · intro deadline data e hj hdeadline hdata he
    have h := create_triple hj hdeadline hdata readable_incomplete m hm
    rw [he] at h
    obtain ⟨raw, hlayout, -⟩ := h
    exact absurd (congrArg Prod.fst hlayout) nofun

theorem holds_complete {raw : Bytes} {v₀ v : Bool × Option FileNode} (h : Holds raw v₀ v) :
    v ≠ (true, none) := by
  rintro rfl
  obtain ⟨-, f, hf, -⟩ := h
  exact absurd hf (Option.some_ne_none f).symm

variable {v₀ : Bool × Option FileNode}

theorem create_incomplete (hj : j.Sound) (hv : Readable j v₀) (hne : v₀ ≠ (true, none))
    (deadline data : PyJson) :
    Triple (onDisk Disk.layout) (fun v => v = v₀) (perform j (.create deadline data))
      (fun _ v => v ≠ (true, none)) (fun _ v => v = (true, none) → v₀.1 = false) := by
  refine triple_bind (triple_conseq (create_triple hj deadline.sound data.sound hv) (fun _ h => h)
    (fun _ _ h => h) ?_) (fun e => triple_pure ?_)
  · rintro o v (⟨h, -, -⟩ | ⟨raw, rfl, -⟩)
    · rintro rfl
      exact Bool.eq_false_iff.mpr (fun htask => hne (Prod.ext htask h.symm))
    · exact fun _ => rfl
  · rintro v ⟨raw, -, -, h, -⟩
    exact holds_complete h

theorem save_incomplete (hj : j.Sound) (hv : Readable j v₀) (hne : v₀ ≠ (true, none))
    (expected : Int) (data : PyJson) :
    Triple (onDisk Disk.layout) (fun v => v = v₀) (perform j (.save expected data))
      (fun _ v => v ≠ (true, none)) (fun _ v => v ≠ (true, none)) := by
  refine triple_bind (triple_conseq (save_triple hj data.sound hv) (fun _ h => h)
    (fun _ _ h => h) ?_) (fun e => triple_pure ?_)
  · rintro o v (⟨rfl, -⟩ | ⟨f, e, raw, -, -, -, -, ⟨rfl, -⟩ | ⟨h, -⟩⟩)
    · exact hne
    · exact hne
    · exact holds_complete h
  · rintro v ⟨f, e, raw, -, -, -, -, h, -⟩
    exact holds_complete h

theorem load_incomplete (hv : Readable j v₀) (hne : v₀ ≠ (true, none)) :
    Triple (onDisk Disk.layout) (fun v => v = v₀) (perform j .load)
      (fun _ v => v ≠ (true, none)) (fun _ v => v ≠ (true, none)) := by
  refine triple_bind (load_triple hv (fun _ _ => hne)) (fun e => triple_pure ?_)
  rintro v ⟨rfl, -⟩
  exact hne

theorem still_incomplete {p : Store Answer} (hp : Still p) (hne : v₀ ≠ (true, none)) :
    Triple (onDisk Disk.layout) (fun v => v = v₀) p
      (fun _ v => v ≠ (true, none)) (fun _ v => v ≠ (true, none)) :=
  triple_post (hp v₀ _ (fun _ _ => hne)) (fun _ _ hv => hv ▸ hne)

/-- A run that never ends in an incomplete task. -/
theorem complete_of_triple {p : Store Answer} {m : Machine Failure Disk}
    (hp : Triple (onDisk Disk.layout) (fun v => v = m.disk.layout) p
      (fun _ v => v ≠ (true, none)) (fun _ v => v ≠ (true, none))) : ¬ (p m).2.disk.Incomplete :=
  endsIn_outcome (A := fun _ v => v ≠ (true, none)) (hp m rfl)

/-- **Only a create that did not return makes a task incomplete**, and there was no
    task directory before it. -/
theorem incomplete_step (hj : j.Sound) {m : Machine Failure Disk} (hm : Readable j m.disk.layout)
    (hne : ¬ m.disk.Incomplete) (c : Command) (h : (perform j c m).2.disk.Incomplete) :
    m.disk.task = false ∧ (∃ deadline data, c = .create deadline data) ∧
      ∀ a, (perform j c m).1 ≠ .done a := by
  cases c with
  | «open» resume => exact absurd h hne
  | create deadline data =>
      have hrun := create_incomplete hj hm hne deadline data m rfl
      revert hrun
      cases hout : (perform j (.create deadline data) m).1 with
      | done a => exact fun hrun => absurd h hrun
      | raised e => exact fun hrun => ⟨hrun h, ⟨deadline, data, rfl⟩, fun _ => nofun⟩
      | crashed => exact fun hrun => ⟨hrun h, ⟨deadline, data, rfl⟩, fun _ => nofun⟩
  | load => exact absurd h (complete_of_triple (load_incomplete hm hne))
  | save expected data => exact absurd h (complete_of_triple (save_incomplete hj hm hne expected data))
  | write name value =>
      exact absurd h (complete_of_triple (still_incomplete
        (still_bind (still_writeEvidence j _ _) (fun _ => still_pure _)) hne))
  | read ref =>
      exact absurd h (complete_of_triple (still_incomplete
        (still_bind (still_readEvidence j ref) (fun _ => still_pure _)) hne))

/-- The create of a run that left the task incomplete. -/
def CutOff (j : Journal) (cs : List Command) (m : Machine Failure Disk) : Prop :=
  ∃ before deadline data after, cs = before ++ .create deadline data :: after ∧
    (run j before m).disk.task = false ∧
    (∀ a, (perform j (.create deadline data) (run j before m)).1 ≠ .done a) ∧
    (perform j (.create deadline data) (run j before m)).2.disk.Incomplete

theorem incomplete_run (hj : j.Sound) (cs : List Command) {m : Machine Failure Disk}
    (hm : Readable j m.disk.layout) (hne : ¬ m.disk.Incomplete)
    (h : (run j cs m).disk.Incomplete) : CutOff j cs m := by
  induction cs generalizing m with
  | nil => exact absurd h hne
  | cons c cs ih =>
      have hlayout := afterwards_layout (perform j c m)
      by_cases hstep : (perform j c m).2.disk.Incomplete
      · obtain ⟨htask, ⟨deadline, data, rfl⟩, hout⟩ := incomplete_step hj hm hne c hstep
        exact ⟨[], deadline, data, cs, rfl, htask, hout, hstep⟩
      · have hreadable : Readable j (afterwards (perform j c m)).disk.layout := by
          rw [hlayout]
          exact (perform_step hj hm c).1
        have hne' : ¬ (afterwards (perform j c m)).disk.Incomplete := by
          unfold Disk.Incomplete
          rw [hlayout]
          exact hstep
        obtain ⟨before, deadline, data, after, rfl, hcut⟩ := ih hreadable hne' h
        exact ⟨c :: before, deadline, data, after, rfl, hcut⟩

end Incomplete

/-! ## Every crash point -/

/-- The disk of a new process that starts the transfer. -/
def Disk.started (d : Disk) : Disk := { d with memory := some ⟨false, false, none⟩ }

/-- What a later run can do with what an earlier run left. -/
structure Continuable (j : Journal) (cs : List Command) (m₀ m : Machine Failure Disk) : Prop where
  /-- There is no task yet, or a state that can be read, or a create was cut off. -/
  cases : m.disk.task = false ∨ (∃ e, j.stored m.disk = some e) ∨ (m.disk.Incomplete ∧ CutOff j cs m₀)
  creates : m.disk.task = false → ∀ deadline data raw m', m'.disk = m.disk.started → m'.script = [] →
    Admissible j m'.clock deadline data raw → ∃ e, (create j deadline data m').1 = .done e
  loads : ∀ e, j.stored m.disk = some e → ∀ m', m'.disk = m.disk.resumed → m'.script = [] →
    (load j m').1 = .done e
  saves : ∀ e, j.stored m.disk = some e → ∀ data raw, validateJson (j.limits j.limit) data = none →
    Saved j e data raw → ∀ m', m'.disk = m.disk.resumed → m'.script = [] →
    ∃ e', (save j e.revision data m').1 = .done e'
  /-- A name that is not there can be written as long as the files and the writes that
      were cut off are fewer than the limit. -/
  writes : m.disk.task = true → ∀ name value raw, isName name = true →
    j.evidenceBytes value = .ok raw →
    ((∃ f, m.disk.evidence.lookup name = some f ∧ f.bytes = raw) ∨ m.disk.evidence.lookup name = none ∧
      m.disk.evidence.length + cuts j cs m₀ < j.maxEvidenceFiles) →
    ∀ m', m'.disk = m.disk.resumed → m'.script = [] → ∃ ref, (writeEvidence j name value m').1 = .done ref

/-- An effect without a fault, and one at which the process dies after it was done. -/
def quietEvent : Event Failure := { tick := 0, stamp := 0, reading := 0, fault := .none }

def deathEvent : Event Failure := { tick := 0, stamp := 0, reading := 0, fault := .crash 1 }

/-- The process dies when it has made the task directory. -/
def taskOnly : Machine Failure Disk :=
  run sampleJournal [.open false, .create ⟨.int 100, trivial⟩ sampleData]
    { disk := Disk.empty, clock := 0, free := 0, script := [quietEvent, deathEvent] }

/-- A journal of at most 33 evidence files. -/
def smallJournal : Journal := { sampleJournal with maxEvidenceFiles := 33 }

/-- After its creation, the process dies in 33 writes of evidence, each time when the
    temporary file was made. -/
def leftoversOnly : Machine Failure Disk :=
  run smallJournal
    ([.open false, .create ⟨.int 100, trivial⟩ sampleData] ++
      (List.replicate 33 [Command.open true, .write (ascii "proof") sampleData]).flatten)
    { disk := Disk.empty, clock := 0, free := 0
      script := List.replicate 19 quietEvent ++ [deathEvent] ++
        (List.replicate 32 (List.replicate 4 quietEvent ++ [deathEvent])).flatten }

end HostJournal
