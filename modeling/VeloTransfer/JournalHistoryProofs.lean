import Mathlib
import VeloTransfer.JournalRunProofs

/-! # The history of a journal — what its readable states keep

    `stored` is the state that a load returns.  A command leaves it alone or puts
    the next one in its place, at every fault and every crash (`perform_triple`),
    and the answer of a failed save says which (`Report`).  Along the states of a
    run nothing that the journal promises to keep is lost (`Later`). -/

namespace HostJournal

open EffectPrograms Program FaultScript FileNodes CanonicalJson JsonLine BoundedJson JsonDict
open Sha256 GuestTerminal

/-- A state as it is read back. -/
def Journal.envelope (j : Journal) (revision : Nat) (deadline data : Json) : Envelope :=
  { document := (j.document revision deadline data).sortKeys, revision := revision
    deadline := deadline, data := data.sortKeys }

/-- A state in canonical form. -/
def Envelope.normal (e : Envelope) : Envelope :=
  { e with document := e.document.sortKeys, data := e.data.sortKeys }

/-- The state that the bytes of the state file hold. -/
def Journal.stored (j : Journal) (d : Disk) : Option Envelope :=
  d.state.bind (fun f => (j.readState f.bytes).toOption)

/-! ## The states along a run -/

/-- What holds of `e'` when it is read after `e`. -/
structure Later (e e' : Envelope) : Prop where
  published : flag (get e.data "published_ever") = some true →
    flag (get e'.data "published_ever") = some true
  begun : flag (get e.data "begin_attempted") = some true →
    flag (get e'.data "begin_attempted") = some true
  channel : flag (get e.data "begin_attempted") = some true →
    textOf (get e'.data "channel") = textOf (get e.data "channel")
  fact : ∀ key ∈ IMMUTABLE, ∀ v, get e.data key = some v → v ≠ .null →
    ∃ w, get e'.data key = some w ∧ canonical w = canonical v
  deadline : e'.deadline = e.deadline
  revision : e.revision ≤ e'.revision

/-- A state that was read. -/
structure Proper (j : Journal) (e : Envelope) : Prop where
  value : Value e.data
  binding : (get e.document "binding").map canonical = some (canonical j.binding)
  transferId : get e.document "transfer_id" = some (.str j.transferId)
  phase : isText (get e.data "phase") PHASES = true
  channel : flag (get e.data "begin_attempted") = some true →
    isText (get e.data "channel") ["velo", "windows"] = true
  complete : isText (get e.data "phase") ["COMPLETE"] = true →
    flag (get e.data "published_ever") = some true ∧
    isNone (get e.data "publication_receipt") = false ∧
    completionTrue (get e.data "completion") = true

theorem Later.refl (e : Envelope) : Later e e :=
  { published := id, begun := id, channel := fun _ => rfl
    fact := fun _ _ v hv _ => ⟨v, hv, rfl⟩, deadline := rfl, revision := Nat.le_refl _ }

/-- A value with the canonical text of a value that is not null is not null. -/
theorem ne_null_of_canonical {v w : Json} (hv : Value v) (h : canonical w = canonical v)
    (hne : v ≠ .null) : w ≠ .null := by
  rintro rfl
  have hsort : Json.null = v.sortKeys :=
    render_injective (w := v.sortKeys) trivial (plain_sortKeys v (plain_of_value v hv)) h
  cases v with
  | null => exact hne rfl
  | _ => exact absurd hsort nofun

theorem Later.trans {e e' e'' : Envelope} (hvalue : Value e.data) (h : Later e e')
    (h' : Later e' e'') : Later e e'' := by
  refine { published := fun hp => h'.published (h.published hp)
           begun := fun hb => h'.begun (h.begun hb)
           channel := fun hb => (h'.channel (h.begun hb)).trans (h.channel hb)
           fact := ?_
           deadline := h'.deadline.trans h.deadline
           revision := Nat.le_trans h.revision h'.revision }
  intro key hkey v hv hne
  obtain ⟨w, hw, hcanonical⟩ := h.fact key hkey v hv hne
  obtain ⟨u, hu, hcanonical'⟩ := h'.fact key hkey w hw
    (ne_null_of_canonical (value_get hvalue hv) hcanonical hne)
  exact ⟨u, hu, hcanonical'.trans hcanonical⟩

/-! ## The validator and the states it admits -/

/-- What the validator says of the new data, whatever the old data are. -/
theorem phaseData_none {data : Json} {previous : Option Json} {initial : Bool}
    (h : phaseData data previous initial = none) : phaseData data none false = none := by
  unfold phaseData at h ⊢
  simp only [firstError_cons] at h ⊢
  obtain ⟨h1, h2, h3, h4, h5, -, h7, -⟩ := h
  exact ⟨h1, h2, h3, h4, h5, rfl, h7, rfl⟩

theorem phaseData_kept {data previous : Json} (h : phaseData data (some previous) false = none) :
    keptFacts previous data = none := by
  unfold phaseData at h
  simp only [firstError_cons] at h
  exact h.2.2.2.2.2.1

/-- The flags of admitted data are there. -/
theorem phaseData_flags {data : Json} (h : phaseData data none false = none) :
    (flag (get data "published_ever")).isSome = true ∧
      (flag (get data "begin_attempted")).isSome = true := by
  unfold phaseData at h
  simp only [firstError_cons] at h
  have hflags := failsWith_none.mp h.2.1
  rw [not_or] at hflags
  refine ⟨?_, ?_⟩
  · simpa [Option.isSome_iff_ne_none] using hflags.1
  · simpa [Option.isSome_iff_ne_none] using hflags.2

/-- A flag that is there and must not be false is true. -/
theorem flag_kept {v w : Option Json} (hsome : (flag w).isSome = true)
    (h : ¬ (flag v = some true ∧ flag w = some false)) (hv : flag v = some true) :
    flag w = some true := by
  obtain ⟨b, hb⟩ := Option.isSome_iff_exists.mp hsome
  cases b with
  | true => exact hb
  | false => exact absurd ⟨hv, hb⟩ h

/-- **Admitted data keep the facts of the data before them.** -/
theorem later_of_phaseData {e e' : Envelope}
    (h : phaseData e'.data (some e.data) false = none) (hdeadline : e'.deadline = e.deadline)
    (hrevision : e.revision ≤ e'.revision) : Later e e' := by
  obtain ⟨hpublished, hbegun⟩ := phaseData_flags (phaseData_none h)
  have hkept := phaseData_kept h
  unfold keptFacts at hkept
  simp only [firstError_cons, failsWith_none] at hkept
  obtain ⟨hp, hb, hc, hi, -⟩ := hkept
  refine { published := flag_kept hpublished hp, begun := flag_kept hbegun hb
           channel := ?_, fact := ?_, deadline := hdeadline, revision := hrevision }
  · intro hbefore
    exact Eq.symm (not_not.mp (fun hne => hc ⟨hbefore, hne⟩))
  · intro key hkey v hv hne
    have hfact := List.all_eq_true.mp (not_not.mp hi) key hkey
    unfold keptFact at hfact
    rw [hv] at hfact
    cases v with
    | null => exact absurd rfl hne
    | _ =>
        dsimp only at hfact
        split at hfact
        · exact absurd hfact nofun
        next w hw => exact ⟨w, hw, (beq_iff_eq.mp hfact).symm⟩

/-- The bytes of a state that the journal wrote. -/
structure Wrote (j : Journal) (raw : Bytes) (e : Envelope) : Prop where
  read : j.readState raw = .ok e
  normal : e.normal = e
  proper : Proper j e
  deadline : Value e.deadline ∧ finiteDeadline e.deadline = true ∧ 0 < numberValue e.deadline

theorem proper_document {j : Journal} {revision : Nat} {deadline data : Json} (hj : j.Sound)
    (hdata : Value data) (hphase : phaseData data none false = none) :
    Proper j (j.envelope revision deadline data) := by
  have hsorted := (phaseData_sortKeys hdata none false).trans hphase
  unfold phaseData at hsorted
  simp only [firstError_cons, failsWith_none] at hsorted
  obtain ⟨hp, -, -, hc, hb, -, hcomplete, -⟩ := hsorted
  refine { value := value_sortKeys data hdata
           binding := congrArg some (canonical_sortKeys hj.binding), transferId := rfl
           phase := Bool.not_eq_false _ ▸ hp, channel := ?_, complete := ?_ }
  · intro hbegun
    have hsome : isNone (get data.sortKeys "channel") = false :=
      Bool.eq_false_iff.mpr (fun hn => hb ⟨hbegun, hn⟩)
    exact Bool.eq_true_of_not_eq_false (fun hn => hc ⟨hsome, hn⟩)
  · intro hphase'
    rw [not_and] at hcomplete
    have h := hcomplete hphase'
    rw [not_or, not_or] at h
    exact ⟨not_not.mp h.1, Bool.eq_false_iff.mpr h.2.1, Bool.eq_true_of_not_eq_false h.2.2⟩

/-- **What `_encode` wrote is a state that will be read.** -/
theorem wrote_encode {j : Journal} {revision : Nat} {deadline data : Json} {raw : Bytes}
    (hj : j.Sound) (hdeadline : Value deadline) (hfinite : finiteDeadline deadline = true)
    (hpositive : 0 < numberValue deadline) (hdata : Value data)
    (hphase : phaseData data none false = none)
    (hraw : j.encode revision deadline data = .ok raw) :
    Wrote j raw (j.envelope revision deadline data) :=
  have hstored := encode_ok hj hdeadline hdata hraw
  { read := read_encode hfinite hpositive hdata hphase hstored
    normal := by
      unfold Envelope.normal Journal.envelope
      rw [sortKeys_idem _ hstored.value, sortKeys_idem _ hdata]
    proper := proper_document hj hdata hphase, deadline := ⟨hdeadline, hfinite, hpositive⟩ }

/-! ## Programs that leave a view alone

    The memory of the process is in no view.  A run that ends early may report
    everything but an unknown durability. -/

section Steps

variable {α β ν : Type} {g : Disk → ν} {v₀ : ν} {K : Option Failure → ν → Prop} {R : β → ν → Prop}

/-- Every early end with another report is allowed. -/
def Harmless (K : Option Failure → ν → Prop) (v₀ : ν) : Prop :=
  ∀ e, e ≠ some (.error "storage_durability_unknown") → K e v₀

theorem Harmless.crash (hK : Harmless K v₀) : K none v₀ := hK none nofun

theorem Harmless.error (hK : Harmless K v₀) {code : String}
    (hcode : code ≠ "storage_durability_unknown") : K (some (.error code)) v₀ := by
  refine hK _ (fun h => hcode ?_)
  injection h with h
  injection h

theorem at_rejectIf {c : Prop} [Decidable c] {code : String} {k : Unit → Store β}
    (hK : Harmless K v₀) (hcode : code ≠ "storage_durability_unknown")
    (hk : ¬ c → Triple (onDisk g) (fun v => v = v₀) (k ()) R K) :
    Triple (onDisk g) (fun v => v = v₀) (rejectIf c code >>= k) R K := by
  refine triple_check ?_ hk
  rintro v rfl
  exact hK.error hcode

theorem at_outside {code : String} {k : Unit → Store β} (hK : Harmless K v₀)
    (hcode : code ≠ "storage_durability_unknown")
    (hk : Triple (onDisk g) (fun v => v = v₀) (k ()) R K) :
    Triple (onDisk g) (fun v => v = v₀) (check code >>= k) R K := by
  refine triple_bind (triple_handle (Q := fun _ v => v = v₀) (H := fun _ v => v = v₀) ?_ ?_)
    (fun _ => hk)
  · refine triple_conseq (triple_fixes (fixes_onDisk fixes_probe) (fun _ _ hv => hv))
      (fun _ hv => hv) (fun _ _ hv => hv) ?_
    rintro (_ | e) v hv
    · exact hv ▸ hK.crash
    · exact hv
  · intro e
    refine triple_raise ?_
    rintro v rfl
    exact hK.error hcode

theorem at_lift {x : Except String α} {k : α → Store β}
    (hK : ∀ code, x = .error code → K (some (.error code)) v₀)
    (hk : ∀ a, x = .ok a → Triple (onDisk g) (fun v => v = v₀) (k a) R K) :
    Triple (onDisk g) (fun v => v = v₀) (lift x >>= k) R K := by
  cases x with
  | ok a => exact hk a rfl
  | error code =>
      intro s hs
      show K (some (.error code)) (onDisk g s)
      rw [hs]
      exact hK code rfl

theorem at_rejectOn {error : Option String} {k : Unit → Store β}
    (hK : ∀ code, error = some code → K (some (.error code)) v₀)
    (hk : error = none → Triple (onDisk g) (fun v => v = v₀) (k ()) R K) :
    Triple (onDisk g) (fun v => v = v₀) (rejectOn error >>= k) R K := by
  cases error with
  | none => exact hk rfl
  | some code =>
      intro s hs
      show K (some (.error code)) (onDisk g s)
      rw [hs]
      exact hK code rfl

theorem at_monotonic {k : Nat → Store β}
    (hk : ∀ now, Triple (onDisk g) (fun v => v = v₀) (k now) R K) :
    Triple (onDisk g) (fun v => v = v₀) (monotonic >>= k) R K :=
  fun s hs => hk s.clock s hs

theorem at_setMemory {f : Memory → Memory} {k : Unit → Store β}
    (hg : ∀ d m, g { d with memory := m } = g d)
    (hk : Triple (onDisk g) (fun v => v = v₀) (k ()) R K) :
    Triple (onDisk g) (fun v => v = v₀) (setMemory f >>= k) R K :=
  at_setDisk (fun v => v) (fun d => hg d _) hk

theorem requireWriter_triple {task : Bool} (hK : Harmless K v₀) :
    Triple (onDisk g) (fun v => v = v₀) (requireWriter task) (fun _ v => v = v₀) K := by
  refine at_getDisk (fun d _ => at_rejectIf hK (by decide) (fun _ =>
    at_outside hK (by decide) ?_))
  unfold rejectIf raiseIf
  refine triple_ite (fun _ => triple_raise ?_) (fun _ => triple_pure (fun v hv => hv))
  rintro v rfl
  exact hK.error (by decide)

theorem at_requireWriter {task : Bool} {k : Unit → Store β} (hK : Harmless K v₀)
    (hk : Triple (onDisk g) (fun v => v = v₀) (k ()) R K) :
    Triple (onDisk g) (fun v => v = v₀) (requireWriter task >>= k) R K :=
  triple_bind (requireWriter_triple hK) (fun _ => hk)

end Steps

/-! ## Errors of the readers -/

theorem firstError_mem {code : String} {cs : List (Option String)}
    (h : firstError cs = some code) : some code ∈ cs := by
  induction cs with
  | nil => exact absurd h nofun
  | cons c cs ih =>
      cases c with
      | none => exact List.mem_cons_of_mem _ (ih h)
      | some c => exact h ▸ List.mem_cons_self

/-- The codes that only a commit raises. -/
def isStorageCode (code : String) : Bool :=
  code == "storage_durability_unknown" || code == "storage_write_failed"

/-- A check that fails with another code. -/
theorem failsWith_plain {c : Prop} [Decidable c] {code code' : String}
    (hplain : isStorageCode code = false) (h : some code' = failsWith c code) :
    isStorageCode code' = false := by
  unfold failsWith at h
  split at h
  · exact Option.some.inj h ▸ hplain
  · exact absurd h nofun

theorem firstError_plain {code : String} {cs : List (Option String)}
    (h : firstError cs = some code)
    (hcs : ∀ c ∈ cs, ∀ code', some code' = c → isStorageCode code' = false) :
    isStorageCode code = false :=
  hcs _ (firstError_mem h) code rfl

theorem keptFacts_plain {previous data : Json} {code : String}
    (h : keptFacts previous data = some code) : isStorageCode code = false := by
  refine firstError_plain h (fun c hc code' hcode => ?_)
  simp only [List.mem_cons, List.not_mem_nil, or_false] at hc
  rcases hc with rfl | rfl | rfl | rfl <;> exact failsWith_plain (by decide) hcode

theorem phaseData_plain {data : Json} {previous : Option Json} {initial : Bool} {code : String}
    (h : phaseData data previous initial = some code) : isStorageCode code = false := by
  refine firstError_plain h (fun c hc code' hcode => ?_)
  simp only [List.mem_cons, List.not_mem_nil, or_false] at hc
  rcases hc with rfl | rfl | rfl | rfl | rfl | rfl | rfl
  case inr.inr.inr.inr.inr.inl =>
    cases initial with
    | true => exact failsWith_plain (by decide) hcode
    | false =>
        cases previous with
        | none => cases hcode
        | some previous => exact keptFacts_plain hcode.symm
  all_goals exact failsWith_plain (by decide) hcode

/-- The walk over a value fails with a code of its own. -/
def Plainly (x : Accounting) : Prop := ∀ code, x = .error code → isStorageCode code = false

theorem plainly_ok (a : Account) : Plainly (.ok a) := nofun

theorem plainly_error {code : String} (h : isStorageCode code = false) :
    Plainly (.error code) := by
  intro code' heq
  obtain rfl := Except.error.inj heq
  exact h

theorem plainly_bind {x : Accounting} {k : Account → Accounting} (hx : Plainly x)
    (hk : ∀ a, Plainly (k a)) : Plainly (x >>= k) := by
  cases x with
  | ok a => exact hk a
  | error code => exact plainly_error (hx code rfl)

section Walk

variable {l : Limits}

theorem plainly_charge (amount : Nat) (a : Account) : Plainly (l.charge amount a) := by
  unfold Limits.charge
  split
  · exact plainly_error (by decide)
  · exact plainly_ok _

theorem plainly_enter (depth : Nat) (a : Account) : Plainly (l.enter depth a) := by
  unfold Limits.enter
  split
  · exact plainly_error (by decide)
  · exact plainly_ok _

theorem plainly_open (n : Nat) (a : Account) : Plainly (l.open n a) := by
  unfold Limits.open
  split
  · exact plainly_error (by decide)
  · exact plainly_charge _ _

theorem plainly_charges (s : Text) (a : Account) : Plainly (l.charges s a) := by
  induction s generalizing a with
  | nil => exact plainly_ok a
  | cons c cs ih =>
      unfold Limits.charges
      split
      · exact plainly_error (by decide)
      · exact plainly_bind (plainly_charge _ _) (fun a => ih a)

theorem plainly_stringSize (s : Text) (a : Account) : Plainly (l.stringSize s a) :=
  plainly_bind (plainly_charge _ _) (fun a => plainly_charges s a)

theorem plainly_intSize (i : Int) (a : Account) : Plainly (l.intSize i a) := by
  unfold Limits.intSize
  split
  · exact plainly_error (by decide)
  · split
    · exact plainly_error (by decide)
    · exact plainly_charge _ _

mutual

theorem plainly_visit (depth : Nat) : ∀ (v : Json) (a : Account), Plainly (l.visit depth v a)
  | .null, _ => plainly_bind (plainly_enter _ _) (fun _ => plainly_charge _ _)
  | .bool _, _ => plainly_bind (plainly_enter _ _) (fun _ => plainly_charge _ _)
  | .int i, _ => plainly_bind (plainly_enter _ _) (fun _ => plainly_intSize i _)
  | .float _, _ => plainly_bind (plainly_enter _ _) (fun _ => plainly_charge _ _)
  | .str s, _ => plainly_bind (plainly_enter _ _) (fun _ => plainly_stringSize s _)
  | .arr items, _ => plainly_bind (plainly_enter _ _) (fun _ =>
      plainly_bind (plainly_open _ _) (fun _ => plainly_visitItems (depth + 1) items _))
  | .obj fields, _ => plainly_bind (plainly_enter _ _) (fun _ =>
      plainly_bind (plainly_open _ _) (fun _ => plainly_visitFields (depth + 1) fields _))

theorem plainly_visitItems (depth : Nat) : ∀ (xs : List Json) (a : Account),
    Plainly (l.visitItems depth xs a)
  | [], a => plainly_ok a
  | x :: xs, _ => plainly_bind (plainly_visit depth x _) (fun _ => plainly_visitItems depth xs _)

theorem plainly_visitFields (depth : Nat) : ∀ (fs : List (Text × Json)) (a : Account),
    Plainly (l.visitFields depth fs a)
  | [], a => plainly_ok a
  | (k, v) :: fs, _ => plainly_bind (plainly_stringSize k _) (fun _ =>
      plainly_bind (plainly_charge _ _) (fun _ =>
        plainly_bind (plainly_visit depth v _) (fun _ => plainly_visitFields depth fs _)))

end

theorem validateJson_plain {v : Json} {code : String} (h : validateJson l v = some code) :
    isStorageCode code = false := by
  unfold validateJson at h
  split at h
  · exact absurd h nofun
  next code' hcode => exact Option.some.inj h ▸ plainly_visit 0 v _ code' hcode

end Walk

theorem encode_plain {j : Journal} {revision : Nat} {deadline data : Json} {code : String}
    (h : j.encode revision deadline data = .error code) : isStorageCode code = false := by
  unfold Journal.encode at h
  split at h
  next code' hcode => exact Except.error.inj h ▸ validateJson_plain hcode
  · split at h
    · exact Except.error.inj h ▸ rfl
    · split at h
      · exact Except.error.inj h ▸ rfl
      · exact absurd h nofun

/-! ## The commit -/

/-- The task directory and the state file. -/
def Disk.layout (d : Disk) : Bool × Option FileNode := (d.task, d.state)

section Commit

variable {j : Journal} {v₀ : Bool × Option FileNode}
  {K : Option Failure → Bool × Option FileNode → Prop}

/-- The state file, if any, holds a state of this journal. -/
def Readable (j : Journal) (v : Bool × Option FileNode) : Prop :=
  ∀ f, v.2 = some f → v.1 = true ∧ ∃ e, Wrote j f.bytes e

/-- The state file is there, with these bytes. -/
def Holds (raw : Bytes) (v₀ v : Bool × Option FileNode) : Prop :=
  v.1 = v₀.1 ∧ ∃ f, v.2 = some f ∧ f.bytes = raw

/-- How a commit of `raw` may end early. -/
def Ended (raw : Bytes) (v₀ : Bool × Option FileNode) (e : Option Failure)
    (v : Bool × Option FileNode) : Prop :=
  (v = v₀ ∧ e ≠ some (.error "storage_durability_unknown")) ∨
    (Holds raw v₀ v ∧ e ≠ some (.error "storage_write_failed"))

theorem harmless_ended (raw : Bytes) : Harmless (Ended raw v₀) v₀ :=
  fun _ he => Or.inl ⟨rfl, he⟩

theorem readStateFile_triple (hv : Readable j v₀) (hK : Harmless K v₀) :
    Triple (onDisk Disk.layout) (fun v => v = v₀) (readStateFile j)
      (fun e v => v = v₀ ∧ ∃ f, v₀.2 = some f ∧ Wrote j f.bytes e) K := by
  refine at_requireWriter hK (at_getDisk (fun d hd => ?_))
  split
  · refine triple_raise ?_
    rintro v rfl
    exact hK.error (by decide)
  next f hf =>
    have hstate : v₀.2 = some f := hd ▸ hf
    obtain ⟨-, e, he⟩ := hv f hstate
    refine at_outside hK (by decide) (at_lift ?_ ?_)
    · intro code hcode
      rw [he.read] at hcode
      exact absurd hcode nofun
    · intro e' he'
      obtain rfl := Except.ok.inj (he.read.symm.trans he')
      refine at_rejectIf hK (by decide) (fun _ => at_setMemory (fun _ _ => rfl) ?_)
      exact triple_pure (fun v h => ⟨h, f, hstate, he⟩)

theorem observedState_triple (hv : Readable j v₀) (hcrash : K none v₀) :
    Triple (onDisk Disk.layout) (fun v => v = v₀) (observedState j)
      (fun o v => v = v₀ ∧ (o = none ∨ ∃ e f, o = some e ∧ v₀.2 = some f ∧ Wrote j f.bytes e)) K := by
  refine triple_handle (H := fun _ v => v = v₀) (at_getDisk (fun d hd => ?_))
    (fun _ => triple_pure (fun v h => ⟨h, Or.inl rfl⟩))
  split
  · exact triple_pure (fun v h => ⟨h, Or.inl rfl⟩)
  · refine triple_bind (readStateFile_triple hv ?_) (fun e => triple_pure (fun v h => ?_))
    · rintro (_ | e) -
      · exact hcrash
      · exact rfl
    · obtain ⟨rfl, f, hf, he⟩ := h
      exact ⟨rfl, Or.inr ⟨e, f, rfl, hf, he⟩⟩

theorem unlinkTemporary_triple {inode : Nat} (hcrash : K none v₀) :
    Triple (onDisk Disk.layout) (fun v => v = v₀) (unlinkTemporary inode)
      (fun _ v => v = v₀) K := by
  refine triple_handle (H := fun _ v => v = v₀) ?_ (fun _ => triple_pure (fun v hv => hv))
  refine triple_conseq (triple_fixes (fixes_allOrNothing (fun _ _ => rfl)) (fun _ _ hv => hv))
    (fun _ hv => hv) (fun _ _ hv => hv) ?_
  rintro (_ | e) v hv
  · exact hv ▸ hcrash
  · exact hv

/-- A failed replacement leaves the old file or the new one. -/
theorem replaceState_triple {raw : Bytes} {initial : Bool} {previous : Option FileNode} {inode : Nat} :
    Triple (onDisk Disk.layout) (fun v => v = v₀) (replaceState raw initial previous inode)
      (fun _ v => Holds raw v₀ v) (fun _ v => v = v₀ ∨ Holds raw v₀ v) := by
  have hleft : Harmless (fun _ v => v = v₀ ∨ Holds raw v₀ v) v₀ := fun _ _ => Or.inl rfl
  refine triple_skip (fixes_allOrNothing (fun _ _ => rfl)) (fun _ _ hv => Or.inl hv) (fun _ => ?_)
  refine at_probe (fun _ => Or.inl rfl) (at_requireWriter hleft (at_probe (fun _ => Or.inl rfl) ?_))
  refine at_getDisk (fun d _ => at_rejectIf hleft (by decide) (fun _ =>
    at_rejectIf hleft (by decide) (fun _ => ?_)))
  refine triple_bind (Q := fun _ v => Holds raw v₀ v) ?_ (fun _ => ?_)
  · exact triple_allOrNothing
      (fun stamp v => (v.1, some { newFile inode stamp with bytes := raw })) (fun _ _ => rfl)
      (fun stamp => ⟨rfl, _, rfl, rfl⟩) (fun _ => Or.inl rfl) (fun _ stamp => Or.inr ⟨rfl, _, rfl, rfl⟩)
  · -- from here on the new file is in place
    refine triple_at (fun v hv => ?_)
    refine at_probe (fun _ => Or.inr hv) (at_probe (fun _ => Or.inr hv) ?_)
    intro s hs
    show Holds raw v₀ (Disk.layout s.disk)
    rw [show Disk.layout s.disk = v from hs]
    exact hv

/-- What `_commit` reports, from the state that it reads back. -/
theorem classify_ended {raw : Bytes} {e' : Envelope} {v : Bool × Option FileNode}
    {o : Option Envelope} (hraw : Wrote j raw e')
    (hold : ∀ f, v₀.2 = some f → ∃ e, Wrote j f.bytes e ∧ e.revision < e'.revision)
    (hv : v = v₀ ∨ Holds raw v₀ v)
    (ho : o = none ∨ ∃ e f, o = some e ∧ v.2 = some f ∧ Wrote j f.bytes e) :
    Ended raw v₀ (some (classify raw e'.revision o)) v := by
  have hcode : ∀ {a b : String}, a ≠ b → some (Failure.error a) ≠ some (Failure.error b) := by
    intro a b hne h
    injection h with h
    injection h with h
    exact hne h
  rcases ho with rfl | ⟨e, f, rfl, hf, he⟩
  · rcases hv with hv | hv
    · exact Or.inl ⟨hv, hcode (by decide)⟩
    · exact Or.inr ⟨hv, hcode (by decide)⟩
  · unfold classify
    dsimp only
    rcases hv with rfl | hv
    · refine Or.inl ⟨rfl, ?_⟩
      obtain ⟨e₀, he₀, hlt⟩ := hold f hf
      obtain rfl := Except.ok.inj (he.read.symm.trans he₀.read)
      rw [if_neg (fun h => Nat.ne_of_lt hlt h.1), if_pos hlt]
      exact hcode (by decide)
    · refine Or.inr ⟨hv, ?_⟩
      obtain ⟨-, f', hf', rfl⟩ := hv
      obtain rfl := Option.some.inj (hf.symm.trans hf')
      obtain rfl := Except.ok.inj (he.read.symm.trans hraw.read)
      split
      · exact hcode (by decide)
      · rw [if_neg (Nat.lt_irrefl _)]
        exact hcode (by decide)

/-- **A commit** puts the new state in place; under a fault the old or the new one
    is stored, and the report says which. -/
theorem commit_triple {raw : Bytes} {e' : Envelope} {revision : Nat} {initial : Bool}
    (hv : Readable j v₀) (hraw : Wrote j raw e') (hrevision : e'.revision = revision)
    (hold : initial = false →
      ∀ f, v₀.2 = some f → ∃ e, Wrote j f.bytes e ∧ e.revision < e'.revision) :
    Triple (onDisk Disk.layout) (fun v => v = v₀) (commit j raw revision initial)
      (fun _ v => Holds raw v₀ v) (Ended raw v₀) := by
  obtain rfl := hrevision
  have hleft : Harmless (Ended raw v₀) v₀ := harmless_ended raw
  unfold commit
  refine triple_bind (Q := fun _ v => v = v₀ ∧ v₀.1 = true) ?_ (fun _ => triple_pull (fun htask => ?_))
  · refine at_getDisk (fun d hd => at_rejectIf hleft (by decide) (fun _ =>
      at_outside hleft (by decide) ?_))
    unfold rejectIf raiseIf
    refine triple_ite (fun _ => triple_raise ?_) (fun hc => triple_pure ?_)
    · rintro v rfl
      exact hleft.error (by decide)
    · rintro v rfl
      refine ⟨rfl, ?_⟩
      rw [← hd]
      exact Bool.eq_true_of_not_eq_false (fun h => hc ⟨rfl, h⟩)
  refine at_outside hleft (by decide) (at_getDisk (fun d hd => ?_))
  refine at_rejectIf hleft (by decide) (fun hinitial => at_rejectIf hleft (by decide) (fun _ =>
    at_rejectIf hleft (by decide) (fun _ => ?_)))
  have hold' : ∀ f, v₀.2 = some f → ∃ e, Wrote j f.bytes e ∧ e.revision < e'.revision := by
    cases initial with
    | false => exact hold rfl
    | true =>
        intro f hf
        have hstate : d.state = some f := by rw [← hf, ← hd]; rfl
        exact absurd ⟨rfl, by rw [hstate]; rfl⟩ hinitial
  refine triple_handle (H := fun _ v => v = v₀ ∨ Holds raw v₀ v) ?_ (fun _ => triple_at ?_)
  · refine triple_conseq replaceState_triple (fun _ h => h) (fun _ _ h => h) ?_
    rintro (_ | e) v (rfl | h)
    · exact Or.inl ⟨rfl, nofun⟩
    · exact Or.inr ⟨h, nofun⟩
    · exact Or.inl rfl
    · exact Or.inr h
  · intro v h
    have hreadable : Readable j v := by
      rcases h with rfl | ⟨htask', f, hf, rfl⟩
      · exact hv
      · intro f' hf'
        obtain rfl := Option.some.inj (hf.symm.trans hf')
        exact ⟨htask'.trans htask, e', hraw⟩
    have hcrash : Ended raw v₀ none v := h.elim (fun h => Or.inl ⟨h, nofun⟩) (fun h => Or.inr ⟨h, nofun⟩)
    refine at_setMemory (fun _ _ => rfl) (triple_bind (observedState_triple hreadable hcrash) ?_)
    intro o
    refine triple_bind (Q := fun _ w => w = v ∧
      (o = none ∨ ∃ e f, o = some e ∧ v.2 = some f ∧ Wrote j f.bytes e)) ?_ (fun _ => triple_raise ?_)
    · refine triple_at ?_
      rintro w ⟨rfl, ho⟩
      exact triple_post (unlinkTemporary_triple hcrash) (fun _ w hw => ⟨hw, ho⟩)
    · rintro w ⟨rfl, ho⟩
      exact classify_ended hraw hold' h ho

/-! ## The operations -/

theorem load_triple (hv : Readable j v₀) (hK : Harmless K v₀) :
    Triple (onDisk Disk.layout) (fun v => v = v₀) (load j)
      (fun e v => v = v₀ ∧ ∃ f, v₀.2 = some f ∧ Wrote j f.bytes e) K :=
  at_requireWriter hK (at_getDisk (fun _ _ => at_rejectIf hK (by decide) (fun _ =>
    at_rejectIf hK (by decide) (fun _ => readStateFile_triple hv hK))))

theorem harmless_plain {code : String} (hK : Harmless K v₀) (h : isStorageCode code = false) :
    K (some (.error code)) v₀ := by
  refine hK.error ?_
  rintro rfl
  exact absurd h (by decide)

/-- What `save` may put in place of the state `e`. -/
structure Saved (j : Journal) (e : Envelope) (data : Json) (raw : Bytes) : Prop where
  phase : phaseData data (some e.data) false = none
  encoded : j.encode (e.revision + 1) e.deadline data = .ok raw

/-- What `create` may put in place. -/
structure Created (j : Journal) (deadline data : Json) (raw : Bytes) : Prop where
  finite : finiteDeadline deadline = true
  positive : 0 < numberValue deadline
  phase : phaseData data none true = none
  encoded : j.encode 0 deadline data = .ok raw

theorem Saved.wrote {e : Envelope} {data : Json} {raw raw' : Bytes} (hj : j.Sound)
    (hdata : Value data) (h : Saved j e data raw) (he : Wrote j raw' e) :
    Wrote j raw (j.envelope (e.revision + 1) e.deadline data) :=
  wrote_encode hj he.deadline.1 he.deadline.2.1 he.deadline.2.2 hdata (phaseData_none h.phase)
    h.encoded

theorem Created.wrote {deadline data : Json} {raw : Bytes} (hj : j.Sound) (hdeadline : Value deadline)
    (hdata : Value data) (h : Created j deadline data raw) :
    Wrote j raw (j.envelope 0 deadline data) :=
  wrote_encode hj hdeadline h.finite h.positive hdata (phaseData_none h.phase) h.encoded

/-- **A save** from the state `e` of the file `f`: early ends keep `e`, or are those
    of the commit of the next state. -/
theorem save_triple {expected : Int} {data : Json} (hj : j.Sound) (hdata : Value data)
    (hv : Readable j v₀) :
    Triple (onDisk Disk.layout) (fun v => v = v₀) (save j expected data)
      (fun a v => ∃ f e raw, v₀.2 = some f ∧ Wrote j f.bytes e ∧ e.revision = expected ∧
        Saved j e data raw ∧ Holds raw v₀ v ∧
        a = { document := j.document (e.revision + 1) e.deadline data
              revision := e.revision + 1, deadline := e.deadline, data := data })
      (fun o v => (v = v₀ ∧ o ≠ some (.error "storage_durability_unknown")) ∨
        ∃ f e raw, v₀.2 = some f ∧ Wrote j f.bytes e ∧ e.revision = expected ∧ Saved j e data raw ∧
          Ended raw v₀ o v) := by
  have hleft : Harmless (fun o v => (v = v₀ ∧ o ≠ some (.error "storage_durability_unknown")) ∨
      ∃ f e raw, v₀.2 = some f ∧ Wrote j f.bytes e ∧ e.revision = expected ∧ Saved j e data raw ∧
        Ended raw v₀ o v) v₀ := fun o ho => Or.inl ⟨rfl, ho⟩
  refine at_requireWriter hleft (at_rejectIf hleft (by decide) (fun _ => ?_))
  refine triple_bind (load_triple hv hleft) (fun e => ?_)
  refine triple_at ?_
  rintro v ⟨rfl, f, hf, he⟩
  refine at_rejectIf hleft (by decide) (fun hrevision => ?_)
  refine at_rejectOn (fun code hcode => harmless_plain hleft (validateJson_plain hcode)) (fun _ => ?_)
  refine at_rejectOn (fun code hcode => harmless_plain hleft (phaseData_plain hcode)) (fun hphase => ?_)
  refine at_lift (fun code hcode => harmless_plain hleft (encode_plain hcode)) (fun raw hraw => ?_)
  have hsaved : Saved j e data raw := ⟨hphase, hraw⟩
  refine triple_bind (triple_conseq (commit_triple hv (hsaved.wrote hj hdata he) rfl ?_)
    (fun _ h => h) (fun _ _ h => h) ?_) (fun _ => triple_pure ?_)
  · rintro - f' hf'
    obtain rfl := Option.some.inj (hf.symm.trans hf')
    exact ⟨e, he, Nat.lt_succ_self _⟩
  · intro o w h
    exact Or.inr ⟨f, e, raw, hf, he, not_not.mp hrevision, hsaved, h⟩
  · intro w h
    exact ⟨f, e, raw, hf, he, not_not.mp hrevision, hsaved, h, rfl⟩

/-- The task directory is made, or not. -/
theorem createTask_triple (hK : ∀ o v, v.2 = v₀.2 → o ≠ some (.error "storage_durability_unknown") →
    K o v) : Triple (onDisk Disk.layout) (fun v => v = v₀) createTask
      (fun _ v => v = (true, v₀.2)) K := by
  refine triple_handle (H := fun _ v => v.2 = v₀.2) ?_ (fun _ => triple_raise ?_)
  · refine triple_bind (triple_allOrNothing (fun _ v => (true, v.2)) (fun _ _ => rfl)
      (Q := fun _ v => v = (true, v₀.2)) (fun _ => rfl) ?_ ?_) (fun _ => ?_)
    · rintro (_ | e)
      · exact hK none v₀ rfl nofun
      · exact rfl
    · rintro (_ | e) _
      · exact hK none _ rfl nofun
      · exact rfl
    · refine triple_conseq (triple_fixes (fixes_onDisk fixes_probe) (fun _ _ hv => hv))
        (fun _ hv => hv) (fun _ _ hv => hv) ?_
      rintro (_ | e) v rfl
      · exact hK none _ rfl nofun
      · exact rfl
  · intro v hv
    exact hK _ v hv (fun h => by injection h with h; injection h with h; exact absurd h (by decide))

/-- **A create** makes the task directory and commits the first state. -/
theorem create_triple {deadline data : Json} (hj : j.Sound) (hdeadline : Value deadline)
    (hdata : Value data) (hv : Readable j v₀) :
    Triple (onDisk Disk.layout) (fun v => v = v₀) (create j deadline data)
      (fun a v => ∃ raw, v₀ = (false, none) ∧ Created j deadline data raw ∧
        Holds raw (true, none) v ∧
        a = { document := j.document 0 deadline data, revision := 0, deadline := deadline, data := data })
      (fun o v => (v.2 = v₀.2 ∧ (v₀.1 = true → v.1 = true) ∧
          o ≠ some (.error "storage_durability_unknown")) ∨
        ∃ raw, v₀ = (false, none) ∧ Created j deadline data raw ∧ Ended raw (true, none) o v) := by
  have hleft : Harmless (fun o v => (v.2 = v₀.2 ∧ (v₀.1 = true → v.1 = true) ∧
          o ≠ some (.error "storage_durability_unknown")) ∨
        ∃ raw, v₀ = (false, none) ∧ Created j deadline data raw ∧ Ended raw (true, none) o v) v₀ :=
    fun o ho => Or.inl ⟨rfl, id, ho⟩
  refine at_requireWriter hleft (at_getDisk (fun d hd => at_rejectIf hleft (by decide) (fun _ => ?_)))
  refine at_monotonic (fun now => at_rejectIf hleft (by decide) (fun hnow => ?_))
  refine at_rejectOn (fun code hcode => harmless_plain hleft (phaseData_plain hcode)) (fun hphase => ?_)
  refine at_lift (fun code hcode => harmless_plain hleft (encode_plain hcode)) (fun raw hraw => ?_)
  refine at_rejectIf hleft (by decide) (fun htask => ?_)
  rw [not_or, not_or, not_le] at hnow
  have hcreated : Created j deadline data raw :=
    { finite := Bool.eq_true_of_not_eq_false hnow.1
      positive := lt_of_le_of_lt (Nat.cast_nonneg now) hnow.2.1
      phase := hphase, encoded := hraw }
  have hnone : v₀ = (false, none) := by
    have hfalse : v₀.1 = false := by
      rw [← hd]
      exact Bool.eq_false_iff.mpr htask
    refine Prod.ext hfalse (Option.eq_none_iff_forall_ne_some.mpr (fun f hf => ?_))
    exact absurd (hfalse.symm.trans (hv f hf).1) nofun
  obtain rfl := hnone
  refine triple_bind (createTask_triple (fun o v hstate ho => Or.inl ⟨hstate, nofun, ho⟩)) (fun _ => ?_)
  have hmade : Harmless (fun o v => (v.2 = none ∧ (false = true → v.1 = true) ∧
          o ≠ some (.error "storage_durability_unknown")) ∨
        ∃ raw, (false, (none : Option FileNode)) = (false, none) ∧ Created j deadline data raw ∧
          Ended raw (true, none) o v) (true, none) :=
    fun o ho => Or.inl ⟨rfl, nofun, ho⟩
  refine at_outside hmade (by decide) ?_
  refine triple_bind (triple_conseq (commit_triple
    (fun f hf => absurd hf (Option.some_ne_none f).symm)
    (hcreated.wrote hj hdeadline hdata) rfl nofun) (fun _ h => h) (fun _ _ h => h)
    (fun o w h => Or.inr ⟨raw, rfl, hcreated, h⟩)) (fun _ => ?_)
  refine triple_at (fun w hw => at_setMemory (fun _ _ => rfl) (triple_pure ?_))
  rintro w' rfl
  exact ⟨raw, rfl, hcreated, hw, rfl⟩

end Commit

/-! ## The evidence leaves the state alone -/

section Still

variable {α β : Type}

/-- The layout stays, and no unknown durability is reported. -/
def Still (m : Store α) : Prop :=
  ∀ (v₀ : Bool × Option FileNode) (K : Option Failure → Bool × Option FileNode → Prop),
    Harmless K v₀ → Triple (onDisk Disk.layout) (fun v => v = v₀) m (fun _ v => v = v₀) K

theorem still_pure (a : α) : Still (pure a : Store α) := fun _ _ _ => triple_pure (fun _ hv => hv)

theorem still_bind {m : Store α} {k : α → Store β} (hm : Still m) (hk : ∀ a, Still (k a)) :
    Still (m >>= k) :=
  fun v₀ K hK => triple_bind (hm v₀ K hK) (fun a => hk a v₀ K hK)

theorem still_getDisk {k : Disk → Store β} (hk : ∀ d, Still (k d)) : Still (getDisk >>= k) :=
  fun v₀ K hK => at_getDisk (fun d _ => hk d v₀ K hK)

theorem still_raise {e : Failure} (he : e ≠ .error "storage_durability_unknown") :
    Still (raise e : Store α) := by
  intro v₀ K hK
  refine triple_raise ?_
  rintro v rfl
  exact hK _ (fun h => he (Option.some.inj h))

theorem still_reject {code : String} (hcode : code ≠ "storage_durability_unknown") :
    Still (reject code : Store α) :=
  still_raise (fun h => hcode (Failure.error.inj h))

theorem still_rejectIf {c : Prop} [Decidable c] {code : String}
    (hcode : code ≠ "storage_durability_unknown") : Still (rejectIf c code) := by
  unfold rejectIf raiseIf
  split
  · exact still_reject hcode
  · exact still_pure ()

theorem still_handle {m : Store α} {h : Failure → Store α} (hm : Still m)
    (hh : ∀ e, e ≠ .error "storage_durability_unknown" → Still (h e)) : Still (handle m h) := by
  intro v₀ K hK
  refine triple_handle (H := fun e v => v = v₀ ∧ e ≠ .error "storage_durability_unknown") ?_ ?_
  · refine hm v₀ _ ?_
    rintro (_ | e) he
    · exact hK.crash
    · exact ⟨rfl, fun h => he (congrArg some h)⟩
  · intro e
    exact triple_pull (fun he => hh e he v₀ K hK)

/-- Effects that the layout does not see, with their failures replaced. -/
theorem still_handle_fixes {m : Store α} {h : Failure → Store α} (hm : Fixes (onDisk Disk.layout) m)
    (hh : ∀ e, Still (h e)) : Still (handle m h) := by
  intro v₀ K hK
  refine triple_handle (H := fun _ v => v = v₀) ?_ (fun e => hh e v₀ K hK)
  refine triple_conseq (triple_fixes hm (fun _ _ hv => hv)) (fun _ hv => hv) (fun _ _ hv => hv) ?_
  rintro (_ | e) v hv
  · exact hv ▸ hK.crash
  · exact hv

theorem still_check {code : String} (hcode : code ≠ "storage_durability_unknown") :
    Still (check code) :=
  still_handle_fixes (fixes_onDisk fixes_probe) (fun _ => still_reject hcode)

theorem still_attempt {m : Store Unit} (hm : Fixes (onDisk Disk.layout) m) : Still (attempt m) :=
  still_handle_fixes hm (fun _ => still_raise nofun)

theorem still_lift {x : Except String α} (hx : ∀ code, x = .error code →
    code ≠ "storage_durability_unknown") : Still (lift x) := by
  cases x with
  | ok a => exact still_pure a
  | error code => exact still_reject (hx code rfl)

theorem still_requireWriter (task : Bool) : Still (requireWriter task) :=
  fun _ _ hK => requireWriter_triple hK

theorem ne_of_plain {code : String} (h : isStorageCode code = false) :
    code ≠ "storage_durability_unknown" := by
  rintro rfl
  exact absurd h (by decide)

variable (j : Journal)

theorem still_readFile (f : FileNode) : Still (readFile j f) :=
  still_bind (still_rejectIf (by decide)) (fun _ => still_bind (still_check (by decide))
    (fun _ => still_pure _))

theorem still_unlinkEvidence (inode : Nat) : Still (unlinkEvidence inode) :=
  still_handle_fixes (fixes_allOrNothing (fun _ _ => rfl)) (fun _ => still_pure ())

theorem still_makeDirectory : Still makeDirectory := by
  refine still_getDisk (fun d => still_bind ?_ (fun _ => still_check (by decide)))
  unfold whenever
  split
  · exact still_handle_fixes (fixes_bind (fixes_allOrNothing (fun _ _ => rfl))
      (fun _ => fixes_onDisk fixes_probe)) (fun _ => still_reject (by decide))
  · exact still_pure ()

theorem withCode_ne {code : String} (hcode : code ≠ "storage_durability_unknown") {e : Failure}
    (he : e ≠ .error "storage_durability_unknown") :
    withCode code e ≠ .error "storage_durability_unknown" := by
  cases e with
  | error code' => exact he
  | osError => exact fun h => hcode (Failure.error.inj h)

theorem still_placeEvidence (name : Text) (inode : Nat) (raw : Bytes) :
    Still (placeEvidence name inode raw) := by
  refine still_handle ?_ (fun e he => still_bind (still_unlinkEvidence inode)
    (fun _ => still_raise (withCode_ne (by decide) he)))
  refine still_bind (still_attempt (fixes_allOrNothing (fun _ _ => rfl))) (fun _ => ?_)
  refine still_bind (still_attempt (fixes_onDisk fixes_probe)) (fun _ => ?_)
  refine still_bind (still_requireWriter true) (fun _ => still_bind (still_check (by decide)) (fun _ => ?_))
  exact still_handle_fixes (fixes_allOrNothing (fun _ _ => rfl)) (fun _ => still_reject (by decide))

theorem still_confirmEvidence (inode : Nat) : Still (confirmEvidence inode) := by
  refine still_handle ?_ (fun e he => still_bind (still_unlinkEvidence inode)
    (fun _ => still_raise (withCode_ne (by decide) he)))
  exact still_bind (still_check (by decide)) (fun _ => still_attempt (fixes_onDisk fixes_probe))

theorem still_repeatEvidence (name : Text) (raw : Bytes) (f : FileNode) :
    Still (repeatEvidence j name raw f) :=
  still_bind (still_readFile j f) (fun _ => still_bind (still_rejectIf (by decide)) (fun _ =>
    still_bind (still_check (by decide)) (fun _ => still_bind (still_readFile j f) (fun _ =>
      still_bind (still_rejectIf (by decide)) (fun _ => still_pure _)))))

theorem still_newEvidence (name : Text) (raw : Bytes) : Still (newEvidence j name raw) := by
  refine still_bind (still_check (by decide)) (fun _ => still_getDisk (fun d => ?_))
  refine still_bind (still_rejectIf (by decide)) (fun _ => ?_)
  refine still_bind (still_placeEvidence name d.nextInode raw) (fun _ => ?_)
  refine still_bind (still_confirmEvidence d.nextInode) (fun _ => still_getDisk (fun d' => ?_))
  split
  · exact still_reject (by decide)
  · exact still_bind (still_readFile j _) (fun _ => still_bind (still_rejectIf (by decide))
      (fun _ => still_pure _))

theorem evidenceBytes_plain {value : Json} {code : String}
    (h : j.evidenceBytes value = .error code) : isStorageCode code = false := by
  unfold Journal.evidenceBytes at h
  split at h
  next code' hcode => exact Except.error.inj h ▸ validateJson_plain hcode
  · split at h
    · exact Except.error.inj h ▸ rfl
    · split at h
      · exact Except.error.inj h ▸ rfl
      · exact absurd h nofun

theorem still_writeEvidence (name : Text) (value : Json) : Still (writeEvidence j name value) := by
  refine still_bind (still_requireWriter true) (fun _ => still_bind (still_rejectIf (by decide)) (fun _ => ?_))
  refine still_bind (still_lift (fun code h => ne_of_plain (evidenceBytes_plain j h))) (fun raw => ?_)
  refine still_bind still_makeDirectory (fun _ => still_bind (still_requireWriter true) (fun _ => ?_))
  refine still_getDisk (fun d => ?_)
  split
  · exact still_repeatEvidence j name raw _
  · exact still_newEvidence j name raw

theorem decode_plain {l : Limits} {raw : Bytes} {code : String} (h : decode l raw = .error code) :
    isStorageCode code = false := by
  unfold decode at h
  split at h
  · exact Except.error.inj h ▸ rfl
  · split at h
    · exact Except.error.inj h ▸ rfl
    · split at h
      · exact Except.error.inj h ▸ rfl
      · exact Except.error.inj h ▸ rfl
      · split at h
        next code' hcode => exact Except.error.inj h ▸ validateJson_plain hcode
        · split at h
          · exact absurd h nofun
          · exact Except.error.inj h ▸ rfl

theorem still_readEvidence (ref : EvidenceRef) : Still (readEvidence j ref) := by
  refine still_bind (still_requireWriter true) (fun _ => still_getDisk (fun d => ?_))
  refine still_bind (still_rejectIf (by decide)) (fun _ => still_bind (still_rejectIf (by decide)) (fun _ => ?_))
  refine still_bind (still_rejectIf (by decide)) (fun _ => ?_)
  split
  · exact still_reject (by decide)
  · refine still_bind (still_readFile j _) (fun raw => still_bind (still_rejectIf (by decide)) (fun _ => ?_))
    exact still_lift (fun code h => ne_of_plain (decode_plain h))

end Still

/-! ## One command -/

/-- The state that a command puts in place of what was stored. -/
inductive Advances (j : Journal) : Command → Option Envelope → Envelope → Prop where
  | created {deadline data : PyJson} :
      Advances j (.create deadline data) none (j.envelope 0 deadline.value data.value)
  | saved {e : Envelope} {data : PyJson} (h : phaseData data.value (some e.data) false = none) :
      Advances j (.save e.revision data) (some e) (j.envelope (e.revision + 1) e.deadline data.value)

/-- What one command does to the stored state, and what its answer says of it. -/
structure StepSafe (j : Journal) (c : Command) (before after : Option Envelope)
    (o : Outcome Failure Answer) : Prop where
  moves : after = before ∨ ∃ e, Advances j c before e ∧ after = some e
  returned : ∀ e, o = .done (.state e) → after = some e.normal ∧
    (Advances j c before e.normal ∨ c = .load ∧ before = some e)
  saved : ∀ e expected data, o = .done (.state e) → c = .save expected data →
    ∃ e₀, before = some e₀ ∧ (e₀.revision : Int) = expected ∧ e.revision = e₀.revision + 1
  failed : o = .raised (.error "storage_write_failed") → after = before
  unknown : o = .raised (.error "storage_durability_unknown") →
    ∃ e, Advances j c before e ∧ after = some e

section Perform

variable {j : Journal} {v₀ : Bool × Option FileNode}

/-- The stored state of a layout. -/
def Journal.seen (j : Journal) (v : Bool × Option FileNode) : Option Envelope :=
  v.2.bind (fun f => (j.readState f.bytes).toOption)

theorem seen_wrote {f : FileNode} {e : Envelope} {v : Bool × Option FileNode} (hf : v.2 = some f)
    (he : Wrote j f.bytes e) : j.seen v = some e := by
  unfold Journal.seen
  rw [hf]
  show (j.readState f.bytes).toOption = some e
  rw [he.read]
  rfl

theorem seen_holds {raw : Bytes} {e : Envelope} {v : Bool × Option FileNode} (h : Holds raw v₀ v)
    (he : Wrote j raw e) : j.seen v = some e := by
  obtain ⟨-, f, hf, rfl⟩ := h
  exact seen_wrote hf he

theorem readable_holds {raw : Bytes} {e : Envelope} {v : Bool × Option FileNode}
    (h : Holds raw v₀ v) (htask : v₀.1 = true) (he : Wrote j raw e) : Readable j v := by
  obtain ⟨h1, f, hf, rfl⟩ := h
  intro f' hf'
  obtain rfl := Option.some.inj (hf.symm.trans hf')
  exact ⟨h1.trans htask, e, he⟩

/-- A layout with the same state file, in a task directory that is still there. -/
theorem readable_same {v : Bool × Option FileNode} (hv : Readable j v₀) (h : v.2 = v₀.2)
    (htask : v₀.1 = true → v.1 = true) : Readable j v := by
  intro f hf
  obtain ⟨h1, h2⟩ := hv f (h.symm.trans hf)
  exact ⟨htask h1, h2⟩

/-- Early ends of a commit. -/
theorem stepSafe_ended {c : Command} {raw : Bytes} {e : Envelope} {o : Option Failure}
    {v : Bool × Option FileNode} (h : Ended raw v₀ o v) (he : Wrote j raw e)
    (hadvance : Advances j c (j.seen v₀) e) :
    StepSafe j c (j.seen v₀) (j.seen v)
      (early o) := by
  rcases h with ⟨rfl, ho⟩ | ⟨h, ho⟩
  · refine { moves := Or.inl rfl, returned := ?_, saved := ?_, failed := fun _ => rfl, unknown := ?_ }
    · cases o <;> exact nofun
    · cases o <;> exact nofun
    · intro hunknown
      cases o with
      | none => exact absurd hunknown nofun
      | some f =>
          obtain rfl := Outcome.raised.inj hunknown
          exact absurd rfl ho
  · have hseen := seen_holds h he
    refine { moves := Or.inr ⟨e, hadvance, hseen⟩, returned := ?_, saved := ?_, failed := ?_
             unknown := fun _ => ⟨e, hadvance, hseen⟩ }
    · cases o <;> exact nofun
    · cases o <;> exact nofun
    · intro hfailed
      cases o with
      | none => exact absurd hfailed nofun
      | some f =>
          obtain rfl := Outcome.raised.inj hfailed
          exact absurd rfl ho

/-- Early ends that keep the state file. -/
theorem stepSafe_kept {c : Command} {o : Option Failure} {before after : Option Envelope}
    (h : after = before) (ho : o ≠ some (.error "storage_durability_unknown")) :
    StepSafe j c before after (early o) := by
  refine { moves := Or.inl h, returned := ?_, saved := ?_, failed := fun _ => h, unknown := ?_ }
  · cases o <;> exact nofun
  · cases o <;> exact nofun
  · intro hunknown
    cases o with
    | none => exact absurd hunknown nofun
    | some f =>
        obtain rfl := Outcome.raised.inj hunknown
        exact absurd rfl ho

/-- What is true after a command, as the two halves of a triple. -/
def AfterStep (j : Journal) (c : Command) (v₀ : Bool × Option FileNode)
    (o : Outcome Failure Answer) (v : Bool × Option FileNode) : Prop :=
  Readable j v ∧ StepSafe j c (j.seen v₀) (j.seen v) o

theorem perform_triple (hj : j.Sound) (hv : Readable j v₀) (c : Command) :
    Triple (onDisk Disk.layout) (fun v => v = v₀) (perform j c)
      (fun a v => AfterStep j c v₀ (.done a) v)
      (fun o v => AfterStep j c v₀ (early o) v) := by
  cases c with
  | «open» resume =>
      refine at_setDisk (fun v => v) (fun _ => rfl) (triple_pure ?_)
      rintro v rfl
      exact ⟨hv, { moves := Or.inl rfl, returned := nofun, saved := nofun
                   failed := nofun, unknown := nofun }⟩
  | create deadline data =>
      refine triple_bind (triple_conseq (create_triple hj deadline.sound data.sound hv)
        (fun _ h => h) (fun _ _ h => h) ?_) (fun a => triple_pure ?_)
      · rintro o v (⟨h, htask, ho⟩ | ⟨raw, rfl, hcreated, h⟩)
        · refine ⟨readable_same hv h htask, stepSafe_kept ?_ ho⟩
          unfold Journal.seen
          rw [h]
        · have he := hcreated.wrote hj deadline.sound data.sound
          have hstep : StepSafe j (.create deadline data) (j.seen (true, none)) (j.seen v) (early o) :=
            stepSafe_ended h he .created
          refine ⟨?_, hstep⟩
          rcases h with ⟨rfl, -⟩ | ⟨h, -⟩
          · exact fun f hf => absurd hf (Option.some_ne_none f).symm
          · exact readable_holds h rfl he
      · rintro v ⟨raw, rfl, hcreated, h, rfl⟩
        have he := hcreated.wrote hj deadline.sound data.sound
        have hseen := seen_holds h he
        refine ⟨readable_holds h rfl he,
          { moves := Or.inr ⟨_, .created, hseen⟩, returned := ?_, saved := nofun
            failed := nofun, unknown := nofun }⟩
        intro e heq
        obtain rfl := Answer.state.inj (Outcome.done.inj heq)
        exact ⟨hseen, Or.inl .created⟩
  | load =>
      refine triple_bind (load_triple (K := fun o v => AfterStep j .load v₀ (early o) v) hv
        (fun o ho => ⟨hv, stepSafe_kept rfl ho⟩)) (fun e => triple_pure ?_)
      rintro v ⟨rfl, f, hf, he⟩
      have hseen := seen_wrote hf he
      refine ⟨hv, { moves := Or.inl rfl, returned := ?_, saved := nofun
                    failed := nofun, unknown := nofun }⟩
      intro e' heq
      obtain rfl := Answer.state.inj (Outcome.done.inj heq)
      rw [he.normal]
      exact ⟨hseen, Or.inr ⟨rfl, hseen⟩⟩
  | save expected data =>
      refine triple_bind (triple_conseq (save_triple hj data.sound hv)
        (fun _ h => h) (fun _ _ h => h) ?_) (fun a => triple_pure ?_)
      · rintro o v (⟨rfl, ho⟩ | ⟨f, e, raw, hf, he, rfl, hsaved, h⟩)
        · exact ⟨hv, stepSafe_kept rfl ho⟩
        · have he' := hsaved.wrote hj data.sound he
          have hadvance : Advances j (.save e.revision data) (j.seen v₀)
              (j.envelope (e.revision + 1) e.deadline data.value) := by
            rw [seen_wrote hf he]
            exact .saved hsaved.phase
          refine ⟨?_, stepSafe_ended h he' hadvance⟩
          rcases h with ⟨rfl, -⟩ | ⟨h, -⟩
          · exact hv
          · exact readable_holds h (hv f hf).1 he'
      · rintro v ⟨f, e, raw, hf, he, rfl, hsaved, h, rfl⟩
        have he' := hsaved.wrote hj data.sound he
        have hadvance : Advances j (.save e.revision data) (j.seen v₀)
            (j.envelope (e.revision + 1) e.deadline data.value) := by
          rw [seen_wrote hf he]
          exact .saved hsaved.phase
        have hseen := seen_holds h he'
        refine ⟨readable_holds h (hv f hf).1 he',
          { moves := Or.inr ⟨_, hadvance, hseen⟩, returned := ?_, saved := ?_
            failed := nofun, unknown := nofun }⟩
        · intro e' heq
          obtain rfl := Answer.state.inj (Outcome.done.inj heq)
          exact ⟨hseen, Or.inl hadvance⟩
        · intro e' expected' data' heq hc
          obtain rfl := Answer.state.inj (Outcome.done.inj heq)
          injection hc with hexpected _
          exact ⟨e, seen_wrote hf he, hexpected, rfl⟩
  | write name value =>
      refine triple_bind (still_writeEvidence j name value.value v₀ _
        (fun o ho => ⟨hv, stepSafe_kept rfl ho⟩)) (fun ref => triple_pure ?_)
      rintro v rfl
      exact ⟨hv, { moves := Or.inl rfl, returned := nofun, saved := nofun
                   failed := nofun, unknown := nofun }⟩
  | read ref =>
      refine triple_bind (still_readEvidence j ref v₀ _
        (fun o ho => ⟨hv, stepSafe_kept rfl ho⟩)) (fun value => triple_pure ?_)
      rintro v rfl
      exact ⟨hv, { moves := Or.inl rfl, returned := nofun, saved := nofun
                   failed := nofun, unknown := nofun }⟩

end Perform

/-! ## Runs -/

/-- A run of commands, each in the process that is there then. -/
def run (j : Journal) : List Command → Machine Failure Disk → Machine Failure Disk
  | [], m => m
  | c :: cs, m => run j cs (afterwards (perform j c m))

section Runs

variable {j : Journal}

theorem afterwards_layout (r : Outcome Failure Answer × Machine Failure Disk) :
    (afterwards r).disk.layout = r.2.disk.layout := by
  obtain ⟨o, m⟩ := r
  cases o <;> rfl

/-- **One command from a readable disk.** -/
theorem perform_step (hj : j.Sound) {m : Machine Failure Disk} (hm : Readable j m.disk.layout)
    (c : Command) : AfterStep j c m.disk.layout (perform j c m).1 (perform j c m).2.disk.layout :=
  endsIn_outcome (perform_triple hj hm c m rfl)

theorem readable_run (hj : j.Sound) (cs : List Command) {m : Machine Failure Disk}
    (hm : Readable j m.disk.layout) : Readable j (run j cs m).disk.layout := by
  induction cs generalizing m with
  | nil => exact hm
  | cons c cs ih =>
      refine ih ?_
      rw [afterwards_layout]
      exact (perform_step hj hm c).1

/-- A stored state of a readable layout. -/
theorem seen_readable {v : Bool × Option FileNode} (hv : Readable j v) {e : Envelope}
    (h : j.seen v = some e) : ∃ f, v.2 = some f ∧ Wrote j f.bytes e := by
  cases hf : v.2 with
  | none =>
      unfold Journal.seen at h
      rw [hf] at h
      exact absurd h nofun
  | some f =>
      obtain ⟨-, e', he'⟩ := hv f hf
      obtain rfl := Option.some.inj (h.symm.trans (seen_wrote hf he'))
      exact ⟨f, rfl, he'⟩

/-- The state that a command puts in place comes later than what was stored. -/
theorem Advances.later {c : Command} {e e' : Envelope} (h : Advances j c (some e) e') :
    Later e e' := by
  cases h with
  | @saved _ data h =>
      refine later_of_phaseData ?_ rfl (Nat.le_succ _)
      exact (phaseData_sortKeys data.sound (some e.data) false).trans h

/-- **Along a run nothing is lost.** -/
theorem later_run (hj : j.Sound) (cs : List Command) {m : Machine Failure Disk} {e : Envelope}
    (hm : Readable j m.disk.layout) (h : j.seen m.disk.layout = some e) :
    ∃ e', j.seen (run j cs m).disk.layout = some e' ∧ Later e e' := by
  induction cs generalizing m e with
  | nil => exact ⟨e, h, Later.refl e⟩
  | cons c cs ih =>
      obtain ⟨hreadable, hstep⟩ := perform_step hj hm c
      rw [← afterwards_layout] at hreadable hstep
      obtain ⟨f, -, he⟩ := seen_readable hm h
      rcases hstep.moves with hsame | ⟨e', hadvance, hseen⟩
      · exact ih hreadable (hsame.trans h)
      · obtain ⟨e'', hseen', hlater⟩ := ih hreadable hseen
        rw [h] at hadvance
        exact ⟨e'', hseen', hadvance.later.trans he.proper.value hlater⟩

/-! ## Later loads -/

/-- The disk of a new process that resumes the transfer. -/
def Disk.resumed (d : Disk) : Disk := { d with memory := some ⟨true, false, none⟩ }

section Calm

variable {α β ν : Type} {g : Disk → ν} {deadline room : Nat} {P : ν → Prop} {R : β → ν → Prop}

theorem completes_outside {code : String} {k : Unit → Store β}
    (hk : Completes g deadline room P (k ()) R) :
    Completes g deadline room P (check code >>= k) R := by
  refine completes_bind (completes_handle (Q := fun _ v => P v) ?_) (fun _ => hk)
  exact completes_bind completes_observe (fun _ => completes_pure (fun _ hv => hv.1))

theorem completes_requireWriter {task : Bool} {d₀ : Disk} {k : Unit → Store β}
    {R : β → Disk → Prop} (hmemory : d₀.memory.isSome = true) (htask : task = true → d₀.task = true)
    (hk : Completes id deadline room (fun d => d = d₀) (k ()) R) :
    Completes id deadline room (fun d => d = d₀) (requireWriter task >>= k) R := by
  refine completes_bind (Q := fun _ d => d = d₀) (completes_getDisk (fun d hd => ?_)) (fun _ => hk)
  obtain rfl : d = d₀ := hd
  refine completes_check ?_ (completes_outside (completes_raiseIf ?_ (fun _ hv => hv)))
  · rw [← Option.not_isSome, hmemory]
    exact nofun
  · rintro ⟨h1, h2⟩
    rw [htask h1] at h2
    exact nomatch h2

theorem completes_setMemory {d₀ : Disk} {f : Memory → Memory} {k : Unit → Store β}
    {R : β → Disk → Prop}
    (hk : Completes id deadline room (fun d => d = { d₀ with memory := d₀.memory.map f }) (k ()) R) :
    Completes id deadline room (fun d => d = d₀) (setMemory f >>= k) R :=
  completes_setDisk (fun d : Disk => { d with memory := d.memory.map f }) (fun _ => rfl) hk

end Calm

/-- **A later load**: without outside failures, a process that resumes the transfer
    reads the stored state. -/
theorem load_resumed {deadline room : Nat} {d : Disk} {e : Envelope} (hd : Readable j d.layout)
    (h : j.stored d = some e) :
    Completes id deadline room (fun d' => d' = d.resumed) (load j) (fun a _ => a = e) := by
  obtain ⟨f, hf, he⟩ := seen_readable hd h
  have htask : d.resumed.task = true := (hd f hf).1
  refine completes_requireWriter rfl nofun (completes_getDisk (fun d' hd' => ?_))
  obtain rfl : d' = d.resumed := hd'
  refine completes_check (fun h => absurd h.1 nofun)
    (completes_check (fun h => absurd (htask.symm.trans h) nofun) ?_)
  refine completes_requireWriter rfl (fun _ => htask) (completes_getDisk (fun d' hd' => ?_))
  obtain rfl : d' = d.resumed := hd'
  split
  next hnone => exact absurd ((show d.resumed.state = some f from hf).symm.trans hnone) nofun
  next f' hf' =>
    obtain rfl := Option.some.inj ((show d.resumed.state = some f from hf).symm.trans hf')
    refine completes_outside ?_
    rw [he.read]
    show Completes id deadline room (fun d' => d' = d.resumed)
      (rejectIf (d.resumed.stateMoved f = true) "state_changed" >>= fun _ =>
        setStateId (some f.inode) >>= fun _ => pure e) (fun a _ => a = e)
    refine completes_check nofun ?_
    exact completes_setMemory (completes_pure (fun _ _ => rfl))

/-- A machine without a script is calm. -/
theorem calm_of_nil {m : Machine Failure Disk} (h : m.script = []) : Calm (m.clock + 1) m :=
  { quiet := by rw [h]; exact nofun, early := by rw [h]; exact Nat.lt_succ_self _ }

/-- What is true of a journal at any time of its life. -/
structure JournalSafe (j : Journal) (m : Machine Failure Disk) : Prop where
  /-- A state file can be read. -/
  readable : m.disk.state.isSome = true → (j.stored m.disk).isSome = true
  proper : ∀ e, j.stored m.disk = some e → Proper j e
  /-- The next command, whatever happens to it. -/
  step : ∀ c, StepSafe j c (j.stored m.disk) (j.stored (perform j c m).2.disk) (perform j c m).1
  /-- Every later run. -/
  later : ∀ cs e, j.stored m.disk = some e →
    ∃ e', j.stored (run j cs m).disk = some e' ∧ Later e e'
  loads : ∀ e, j.stored m.disk = some e → ∀ m', m'.disk = m.disk.resumed → m'.script = [] →
    (load j m').1 = .done e

/-- **The journal over its life**: whatever commands are given, with any data, and
    wherever they fail or crash, the readable states lose nothing. -/
theorem journal_safe (hj : j.Sound) (clock free : Nat) (script : List (Event Failure))
    (cs : List Command) :
    JournalSafe j (run j cs { disk := Disk.empty, clock := clock, free := free, script := script }) := by
  have hempty : Readable j Disk.empty.layout := fun f hf => absurd hf (Option.some_ne_none f).symm
  have hreadable := readable_run hj cs
    (show Readable j ({ disk := Disk.empty, clock := clock, free := free, script := script } :
      Machine Failure Disk).disk.layout from hempty)
  refine { readable := ?_, proper := ?_, step := ?_, later := ?_, loads := ?_ }
  · intro hstate
    obtain ⟨f, hf⟩ := Option.isSome_iff_exists.mp hstate
    obtain ⟨-, e, he⟩ := hreadable f hf
    have hseen : j.seen (run j cs _).disk.layout = some e := seen_wrote hf he
    exact Option.isSome_iff_exists.mpr ⟨e, hseen⟩
  · intro e h
    obtain ⟨f, -, he⟩ := seen_readable hreadable h
    exact he.proper
  · intro c
    exact (perform_step hj hreadable c).2
  · intro cs' e h
    exact later_run hj cs' hreadable h
  · intro e h m' hdisk hscript
    obtain ⟨a, s, hrun, -, -, rfl⟩ := load_resumed hreadable h m'
      (calm_of_nil hscript) (Nat.zero_le _) hdisk
    rw [hrun]

end Runs

/-- A journal of a small transfer. -/
def sampleJournal : Journal :=
  { device := 1, transferId := ascii "t1", binding := .obj [(ascii "transfer_id", .str (ascii "t1"))]
    limit := 4096, evidenceLimit := 2048, maxEvidenceFiles := 64, maxDuration := 600, maxDigits := 4300 }

theorem pyText_plain {s : Text} (h : isPlainText s = true) : PyText s := by
  intro c hc
  exact Nat.lt_trans (of_decide_eq_true (List.all_eq_true.mp h c hc)) (by decide)

theorem sound_sampleJournal : sampleJournal.Sound :=
  { transferId := pyText_plain (by decide)
    binding := ⟨rfl, ⟨pyText_plain (by decide), pyText_plain (s := ascii "t1") (by decide)⟩, trivial⟩ }

def sampleData : PyJson :=
  { value := .obj [(ascii "phase", .str (ascii "CREATED")), (ascii "published_ever", .bool false),
      (ascii "begin_attempted", .bool false)]
    sound := ⟨by decide, ⟨pyText_plain (by decide), pyText_plain (s := ascii "CREATED") (by decide)⟩,
      ⟨pyText_plain (by decide), trivial⟩, ⟨pyText_plain (by decide), trivial⟩, trivial⟩ }

/-- A created journal whose process dies at the first save. -/
theorem journal_safe_sample :
    sampleJournal.Sound ∧ JournalSafe sampleJournal (run sampleJournal
      [.open false, .create ⟨.int 100, trivial⟩ sampleData, .save 0 sampleData]
      { disk := Disk.empty, clock := 0, free := 0
        script := [{ tick := 0, stamp := 0, reading := 0, fault := .none },
          { tick := 0, stamp := 0, reading := 0, fault := .crash 0 }] }) :=
  ⟨sound_sampleJournal, journal_safe sound_sampleJournal 0 0 _ _⟩

end HostJournal
