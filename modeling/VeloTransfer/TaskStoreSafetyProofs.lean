import Mathlib
import VeloTransfer.TaskStoreRunProofs

/-! # No update of a task is lost

    Whoever holds the writer lock sees the shared state stand still, and nobody
    else extends the chain of versions.  So the revision that a save compares is
    the one its commit replaces, and each version is built on the one below it.
    A later load finds a version above every version that was synced before. -/

namespace TaskStore

open Interleaving Thread CanonicalJson JsonLine BoundedJson JsonDict GuestTerminal
open HostJournal (textOf PyJson)

variable (st : Store) (b : Json)

/-! ## What the threads keep -/

/-- The bytes of a version are read as a state of this task. -/
def Good (v : Version) : Prop :=
  v.bytes.length ≤ st.maxStateBytes ∧ ∃ e, st.readState v.bytes = .ok e ∧ st.pins b e

/-- The version above has the next revision. -/
def BuiltOn (v u : Version) : Prop :=
  ∃ e f, st.readState v.bytes = .ok e ∧ st.readState u.bytes = .ok f ∧ e.revision = f.revision + 1

/-- The chain of versions: all of them states of the task, each built on the one
    below it, and at least one of them synced. -/
structure Inv (s : Shared) : Prop where
  kept : s.synced ≠ []
  back : s.synced <:+ s.versions
  good : ∀ v ∈ s.versions, Good st b v
  chain : s.versions.IsChain (BuiltOn st)

/-- What a thread relies on: nothing moves while it holds the lock, and versions
    are only ever put on top. -/
def Rely (w : Nat) (s t : Shared) : Prop :=
  Inv st b s → Inv st b t ∧ (s.holder = some w → t = s) ∧ s.versions <:+ t.versions
    ∧ s.synced <:+ t.synced ∧ (t.holder = some w → s.holder = some w)

/-- What a thread keeps to: without the lock it changes nothing but the lock. -/
def Guar (w : Nat) (s t : Shared) : Prop :=
  Inv st b s → Inv st b t ∧ s.versions <:+ t.versions ∧ s.synced <:+ t.synced
    ∧ (s.holder = some w → t.holder = some w ∨ t.holder = none)
    ∧ (s.holder ≠ some w → t = s ∨ (s.holder = none ∧ t = { s with holder := some w }))

variable {st b} {w : Nat} {s t : Shared}

theorem rely_refl (w : Nat) (s : Shared) : Rely st b w s s :=
  fun h => ⟨h, fun _ => rfl, List.suffix_rfl, List.suffix_rfl, id⟩

theorem rely_trans (w : Nat) {s t u : Shared} (hst : Rely st b w s t) (htu : Rely st b w t u) :
    Rely st b w s u := by
  intro h
  obtain ⟨ht, heq, hv, hs, hlock⟩ := hst h
  obtain ⟨hu, heq', hv', hs', hlock'⟩ := htu ht
  refine ⟨hu, ?_, hv.trans hv', hs.trans hs', fun hh => hlock (hlock' hh)⟩
  intro hheld
  have hts := heq hheld
  rw [hts] at heq'
  exact heq' hheld

theorem guar_refl (w : Nat) (s : Shared) : Guar st b w s s :=
  fun h => ⟨h, List.suffix_rfl, List.suffix_rfl, Or.inl, fun _ => Or.inl rfl⟩

theorem guar_rely {v w : Nat} (hne : v ≠ w) (h : Guar st b v s t) : Rely st b w s t := by
  intro hinv
  obtain ⟨ht, hv, hs, hown, hquiet⟩ := h hinv
  refine ⟨ht, ?_, hv, hs, ?_⟩
  · intro hheld
    have hother : s.holder ≠ some v := by
      rw [hheld]
      exact fun heq => hne (Option.some.inj heq).symm
    rcases hquiet hother with heq | ⟨hnone, -⟩
    · exact heq
    · rw [hheld] at hnone
      exact absurd hnone nofun
  · intro hlater
    by_cases hother : s.holder = some v
    · rcases hown hother with hh | hh
      · rw [hlater] at hh
        exact absurd (Option.some.inj hh).symm hne
      · rw [hlater] at hh
        exact absurd hh nofun
    · rcases hquiet hother with rfl | ⟨-, rfl⟩
      · exact hlater
      · exact absurd (Option.some.inj hlater) hne

/-- A state whose chain is the same keeps the invariant. -/
theorem Inv.same (h : Inv st b s) (hv : t.versions = s.versions) (hs : t.synced = s.synced) :
    Inv st b t :=
  { kept := hs ▸ h.kept
    back := by rw [hs, hv]; exact h.back
    good := by rw [hv]; exact h.good
    chain := by rw [hv]; exact h.chain }

theorem leave_rely {v w : Nat} (s : Shared) (hne : v ≠ w) : Rely st b w s (s.free v) := by
  intro hinv
  refine ⟨hinv.same rfl rfl, ?_, List.suffix_rfl, List.suffix_rfl, ?_⟩
  · intro hheld
    have hother : s.holder ≠ some v := by
      rw [hheld]
      exact fun heq => hne (Option.some.inj heq).symm
    unfold Shared.free
    rw [if_neg hother]
  · intro hlater
    by_cases hother : s.holder = some v
    · have hnone : (s.free v).holder = none := if_pos hother
      rw [hlater] at hnone
      exact absurd hnone nofun
    · have hsame : (s.free v).holder = s.holder := if_neg hother
      exact hsame.symm.trans hlater

theorem halted_inv (h : Halted s t) (hinv : Inv st b s) : Inv st b t := by
  refine { kept := ?_, back := ?_, good := fun v hv => hinv.good v (h.back.mem hv), chain := ?_ }
  · rw [h.synced]
    intro hnil
    have hkept := h.kept
    rw [hnil] at hkept
    exact hinv.kept (List.suffix_nil.mp hkept)
  · rw [h.synced]
  · exact hinv.chain.suffix h.back

/-- A step of the holder that leaves the chain and its lock as they are. -/
theorem guar_same (hheld : s.holder = some w) (hholder : t.holder = s.holder)
    (hv : t.versions = s.versions) (hs : t.synced = s.synced) : Guar st b w s t := by
  intro hinv
  refine ⟨hinv.same hv hs, hv ▸ List.suffix_rfl, hs ▸ List.suffix_rfl, fun _ => ?_, fun hne => ?_⟩
  · exact Or.inl (hholder.trans hheld)
  · exact absurd hheld hne

/-! ## Threads that only look -/

/-- A code that says nothing about the state file. -/
def PlainCode (code : String) : Prop :=
  code ≠ "storage_durability_unknown" ∧ code ≠ "storage_write_failed"

instance (code : String) : Decidable (PlainCode code) := inferInstanceAs (Decidable (_ ∧ _))

/-- An error that says nothing about the state file. -/
def Plain (e : Raised) : Prop := ∀ code, e = .error code → PlainCode code

theorem plain_error {code : String} (h : PlainCode code) : Plain (.error code) := by
  rintro code' ⟨⟩
  exact h

/-- A thread that changes nothing: from `P` on, whatever the others do, it returns
    with `Q` or raises a plain error. -/
def Reads (st : Store) (b : Json) (w : Nat) {α : Type} (P : Shared → Prop) (m : Op α)
    (Q : α → Shared → Prop) : Prop :=
  ∀ s, P s → ∀ (K : Shared → Prop) (Q' : α → Shared → Prop) (E : Raised → Shared → Prop),
    (∀ t, Rely st b w s t → K t) → (∀ a t, Rely st b w s t → Q a t → Q' a t) →
    (∀ e t, Rely st b w s t → Plain e → E e t) → Meets (Rely st b w) (Guar st b w) K m Q' E s

/-- What the others cannot end. -/
def Stable (st : Store) (b : Json) (w : Nat) (P : Shared → Prop) : Prop :=
  ∀ {s t}, P s → Rely st b w s t → P t

section Reads

variable {α β : Type} {P : Shared → Prop} {Q : α → Shared → Prop}

theorem reads_ret {a : α} (h : ∀ s, P s → ∀ t, Rely st b w s t → Q a t) :
    Reads st b w P (pure a) Q := by
  intro s hs K Q' E hK hQ hE t ht
  exact hQ a t ht (h s hs t ht)

theorem reads_raised {e : Raised} (h : Plain e) : Reads st b w P (.raised e : Op α) Q :=
  fun _ _ _ _ _ _ _ hE t ht => hE e t ht h

theorem reads_bind {m : Op α} {k : α → Op β} {R : β → Shared → Prop} (hm : Reads st b w P m Q)
    (hk : ∀ a, Reads st b w (Q a) (k a) R) : Reads st b w P (m >>= k) R := by
  intro s hs K Q' E hK hQ hE
  refine meets_bind (rely_refl w) (hm s hs K _ E hK ?_ hE)
  intro a t ht hq
  exact hk a t hq K Q' E (fun u hu => hK u (rely_trans w ht hu))
    (fun c u hu => hQ c u (rely_trans w ht hu)) (fun e u hu => hE e u (rely_trans w ht hu))

/-- A step that changes nothing and ends in one of several ways. -/
theorem reads_step {next : Shared → Outside → Op α} (hP : Stable st b w P)
    (hnext : ∀ s, P s → ∀ c, (∃ a, next s c = .ret a ∧ ∀ t, Rely st b w s t → Q a t) ∨
      ∃ e, next s c = .raised e ∧ Plain e) :
    Reads st b w P (.step (fun s _ => s) next) Q := by
  intro s hs K Q' E hK hQ hE t ht
  refine ⟨hK t ht, fun c => ⟨guar_refl w t, ?_⟩⟩
  rcases hnext t (hP hs ht) c with ⟨a, heq, ha⟩ | ⟨e, heq, he⟩
  · rw [heq]
    exact fun u hu => hQ a u (rely_trans w ht hu) (ha u hu)
  · rw [heq]
    exact fun u hu => hE e u (rely_trans w ht hu) he

theorem reads_check {code : String} (hP : Stable st b w P)
    (hcode : PlainCode code) : Reads st b w P (check code) (fun _ => P) := by
  refine reads_step hP ?_
  intro s hs c
  cases c with
  | fine => exact Or.inl ⟨(), rfl, fun t ht => hP hs ht⟩
  | fails n os =>
      refine Or.inr ⟨_, rfl, ?_⟩
      cases os with
      | true => exact nofun
      | false => exact plain_error hcode

theorem reads_system (hP : Stable st b w P) : Reads st b w P system (fun _ => P) := by
  refine reads_step hP ?_
  intro s hs c
  cases c with
  | fine => exact Or.inl ⟨(), rfl, fun t ht => hP hs ht⟩
  | fails n os => exact Or.inr ⟨_, rfl, nofun⟩

theorem reads_look (hP : Stable st b w P) {Q : Shared → Shared → Prop}
    (h : ∀ s, P s → ∀ t, Rely st b w s t → Q s t) : Reads st b w P look Q :=
  reads_step hP (fun s hs _ => Or.inl ⟨s, rfl, h s hs⟩)

theorem reads_rejectIf {c : Prop} [Decidable c] {code : String} (hP : Stable st b w P)
    (hcode : PlainCode code) :
    Reads st b w P (rejectIf c code) (fun _ s => P s ∧ ¬ c) := by
  unfold rejectIf raiseIf
  by_cases hc : c
  · rw [if_pos hc]
    exact reads_raised (plain_error hcode)
  · rw [if_neg hc]
    exact reads_ret (fun s hs t ht => ⟨hP hs ht, hc⟩)

theorem reads_rejectOn {x : Option Raised} (hP : Stable st b w P) (hx : ∀ e, x = some e → Plain e) :
    Reads st b w P (rejectOn x) (fun _ s => P s ∧ x = none) := by
  cases x with
  | none => exact reads_ret (fun s hs t ht => ⟨hP hs ht, rfl⟩)
  | some e => exact reads_raised (hx e rfl)

theorem reads_weaken {m : Op α} {Q' : α → Shared → Prop} (h : Reads st b w P m Q)
    (hQ : ∀ a s, Q a s → Q' a s) : Reads st b w P m Q' :=
  fun s hs K R E hK hR hE => h s hs K R E hK (fun a t ht hq => hR a t ht (hQ a t hq)) hE

/-- Whoever holds the lock is after a look where it was before. -/
theorem reads_held {m : Op α} (h : Reads st b w P m Q) (hs : P s) (hinv : Inv st b s)
    (hheld : s.holder = some w) {K : Shared → Prop} (hK : K s) {Q' : α → Shared → Prop}
    {E : Raised → Shared → Prop} (hQ : ∀ a, Q a s → Q' a s) (hE : ∀ e, Plain e → E e s) :
    Meets (Rely st b w) (Guar st b w) K m Q' E s := by
  have hstill : ∀ t, Rely st b w s t → t = s := fun t ht => (ht hinv).2.1 hheld
  refine h s hs K Q' E (fun t ht => hstill t ht ▸ hK) ?_ ?_
  · intro a t ht hq
    obtain rfl := hstill t ht
    exact hQ a hq
  · intro e t ht he
    obtain rfl := hstill t ht
    exact hE e he

end Reads

/-! ## The codes of the checks -/

theorem firstError_mem {checks : List (Option String)} {code : String} (h : firstError checks = some code) :
    some code ∈ checks := by
  induction checks with
  | nil => exact absurd h nofun
  | cons c cs ih =>
      cases c with
      | none => exact List.mem_cons_of_mem _ (ih h)
      | some code' =>
          obtain rfl := Option.some.inj h
          exact List.mem_cons_self

theorem failsWith_code {c : Prop} [Decidable c] {code code' : String} (h : some code = failsWith c code') :
    code = code' := by
  unfold failsWith at h
  split at h
  · exact Option.some.inj h
  · exact absurd h nofun

theorem object_code {keys : List String} {code code' : String} {v : Json}
    (h : object keys code' v = .error code) : code = code' := by
  unfold object at h
  split at h
  · split at h
    · exact absurd h nofun
    · exact (Except.error.inj h).symm
  · exact (Except.error.inj h).symm

theorem firstError_plain {checks : List (Option String)} {code : String} (h : firstError checks = some code)
    (hchecks : ∀ c ∈ checks, ∀ code, c = some code → PlainCode code) : PlainCode code :=
  hchecks _ (firstError_mem h) code rfl

theorem failsWith_plain {c : Prop} [Decidable c] {code : String} (h : PlainCode code) :
    ∀ code', failsWith c code = some code' → PlainCode code' := by
  intro code' heq
  rw [failsWith_code heq.symm]
  exact h

theorem checkBinding_plain {binding : Json} {e : Raised}
    (h : (st.checkBinding binding).map Raised.error = some e) : Plain e := by
  obtain ⟨code, hcode, rfl⟩ := Option.map_eq_some_iff.mp h
  refine plain_error ?_
  unfold Store.checkBinding at hcode
  split at hcode
  next hobject =>
    obtain rfl := Option.some.inj hcode
    rw [object_code hobject]
    decide
  · refine firstError_plain hcode ?_
    intro c hc
    simp only [List.mem_cons, List.not_mem_nil, or_false] at hc
    rcases hc with rfl | rfl | rfl | rfl | rfl | rfl
    all_goals exact failsWith_plain (by decide)

theorem validatePrefix_plain {proof worker : Option Json} {digest offset chunkCount : Json} {code : String}
    (h : st.validatePrefix proof worker digest offset chunkCount = some code) : PlainCode code := by
  unfold Store.validatePrefix at h
  split at h
  · cases h
  · split at h
    next hobject =>
      obtain rfl := Option.some.inj h
      rw [object_code hobject]
      decide
    · refine firstError_plain h ?_
      intro c hc
      simp only [List.mem_cons, List.not_mem_nil, or_false] at hc
      rcases hc with rfl | rfl | rfl | rfl | rfl | rfl | rfl | rfl | rfl
      all_goals exact failsWith_plain (by decide)

theorem guestPrefix_plain {state : Json} {e : Raised} (h : st.guestPrefix state = some e) : Plain e := by
  unfold Store.guestPrefix at h
  split at h
  · split at h
    · exact absurd h nofun
    · split at h
      · split at h
        next hcode =>
          obtain rfl := Option.some.inj h
          exact plain_error (validatePrefix_plain hcode)
        · unfold Store.prefixStands at h
          split at h
          · exact absurd h nofun
          · split at h
            · obtain rfl := Option.some.inj h
              exact plain_error (by decide)
            · split at h
              · obtain rfl := Option.some.inj h
                exact nofun
              · split at h
                · exact absurd h nofun
                · obtain rfl := Option.some.inj h
                  exact plain_error (by decide)
      · obtain rfl := Option.some.inj h
        exact nofun
  · exact absurd h nofun

theorem checkContent_plain {binding state : Json} {revision : Nat} {e : Raised}
    (h : st.checkContent w binding revision state = some e) : Plain e := by
  unfold Store.checkContent at h
  split at h
  next hproof =>
    obtain rfl := Option.some.inj h
    exact guestPrefix_plain hproof
  · obtain ⟨code, hcode, rfl⟩ := Option.map_eq_some_iff.mp h
    rcases validateJson_code hcode with rfl | rfl
    · exact plain_error (by decide)
    · exact plain_error (by decide)

/-! ## Loads -/

/-- The version was on top at some moment since `s₀`. -/
def SeenSince (s₀ : Shared) (v : Version) (t : Shared) : Prop :=
  ∃ older, s₀.versions <:+ v :: older ∧ v :: older <:+ t.versions

section Loads

variable {s₀ : Shared}

/-- Everything since a moment at which the invariant held. -/
def Since (st : Store) (b : Json) (w : Nat) (s₀ s : Shared) : Prop := Inv st b s₀ ∧ Rely st b w s₀ s

theorem Since.inv (h : Since st b w s₀ s) : Inv st b s := (h.2 h.1).1

theorem Since.back (h : Since st b w s₀ s) : s₀.versions <:+ s.versions := (h.2 h.1).2.2.1

theorem stable_since : Stable st b w (Since st b w s₀) := fun h hrely => ⟨h.1, rely_trans w h.2 hrely⟩

theorem since_refl (h : Inv st b s₀) : Since st b w s₀ s₀ := ⟨h, rely_refl w s₀⟩

theorem Inv.versions (h : Inv st b s) : s.versions ≠ [] := by
  intro hnil
  have hback := h.back
  rw [hnil] at hback
  exact h.kept (List.suffix_nil.mp hback)

theorem SeenSince.later {v : Version} {u : Shared} (h : SeenSince s₀ v t) (hv : t.versions <:+ u.versions) :
    SeenSince s₀ v u := by
  obtain ⟨older, hs, ht⟩ := h
  exact ⟨older, hs, ht.trans hv⟩

theorem Since.seen {v : Version} (h : Since st b w s₀ s) (hseen : SeenSince s₀ v s)
    (hrely : Rely st b w s t) : Since st b w s₀ t ∧ SeenSince s₀ v t :=
  ⟨stable_since h hrely, hseen.later (hrely h.inv).2.2.1⟩

/-- A version that was seen is read as a state of the task. -/
theorem Since.good {v : Version} (h : Since st b w s₀ s) (hseen : SeenSince s₀ v s) : Good st b v := by
  obtain ⟨older, -, hs⟩ := hseen
  exact h.inv.good v (hs.mem List.mem_cons_self)

/-- The holder sees the newest version. -/
theorem SeenSince.head {v : Version} (h : SeenSince s v s) : ∃ older, s.versions = v :: older := by
  obtain ⟨older, hs, ht⟩ := h
  exact ⟨older, hs.eq_of_length_le ht.length_le⟩

/-- The state file that is opened is the newest one at that moment. -/
theorem reads_stateFile {P : Shared → Prop} (hP : Stable st b w P)
    (hsince : ∀ s, P s → Since st b w s₀ s) :
    Reads st b w P stateFile (fun v s => P s ∧ SeenSince s₀ v s) := by
  refine reads_step hP ?_
  intro s hs c
  cases c with
  | fails n os => exact Or.inr ⟨.osError, rfl, nofun⟩
  | fine =>
      cases hv : s.versions with
      | nil => exact absurd hv (hsince s hs).inv.versions
      | cons v older =>
          refine Or.inl ⟨v, by dsimp only, ?_⟩
          intro t ht
          refine ⟨hP hs ht, older, ?_, ?_⟩
          · rw [← hv]
            exact (hsince s hs).back
          · rw [← hv]
            exact (ht (hsince s hs).inv).2.2.1

theorem reads_statState {P : Shared → Prop} (hP : Stable st b w P)
    (hsince : ∀ s, P s → Since st b w s₀ s) : Reads st b w P statState (fun _ => P) := by
  intro s hs K Q' E hK hQ hE
  refine meets_handle (rely_refl w) (reads_stateFile hP hsince s hs K _ _ hK ?_ ?_)
  · exact fun a t ht hq => hQ a t ht hq.1
  · intro e t ht he u hu
    exact hE _ u (rely_trans w ht hu) (plain_error (by decide))

theorem reads_lift {α : Type} {P : Shared → Prop} {x : Except Raised α} (hP : Stable st b w P)
    (hx : ∀ e, x = .error e → Plain e) : Reads st b w P (lift x) (fun a s => P s ∧ x = .ok a) := by
  cases x with
  | ok a => exact reads_ret (fun s hs t ht => ⟨hP hs ht, rfl⟩)
  | error e => exact reads_raised (hx e rfl)

/-- **What `_read` returns was the state file at some moment since it began.** -/
theorem reads_read :
    Reads st b w (Since st b w s₀) (read st) (fun e s => Since st b w s₀ s ∧
      ∃ v, SeenSince s₀ v s ∧ st.readState v.bytes = .ok e) := by
  have hkeep : ∀ v : Version, Stable st b w (fun s => Since st b w s₀ s ∧ SeenSince s₀ v s) :=
    fun v {_ _} h hrely => h.1.seen h.2 hrely
  refine reads_bind (reads_check stable_since (by decide)) (fun _ => ?_)
  refine reads_bind (reads_check stable_since (by decide)) (fun _ => ?_)
  refine reads_bind (reads_check stable_since (by decide)) (fun _ => ?_)
  refine reads_bind (reads_statState stable_since (fun _ h => h)) (fun before => ?_)
  refine reads_bind (reads_check stable_since (by decide)) (fun _ => ?_)
  refine reads_bind (reads_weaken (reads_rejectIf stable_since (by decide)) (fun _ _ h => h.1))
    (fun _ => ?_)
  refine reads_bind (reads_stateFile stable_since (fun _ h => h)) (fun v => ?_)
  refine reads_bind (reads_weaken (reads_rejectIf (hkeep v) (by decide)) (fun _ _ h => h.1)) (fun _ => ?_)
  refine reads_bind (reads_system (hkeep v)) (fun _ => ?_)
  refine reads_bind (reads_weaken (reads_rejectIf (hkeep v) (by decide)) (fun _ _ h => h.1)) (fun _ => ?_)
  refine reads_bind (reads_statState (hkeep v) (fun _ h => h.1)) (fun after => ?_)
  refine reads_bind (reads_weaken (reads_rejectIf (hkeep v) (by decide)) (fun _ _ h => h.1)) (fun _ => ?_)
  intro s hs
  -- the bytes of a version are read as a state, so the lift does not raise
  obtain ⟨-, e, he, -⟩ := hs.1.good hs.2
  rw [he]
  exact reads_ret (fun s' hs' t ht => ⟨(hkeep v hs' ht).1, v, (hkeep v hs' ht).2, he⟩) s hs

/-- **What `load` returns was the state of the task at some moment since it began.** -/
theorem reads_load (binding : Json) :
    Reads st b w (Since st b w s₀) (load st binding) (fun e s => Since st b w s₀ s ∧
      st.checkBinding binding = none ∧ st.pins binding e ∧
      ∃ v, SeenSince s₀ v s ∧ st.readState v.bytes = .ok e) := by
  have hkeep : ∀ e : Envelope, Stable st b w (fun s => Since st b w s₀ s ∧
      ∃ v, SeenSince s₀ v s ∧ st.readState v.bytes = .ok e) := by
    rintro e s t ⟨hs, v, hseen, he⟩ hrely
    exact ⟨stable_since hs hrely, v, (hs.seen hseen hrely).2, he⟩
  refine reads_bind (reads_rejectOn stable_since (fun e he => checkBinding_plain he)) (fun _ => ?_)
  intro s hs
  obtain ⟨hs, hbinding⟩ := hs
  rw [Option.map_eq_none_iff] at hbinding
  refine reads_bind (Q := fun _ => Since st b w s₀) ?_ (fun _ => ?_) s hs
  · refine reads_bind (reads_check stable_since (by decide)) (fun _ => ?_)
    refine reads_bind (reads_check stable_since (by decide)) (fun _ => ?_)
    exact reads_check stable_since (by decide)
  refine reads_bind (reads_look stable_since (fun _ h _ hrely => stable_since h hrely)) (fun seen => ?_)
  refine reads_bind (reads_weaken (reads_rejectIf stable_since (by decide)) (fun _ _ h => h.1))
    (fun _ => ?_)
  refine reads_bind reads_read (fun e => ?_)
  refine reads_bind (reads_rejectIf (hkeep e) (by decide)) (fun _ => ?_)
  refine reads_ret ?_
  intro s hs t ht
  obtain ⟨hsince, hseen⟩ := hkeep e hs.1 ht
  exact ⟨hsince, hbinding, not_not.mp hs.2, hseen⟩

/-- `_require_writer` lets only the holder through. -/
theorem reads_requireWriter :
    Reads st b w (Since st b w s₀) (requireWriter w) (fun _ s => Since st b w s₀ s ∧ s.holder = some w) := by
  have hheld : Stable st b w (fun s => Since st b w s₀ s ∧ s.holder = some w) := by
    rintro s t ⟨hs, hh⟩ hrely
    have heq := (hrely hs.inv).2.1 hh
    exact ⟨stable_since hs hrely, heq ▸ hh⟩
  refine reads_bind (Q := fun seen s => Since st b w s₀ s ∧ (seen.holder = some w → s.holder = some w))
    ?_ (fun seen => ?_)
  · refine reads_look stable_since ?_
    intro s hs t ht
    exact ⟨stable_since hs ht, fun hh => (hheld ⟨hs, hh⟩ ht).2⟩
  · unfold rejectIf raiseIf
    by_cases hh : seen.holder = some w
    · rw [if_neg (not_not.mpr hh)]
      intro s hs
      refine reads_bind (reads_check hheld (by decide)) (fun _ => ?_) s ⟨hs.1, hs.2 hh⟩
      exact reads_check hheld (by decide)
    · rw [if_pos hh]
      exact reads_raised (plain_error (by decide))

end Loads

/-! ## The commit -/

section Commit

variable {K : Shared → Prop} {α : Type} {Q : α → Shared → Prop} {E : Raised → Shared → Prop}

/-- The steps of the holder follow one another without interference. -/
theorem meets_held {put : Shared → Outside → Shared} {next : Shared → Outside → Op α}
    (hinv : Inv st b s) (hheld : s.holder = some w) (hK : K s)
    (h : ∀ c, Guar st b w s (put s c) ∧ Meets (Rely st b w) (Guar st b w) K (next s c) Q E (put s c)) :
    Meets (Rely st b w) (Guar st b w) K (.step put next) Q E s := by
  intro t ht
  obtain rfl := (ht hinv).2.1 hheld
  exact ⟨hK, h⟩

theorem meets_ret_held {a : α} (hinv : Inv st b s) (hheld : s.holder = some w) (hQ : Q a s) :
    Meets (Rely st b w) (Guar st b w) K (.ret a : Op α) Q E s := by
  intro t ht
  obtain rfl := (ht hinv).2.1 hheld
  exact hQ

theorem meets_raised_held {e : Raised} (hinv : Inv st b s) (hheld : s.holder = some w) (hE : E e s) :
    Meets (Rely st b w) (Guar st b w) K (.raised e : Op α) Q E s := by
  intro t ht
  obtain rfl := (ht hinv).2.1 hheld
  exact hE

/-- A step of the holder that keeps the invariant and the chain below. -/
theorem guar_held (hheld : s.holder = some w) (hinv : Inv st b t)
    (hholder : t.holder = some w ∨ t.holder = none) (hv : s.versions <:+ t.versions)
    (hs : s.synced <:+ t.synced) : Guar st b w s t :=
  fun _ => ⟨hinv, hv, hs, fun _ => hholder, fun hne => absurd hheld hne⟩

/-- What a commit starts from: the lock, the version it is based on, and bytes
    that are read as the next revision of the task. -/
structure Commits (st : Store) (b : Json) (w : Nat) (raw : Bytes) (n : Nat) (s₀ : Shared) : Prop where
  inv : Inv st b s₀
  held : s₀.holder = some w
  base : ∃ u older f, s₀.versions = u :: older ∧ st.readState u.bytes = .ok f ∧ f.revision = n
  next : ∃ e, st.readState raw = .ok e ∧ st.pins b e ∧ e.revision = n + 1
  length : raw.length ≤ st.maxStateBytes

/-- The state file is still the one before the commit. -/
structure Before (w : Nat) (s₀ s : Shared) : Prop where
  held : s.holder = some w
  versions : s.versions = s₀.versions
  synced : s.synced = s₀.synced

/-- The state file is the new one. -/
structure After (w : Nat) (raw : Bytes) (s₀ s : Shared) : Prop where
  held : s.holder = some w
  versions : ∃ v, v.bytes = raw ∧ s.versions = v :: s₀.versions
  synced : s.synced = s₀.synced ∨ s.synced = s.versions

/-- How a commit fails: the state file is the one before or the new one, and the
    two telling codes say which. -/
structure Failed (w : Nat) (raw : Bytes) (s₀ : Shared) (e : Raised) (s : Shared) : Prop where
  either : Before w s₀ s ∨ After w raw s₀ s
  unwritten : e = .error "storage_write_failed" → Before w s₀ s
  visible : e = .error "storage_durability_unknown" → After w raw s₀ s

/-- Where a commit may be when it is cut off. -/
def Around (raw : Bytes) (s₀ s : Shared) : Prop :=
  s.versions = s₀.versions ∨ ∃ v, v.bytes = raw ∧ s.versions = v :: s₀.versions

variable {raw : Bytes} {n : Nat} {s₀ : Shared}

theorem Before.inv (h : Before w s₀ s) (hc : Commits st b w raw n s₀) : Inv st b s :=
  hc.inv.same h.versions h.synced

theorem After.inv (h : After w raw s₀ s) (hc : Commits st b w raw n s₀) : Inv st b s := by
  obtain ⟨v, hraw, hv⟩ := h.versions
  obtain ⟨u, older, f, hu, hf, hrevision⟩ := hc.base
  obtain ⟨e, he, hpins, hnext⟩ := hc.next
  have hback : s₀.synced <:+ s.versions := by
    rw [hv]
    exact hc.inv.back.trans (List.suffix_cons v _)
  refine { kept := ?_, back := ?_, good := ?_, chain := ?_ }
  · rcases h.synced with hs | hs
    · rw [hs]
      exact hc.inv.kept
    · rw [hs, hv]
      exact List.cons_ne_nil _ _
  · rcases h.synced with hs | hs
    · rw [hs]
      exact hback
    · rw [hs]
  · intro x hx
    rw [hv] at hx
    rcases List.mem_cons.mp hx with rfl | hx
    · exact ⟨hraw ▸ hc.length, e, hraw ▸ he, hpins⟩
    · exact hc.inv.good x hx
  · rw [hv, hu]
    refine List.isChain_cons_cons.mpr ⟨⟨e, f, hraw ▸ he, hf, ?_⟩, ?_⟩
    · rw [hnext, hrevision]
    · rw [← hu]
      exact hc.inv.chain

theorem around_before (h : Before w s₀ s) : Around raw s₀ s := Or.inl h.versions

theorem around_after (h : After w raw s₀ s) : Around raw s₀ s := Or.inr h.versions

theorem around_either (h : Before w s₀ s ∨ After w raw s₀ s) : Around raw s₀ s :=
  h.elim around_before around_after

theorem failed_before {e : Raised} (h : Before w s₀ s) (he : Plain e) : Failed w raw s₀ e s :=
  { either := Or.inl h, unwritten := fun _ => h, visible := fun heq => absurd rfl (he _ heq).1 }

/-- The observed revision tells the previous state from the new one. -/
theorem classify_failed (hc : Commits st b w raw n s₀) (h : Before w s₀ s ∨ After w raw s₀ s)
    {o : Option Envelope}
    (ho : ∀ e, o = some e → ∃ v older, s.versions = v :: older ∧ st.readState v.bytes = .ok e) :
    Failed w raw s₀ (classify raw (n + 1) o) s := by
  unfold classify
  cases o with
  | none =>
      exact { either := h, unwritten := fun heq => absurd (Raised.error.inj heq) (by decide)
              visible := fun heq => absurd (Raised.error.inj heq) (by decide) }
  | some e =>
      obtain ⟨v, older, hv, he⟩ := ho e rfl
      obtain ⟨u, older', f, hu, hf, hrevision⟩ := hc.base
      obtain ⟨e', he', -, hnext⟩ := hc.next
      dsimp only
      rcases h with h | h
      · -- the previous state was read back
        have heq : v :: older = u :: older' := hv.symm.trans (h.versions.trans hu)
        obtain ⟨rfl, rfl⟩ := List.cons.inj heq
        obtain rfl := Except.ok.inj (he.symm.trans hf)
        rw [if_neg (fun hh => absurd hh.1 (by omega)), if_pos (by omega)]
        exact { either := Or.inl h, unwritten := fun _ => h
                visible := fun heq => absurd (Raised.error.inj heq) (by decide) }
      · -- the new state was read back
        obtain ⟨v', hraw, hv'⟩ := h.versions
        obtain ⟨rfl, rfl⟩ := List.cons.inj (hv.symm.trans hv')
        rw [hraw] at he
        obtain rfl := Except.ok.inj (he.symm.trans he')
        rw [if_neg (show ¬ e.revision < n + 1 by omega)]
        refine { either := Or.inr h, unwritten := ?_, visible := fun _ => h }
        intro heq
        split at heq
        · exact absurd (Raised.error.inj heq) (by decide)
        · exact absurd (Raised.error.inj heq) (by decide)

/-- What is read back is the state file. -/
theorem reads_observed :
    Reads st b w (Since st b w s₀) (observedState st) (fun o s => Since st b w s₀ s ∧
      ∀ e, o = some e → ∃ v, SeenSince s₀ v s ∧ st.readState v.bytes = .ok e) := by
  intro s hs K Q' E hK hQ hE
  have hread : Reads st b w (Since st b w s₀)
      (do
        system
        let e ← read st
        pure (some e))
      (fun o s => Since st b w s₀ s ∧
        ∀ e, o = some e → ∃ v, SeenSince s₀ v s ∧ st.readState v.bytes = .ok e) := by
    refine reads_bind (reads_system stable_since) (fun _ => ?_)
    refine reads_bind reads_read (fun e => ?_)
    refine reads_ret ?_
    rintro s' ⟨hs', v, hseen, he⟩ t ht
    refine ⟨stable_since hs' ht, ?_⟩
    rintro e' ⟨⟩
    exact ⟨v, (hs'.seen hseen ht).2, he⟩
  refine meets_handle (rely_refl w) (hread s hs K _ _ hK hQ ?_)
  intro e t ht he
  cases e with
  | error code =>
      intro u hu
      have hsince : Since st b w s₀ u := stable_since hs (rely_trans w ht hu)
      exact hQ none u (rely_trans w ht hu) ⟨hsince, fun _ heq => absurd heq nofun⟩
  | osError => exact fun u hu => hE _ u (rely_trans w ht hu) nofun
  | python name => exact fun u hu => hE _ u (rely_trans w ht hu) nofun

/-- A change of the holder: made or not, it leaves the state file as it may be. -/
theorem meets_change {put : Shared → Shared} {Q : Unit → Shared → Prop} (hinv : Inv st b s)
    (hheld : s.holder = some w) (hK : K s) (hguar : Guar st b w s (put s))
    (hholder : (put s).holder = some w) (hinv' : Inv st b (put s)) (hdone : Q () (put s))
    (hold : E .osError s) (hnew : E .osError (put s)) :
    Meets (Rely st b w) (Guar st b w) K (change put) Q E s := by
  refine meets_held hinv hheld hK ?_
  intro c
  cases c with
  | fine => exact ⟨hguar, meets_ret_held hinv' hholder hdone⟩
  | fails progress os =>
      by_cases hp : 0 < progress
      · have hput : (if (Outside.fails progress os).happens then put s else s) = put s :=
          if_pos (decide_eq_true hp)
        rw [hput]
        exact ⟨hguar, meets_raised_held hinv' hholder hnew⟩
      · have hput : (if (Outside.fails progress os).happens then put s else s) = s :=
          if_neg (by rw [Outside.happens]; exact fun h => hp (of_decide_eq_true h))
        rw [hput]
        exact ⟨guar_refl w s, meets_raised_held hinv hheld hold⟩

/-- The handler of `_commit` classifies what it reads back. -/
theorem meets_handler (hc : Commits st b w raw n s₀) (h : Before w s₀ s ∨ After w raw s₀ s) (inode : Nat)
    {Q : Unit → Shared → Prop} :
    Meets (Rely st b w) (Guar st b w) (Around raw s₀) (do
        let observed ← observedState st
        handle (change (Shared.unlinked inode)) (fun _ => pure ())
        .raised (classify raw (n + 1) observed)) Q (Failed w raw s₀) s := by
  have hinv : Inv st b s := h.elim (fun h => h.inv hc) (fun h => h.inv hc)
  have hheld : s.holder = some w := h.elim Before.held After.held
  refine meets_bind (rely_refl w) ?_
  refine reads_held reads_observed (since_refl hinv) hinv hheld (around_either h) ?_ ?_
  · rintro o ⟨-, ho⟩
    have hclass : Failed w raw s₀ (classify raw (n + 1) o) s := by
      refine classify_failed hc h ?_
      intro e he
      obtain ⟨v, hseen, hv⟩ := ho e he
      obtain ⟨older, holder⟩ := hseen.head
      exact ⟨v, older, holder, hv⟩
    -- the unlinked file is in no chain
    have hunlinked : Failed w raw s₀ (classify raw (n + 1) o) (s.unlinked inode) :=
      { either := hclass.either.imp (fun h => ⟨h.held, h.versions, h.synced⟩)
          (fun h => ⟨h.held, h.versions, h.synced⟩)
        unwritten := fun he => ⟨hheld, (hclass.unwritten he).versions, (hclass.unwritten he).synced⟩
        visible := fun he => ⟨hheld, (hclass.visible he).versions, (hclass.visible he).synced⟩ }
    have hinv' : Inv st b (s.unlinked inode) := hinv.same rfl rfl
    refine meets_bind (rely_refl w) (meets_handle (rely_refl w) ?_)
    refine meets_change hinv hheld (around_either h) (guar_same hheld rfl rfl rfl) hheld hinv' ?_ ?_ ?_
    · exact meets_raised_held hinv' hheld hunlinked
    · exact meets_ret_held hinv hheld (meets_raised_held hinv hheld hclass)
    · exact meets_ret_held hinv' hheld (meets_raised_held hinv' hheld hunlinked)
  · intro e he
    exact { either := h, unwritten := fun heq => absurd rfl (he _ heq).2
            visible := fun heq => absurd rfl (he _ heq).1 }

/-- The temporary file of a commit that was created, with some content. -/
def HasTemporary (inode : Nat) (s : Shared) : Prop := ∃ data, s.temporary inode = some ⟨inode, data⟩

theorem temporary_wrote {inode : Nat} (data : Bytes) (h : HasTemporary inode s) :
    (s.wrote inode data).temporary inode = some ⟨inode, data⟩ := by
  obtain ⟨old, hold⟩ := h
  unfold Shared.temporary at hold ⊢
  show (s.temporaries.map (Version.write inode data)).find? _ = _
  have hsame : ((fun v : Version => v.inode == inode) ∘ Version.write inode data)
      = fun v : Version => v.inode == inode := by
    funext v
    show ((Version.write inode data v).inode == inode) = (v.inode == inode)
    unfold Version.write
    by_cases hv : v.inode = inode
    · rw [if_pos hv]
    · rw [if_neg hv]
  rw [List.find?_map, hsame, hold]
  show some (Version.write inode data ⟨inode, old⟩) = _
  unfold Version.write
  rw [if_pos rfl]

/-- The written file becomes the state file. -/
theorem after_replaced {inode : Nat} (h : Before w s₀ s) (ht : s.temporary inode = some ⟨inode, raw⟩) :
    After w raw s₀ (s.replaced inode) := by
  unfold Shared.replaced
  rw [ht]
  exact { held := h.held, versions := ⟨⟨inode, raw⟩, rfl, congrArg _ h.versions⟩, synced := Or.inl h.synced }

theorem after_sync (h : After w raw s₀ s) : After w raw s₀ s.sync :=
  { held := h.held, versions := h.versions, synced := Or.inr rfl }

/-- The replacement and the sync behind the written file. -/
theorem meets_publish (hc : Commits st b w raw n s₀) (h : Before w s₀ s) {inode : Nat}
    (ht : s.temporary inode = some ⟨inode, raw⟩) :
    Meets (Rely st b w) (Guar st b w) (Around raw s₀) (do
        change (Shared.replaced inode)
        change Shared.sync)
      (fun _ t => After w raw s₀ t ∧ t.synced = t.versions)
      (fun _ t => Before w s₀ t ∨ After w raw s₀ t) s := by
  have hinv := h.inv hc
  have hafter := after_replaced h ht
  have hinv' := hafter.inv hc
  have hsync := after_sync hafter
  have hv : s.versions <:+ (s.replaced inode).versions := by
    obtain ⟨v, -, hv⟩ := hafter.versions
    rw [hv, h.versions]
    exact List.suffix_cons v _
  have hs : s.synced <:+ (s.replaced inode).synced := by
    unfold Shared.replaced
    rw [ht]
  refine meets_bind (rely_refl w) (meets_change hinv h.held (around_before h)
    (guar_held h.held hinv' (Or.inl hafter.held) hv hs) hafter.held hinv' ?_ (Or.inl h) (Or.inr hafter))
  refine meets_change hinv' hafter.held (around_after hafter) ?_ hsync.held (hsync.inv hc) ⟨hsync, rfl⟩
    (Or.inr hafter) (Or.inr hsync)
  exact guar_held hafter.held (hsync.inv hc) (Or.inl hsync.held) List.suffix_rfl hinv'.back

/-- **The classified part of the commit**: where it raises, the state file is the
    one before or the new one; where it returns, the new one is synced. -/
theorem meets_replaceState (hc : Commits st b w raw n s₀) (h : Before w s₀ s) {inode : Nat}
    (htemporary : HasTemporary inode s) :
    Meets (Rely st b w) (Guar st b w) (Around raw s₀) (replaceState w inode raw)
      (fun _ t => After w raw s₀ t ∧ t.synced = t.versions)
      (fun _ t => Before w s₀ t ∨ After w raw s₀ t) s := by
  have hwrote : ∀ data, Before w s₀ (s.wrote inode data) := fun _ => ⟨h.held, h.versions, h.synced⟩
  have hguar : ∀ data, Guar st b w s (s.wrote inode data) := fun _ => guar_same h.held rfl rfl rfl
  refine meets_bind (rely_refl w) (meets_held (h.inv hc) h.held (around_before h) ?_)
  intro c
  cases c with
  | fails progress os =>
      exact ⟨hguar _, meets_raised_held ((hwrote _).inv hc) h.held (Or.inl (hwrote _))⟩
  | fine =>
      have hnow := hwrote raw
      have hinv := hnow.inv hc
      refine ⟨hguar raw, meets_ret_held hinv hnow.held ?_⟩
      refine meets_bind (rely_refl w) (reads_held (reads_system stable_since) (since_refl hinv) hinv
        hnow.held (around_before hnow) (fun _ _ => ?_) (fun _ _ => Or.inl hnow))
      refine meets_bind (rely_refl w) (reads_held reads_requireWriter (since_refl hinv) hinv
        hnow.held (around_before hnow) (fun _ _ => ?_) (fun _ _ => Or.inl hnow))
      exact meets_publish hc hnow (temporary_wrote raw htemporary)

/-- **The commit**: it ends with the new state file, synced, or it raises what the
    state file then is. -/
theorem meets_commit (hc : Commits st b w raw n s₀) :
    Meets (Rely st b w) (Guar st b w) (Around raw s₀) (commit st w raw (n + 1))
      (fun _ t => After w raw s₀ t ∧ t.synced = t.versions) (Failed w raw s₀) s₀ := by
  have hstart : Before w s₀ s₀ := ⟨hc.held, rfl, rfl⟩
  have hcreated : Before w s₀ s₀.created := ⟨hc.held, rfl, rfl⟩
  have hinv := hcreated.inv hc
  have hguar : Guar st b w s₀ s₀.created := guar_same hc.held rfl rfl rfl
  refine meets_bind (rely_refl w) (reads_held reads_requireWriter (since_refl hc.inv) hc.inv hc.held
    (around_before hstart) (fun _ _ => ?_) (fun _ he => failed_before hstart he))
  refine meets_bind (rely_refl w) (meets_held hc.inv hc.held (around_before hstart) ?_)
  have hunmade : ∀ {t}, Before w s₀ t → Failed w raw s₀ .osError t :=
    fun ht => failed_before ht nofun
  intro c
  cases c with
  | fails progress os =>
      by_cases hp : 0 < progress
      · have hput : (if (Outside.fails progress os).happens then s₀.created else s₀) = s₀.created :=
          if_pos (decide_eq_true hp)
        rw [hput]
        exact ⟨hguar, meets_raised_held hinv hcreated.held (hunmade hcreated)⟩
      · have hput : (if (Outside.fails progress os).happens then s₀.created else s₀) = s₀ :=
          if_neg (fun h => hp (of_decide_eq_true h))
        rw [hput]
        exact ⟨guar_refl w s₀, meets_raised_held hc.inv hc.held (hunmade hstart)⟩
  | fine =>
      refine ⟨hguar, meets_ret_held hinv hcreated.held ?_⟩
      have htemporary : HasTemporary s₀.nextInode s₀.created := by
        refine ⟨[], ?_⟩
        exact List.find?_cons_of_pos (beq_self_eq_true s₀.nextInode)
      refine meets_handle (rely_refl w) ((meets_replaceState hc hcreated htemporary).mono
        (fun _ _ h => h) ?_)
      intro e t ht
      exact meets_handler hc ht s₀.nextInode

end Commit

/-! ## Saves -/

section Saves

variable {binding state : Json} {expected : Int} {s₀ : Shared}

theorem encode_plain {revision : Nat} {e : Raised} (h : st.encode w binding revision state = .error e) :
    Plain e := by
  unfold Store.encode at h
  split at h
  · obtain rfl := Except.error.inj h
    exact nofun
  · split at h
    · obtain rfl := Except.error.inj h
      exact plain_error (by decide)
    · exact absurd h nofun

/-- What a save may have put on top of the chain. -/
def Wrote (st : Store) (w : Nat) (binding : Json) (expected : Int) (state : Json) (s₀ s : Shared) : Prop :=
  ∃ v : Version, s.versions = v :: s₀.versions ∧
    ∃ n : Nat, (n : Int) = expected ∧ st.Written w binding (n + 1) state v.bytes

/-- **A save that returned**: it held the lock throughout, the version that it
    replaced has the revision it was given, and the state it was given is on top,
    readable and synced. -/
structure Saved (st : Store) (w : Nat) (binding : Json) (expected : Int) (state : Json) (s₀ : Shared)
    (e : Envelope) (s : Shared) : Prop where
  held : s₀.holder = some w ∧ s.holder = some w
  base : ∃ u older f, s₀.versions = u :: older ∧ st.readState u.bytes = .ok f ∧ (f.revision : Int) = expected
  next : (e.revision : Int) = expected + 1 ∧ e.state = state
  written : ∃ v, s.versions = v :: s₀.versions ∧ st.readState v.bytes = .ok e.sorted
  own : Wrote st w binding expected state s₀ s
  synced : s.synced = s.versions

/-- **A save that raised**: the state file is the one before, or the new one, as
    the two telling codes say. -/
structure Refused (st : Store) (w : Nat) (binding : Json) (expected : Int) (state : Json) (s₀ : Shared)
    (e : Raised) (s : Shared) : Prop where
  either : s₀.holder = some w → s.holder = some w ∧
    (s.versions = s₀.versions ∨ Wrote st w binding expected state s₀ s)
  unwritten : e = .error "storage_write_failed" → s₀.holder = some w ∧ s.holder = some w ∧
    s.versions = s₀.versions
  visible : e = .error "storage_durability_unknown" → s₀.holder = some w ∧ s.holder = some w ∧
    Wrote st w binding expected state s₀ s

/-- Where a save may be at any point. -/
def Saving (st : Store) (w : Nat) (binding : Json) (expected : Int) (state : Json) (s₀ s : Shared) : Prop :=
  s₀.holder = some w → s.versions = s₀.versions ∨ Wrote st w binding expected state s₀ s

theorem refused_before {e : Raised} (h : Since st b w s₀ s) (he : Plain e) :
    Refused st w binding expected state s₀ e s := by
  refine { either := ?_, unwritten := fun heq => absurd rfl (he _ heq).2
           visible := fun heq => absurd rfl (he _ heq).1 }
  intro hheld
  have heq := (h.2 h.1).2.1 hheld
  rw [heq]
  exact ⟨hheld, Or.inl rfl⟩

/-- The version that a save builds its own on. -/
theorem commits_of (hst : st.Sound) (hbinding : Value binding) (hstate : Value state)
    (hinv : Inv st b s₀) (hheld : s₀.holder = some w) {f : Envelope} (hpins : st.pins binding f)
    (hseen : ∃ v, SeenSince s₀ v s₀ ∧ st.readState v.bytes = .ok f) {raw : Bytes}
    (hraw : st.Written w binding (f.revision + 1) state raw) : Commits st b w raw f.revision s₀ := by
  obtain ⟨u, hu, hf⟩ := hseen
  obtain ⟨older, hversions⟩ := hu.head
  refine { inv := hinv, held := hheld, base := ⟨u, older, f, hversions, hf, rfl⟩, next := ?_
           length := hraw.dumped.2 }
  refine ⟨_, readState_written hst hbinding hstate hraw, ⟨rfl, ?_⟩, rfl⟩
  -- both bindings are the one of the version that was loaded
  obtain ⟨-, f', hf', hpins'⟩ := hinv.good u (hversions ▸ List.mem_cons_self)
  obtain rfl := Except.ok.inj (hf.symm.trans hf')
  calc canonical binding.sortKeys = canonical binding := HostJournal.canonical_sortKeys hbinding
    _ = canonical f.binding := hpins.2.symm
    _ = canonical b := hpins'.2

/-- **The save**, among any number of other threads. -/
theorem meets_save (hst : st.Sound) (hbinding : Value binding) (hstate : Value state)
    (hinv : Inv st b s₀) :
    Meets (Rely st b w) (Guar st b w) (Saving st w binding expected state s₀)
      (save st w binding expected state)
      (fun e t => Inv st b t ∧ Saved st w binding expected state s₀ e t)
      (Refused st w binding expected state s₀) s₀ := by
  have hstart : Saving st w binding expected state s₀ s₀ := fun _ => Or.inl rfl
  refine meets_bind (rely_refl w) (reads_requireWriter s₀ (since_refl hinv) _ _ _ ?_ ?_ ?_)
  · intro t ht hheld
    rw [(ht hinv).2.1 hheld]
    exact Or.inl rfl
  case refine_3 => exact fun e t ht he => refused_before ⟨hinv, ht⟩ he
  -- from here on the save holds the lock, and held it from its start on
  rintro - t ht ⟨-, hlock⟩
  have hheld := (ht hinv).2.2.2.2 hlock
  obtain rfl := (ht hinv).2.1 hheld
  have hsame : Stable st b w (fun u => u = t) := by
    rintro u v rfl hv
    exact (hv hinv).2.1 hheld
  have hfail : ∀ e, Plain e → Refused st w binding expected state t e t :=
    fun e he => refused_before (since_refl hinv) he
  have hquiet : ∀ {α β : Type} {m : Op α} {Q : α → Shared → Prop} {k : α → Op β}
      {Q' : β → Shared → Prop}, Reads st b w (fun u => u = t) m Q →
      (∀ a, Q a t → Meets (Rely st b w) (Guar st b w) (Saving st w binding expected state t) (k a) Q'
        (Refused st w binding expected state t) t) →
      Meets (Rely st b w) (Guar st b w) (Saving st w binding expected state t) (m >>= k) Q'
        (Refused st w binding expected state t) t :=
    fun hm hk => meets_bind (rely_refl w) (reads_held hm rfl hinv hheld hstart hk hfail)
  refine hquiet (reads_rejectIf hsame (by decide)) (fun _ hexpected => ?_)
  refine meets_bind (rely_refl w) (reads_held (reads_load binding) (since_refl hinv) hinv hheld hstart
    ?_ hfail)
  rintro f ⟨-, hadmitted, hpins, hseen⟩
  refine hquiet (reads_rejectIf hsame (by decide)) (fun _ hrevision => ?_)
  refine hquiet (reads_rejectOn hsame (fun e he => checkBinding_plain he)) (fun _ _ => ?_)
  refine hquiet (reads_rejectOn hsame (fun e he => checkContent_plain he)) (fun _ hcontent => ?_)
  refine hquiet (reads_check hsame (by decide)) (fun _ _ => ?_)
  refine hquiet (reads_lift hsame (fun e he => encode_plain he)) (fun raw hraw => ?_)
  have hwritten : st.Written w binding (f.revision + 1) state raw := ⟨hcontent.2, hraw.2⟩
  have hnumber : (f.revision : Int) = expected := not_not.mp hrevision.2
  have hc := commits_of hst hbinding hstate hinv hheld hpins hseen hwritten
  refine hquiet (reads_bind (reads_check hsame (by decide)) (fun _ =>
    reads_bind (reads_check hsame (by decide)) (fun _ => reads_check hsame (by decide)))) (fun _ _ => ?_)
  have hwrote : ∀ {u : Shared}, (∃ v : Version, v.bytes = raw ∧ u.versions = v :: t.versions) →
      Wrote st w binding expected state t u := by
    rintro u ⟨v, hv, hversions⟩
    exact ⟨v, hversions, f.revision, hnumber, hv ▸ hwritten⟩
  have haround : ∀ u, Around raw t u → Saving st w binding expected state t u :=
    fun u hu _ => hu.imp_right hwrote
  refine meets_bind (rely_refl w) (((meets_commit hc).within haround).mono ?_ ?_)
  · rintro - u ⟨hafter, hsynced⟩
    refine meets_ret_held (hafter.inv hc) hafter.held ?_
    obtain ⟨v, hv, hversions⟩ := hafter.versions
    obtain ⟨u', hu', hf⟩ := hseen
    obtain ⟨older, hbase⟩ := hu'.head
    refine ⟨hafter.inv hc, ?_⟩
    refine { held := ⟨hheld, hafter.held⟩, base := ⟨u', older, f, hbase, hf, hnumber⟩
             next := ⟨?_, rfl⟩, written := ⟨v, hversions, ?_⟩
             own := hwrote hafter.versions, synced := hsynced }
    · show ((f.revision + 1 : Nat) : Int) = expected + 1
      rw [← hnumber]
      rfl
    · rw [hv]
      exact readState_written hst hbinding hstate hwritten
  · intro e u hfailed
    refine { either := fun _ => ⟨hfailed.either.elim Before.held After.held, ?_⟩, unwritten := ?_
             visible := ?_ }
    · exact hfailed.either.imp Before.versions (fun h => hwrote h.versions)
    · exact fun heq => ⟨hheld, (hfailed.unwritten heq).held, (hfailed.unwritten heq).versions⟩
    · exact fun heq => ⟨hheld, (hfailed.visible heq).held, hwrote (hfailed.visible heq).versions⟩

end Saves

end TaskStore
