import Mathlib

/-! # Programs with failing and crashing effects

    A `Program σ ε α` runs on a state `σ` and ends in one of three ways: it
    returns a value, it raises an exception that a handler may catch, or its
    process is gone (`crashed`), which no handler sees.  The state is kept in
    all three cases: what was durable before a crash is durable after it.

    Six ways to reason about a program are provided:

    * `Raises E m` — every run returns or raises an exception of `E`;
    * `Fixes f m` — the view `f` of the state is the same after any run;
    * `Triple f P m Q K` — from views in `P`, every run ends in `Q` or, where it
      ends early, in `K`; one rule for each way of building programs;
    * `Keeps I m` — from states in `I`, every run ends in `I`;
    * `Yields I m o` — from states in `I`, every run ends as `o`, and in `I`;
    * `Gives m s a s'` — the run from `s` returns `a` and leaves `s'`. -/

namespace EffectPrograms

/-- How a run ends. -/
inductive Outcome (ε α : Type) where
  | done (a : α)
  | raised (e : ε)
  | crashed
deriving Repr, DecidableEq

/-- A program over the state `σ` with exceptions `ε`. -/
def Program (σ ε α : Type) : Type := σ → Outcome ε α × σ

variable {σ ε α β γ : Type}

namespace Program

/-- Return a value and change nothing. -/
def ret (a : α) : Program σ ε α := fun s => (.done a, s)

/-- Run `m`, then `k` on its value; a raise or a crash of `m` ends the run. -/
def andThen (m : Program σ ε α) (k : α → Program σ ε β) : Program σ ε β := fun s =>
  match m s with
  | (.done a, s') => k a s'
  | (.raised e, s') => (.raised e, s')
  | (.crashed, s') => (.crashed, s')

instance : Monad (Program σ ε) where
  pure := ret
  bind := andThen

/-- Raise an exception. -/
def raise (e : ε) : Program σ ε α := fun s => (.raised e, s)

/-- Raise `e` when the condition holds. -/
def raiseIf (c : Prop) [Decidable c] (e : ε) : Program σ ε Unit :=
  if c then raise e else pure ()

/-- Run `m` only when the condition holds. -/
def whenever (c : Prop) [Decidable c] (m : Program σ ε Unit) : Program σ ε Unit :=
  if c then m else pure ()

/-- The process is gone. -/
def crash : Program σ ε α := fun s => (.crashed, s)

/-- Run `m`; a raised exception is passed to the handler, a crash is not. -/
def handle (m : Program σ ε α) (h : ε → Program σ ε α) : Program σ ε α := fun s =>
  match m s with
  | (.done a, s') => (.done a, s')
  | (.raised e, s') => h e s'
  | (.crashed, s') => (.crashed, s')

/-- Read the state. -/
def read : Program σ ε σ := fun s => (.done s, s)

theorem read_bind_apply (k : σ → Program σ ε α) (s : σ) : (read >>= k) s = k s s := rfl

/-- Update the state. -/
def update (f : σ → σ) : Program σ ε Unit := fun s => (.done (), f s)

/-- Run a program over a list, left to right. -/
def each (f : α → Program σ ε Unit) : List α → Program σ ε Unit
  | [] => pure ()
  | a :: as => do
      f a
      each f as

end Program

open Program

theorem program_pure_bind (a : α) (k : α → Program σ ε β) : pure a >>= k = k a := rfl

theorem program_bind_pure (m : Program σ ε α) : m >>= pure = m := by
  funext s
  show andThen m ret s = m s
  unfold andThen
  rcases m s with ⟨o, s'⟩
  cases o with
  | done a => rfl
  | raised e => rfl
  | crashed => rfl

/-- Sequencing is associative. -/
theorem program_bind_assoc (m : Program σ ε α) (k : α → Program σ ε β)
    (l : β → Program σ ε γ) : m >>= k >>= l = m >>= fun a => k a >>= l := by
  funext s
  show andThen (andThen m k) l s = andThen m (fun a => andThen (k a) l) s
  unfold andThen
  rcases m s with ⟨o, s'⟩
  cases o with
  | done a => rfl
  | raised e => rfl
  | crashed => rfl

/-! ## What a program raises -/

/-- Every run of `m` returns, or raises an exception of `E`. -/
def Raises (E : ε → Prop) (m : Program σ ε α) : Prop := ∀ s,
  match (m s).1 with
  | .done _ => True
  | .raised e => E e
  | .crashed => False

section Raises

variable {E E' : ε → Prop} {m : Program σ ε α}

theorem raises_pure (a : α) : Raises E (pure a : Program σ ε α) := fun _ => trivial

theorem raises_raise {e : ε} (h : E e) : Raises E (raise e : Program σ ε α) := fun _ => h

theorem raises_read : Raises E (read : Program σ ε σ) := fun _ => trivial

theorem raises_update (f : σ → σ) : Raises E (update f : Program σ ε Unit) := fun _ => trivial

theorem raises_bind {k : α → Program σ ε β} (hm : Raises E m) (hk : ∀ a, Raises E (k a)) :
    Raises E (m >>= k) := by
  intro s
  have h := hm s
  show match (andThen m k s).1 with
    | .done _ => True
    | .raised e => E e
    | .crashed => False
  unfold andThen
  rcases hms : m s with ⟨o, s'⟩
  rw [hms] at h
  cases o with
  | done a => exact hk a s'
  | raised e => exact h
  | crashed => exact h

theorem raises_handle {h : ε → Program σ ε α} (hm : Raises E' m) (hh : ∀ e, E' e → Raises E (h e)) :
    Raises E (handle m h) := by
  intro s
  have hrun := hm s
  unfold handle
  rcases hms : m s with ⟨o, s'⟩
  rw [hms] at hrun
  cases o with
  | done a => exact trivial
  | raised e => exact hh e hrun s'
  | crashed => exact hrun

theorem raises_ite {c : Prop} [Decidable c] {m' : Program σ ε α} (hm : Raises E m) (hm' : Raises E m') :
    Raises E (if c then m else m') := by
  split
  · exact hm
  · exact hm'

theorem Raises.mono (hm : Raises E m) (h : ∀ e, E e → E' e) : Raises E' m := by
  intro s
  have hrun := hm s
  rcases hms : m s with ⟨o, s'⟩
  rw [hms] at hrun
  cases o with
  | done a => exact trivial
  | raised e => exact h e hrun
  | crashed => exact hrun

theorem raises_raiseIf {c : Prop} [Decidable c] {e : ε} (h : E e) :
    Raises E (raiseIf c e : Program σ ε Unit) :=
  raises_ite (raises_raise h) (raises_pure ())

end Raises

/-! ## Views that a program leaves alone -/

/-- The view `f` is the same after any run of `m`. -/
def Fixes {ν : Type} (f : σ → ν) (m : Program σ ε α) : Prop := ∀ s, f (m s).2 = f s

variable {ν : Type} {f : σ → ν}

@[simp] theorem fixes_pure (a : α) : Fixes f (pure a : Program σ ε α) := fun _ => rfl

@[simp] theorem fixes_raise (e : ε) : Fixes f (raise e : Program σ ε α) := fun _ => rfl

@[simp] theorem fixes_crash : Fixes f (crash : Program σ ε α) := fun _ => rfl

@[simp] theorem fixes_read : Fixes f (read : Program σ ε σ) := fun _ => rfl

theorem fixes_bind {m : Program σ ε α} {k : α → Program σ ε β}
    (hm : Fixes f m) (hk : ∀ a, Fixes f (k a)) : Fixes f (m >>= k) := by
  intro s
  show f (andThen m k s).2 = f s
  have h := hm s
  unfold andThen
  rcases hms : m s with ⟨o, s'⟩
  rw [hms] at h
  cases o with
  | done a => exact (hk a s').trans h
  | raised e => exact h
  | crashed => exact h

theorem fixes_handle {m : Program σ ε α} {h : ε → Program σ ε α}
    (hm : Fixes f m) (hh : ∀ e, Fixes f (h e)) : Fixes f (handle m h) := by
  intro s
  have hs := hm s
  unfold handle
  rcases hms : m s with ⟨o, s'⟩
  rw [hms] at hs
  cases o with
  | done a => exact hs
  | raised e => exact (hh e s').trans hs
  | crashed => exact hs

@[simp] theorem fixes_raiseIf (c : Prop) [Decidable c] (e : ε) :
    Fixes f (raiseIf c e : Program σ ε Unit) := by
  unfold raiseIf
  split
  · exact fixes_raise e
  · exact fixes_pure ()

theorem fixes_ite {c : Prop} [Decidable c] {m m' : Program σ ε α}
    (hm : Fixes f m) (hm' : Fixes f m') : Fixes f (if c then m else m') := by
  split
  · exact hm
  · exact hm'

theorem fixes_whenever {c : Prop} [Decidable c] {m : Program σ ε Unit} (hm : Fixes f m) :
    Fixes f (whenever c m) :=
  fixes_ite hm (fixes_pure ())

theorem fixes_each {g : α → Program σ ε Unit} (hg : ∀ a, Fixes f (g a)) (as : List α) :
    Fixes f (each g as) := by
  induction as with
  | nil => exact fixes_pure ()
  | cons a as ih => exact fixes_bind (hg a) (fun _ => ih)

/-! ## Triples over a view

    `Triple f P m Q K`: from states whose view satisfies `P`, a run of `m` that
    returns `a` ends in a view that satisfies `Q a`, and a run that ends early
    (with an exception, or by a crash: `none`) in one that satisfies `K`. -/

def endsIn (Q : α → ν → Prop) (K : Option ε → ν → Prop) : Outcome ε α → ν → Prop
  | .done a, v => Q a v
  | .raised e, v => K (some e) v
  | .crashed, v => K none v

/-- An outcome without a value. -/
def early : Option ε → Outcome ε α
  | some e => .raised e
  | none => .crashed

/-- An assertion about every outcome, as the two assertions of a triple. -/
theorem endsIn_outcome {A : Outcome ε α → ν → Prop} {o : Outcome ε α} {v : ν}
    (h : endsIn (fun a v => A (.done a) v) (fun e v => A (early e) v) o v) : A o v := by
  cases o with
  | done a => exact h
  | raised e => exact h
  | crashed => exact h

def Triple (f : σ → ν) (P : ν → Prop) (m : Program σ ε α) (Q : α → ν → Prop)
    (K : Option ε → ν → Prop) : Prop :=
  ∀ s, P (f s) → endsIn Q K (m s).1 (f (m s).2)

variable {P P' : ν → Prop} {m : Program σ ε α} {Q Q' : α → ν → Prop} {K K' : Option ε → ν → Prop}

theorem triple_pure {a : α} (h : ∀ v, P v → Q a v) : Triple f P (pure a : Program σ ε α) Q K :=
  fun s hs => h (f s) hs

theorem triple_raise {e : ε} (h : ∀ v, P v → K (some e) v) :
    Triple f P (raise e : Program σ ε α) Q K :=
  fun s hs => h (f s) hs

theorem triple_bind {k : α → Program σ ε β} {R : β → ν → Prop} (hm : Triple f P m Q K)
    (hk : ∀ a, Triple f (Q a) (k a) R K) : Triple f P (m >>= k) R K := by
  intro s hs
  have h := hm s hs
  show endsIn R K (andThen m k s).1 (f (andThen m k s).2)
  unfold andThen
  rcases hms : m s with ⟨o, s'⟩
  rw [hms] at h
  cases o with
  | done a => exact hk a s' h
  | raised e => exact h
  | crashed => exact h

theorem triple_conseq (hm : Triple f P m Q K) (hP : ∀ v, P' v → P v)
    (hQ : ∀ a v, Q a v → Q' a v) (hK : ∀ e v, K e v → K' e v) : Triple f P' m Q' K' := by
  intro s hs
  have h := hm s (hP _ hs)
  rcases hms : m s with ⟨o, s'⟩
  rw [hms] at h
  cases o with
  | done a => exact hQ a _ h
  | raised e => exact hK _ _ h
  | crashed => exact hK _ _ h

theorem triple_pre (hm : Triple f P m Q K) (hP : ∀ v, P' v → P v) : Triple f P' m Q K :=
  triple_conseq hm hP (fun _ _ h => h) (fun _ _ h => h)

theorem triple_post (hm : Triple f P m Q K) (hQ : ∀ a v, Q a v → Q' a v) : Triple f P m Q' K :=
  triple_conseq hm (fun _ h => h) hQ (fun _ _ h => h)

/-- A program that leaves the view alone keeps every assertion about it. -/
theorem triple_fixes (hm : Fixes f m) (hK : ∀ e v, P v → K e v) :
    Triple f P m (fun _ v => P v) K := by
  intro s hs
  have h := hm s
  rcases hms : m s with ⟨o, s'⟩
  rw [hms] at h
  have hP : P (f s') := by rw [show f s' = f s from h]; exact hs
  cases o with
  | done a => exact hP
  | raised e => exact hK _ _ hP
  | crashed => exact hK _ _ hP

/-- A step that leaves the view alone and whose value does not matter. -/
theorem triple_skip {k : α → Program σ ε β} {R : β → ν → Prop} (hm : Fixes f m)
    (hK : ∀ e v, P v → K e v) (hk : ∀ a, Triple f P (k a) R K) : Triple f P (m >>= k) R K :=
  triple_bind (triple_fixes hm hK) hk

/-- Past a check, its condition is known to be false. -/
theorem triple_check {c : Prop} [Decidable c] {e : ε} {k : Unit → Program σ ε β}
    {R : β → ν → Prop} (hK : ∀ v, P v → K (some e) v) (hk : ¬ c → Triple f P (k ()) R K) :
    Triple f P (raiseIf c e >>= k) R K := by
  intro s hs
  show endsIn R K (andThen (raiseIf c e) k s).1 (f (andThen (raiseIf c e) k s).2)
  unfold andThen raiseIf
  by_cases hc : c
  · rw [if_pos hc]
    exact hK _ hs
  · rw [if_neg hc]
    exact hk hc s hs

theorem triple_ite {c : Prop} [Decidable c] {m' : Program σ ε α}
    (hm : c → Triple f P m Q K) (hm' : ¬ c → Triple f P m' Q K) :
    Triple f P (if c then m else m') Q K := by
  split
  next hc => exact hm hc
  next hc => exact hm' hc

theorem triple_whenever {c : Prop} [Decidable c] {m : Program σ ε Unit} {Q : Unit → ν → Prop}
    (hm : c → Triple f P m Q K) (hskip : ¬ c → ∀ v, P v → Q () v) :
    Triple f P (whenever c m) Q K :=
  triple_ite hm (fun hc => triple_pure (hskip hc))

/-- A fact in the precondition may be assumed. -/
theorem triple_pull {φ : Prop} (h : φ → Triple f P m Q K) :
    Triple f (fun v => P v ∧ φ) m Q K :=
  fun s hs => h hs.2 s hs.1

/-- A witness of the precondition may be taken before the run. -/
theorem triple_exists {ι : Type} {R : ι → ν → Prop} (h : ∀ i, Triple f (R i) m Q K) :
    Triple f (fun v => ∃ i, R i v) m Q K := by
  rintro s ⟨i, hs⟩
  exact h i s hs

theorem triple_handle {h : ε → Program σ ε α} {H : ε → ν → Prop}
    (hm : Triple f P m Q (fun e v => match e with | some e => H e v | none => K none v))
    (hh : ∀ e, Triple f (H e) (h e) Q K) : Triple f P (handle m h) Q K := by
  intro s hs
  have hrun := hm s hs
  unfold handle
  rcases hms : m s with ⟨o, s'⟩
  rw [hms] at hrun
  cases o with
  | done a => exact hrun
  | raised e => exact hh e s' hrun
  | crashed => exact hrun

/-- A handler for whatever is raised, from one assertion about all early ends. -/
theorem triple_recover {h : ε → Program σ ε α} {A : ν → Prop}
    (hm : Triple f P m Q (fun _ v => A v)) (hcrash : ∀ v, A v → K none v)
    (hh : ∀ e, Triple f A (h e) Q K) : Triple f P (handle m h) Q K := by
  refine triple_handle (H := fun _ v => A v) ?_ hh
  refine triple_conseq hm (fun _ hv => hv) (fun _ _ hv => hv) ?_
  intro e v hv
  cases e with
  | none => exact hcrash v hv
  | some e => exact hv

/-- A round that keeps an assertion keeps it in every loop. -/
theorem triple_each {ι : Type} {g : ι → Program σ ε Unit} (hg : ∀ i, Triple f P (g i) (fun _ => P) K) (is : List ι) :
    Triple f P (each g is) (fun _ => P) K := by
  induction is with
  | nil => exact triple_pure (fun _ hv => hv)
  | cons i is ih => exact triple_bind (hg i) (fun _ => ih)

/-- A triple may be proved one view at a time. -/
theorem triple_at (h : ∀ v₀, P v₀ → Triple f (fun v => v = v₀) m Q K) : Triple f P m Q K :=
  fun s hs => h (f s) hs s rfl

/-- Read the state, and keep what its view says. -/
theorem triple_read {k : σ → Program σ ε β} {R : β → ν → Prop}
    (hk : ∀ s, Triple f (fun v => P v ∧ v = f s) (k s) R K) : Triple f P (read >>= k) R K :=
  fun s hs => hk s s ⟨hs, rfl⟩

/-! ## Invariants -/

/-- A run of `m` from a state of `I` ends in one, however it ends. -/
def Keeps (I : σ → Prop) (m : Program σ ε α) : Prop := ∀ s, I s → I (m s).2

section Keeps

variable {I : σ → Prop} {m : Program σ ε α}

theorem Keeps.triple (h : Keeps I m) : Triple id I m (fun _ => I) (fun _ => I) := by
  intro s hs
  have hafter := h s hs
  show endsIn _ _ (m s).1 (m s).2
  cases (m s).1 with
  | done a => exact hafter
  | raised e => exact hafter
  | crashed => exact hafter

theorem keeps_pure (a : α) : Keeps I (pure a : Program σ ε α) := fun _ hs => hs

theorem keeps_raise (e : ε) : Keeps I (raise e : Program σ ε α) := fun _ hs => hs

theorem keeps_read : Keeps I (read : Program σ ε σ) := fun _ hs => hs

theorem keeps_update {f : σ → σ} (h : ∀ s, I s → I (f s)) : Keeps I (update f : Program σ ε Unit) := h

theorem keeps_bind {k : α → Program σ ε β} (hm : Keeps I m) (hk : ∀ a, Keeps I (k a)) :
    Keeps I (m >>= k) := by
  intro s hs
  have h := hm s hs
  show I (andThen m k s).2
  unfold andThen
  rcases hms : m s with ⟨o, s'⟩
  rw [hms] at h
  cases o with
  | done a => exact hk a s' h
  | raised e => exact h
  | crashed => exact h

theorem keeps_handle {h : ε → Program σ ε α} (hm : Keeps I m) (hh : ∀ e, Keeps I (h e)) :
    Keeps I (handle m h) := by
  intro s hs
  have hrun := hm s hs
  unfold handle
  rcases hms : m s with ⟨o, s'⟩
  rw [hms] at hrun
  cases o with
  | done a => exact hrun
  | raised e => exact hh e s' hrun
  | crashed => exact hrun

theorem keeps_ite {c : Prop} [Decidable c] {m' : Program σ ε α} (hm : Keeps I m) (hm' : Keeps I m') :
    Keeps I (if c then m else m') := by
  split
  · exact hm
  · exact hm'

end Keeps

/-! ## Programs with one outcome

    Where an invariant of the state fixes what each part of a program answers, it
    fixes how the program ends. -/

/-- Return the value of a result, or raise its error. -/
def Program.ofExcept : Except ε α → Program σ ε α
  | .ok a => pure a
  | .error e => raise e

/-- From states of `I`, `m` ends as `o`, in a state of `I`. -/
def Yields (I : σ → Prop) (m : Program σ ε α) (o : Outcome ε α) : Prop :=
  ∀ s, I s → (m s).1 = o ∧ I (m s).2

section Yields

variable {I : σ → Prop} {m : Program σ ε α} {a : α} {e : ε} {o : Outcome ε β}

theorem yields_pure : Yields I (pure a : Program σ ε α) (.done a) := fun _ hs => ⟨rfl, hs⟩

theorem yields_raise : Yields I (raise e : Program σ ε α) (.raised e) := fun _ hs => ⟨rfl, hs⟩

theorem yields_bind {k : α → Program σ ε β} (hm : Yields I m (.done a)) (hk : Yields I (k a) o) :
    Yields I (m >>= k) o := by
  intro s hs
  obtain ⟨hend, hafter⟩ := hm s hs
  show (andThen m k s).1 = o ∧ I (andThen m k s).2
  unfold andThen
  rcases hms : m s with ⟨o', s'⟩
  rw [hms] at hend hafter
  obtain rfl : o' = .done a := hend
  exact hk s' hafter

theorem yields_bind_raised {k : α → Program σ ε β} (hm : Yields I m (.raised e)) :
    Yields I (m >>= k) (.raised e) := by
  intro s hs
  obtain ⟨hend, hafter⟩ := hm s hs
  show (andThen m k s).1 = .raised e ∧ I (andThen m k s).2
  unfold andThen
  rcases hms : m s with ⟨o', s'⟩
  rw [hms] at hend hafter
  obtain rfl : o' = .raised e := hend
  exact ⟨rfl, hafter⟩

theorem yields_handle {h : ε → Program σ ε α} (hm : Yields I m (.done a)) :
    Yields I (handle m h) (.done a) := by
  intro s hs
  obtain ⟨hend, hafter⟩ := hm s hs
  unfold handle
  rcases hms : m s with ⟨o', s'⟩
  rw [hms] at hend hafter
  obtain rfl : o' = .done a := hend
  exact ⟨rfl, hafter⟩

theorem yields_handle_raised {h : ε → Program σ ε α} {o : Outcome ε α} (hm : Yields I m (.raised e))
    (hh : Yields I (h e) o) : Yields I (handle m h) o := by
  intro s hs
  obtain ⟨hend, hafter⟩ := hm s hs
  unfold handle
  rcases hms : m s with ⟨o', s'⟩
  rw [hms] at hend hafter
  obtain rfl : o' = .raised e := hend
  exact hh s' hafter

end Yields

/-! ## Runs that return

    A run returns exactly where each of its steps does: one rule for each way of
    building programs, in both directions. -/

/-- From `s`, `m` returns `a` and leaves `s'`. -/
def Gives (m : Program σ ε α) (s : σ) (a : α) (s' : σ) : Prop := m s = (.done a, s')

section Gives

variable {m : Program σ ε α} {k : α → Program σ ε β} {s s' s₁ : σ} {a b : α} {e : ε} {c : β}

@[simp] theorem gives_pure : Gives (pure a : Program σ ε α) s b s' ↔ b = a ∧ s' = s := by
  constructor
  · intro h
    obtain ⟨ha, hs⟩ := Prod.mk.inj (h : ((.done a, s) : Outcome ε α × σ) = (.done b, s'))
    exact ⟨(Outcome.done.inj ha).symm, hs.symm⟩
  · rintro ⟨rfl, rfl⟩
    rfl

@[simp] theorem gives_raise : ¬ Gives (raise e : Program σ ε α) s a s' :=
  fun h => nomatch (Prod.mk.inj (h : ((.raised e, s) : Outcome ε α × σ) = (.done a, s'))).1

@[simp] theorem gives_read {t : σ} : Gives (read : Program σ ε σ) s t s' ↔ t = s ∧ s' = s := gives_pure

@[simp] theorem gives_update {f : σ → σ} {u : Unit} :
    Gives (update f : Program σ ε Unit) s u s' ↔ s' = f s := by
  constructor
  · intro h
    exact (Prod.mk.inj (h : ((.done (), f s) : Outcome ε Unit × σ) = (.done u, s'))).2.symm
  · rintro rfl
    rfl

theorem Gives.bind_eq (h : Gives m s a s₁) : (m >>= k) s = k a s₁ := by
  show andThen m k s = k a s₁
  unfold andThen
  rw [show m s = (.done a, s₁) from h]

/-- A sequence returns exactly where both of its parts do. -/
theorem gives_bind : Gives (m >>= k) s c s' ↔ ∃ a s₁, Gives m s a s₁ ∧ Gives (k a) s₁ c s' := by
  constructor
  · intro h
    have h : andThen m k s = (.done c, s') := h
    unfold andThen at h
    rcases hms : m s with ⟨o, s₁⟩
    rw [hms] at h
    cases o with
    | done a => exact ⟨a, s₁, hms, h⟩
    | raised e => exact absurd (Prod.mk.inj h).1 nofun
    | crashed => exact absurd (Prod.mk.inj h).1 nofun
  · rintro ⟨a, s₁, hm, hk⟩
    exact hm.bind_eq.trans hk

@[simp] theorem gives_raiseIf {d : Prop} [Decidable d] {u : Unit} :
    Gives (raiseIf d e : Program σ ε Unit) s u s' ↔ ¬ d ∧ s' = s := by
  unfold raiseIf
  by_cases hd : d
  · rw [if_pos hd]
    exact ⟨fun h => absurd h gives_raise, fun h => absurd hd h.1⟩
  · rw [if_neg hd, gives_pure]
    exact and_congr_left (fun _ => ⟨fun _ => hd, fun _ => rfl⟩)

/-- A check that lets the rest run. -/
theorem gives_check {d : Prop} [Decidable d] {k : Unit → Program σ ε β} :
    Gives (raiseIf d e >>= k) s c s' ↔ ¬ d ∧ Gives (k ()) s c s' := by
  rw [gives_bind]
  constructor
  · rintro ⟨u, s₁, hcheck, hrest⟩
    obtain ⟨hd, rfl⟩ := gives_raiseIf.mp hcheck
    exact ⟨hd, hrest⟩
  · rintro ⟨hd, hrest⟩
    exact ⟨(), s, gives_raiseIf.mpr ⟨hd, rfl⟩, hrest⟩

/-- What a sequence raises, one of its parts does. -/
theorem raised_bind (h : (m >>= k) s = (.raised e, s')) :
    m s = (.raised e, s') ∨ ∃ a s₁, Gives m s a s₁ ∧ k a s₁ = (.raised e, s') := by
  have h : andThen m k s = (.raised e, s') := h
  unfold andThen at h
  rcases hms : m s with ⟨o, s₁⟩
  rw [hms] at h
  cases o with
  | done a => exact Or.inr ⟨a, s₁, hms, h⟩
  | raised e' =>
      obtain ⟨he, rfl⟩ := Prod.mk.inj h
      obtain rfl := Outcome.raised.inj he
      exact Or.inl rfl
  | crashed => exact absurd (Prod.mk.inj h).1 nofun

end Gives

end EffectPrograms
