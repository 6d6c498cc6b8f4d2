import Mathlib

/-! # Interleaved threads — rely and guarantee

    A `Thread` is a program cut into its atomic steps: each one changes what the
    threads share, with the outside choosing how it ends, and says what follows.
    In a `Pool` the threads take steps in any order, one thread may die at any
    point, and all of them may stop at once.

    * `Meets` says what holds of a thread under interference: whatever the others
      do to the shared state as far as `rely` lets them, each step of this thread
      stays within `guar`, and its end satisfies the postcondition;
    * `AllMeet` is the invariant of a pool, and `allMeet_run` its run lemma. -/

namespace Interleaving

/-- A program over shared `σ`, in which the outside makes choices `κ`. -/
inductive Thread (σ κ ε α : Type) where
  | ret (a : α)
  | raised (e : ε)
  | step (put : σ → κ → σ) (next : σ → κ → Thread σ κ ε α)

variable {σ κ ε α β γ : Type}

namespace Thread

def andThen : Thread σ κ ε α → (α → Thread σ κ ε β) → Thread σ κ ε β
  | .ret a, k => k a
  | .raised e, _ => .raised e
  | .step put next, k => .step put (fun s c => (next s c).andThen k)

instance : Monad (Thread σ κ ε) where
  pure := .ret
  bind := andThen

/-- Run the handler where the program raises. -/
def handle : Thread σ κ ε α → (ε → Thread σ κ ε α) → Thread σ κ ε α
  | .ret a, _ => .ret a
  | .raised e, h => h e
  | .step put next, h => .step put (fun s c => (next s c).handle h)

def raiseIf (c : Prop) [Decidable c] (e : ε) : Thread σ κ ε Unit :=
  if c then .raised e else .ret ()

/-- A thread that has no step left. -/
def ended : Thread σ κ ε α → Bool
  | .step _ _ => false
  | _ => true

/-- The thread runs to its end alone, and the outside always makes one choice. -/
def alone (c : κ) : Thread σ κ ε α → σ → Except ε α × σ
  | .ret a, s => (.ok a, s)
  | .raised e, s => (.error e, s)
  | .step put next, s => alone c (next s c) (put s c)

theorem alone_bind (c : κ) (m : Thread σ κ ε α) (k : α → Thread σ κ ε β) (s : σ) :
    alone c (m >>= k) s = match alone c m s with
      | (.ok a, t) => alone c (k a) t
      | (.error e, t) => (.error e, t) := by
  induction m generalizing s with
  | ret a => rfl
  | raised e => rfl
  | step put next ih => exact ih s c (put s c)

/-- A thread alone, after a first part that returned. -/
theorem alone_then {c : κ} {m : Thread σ κ ε α} {k : α → Thread σ κ ε β} {s t : σ} {a : α}
    (h : alone c m s = (.ok a, t)) : alone c (m >>= k) s = alone c (k a) t := by
  rw [alone_bind, h]

theorem alone_handle (c : κ) (m : Thread σ κ ε α) (h : ε → Thread σ κ ε α) (s : σ) :
    alone c (handle m h) s = match alone c m s with
      | (.ok a, t) => (.ok a, t)
      | (.error e, t) => alone c (h e) t := by
  induction m generalizing s with
  | ret a => rfl
  | raised e => rfl
  | step put next ih => exact ih s c (put s c)

/-- The end of a thread that ran alone. -/
def ofResult : Except ε α → Thread σ κ ε α
  | .ok a => .ret a
  | .error e => .raised e

end Thread

open Thread

/-! ## One thread among others -/

/-- What holds of a thread from a shared state on: between its steps the others
    act within `rely`, its own steps are within `guar` and start where `K` holds. -/
def Meets (rely guar : σ → σ → Prop) (K : σ → Prop) :
    Thread σ κ ε α → (α → σ → Prop) → (ε → σ → Prop) → σ → Prop
  | .ret a, Q, _, s => ∀ s', rely s s' → Q a s'
  | .raised e, _, E, s => ∀ s', rely s s' → E e s'
  | .step put next, Q, E, s =>
      ∀ s', rely s s' → K s' ∧ ∀ c, guar s' (put s' c) ∧
        Meets rely guar K (next s' c) Q E (put s' c)

section Meets

variable {rely guar : σ → σ → Prop} {K : σ → Prop} {Q Q' : α → σ → Prop} {E E' : ε → σ → Prop}
variable {m : Thread σ κ ε α} {s : σ}

/-- What the others may do does not end what holds of a thread. -/
theorem Meets.after (htrans : ∀ {a b c}, rely a b → rely b c → rely a c)
    (h : Meets rely guar K m Q E s) {s' : σ} (hs : rely s s') : Meets rely guar K m Q E s' := by
  cases m with
  | ret a => exact fun t ht => h t (htrans hs ht)
  | raised e => exact fun t ht => h t (htrans hs ht)
  | step put next => exact fun t ht => h t (htrans hs ht)

theorem Meets.mono (h : Meets rely guar K m Q E s) (hQ : ∀ a s, Q a s → Q' a s)
    (hE : ∀ e s, E e s → E' e s) : Meets rely guar K m Q' E' s := by
  induction m generalizing s with
  | ret a => exact fun t ht => hQ a t (h t ht)
  | raised e => exact fun t ht => hE e t (h t ht)
  | step put next ih =>
      intro t ht
      obtain ⟨hK, hstep⟩ := h t ht
      exact ⟨hK, fun c => ⟨(hstep c).1, ih t c (hstep c).2⟩⟩

theorem Meets.within {K' : σ → Prop} (h : Meets rely guar K m Q E s) (hK : ∀ s, K s → K' s) :
    Meets rely guar K' m Q E s := by
  induction m generalizing s with
  | ret a => exact h
  | raised e => exact h
  | step put next ih =>
      intro t ht
      obtain ⟨hpoint, hstep⟩ := h t ht
      exact ⟨hK t hpoint, fun c => ⟨(hstep c).1, ih t c (hstep c).2⟩⟩

theorem meets_bind (hrefl : ∀ a, rely a a) {k : α → Thread σ κ ε β} {R : β → σ → Prop}
    (h : Meets rely guar K m (fun a s => Meets rely guar K (k a) R E s) E s) :
    Meets rely guar K (m >>= k) R E s := by
  induction m generalizing s with
  | ret a => exact h s (hrefl s)
  | raised e => exact h
  | step put next ih =>
      intro t ht
      obtain ⟨hK, hstep⟩ := h t ht
      exact ⟨hK, fun c => ⟨(hstep c).1, ih t c (hstep c).2⟩⟩

theorem meets_handle (hrefl : ∀ a, rely a a) {f : ε → Thread σ κ ε α}
    (h : Meets rely guar K m Q (fun e s => Meets rely guar K (f e) Q E s) s) :
    Meets rely guar K (handle m f) Q E s := by
  induction m generalizing s with
  | ret a => exact h
  | raised e => exact h s (hrefl s)
  | step put next ih =>
      intro t ht
      obtain ⟨hK, hstep⟩ := h t ht
      exact ⟨hK, fun c => ⟨(hstep c).1, ih t c (hstep c).2⟩⟩

end Meets

/-! ## Pools of threads -/

/-- A call that a thread is running: where it started, and what is left of it. -/
structure Running (σ κ ε γ α : Type) where
  call : γ
  start : σ
  now : Thread σ κ ε α

structure Pool (σ κ ε γ α : Type) where
  shared : σ
  running : Nat → Option (Running σ κ ε γ α)

def Pool.set (p : Pool σ κ ε γ α) (shared : σ) (w : Nat) (r : Option (Running σ κ ε γ α)) :
    Pool σ κ ε γ α :=
  { shared := shared, running := fun v => if v = w then r else p.running v }

/-- What the threads run, and what is left when one dies or all of them stop. -/
structure Rules (σ κ ε γ α : Type) where
  perform : Nat → γ → Thread σ κ ε α
  leave : Nat → σ → σ
  halted : σ → σ → Prop

/-- One step of a pool. -/
inductive Pool.Step (rules : Rules σ κ ε γ α) : Pool σ κ ε γ α → Pool σ κ ε γ α → Prop
  | begin {p : Pool σ κ ε γ α} {w : Nat} (call : γ) (hidle : p.running w = none) :
      Step rules p (p.set p.shared w
        (some { call := call, start := p.shared, now := rules.perform w call }))
  | act {p : Pool σ κ ε γ α} {w : Nat} {r : Running σ κ ε γ α} {put : σ → κ → σ}
      {next : σ → κ → Thread σ κ ε α} (hw : p.running w = some r) (hnow : r.now = .step put next)
      (c : κ) :
      Step rules p (p.set (put p.shared c) w (some { r with now := next p.shared c }))
  | finish {p : Pool σ κ ε γ α} {w : Nat} {r : Running σ κ ε γ α} (hw : p.running w = some r)
      (hnow : r.now.ended = true) : Step rules p (p.set p.shared w none)
  | die {p : Pool σ κ ε γ α} (w : Nat) : Step rules p (p.set (rules.leave w p.shared) w none)
  | halt {p : Pool σ κ ε γ α} {s : σ} (hs : rules.halted p.shared s) :
      Step rules p { shared := s, running := fun _ => none }

/-- Any number of steps. -/
inductive Pool.Run (rules : Rules σ κ ε γ α) (p : Pool σ κ ε γ α) : Pool σ κ ε γ α → Prop
  | refl : Run rules p p
  | step {q r : Pool σ κ ε γ α} (h : Run rules p q) (hstep : q.Step rules r) : Run rules p r

/-- What is asked of the calls: an invariant of the shared state, what each thread
    relies on and keeps to, and what each call is to do from where it starts. -/
structure Contract (rules : Rules σ κ ε γ α) where
  inv : σ → Prop
  rely : Nat → σ → σ → Prop
  guar : Nat → σ → σ → Prop
  during : Nat → γ → σ → σ → Prop
  returns : Nat → γ → σ → α → σ → Prop
  raises : Nat → γ → σ → ε → σ → Prop
  refl : ∀ w s, rely w s s
  trans : ∀ w {s t u}, rely w s t → rely w t u → rely w s u
  guar_rely : ∀ {v w s t}, v ≠ w → guar v s t → rely w s t
  guar_inv : ∀ {w s t}, guar w s t → inv s → inv t
  leave_rely : ∀ {v w} s, v ≠ w → rely w s (rules.leave v s)
  leave_inv : ∀ w {s}, inv s → inv (rules.leave w s)
  halted_inv : ∀ {s t}, rules.halted s t → inv s → inv t
  meets : ∀ w call s, inv s → Meets (rely w) (guar w) (during w call s) (rules.perform w call)
    (returns w call s) (raises w call s) s

variable {rules : Rules σ κ ε γ α}

namespace Contract

variable (c : Contract rules)

/-- Every running call is on its way to what is asked of it. -/
structure AllMeet (p : Pool σ κ ε γ α) : Prop where
  inv : c.inv p.shared
  meet : ∀ {w r}, p.running w = some r → Meets (c.rely w) (c.guar w) (c.during w r.call r.start)
    r.now (c.returns w r.call r.start) (c.raises w r.call r.start) p.shared

variable {c} {p q : Pool σ κ ε γ α}

theorem AllMeet.set (h : c.AllMeet p) {s : σ} {w : Nat} {r : Option (Running σ κ ε γ α)}
    (hinv : c.inv s) (hothers : ∀ v, v ≠ w → c.rely v p.shared s)
    (hr : ∀ r', r = some r' → Meets (c.rely w) (c.guar w) (c.during w r'.call r'.start)
      r'.now (c.returns w r'.call r'.start) (c.raises w r'.call r'.start) s) :
    c.AllMeet (p.set s w r) := by
  refine { inv := hinv, meet := ?_ }
  intro v r' hv
  by_cases hvw : v = w
  · subst hvw
    have hr' : r = some r' := by
      rw [← hv]
      exact (if_pos rfl).symm
    exact hr r' hr'
  · have hv' : p.running v = some r' := by
      rw [← hv]
      exact (if_neg hvw).symm
    have hrely : c.rely v p.shared s := hothers v hvw
    have hmeet := h.meet hv'
    refine @Meets.after _ _ _ _ _ _ _ _ _ _ _ ?_ hmeet s hrely
    intro a b d hab hbd
    exact c.trans v hab hbd

/-- **Every step of a pool keeps what is asked of its calls.** -/
theorem allMeet_step (h : c.AllMeet p) (hstep : p.Step rules q) : c.AllMeet q := by
  cases hstep with
  | begin call hidle =>
      refine h.set h.inv (fun v _ => c.refl v _) ?_
      rintro r' ⟨⟩
      exact c.meets _ call _ h.inv
  | @act w r put next hw hnow choice =>
      have hmeet := h.meet hw
      rw [hnow] at hmeet
      obtain ⟨hguar, hnext⟩ := (hmeet p.shared (c.refl w _)).2 choice
      refine h.set (c.guar_inv hguar h.inv) (fun v hv => c.guar_rely (Ne.symm hv) hguar) ?_
      rintro r' ⟨⟩
      exact hnext
  | finish hw hnow => exact h.set h.inv (fun v _ => c.refl v _) (fun _ hr => absurd hr nofun)
  | die w =>
      exact h.set (c.leave_inv w h.inv) (fun v hv => c.leave_rely _ (Ne.symm hv))
        (fun _ hr => absurd hr nofun)
  | halt hs => exact { inv := c.halted_inv hs h.inv, meet := fun hw => absurd hw nofun }

theorem allMeet_run (h : c.AllMeet p) (hrun : p.Run rules q) : c.AllMeet q := by
  induction hrun with
  | refl => exact h
  | step _ hstep ih => exact allMeet_step ih hstep

/-- A pool in which nothing runs yet. -/
theorem allMeet_idle {s : σ} (h : c.inv s) : c.AllMeet { shared := s, running := fun _ => none } :=
  { inv := h, meet := fun hw => absurd hw nofun }

/-- A call that has returned did what was asked of it. -/
theorem AllMeet.returned (h : c.AllMeet p) {w : Nat} {r : Running σ κ ε γ α} {a : α}
    (hw : p.running w = some r) (hnow : r.now = .ret a) : c.returns w r.call r.start a p.shared := by
  have hmeet := h.meet hw
  rw [hnow] at hmeet
  exact hmeet p.shared (c.refl w _)

theorem AllMeet.failed (h : c.AllMeet p) {w : Nat} {r : Running σ κ ε γ α} {e : ε}
    (hw : p.running w = some r) (hnow : r.now = .raised e) : c.raises w r.call r.start e p.shared := by
  have hmeet := h.meet hw
  rw [hnow] at hmeet
  exact hmeet p.shared (c.refl w _)

/-- A call that is not at its end is where calls of its kind may be. -/
theorem AllMeet.inside (h : c.AllMeet p) {w : Nat} {r : Running σ κ ε γ α}
    (hw : p.running w = some r) (hnow : r.now.ended = false) :
    c.during w r.call r.start p.shared := by
  have hmeet := h.meet hw
  cases hr : r.now with
  | ret a => rw [hr] at hnow; exact absurd hnow nofun
  | raised e => rw [hr] at hnow; exact absurd hnow nofun
  | step put next =>
      rw [hr] at hmeet
      exact (hmeet p.shared (c.refl w _)).1

end Contract

/-- A relation that every step keeps relates the ends of every run. -/
theorem Pool.Run.related {p q : Pool σ κ ε γ α} {R : σ → σ → Prop} (c : Contract rules)
    (hrefl : ∀ s, R s s) (htrans : ∀ {s t u}, R s t → R t u → R s u)
    (hguar : ∀ {w s t}, c.inv s → c.guar w s t → R s t)
    (hleave : ∀ w s, R s (rules.leave w s))
    (hhalted : ∀ {s t}, c.inv s → rules.halted s t → R s t) (h : c.AllMeet p) (hrun : p.Run rules q) :
    R p.shared q.shared := by
  induction hrun with
  | refl => exact hrefl _
  | @step q r hrun hstep ih =>
      have hall := Contract.allMeet_run h hrun
      refine htrans ih ?_
      cases hstep with
      | begin call hidle => exact hrefl _
      | @act w r put next hw hnow choice =>
          have hmeet := hall.meet hw
          rw [hnow] at hmeet
          exact hguar hall.inv ((hmeet _ (c.refl w _)).2 choice).1
      | finish hw hnow => exact hrefl _
      | die w => exact hleave w _
      | halt hs => exact hhalted hall.inv hs

/-! ## A thread that runs alone -/

theorem Pool.Run.trans {p q r : Pool σ κ ε γ α} (hpq : p.Run rules q) (hqr : q.Run rules r) :
    p.Run rules r := by
  induction hqr with
  | refl => exact hpq
  | step _ hstep ih => exact ih.step hstep

theorem Pool.set_set (p : Pool σ κ ε γ α) (s t : σ) (w : Nat) (r r' : Option (Running σ κ ε γ α)) :
    (p.set s w r).set t w r' = p.set t w r' := by
  have hrunning : ((p.set s w r).set t w r').running = (p.set t w r').running := by
    funext v
    show (if v = w then r' else if v = w then r else p.running v) = if v = w then r' else p.running v
    by_cases hv : v = w
    · rw [if_pos hv, if_pos hv]
    · rw [if_neg hv, if_neg hv, if_neg hv]
  exact congrArg (Pool.mk t) hrunning

/-- While nobody else moves, a running call goes on to its end. -/
theorem Pool.Run.alone (c : κ) (p : Pool σ κ ε γ α) (w : Nat) (call : γ) (start : σ)
    (m : Thread σ κ ε α) (s : σ) :
    (p.set s w (some { call := call, start := start, now := m })).Run rules
      (p.set (m.alone c s).2 w (some { call := call, start := start, now := ofResult (m.alone c s).1 })) := by
  induction m generalizing s with
  | ret a => exact .refl
  | raised e => exact .refl
  | step put next ih =>
      have hact : (p.set s w (some { call := call, start := start, now := .step put next })).Step rules _ :=
        .act (if_pos rfl) rfl c
      rw [Pool.set_set] at hact
      exact (Pool.Run.refl.step hact).trans (ih s c (put s c))

end Interleaving
