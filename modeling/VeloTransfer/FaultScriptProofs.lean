import VeloTransfer.EffectProofs

/-! # Machines that fail and crash by a script

    A `Machine ε δ` has a durable part `disk`, a clock, some free space, and a
    script that decides what the outside does at every effect: nothing, let it
    fail after some progress, or take the process down after some progress.
    A statement about every run of a program quantifies over the script.

    * `probe`, `observe`, `freeSpace` look outside and change nothing durable;
    * `effect` changes the disk, wholly or, under a fault, in part;
    * `Calm` machines meet no fault before a deadline, and stay calm. -/

namespace FaultScript

open EffectPrograms Program

/-- What goes wrong at one effect: it raises `e`, or the process dies, after
    `progress` units of it were done. -/
inductive Fault (ε : Type) where
  | none
  | fail (e : ε) (progress : Nat)
  | crash (progress : Nat)
deriving Repr, DecidableEq

/-- The outside at one effect: the time that passes, the time stamp a written
    file gets, what a probe reads, and the fault. -/
structure Event (ε : Type) where
  tick : Nat
  stamp : Nat
  reading : Nat
  fault : Fault ε
deriving Repr, DecidableEq

/-- A step at which nothing happens. -/
def Event.calm : Event ε := { tick := 0, stamp := 0, reading := 0, fault := .none }

/-- A machine: its durable part, and what the outside will do to it. -/
structure Machine (ε δ : Type) where
  disk : δ
  clock : Nat
  free : Nat
  script : List (Event ε)
deriving Repr, DecidableEq

variable {ε δ α : Type}

/-- A program on a machine. -/
abbrev Effect (ε δ α : Type) : Type := Program (Machine ε δ) ε α

/-- The next event of the script; a machine without script is calm. -/
def nextEvent : Effect ε δ (Event ε) := fun m =>
  match m.script with
  | [] => (.done Event.calm, m)
  | e :: rest => (.done e, { m with clock := m.clock + e.tick, script := rest })

/-- The monotonic clock. -/
def monotonic : Effect ε δ Nat := do
  let m ← read
  pure m.clock

def getDisk : Effect ε δ δ := do
  let m ← read
  pure m.disk

/-- Look outside and read a number. -/
def observe : Effect ε δ Nat := do
  let e ← nextEvent
  match e.fault with
  | .none => pure e.reading
  | .fail f _ => raise f
  | .crash _ => crash

/-- An outside check that changes nothing and may fail. -/
def probe : Effect ε δ Unit := do
  let _ ← observe
  pure ()

/-- The free space that others have left. -/
def freeSpace : Effect ε δ Nat := do
  let used ← observe
  let m ← read
  pure (m.free - used)

/-- Put a new disk in place of the present one. -/
def setDisk (f : δ → δ) : Effect ε δ Unit := update (fun m => { m with disk := f m.disk })

/-- Change the disk; under a fault only `progress` units of the change are done.
    `change none` is the whole change. -/
def effect (change : Option Nat → Nat → δ → δ) : Effect ε δ Unit := do
  let e ← nextEvent
  match e.fault with
  | .none => setDisk (change none e.stamp)
  | .fail f progress => do
      setDisk (change (some progress) e.stamp)
      raise f
  | .crash progress => do
      setDisk (change (some progress) e.stamp)
      crash

/-- Whether an all-or-nothing change took place. -/
def happened (progress : Option Nat) : Bool :=
  match progress with
  | none => true
  | some n => 0 < n

/-- A change that takes place as a whole or not at all. -/
def allOrNothing (put : Nat → δ → δ) : Effect ε δ Unit :=
  effect (fun progress stamp d => if happened progress then put stamp d else d)

/-- Replace a stored record; a failure is classified by what is read back. -/
def replaceRecord {ρ : Type} (put : δ → δ) (readBack : Effect ε δ ρ) (classify : ρ → ε) :
    Effect ε δ Unit :=
  handle (allOrNothing (fun _ => put)) (fun _ => do
    let observed ← readBack
    raise (classify observed))

/-! ## The durable part -/

theorem fixes_nextEvent : Fixes Machine.disk (nextEvent : Effect ε δ (Event ε)) := by
  intro m
  unfold nextEvent
  cases m.script with
  | nil => rfl
  | cons e rest => rfl

theorem fixes_monotonic : Fixes Machine.disk (monotonic : Effect ε δ Nat) := fun _ => rfl

theorem fixes_getDisk : Fixes Machine.disk (getDisk : Effect ε δ δ) := fun _ => rfl

theorem fixes_observe : Fixes Machine.disk (observe : Effect ε δ Nat) := by
  refine fixes_bind fixes_nextEvent ?_
  intro e
  cases e.fault with
  | none => exact fixes_pure _
  | fail f n => exact fixes_raise f
  | crash n => exact fixes_crash

theorem fixes_probe : Fixes Machine.disk (probe : Effect ε δ Unit) :=
  fixes_bind fixes_observe (fun _ => fixes_pure ())

theorem fixes_freeSpace : Fixes Machine.disk (freeSpace : Effect ε δ Nat) :=
  fixes_bind fixes_observe (fun _ => fixes_bind fixes_read (fun _ => fixes_pure _))

/-! ## Triples over the disk

    `onDisk g` is the view of a machine through a view `g` of its disk. -/

variable {ν : Type}

def onDisk (g : δ → ν) (m : Machine ε δ) : ν := g m.disk

theorem fixes_onDisk {g : δ → ν} {m : Effect ε δ α} (h : Fixes Machine.disk m) :
    Fixes (onDisk g) m :=
  fun s => congrArg g (h s)

variable {g : δ → ν} {P : ν → Prop} {K : Option ε → ν → Prop}

theorem nextEvent_done (s : Machine ε δ) :
    ∃ e s', nextEvent s = (.done e, s') ∧ s'.disk = s.disk := by
  unfold nextEvent
  cases s.script with
  | nil => exact ⟨_, _, rfl, rfl⟩
  | cons e rest => exact ⟨_, _, rfl, rfl⟩

/-- The next event itself never ends a run. -/
theorem triple_nextEvent {β : Type} {k : Event ε → Effect ε δ β} {R : β → ν → Prop}
    (hk : ∀ e, Triple (onDisk g) P (k e) R K) : Triple (onDisk g) P (nextEvent >>= k) R K := by
  intro s hs
  obtain ⟨e, s', hrun, hdisk⟩ := nextEvent_done s
  have h := hk e s' (by rw [onDisk, hdisk]; exact hs)
  show endsIn R K (andThen nextEvent k s).1 (onDisk g (andThen nextEvent k s).2)
  unfold andThen
  rw [hrun]
  exact h

/-- What an effect leaves behind: the whole change, or a part of it and an early
    end.  The view must follow the change. -/
theorem triple_effect {change : Option Nat → Nat → δ → δ} (change' : Option Nat → Nat → ν → ν)
    {Q : Unit → ν → Prop} (hview : ∀ progress stamp d, g (change progress stamp d)
      = change' progress stamp (g d))
    (hdone : ∀ stamp v, P v → Q () (change' none stamp v))
    (hearly : ∀ e n stamp v, P v → K e (change' (some n) stamp v)) :
    Triple (onDisk g) P (effect change) Q K := by
  refine triple_nextEvent ?_
  intro e
  cases e.fault with
  | none =>
      intro s hs
      show Q () (g (change none e.stamp s.disk))
      rw [hview]
      exact hdone e.stamp _ hs
  | fail f n =>
      intro s hs
      show K (some f) (g (change (some n) e.stamp s.disk))
      rw [hview]
      exact hearly _ n e.stamp _ hs
  | crash n =>
      intro s hs
      show K none (g (change (some n) e.stamp s.disk))
      rw [hview]
      exact hearly _ n e.stamp _ hs

/-- A change that the view does not see. -/
theorem fixes_effect {change : Option Nat → Nat → δ → δ}
    (hview : ∀ progress stamp d, g (change progress stamp d) = g d) :
    Fixes (onDisk g) (effect change : Effect ε δ Unit) := by
  refine fixes_bind (fixes_onDisk fixes_nextEvent) ?_
  intro e
  cases e.fault with
  | none => exact fun s => hview none e.stamp s.disk
  | fail f n =>
      exact fixes_bind (fun s => hview (some n) e.stamp s.disk) (fun _ => fixes_raise f)
  | crash n => exact fixes_bind (fun s => hview (some n) e.stamp s.disk) (fun _ => fixes_crash)

/-- The view after an all-or-nothing change, or as it was. -/
theorem triple_allOrNothing {put : Nat → δ → δ} (put' : Nat → ν → ν) {v₀ : ν} {Q : Unit → ν → Prop}
    (hview : ∀ stamp d, g (put stamp d) = put' stamp (g d))
    (hdone : ∀ stamp, Q () (put' stamp v₀)) (hK : ∀ e, K e v₀)
    (hK' : ∀ e stamp, K e (put' stamp v₀)) :
    Triple (onDisk g) (fun v => v = v₀) (allOrNothing put) Q K := by
  refine triple_effect (fun progress stamp v => if happened progress then put' stamp v else v)
    ?_ ?_ ?_
  · intro progress stamp d
    by_cases hn : happened progress = true
    · rw [if_pos hn, if_pos hn, hview]
    · rw [if_neg hn, if_neg hn]
  · rintro stamp v rfl
    exact hdone stamp
  · rintro e n stamp v rfl
    by_cases hn : happened (some n) = true
    · rw [if_pos hn]
      exact hK' e stamp
    · rw [if_neg hn]
      exact hK e

theorem fixes_allOrNothing {put : Nat → δ → δ} (hview : ∀ stamp d, g (put stamp d) = g d) :
    Fixes (onDisk g) (allOrNothing put : Effect ε δ Unit) := by
  refine fixes_effect (fun progress stamp d => ?_)
  by_cases hn : happened progress = true
  · rw [if_pos hn, hview]
  · rw [if_neg hn]

/-- A replaced record is the new one; under a fault the old or the new one is
    stored, and the failure is what the record that was read back stands for. -/
theorem triple_replaceRecord {ρ : Type} {put : δ → δ} {readBack : Effect ε δ ρ} {classify : ρ → ε}
    (put' : ν → ν) (Sees : ν → ρ → Prop) {v₀ : ν} (hview : ∀ d, g (put d) = put' (g d))
    (hread : ∀ v, (v = v₀ ∨ v = put' v₀) →
      Triple (onDisk g) (fun w => w = v) readBack (fun o w => w = v ∧ Sees v o) K)
    (hold : ∀ e, K e v₀) (hcrash : K none (put' v₀))
    (hnew : ∀ o, Sees (put' v₀) o → K (some (classify o)) (put' v₀)) :
    Triple (onDisk g) (fun v => v = v₀) (replaceRecord put readBack classify)
      (fun _ v => v = put' v₀) K := by
  refine triple_handle (H := fun _ v => v = v₀ ∨ v = put' v₀) ?_ (fun f => triple_at (fun v hv => ?_))
  · refine triple_allOrNothing (fun _ => put') (fun _ => hview) (fun _ => rfl) ?_ ?_
    · rintro (_ | e)
      · exact hold none
      · exact Or.inl rfl
    · rintro (_ | e) stamp
      · exact hcrash
      · exact Or.inr rfl
  · refine triple_bind (hread v hv) (fun o => triple_raise (fun w hw => ?_))
    obtain ⟨rfl, hsees⟩ := hw
    rcases hv with rfl | rfl
    · exact hold _
    · exact hnew o hsees

theorem triple_getDisk {β : Type} {k : δ → Effect ε δ β} {R : β → ν → Prop}
    (hk : ∀ d, Triple (onDisk g) (fun v => P v ∧ v = g d) (k d) R K) :
    Triple (onDisk g) P (getDisk >>= k) R K :=
  fun s hs => hk s.disk s ⟨hs, rfl⟩

/-! ## Proofs at a known view

    A proof that follows a program step by step starts each step at one view. -/

section At

variable {β : Type} {v₀ : ν} {R : β → ν → Prop}

/-- The disk that is read has the view that the proof is at. -/
theorem at_getDisk {k : δ → Effect ε δ β}
    (hk : ∀ d, g d = v₀ → Triple (onDisk g) (fun v => v = v₀) (k d) R K) :
    Triple (onDisk g) (fun v => v = v₀) (getDisk >>= k) R K := by
  refine triple_getDisk (fun d => ?_)
  intro s hs
  exact hk d (hs.2.symm.trans hs.1) s hs.1

theorem at_quiet {m : Effect ε δ α} {k : α → Effect ε δ β} (hm : Fixes Machine.disk m)
    (hK : ∀ e, K e v₀) (hk : ∀ a, Triple (onDisk g) (fun v => v = v₀) (k a) R K) :
    Triple (onDisk g) (fun v => v = v₀) (m >>= k) R K :=
  triple_skip (fixes_onDisk hm) (fun e _ hv => hv ▸ hK e) hk

theorem at_probe {k : Unit → Effect ε δ β} (hK : ∀ e, K e v₀)
    (hk : Triple (onDisk g) (fun v => v = v₀) (k ()) R K) :
    Triple (onDisk g) (fun v => v = v₀) (probe >>= k) R K :=
  at_quiet fixes_probe hK (fun _ => hk)

theorem at_check {c : Prop} [Decidable c] {e : ε} {k : Unit → Effect ε δ β} (hK : ∀ e, K e v₀)
    (hk : ¬ c → Triple (onDisk g) (fun v => v = v₀) (k ()) R K) :
    Triple (onDisk g) (fun v => v = v₀) (raiseIf c e >>= k) R K :=
  triple_check (fun _ hv => hv ▸ hK _) hk

/-- A change in memory, which no fault can stop. -/
theorem at_setDisk {f : δ → δ} (f' : ν → ν) {k : Unit → Effect ε δ β}
    (hview : ∀ d, g (f d) = f' (g d))
    (hk : Triple (onDisk g) (fun v => v = f' v₀) (k ()) R K) :
    Triple (onDisk g) (fun v => v = v₀) (setDisk f >>= k) R K := by
  intro s hs
  refine hk { s with disk := f s.disk } ?_
  show g (f s.disk) = f' v₀
  rw [hview, show g s.disk = v₀ from hs]

end At

/-! ## Calm machines -/

/-- No fault is scripted, nothing is in use outside, and the script ends before
    the deadline. -/
structure Calm (deadline : Nat) (m : Machine ε δ) : Prop where
  quiet : ∀ e ∈ m.script, e.fault = .none ∧ e.reading = 0
  early : m.clock + (m.script.map Event.tick).sum < deadline

theorem Calm.clock_lt {deadline : Nat} {m : Machine ε δ} (h : Calm deadline m) :
    m.clock < deadline := Nat.lt_of_le_of_lt (Nat.le_add_right _ _) h.early

/-- On every calm machine with `room` free whose view satisfies `P`, the program
    returns a value, in a view that satisfies `Q`; the machine stays calm. -/
def Completes (g : δ → ν) (deadline room : Nat) (P : ν → Prop) (m : Effect ε δ α)
    (Q : α → ν → Prop) : Prop :=
  ∀ s, Calm deadline s → room ≤ s.free → P (g s.disk) →
    ∃ a s', m s = (.done a, s') ∧ Calm deadline s' ∧ s'.free = s.free ∧ Q a (g s'.disk)

variable {deadline room : Nat} {β : Type} {m : Effect ε δ α} {Q : α → ν → Prop}

theorem completes_pure {a : α} (h : ∀ v, P v → Q a v) :
    Completes g deadline room P (pure a : Effect ε δ α) Q :=
  fun s hcalm _ hP => ⟨a, s, rfl, hcalm, rfl, h _ hP⟩

theorem completes_bind {k : α → Effect ε δ β} {R : β → ν → Prop}
    (hm : Completes g deadline room P m Q)
    (hk : ∀ a, Completes g deadline room (Q a) (k a) R) :
    Completes g deadline room P (m >>= k) R := by
  intro s hcalm hroom hP
  obtain ⟨a, s', hrun, hcalm', hfree, hQ⟩ := hm s hcalm hroom hP
  obtain ⟨b, s'', hrun', hcalm'', hfree', hR⟩ := hk a s' hcalm' (by rw [hfree]; exact hroom) hQ
  refine ⟨b, s'', ?_, hcalm'', hfree'.trans hfree, hR⟩
  show andThen m k s = _
  unfold andThen
  rw [hrun]
  exact hrun'

theorem completes_post {Q' : α → ν → Prop} (hm : Completes g deadline room P m Q)
    (hQ : ∀ a v, Q a v → Q' a v) : Completes g deadline room P m Q' := by
  intro s hcalm hroom hP
  obtain ⟨a, s', hrun, hcalm', hfree, h⟩ := hm s hcalm hroom hP
  exact ⟨a, s', hrun, hcalm', hfree, hQ a _ h⟩

theorem completes_pre {P' : ν → Prop} (hm : Completes g deadline room P m Q)
    (hP : ∀ v, P' v → P v) : Completes g deadline room P' m Q :=
  fun s hcalm hroom h => hm s hcalm hroom (hP _ h)

/-- It may be proved one view at a time. -/
theorem completes_at (h : ∀ v₀, P v₀ → Completes g deadline room (fun v => v = v₀) m Q) :
    Completes g deadline room P m Q :=
  fun s hcalm hroom hP => h _ hP s hcalm hroom rfl

/-- What a triple says about a returned value holds of the completed run. -/
theorem Completes.triple {Q' : α → ν → Prop} (hm : Completes g deadline room P m Q)
    (ht : Triple (onDisk g) P m Q' K) :
    Completes g deadline room P m (fun a v => Q a v ∧ Q' a v) := by
  intro s hcalm hroom hP
  obtain ⟨a, s', hrun, hcalm', hfree, hQ⟩ := hm s hcalm hroom hP
  have hpost := ht s hP
  rw [hrun] at hpost
  exact ⟨a, s', hrun, hcalm', hfree, hQ, hpost⟩

theorem completes_check {c : Prop} [Decidable c] {e : ε} {k : Unit → Effect ε δ β}
    {R : β → ν → Prop} (hc : ¬ c) (hk : Completes g deadline room P (k ()) R) :
    Completes g deadline room P (raiseIf c e >>= k) R := by
  intro s hcalm hroom hP
  obtain ⟨b, s', hrun, h⟩ := hk s hcalm hroom hP
  refine ⟨b, s', ?_, h⟩
  show andThen (raiseIf c e) k s = _
  unfold andThen raiseIf
  rw [if_neg hc]
  exact hrun

/-- A check at the end of a program. -/
theorem completes_raiseIf {c : Prop} [Decidable c] {e : ε} {Q : Unit → ν → Prop} (hc : ¬ c)
    (hQ : ∀ v, P v → Q () v) : Completes g deadline room P (raiseIf c e) Q := by
  unfold raiseIf
  rw [if_neg hc]
  exact completes_pure hQ

theorem completes_ite {c : Prop} [Decidable c] {m' : Effect ε δ α}
    (hm : c → Completes g deadline room P m Q) (hm' : ¬ c → Completes g deadline room P m' Q) :
    Completes g deadline room P (if c then m else m') Q := by
  split
  next hc => exact hm hc
  next hc => exact hm' hc

theorem completes_whenever {c : Prop} [Decidable c] {m : Effect ε δ Unit} {Q : Unit → ν → Prop}
    (hm : c → Completes g deadline room P m Q) (hskip : ¬ c → ∀ v, P v → Q () v) :
    Completes g deadline room P (whenever c m) Q :=
  completes_ite hm (fun hc => completes_pure (hskip hc))

/-- A handler is not reached on a calm machine. -/
theorem completes_handle {h : ε → Effect ε δ α} (hm : Completes g deadline room P m Q) :
    Completes g deadline room P (handle m h) Q := by
  intro s hcalm hroom hP
  obtain ⟨a, s', hrun, hpost⟩ := hm s hcalm hroom hP
  refine ⟨a, s', ?_, hpost⟩
  unfold handle
  rw [hrun]

theorem calm_nextEvent {s : Machine ε δ} (hs : Calm deadline s) :
    ∃ e s', nextEvent s = (.done e, s') ∧ e.fault = .none ∧ e.reading = 0 ∧
      Calm deadline s' ∧ s'.free = s.free ∧ s'.disk = s.disk := by
  obtain ⟨disk, clock, free, script⟩ := s
  cases script with
  | nil => exact ⟨Event.calm, _, rfl, rfl, rfl, hs, rfl, rfl⟩
  | cons e rest =>
      obtain ⟨hquiet, hearly⟩ := hs
      obtain ⟨hfault, hreading⟩ := hquiet e List.mem_cons_self
      refine ⟨e, _, rfl, hfault, hreading, ⟨?_, ?_⟩, rfl, rfl⟩
      · intro f hf
        exact hquiet f (List.mem_cons_of_mem _ hf)
      · simpa [Nat.add_assoc] using hearly

/-- Nothing outside is in use. -/
theorem completes_observe :
    Completes g deadline room P (observe : Effect ε δ Nat) (fun n v => P v ∧ n = 0) := by
  intro s hcalm _ hP
  obtain ⟨e, s', hrun, hfault, hreading, hcalm', hfree, hdisk⟩ := calm_nextEvent hcalm
  refine ⟨0, s', ?_, hcalm', hfree, by rw [hdisk]; exact hP, rfl⟩
  show andThen nextEvent _ s = _
  unfold andThen
  rw [hrun]
  show (match e.fault with | .none => _ | .fail f _ => _ | .crash _ => _ : Effect ε δ Nat) s' = _
  rw [hfault, hreading]
  rfl

theorem completes_probe {k : Unit → Effect ε δ β} {R : β → ν → Prop}
    (hk : Completes g deadline room P (k ()) R) :
    Completes g deadline room P (probe >>= k) R :=
  completes_bind (completes_bind completes_observe
    (fun _ => completes_pure (Q := fun _ v => P v) (fun _ hv => hv.1))) (fun _ => hk)

theorem completes_freeSpace :
    Completes g deadline room P (freeSpace : Effect ε δ Nat) (fun n v => P v ∧ room ≤ n) := by
  refine completes_bind completes_observe (fun used => ?_)
  rintro s hcalm hroom ⟨hP, rfl⟩
  exact ⟨s.free, s, rfl, hcalm, rfl, hP, hroom⟩

theorem completes_getDisk {k : δ → Effect ε δ β} {R : β → ν → Prop}
    (hk : ∀ d, P (g d) → Completes g deadline room (fun v => v = g d) (k d) R) :
    Completes g deadline room P (getDisk >>= k) R :=
  fun s hcalm hroom hP => hk s.disk hP s hcalm hroom rfl

theorem completes_monotonic {k : Nat → Effect ε δ β} {R : β → ν → Prop}
    (hk : ∀ now, now < deadline → Completes g deadline room P (k now) R) :
    Completes g deadline room P (monotonic >>= k) R :=
  fun s hcalm hroom hP => hk s.clock hcalm.clock_lt s hcalm hroom hP

/-- An effect is done as a whole. -/
theorem completes_effect {change : Option Nat → Nat → δ → δ} (change' : Nat → ν → ν)
    {Q : Unit → ν → Prop} (hview : ∀ stamp d, g (change none stamp d) = change' stamp (g d))
    (hdone : ∀ stamp v, P v → Q () (change' stamp v)) :
    Completes g deadline room P (effect change : Effect ε δ Unit) Q := by
  intro s hcalm _ hP
  obtain ⟨e, s', hrun, hfault, -, hcalm', hfree, hdisk⟩ := calm_nextEvent hcalm
  refine ⟨(), { s' with disk := change none e.stamp s'.disk }, ?_, ⟨hcalm'.quiet, hcalm'.early⟩,
    hfree, ?_⟩
  · show andThen nextEvent _ s = _
    unfold andThen
    rw [hrun]
    show (match e.fault with | .none => _ | .fail f _ => _ | .crash _ => _ : Effect ε δ Unit) s' = _
    rw [hfault]
    rfl
  · show Q () (g (change none e.stamp s'.disk))
    rw [hview, hdisk]
    exact hdone _ _ hP

theorem completes_allOrNothing {put : Nat → δ → δ} (put' : Nat → ν → ν) {Q : Unit → ν → Prop}
    (hview : ∀ stamp d, g (put stamp d) = put' stamp (g d))
    (hdone : ∀ stamp v, P v → Q () (put' stamp v)) :
    Completes g deadline room P (allOrNothing put : Effect ε δ Unit) Q :=
  completes_effect put' hview hdone

theorem completes_replaceRecord {ρ : Type} {put : δ → δ} {readBack : Effect ε δ ρ}
    {classify : ρ → ε} (put' : ν → ν) {Q : Unit → ν → Prop} (hview : ∀ d, g (put d) = put' (g d))
    (hdone : ∀ v, P v → Q () (put' v)) :
    Completes g deadline room P (replaceRecord put readBack classify) Q :=
  completes_handle (completes_allOrNothing (fun _ => put') (fun _ => hview) (fun _ => hdone))

/-- A change in memory is done. -/
theorem completes_setDisk {f : δ → δ} (f' : ν → ν) {k : Unit → Effect ε δ β} {R : β → ν → Prop}
    {v₀ : ν} (hview : ∀ d, g (f d) = f' (g d))
    (hk : Completes g deadline room (fun v => v = f' v₀) (k ()) R) :
    Completes g deadline room (fun v => v = v₀) (setDisk f >>= k) R := by
  intro s hcalm hroom hP
  refine hk { s with disk := f s.disk } ⟨hcalm.quiet, hcalm.early⟩ hroom ?_
  show g (f s.disk) = f' v₀
  rw [hview, show g s.disk = v₀ from hP]

end FaultScript
