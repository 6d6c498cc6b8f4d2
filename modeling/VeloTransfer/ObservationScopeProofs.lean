import VeloTransfer.RequestJournalProofs

/-! # Observation scope — what a request says of itself, and what its journal says

    A middleware opens a scope for a request, may give it a journal, lets the request
    emit events, and finishes it with the outcome.  Events and failures come from any
    thread, before the finish and after it.

    * `Good.step`, `Good.run` — the invariant of a request and its journal;
    * `step_sealed` — a sealed scope stays as it is;
    * `same_story` — what the scope and the journal say of one request. -/

namespace ObservationScope

open CanonicalJson JsonLine BoundedJson JsonLimits JsonDict JsonHeap ExceptRules ArchiveCodec
open RequestJournal (World Journal Object Reply Call outcomeObject statusOf)

/-! ## The scope -/

structure Scope where
  key : Json
  tool : Json
  argumentsSha256 : Json
  events : List Json
  outcome : Option Outcome
  sealed : Bool
  failed : Bool
  maxEvents : Nat
  maxBytes : Nat
  journal : Option World
  required : Bool
  ready : Bool
  owner : Nat

/-- The characters of an event kind after the first. -/
def isKindChar (c : Nat) : Bool :=
  (65 ≤ c && c ≤ 90) || (97 ≤ c && c ≤ 122) || isDigit c || c == 95 || c == 46 || c == 45

/-- `_KIND.fullmatch`. -/
def isKind : Text → Bool
  | [] => false
  | c :: cs => ((65 ≤ c && c ≤ 90) || (97 ≤ c && c ≤ 122)) && cs.length ≤ 63 && cs.all isKindChar

/-- The event that is recorded. -/
def eventJson (sequence : Nat) (kind : Text) (facts : Json) : Json :=
  .obj [(ascii "sequence", .int sequence), (ascii "kind", .str kind), (ascii "facts", facts)]

theorem value_event {sequence : Nat} {kind : Text} {facts : Json} (hkind : Value (.str kind))
    (hfacts : Value facts) : Value (eventJson sequence kind facts) := by
  have hkey : ∀ s ∈ [ascii "sequence", ascii "kind", ascii "facts"], ∀ c ∈ s, c < 0x110000 := by
    decide
  simp only [List.forall_mem_cons] at hkey
  obtain ⟨hsequence, hname, hdata, -⟩ := hkey
  exact ⟨rfl, ⟨hsequence, trivial⟩, ⟨hname, hkind⟩, ⟨hdata, hfacts⟩, trivial⟩

/-- The event of `emit`, and the checks in front of it. -/
def Scope.event (s : Scope) (kind facts : Object) : Except String Object := do
  require (!s.required || s.ready) "journal acceptance unconfirmed"
  match kind, facts with
  | .json (.str k) hk, .json (.obj fs) hf => do
      require (isKind k) "invalid event kind"
      let v := eventJson (s.events.length + 1) k (.obj fs)
      require (s.events.length + 1 ≤ s.maxEvents) "event count budget exceeded"
      match canonicalJson MAX_STR_DIGITS v with
      | none => .error "invalid canonical JSON"
      | some raw => do
          require (raw.length ≤ s.maxBytes) "event byte budget exceeded"
          require (!s.failed) "observation already failed"
          .ok (.json v (value_event hk hf))
  | .json (.str _) _, _ => .error "facts must be a JSON object"
  | _, _ => .error "invalid event kind"

/-- What a refused event leaves. -/
def Scope.refuse (s : Scope) : Scope := { s with failed := true, journal := s.journal.map World.fail }

/-- The value of an object that is one. -/
def valueOf : Object → Json
  | .json v _ => v
  | .other => .null

/-- `emit`. -/
def Scope.emit (c : Codec) (s : Scope) (kind facts : Object) (reply : Reply) : Scope × Except String Unit :=
  if s.sealed then (s, .error "observation is sealed")
  else match s.event kind facts with
    | .error e => (s.refuse, .error e)
    | .ok event =>
        match s.journal with
        | none => ({ s with events := s.events ++ [valueOf event] }, .ok ())
        | some w =>
            match w.append c event reply with
            | (w', .error e) => (Scope.refuse { s with journal := some w' }, .error e)
            | (w', .ok ()) =>
                ({ s with journal := some w', events := s.events ++ [valueOf event] }, .ok ())

/-- `_fail`. -/
def Scope.fail (s : Scope) : Scope := if s.sealed then s else { s with failed := true }

/-- The outcome that the scope takes. -/
def Scope.taken (s : Scope) (outcome : Outcome) : Outcome :=
  if outcome = .returned ∧ s.failed = true then .raised else outcome

/-- A scope that failed takes no return. -/
theorem taken_ne {s : Scope} (hfailed : s.failed = true) (outcome : Outcome) :
    s.taken outcome ≠ .returned := by
  unfold Scope.taken
  by_cases h : outcome = .returned ∧ s.failed = true
  · rw [if_pos h]
    nofun
  · rw [if_neg h]
    exact fun hreturned => h ⟨hreturned, hfailed⟩

/-- `_finish`: the journal is sealed with the outcome as it came, and closed. -/
def Scope.finish (c : Codec) (s : Scope) (outcome : Outcome) (reply : Reply) (raises : Bool) :
    Scope × Except String Bool :=
  let s := { s with outcome := some (s.taken outcome) }
  if s.required then
    match s.ready, s.journal with
    | true, some w =>
        match w.seal c (outcomeObject outcome) (some s.failed) reply with
        | (w', .error e) => ({ s with failed := true, journal := some (w'.close raises).1 }, .error e)
        | (w', .ok ()) =>
            match w'.close raises with
            | (w'', .error e) => ({ s with failed := true, journal := some w'' }, .error e)
            | (w'', .ok ()) => ({ s with sealed := true, journal := some w'' }, .ok s.failed)
    | _, _ => ({ s with failed := true }, .error "journal acceptance unconfirmed")
  else ({ s with sealed := true }, .ok s.failed)

/-! ## The request -/

/-- Where the middleware is. -/
inductive Phase where
  | entered
  | required
  | attached
  | running
  | left (outcome : Outcome)
  | finished
deriving Repr, DecidableEq

structure Request where
  scope : Scope
  phase : Phase

/-- A scope before anything is known of the request. -/
def opened (key tool argumentsSha256 : Json) (maxEvents maxBytes owner : Nat) : Request :=
  { scope := { key, tool, argumentsSha256, events := [], outcome := none, sealed := false, failed := false,
               maxEvents, maxBytes, journal := none, required := false, ready := false, owner }
    phase := .entered }

/-- What happens to a request.  `emit` and `fail` come from any thread at any time. -/
inductive Event where
  | emit (kind facts : Object) (reply : Reply)
  | fail
  | require
  | callNext
  | attach (owns : Bool) (payload : Object) (reply : Reply) (raises : Bool) (calls : List Call)
  | ready
  | exit (outcome : Outcome)
  | finish (reply : Reply) (raises : Bool)

/-- The request is left; without a journal that is ready it has failed. -/
def Request.leave (r : Request) (outcome : Outcome) : Request :=
  { scope := if r.scope.required && !r.scope.ready then { r.scope with failed := true } else r.scope
    phase := .left outcome }

/-- One event; what the middleware is not ready for changes nothing. -/
def Request.step (c : Codec) (r : Request) : Event → Request
  | .emit kind facts reply => { r with scope := (r.scope.emit c kind facts reply).1 }
  | .fail => { r with scope := r.scope.fail }
  | .require =>
      if r.phase = .entered then { scope := { r.scope with required := true }, phase := .required } else r
  | .callNext => if r.phase = .entered then { r with phase := .running } else r
  | .attach owns payload reply raises calls =>
      if r.phase = .required then
        -- The journal that the factory made, after whatever was called on it; one that
        -- refuses the claim is closed, and the scope never has it.
        let w := (RequestJournal.create c owns payload reply raises).1.run c calls
        match w.claim r.scope.owner r.scope.key r.scope.tool r.scope.argumentsSha256 with
        | (w', .ok ()) => { scope := { r.scope with journal := some w' }, phase := .attached }
        | (_, .error _) => r.leave .raised
      else r
  | .ready =>
      if r.phase = .attached then
        let r' := { r with scope := { r.scope with ready := true } }
        if r'.scope.failed then r'.leave .raised else { r' with phase := .running }
      else r
  | .exit outcome =>
      match r.phase, outcome with
      | .running, outcome => r.leave outcome
      | .required, .raised => r.leave .raised
      | .required, .cancelled => r.leave .cancelled
      | _, _ => r
  | .finish reply raises =>
      match r.phase with
      | .left outcome => { scope := (r.scope.finish c outcome reply raises).1, phase := .finished }
      | _ => r

def Request.run (c : Codec) (r : Request) (events : List Event) : Request := events.foldl (Request.step c) r

/-! ## The invariant of a request -/

section Invariant

variable {c : Codec} {s : Scope} {r : Request}

/-- A sealed scope has the outcome of its finish, and its journal is a chain that was
    sealed with it, complete where the scope has not failed. -/
def Told (c : Codec) (s : Scope) : Prop :=
  ∃ o, s.outcome = some (s.taken o) ∧ (s.required = true → ∃ w summary, s.journal = some w ∧
    c.verify w.disk = .ok { summary, eventCount := w.journal.events, status := statusOf s.failed,
                            outcome := some (.str o.text), headRef := w.journal.head })

structure Good (c : Codec) (r : Request) : Prop where
  numbered : ∀ i event, r.scope.events[i]? = some event →
    get event "sequence" = some (.int (i + 1 : Nat))
  finished : r.scope.sealed = true → r.phase = .finished
  journal : ∀ w, r.scope.journal = some w → RequestJournal.Sound c w
  told : r.scope.sealed = true → Told c r.scope

/-- What an event did to the scope: it was refused, or it stands behind the others. -/
inductive Emitted (c : Codec) (s : Scope) : Scope → Prop
  | sealed (h : s.sealed = true) : Emitted c s s
  | refused (h : s.sealed = false) (journal : Option World)
      (hjournal : (∀ w, s.journal = some w → RequestJournal.Sound c w) →
        ∀ w, journal = some w → RequestJournal.Sound c w) :
      Emitted c s { s with failed := true, journal }
  | recorded (h : s.sealed = false) (journal : Option World) (kind : Text) (facts : Json)
      (hjournal : (∀ w, s.journal = some w → RequestJournal.Sound c w) →
        ∀ w, journal = some w → RequestJournal.Sound c w) :
      Emitted c s { s with journal, events := s.events ++ [eventJson (s.events.length + 1) kind facts] }

theorem sound_map_fail {journal : Option World} (h : ∀ w, journal = some w → RequestJournal.Sound c w) :
    ∀ w, journal.map World.fail = some w → RequestJournal.Sound c w := by
  intro w hw
  obtain ⟨w', hw', rfl⟩ := Option.map_eq_some_iff.mp hw
  exact (h w' hw').fail

/-- The event that passes the checks. -/
theorem event_spec {kind facts event : Object} (h : s.event kind facts = .ok event) :
    ∃ k fs, valueOf event = eventJson (s.events.length + 1) k fs := by
  obtain ⟨_, -, h⟩ := bind_ok h
  cases kind with
  | other => exact absurd h nofun
  | json k hk =>
      cases k with
      | str k =>
          cases facts with
          | other => exact absurd h nofun
          | json v hv =>
              cases v with
              | obj fs =>
                  obtain ⟨_, -, h⟩ := bind_ok h
                  obtain ⟨_, -, h⟩ := bind_ok h
                  cases hraw : canonicalJson MAX_STR_DIGITS (eventJson (s.events.length + 1) k (.obj fs)) with
                  | none =>
                      rw [hraw] at h
                      exact absurd h nofun
                  | some raw =>
                      rw [hraw] at h
                      obtain ⟨_, -, h⟩ := bind_ok h
                      obtain ⟨_, -, h⟩ := bind_ok h
                      obtain rfl := Except.ok.inj h
                      exact ⟨k, .obj fs, rfl⟩
              | _ => exact absurd h nofun
      | _ => exact absurd h nofun

theorem emitted (c : Codec) (s : Scope) (kind facts : Object) (reply : Reply) :
    Emitted c s (s.emit c kind facts reply).1 := by
  unfold Scope.emit
  by_cases hsealed : s.sealed = true
  · rw [if_pos hsealed]
    exact .sealed hsealed
  rw [if_neg hsealed]
  have hopen := Bool.eq_false_iff.mpr hsealed
  cases hevent : s.event kind facts with
  | error e => exact .refused hopen _ sound_map_fail
  | ok event =>
      obtain ⟨k, fs, hvalue⟩ := event_spec hevent
      dsimp only
      rw [hvalue]
      cases hjournal : s.journal with
      | none =>
          dsimp only
          have hrecorded := Emitted.recorded (c := c) hopen s.journal k fs id
          rw [hjournal] at hrecorded
          exact hrecorded
      | some w =>
          dsimp only
          have hsound := fun h : ∀ w, s.journal = some w → RequestJournal.Sound c w =>
            (h w hjournal).append event reply
          cases happend : w.append c event reply with
          | mk w' result =>
              rw [happend] at hsound
              cases result with
              | error e =>
                  refine .refused hopen _ (fun h => sound_map_fail (fun w'' hw'' => ?_))
                  obtain rfl := Option.some.inj hw''
                  exact hsound h
              | ok u =>
                  refine .recorded hopen _ k fs (fun h w'' hw'' => ?_)
                  obtain rfl := Option.some.inj hw''
                  exact hsound h

/-- A request whose scope is not sealed has nothing told yet. -/
theorem Good.of_open (hnumbered : ∀ i event, r.scope.events[i]? = some event →
      get event "sequence" = some (.int (i + 1 : Nat)))
    (hjournal : ∀ w, r.scope.journal = some w → RequestJournal.Sound c w)
    (hopen : r.scope.sealed = false) : Good c r :=
  ⟨hnumbered, fun h => (by cases hopen.symm.trans h), hjournal, fun h => (by cases hopen.symm.trans h)⟩

theorem Good.emit (hr : Good c r) (kind facts : Object) (reply : Reply) :
    Good c (r.step c (.emit kind facts reply)) := by
  show Good c { r with scope := (r.scope.emit c kind facts reply).1 }
  generalize hs : (r.scope.emit c kind facts reply).1 = s'
  have hemitted := emitted c r.scope kind facts reply
  rw [hs] at hemitted
  cases hemitted with
  | sealed h => exact hr
  | refused h journal hjournal => exact .of_open hr.numbered (hjournal hr.journal) h
  | recorded h journal k fs hjournal =>
      refine .of_open (fun i event hi => ?_) (hjournal hr.journal) h
      by_cases hlt : i < r.scope.events.length
      · rw [List.getElem?_append_left hlt] at hi
        exact hr.numbered i event hi
      · -- the new event stands right behind the others
        rw [List.getElem?_append_right (Nat.not_lt.mp hlt), List.getElem?_singleton] at hi
        by_cases hlast : i - r.scope.events.length = 0
        · rw [if_pos hlast] at hi
          obtain rfl := Option.some.inj hi
          obtain rfl : i = r.scope.events.length := by omega
          rfl
        · rw [if_neg hlast] at hi
          exact absurd hi nofun

theorem leave_scope (r : Request) (outcome : Outcome) : (r.leave outcome).scope.events = r.scope.events ∧
    (r.leave outcome).scope.journal = r.scope.journal ∧
    (r.leave outcome).scope.sealed = r.scope.sealed ∧
    (r.scope.failed = true → (r.leave outcome).scope.failed = true) := by
  unfold Request.leave
  split
  · exact ⟨rfl, rfl, rfl, fun _ => rfl⟩
  · exact ⟨rfl, rfl, rfl, id⟩

/-- The middleware leaves a request that is not sealed. -/
theorem Good.leave (hr : Good c r) (hphase : r.phase ≠ .finished) (outcome : Outcome) :
    Good c (r.leave outcome) := by
  obtain ⟨hevents, hjournal, hsealed, -⟩ := leave_scope r outcome
  refine .of_open ?_ ?_ ?_
  · rw [hevents]
    exact hr.numbered
  · rw [hjournal]
    exact hr.journal
  · rw [hsealed]
    exact Bool.eq_false_iff.mpr fun h => hphase (hr.finished h)

/-- **A finish** keeps the events, and seals the scope only with its story told. -/
theorem finish_spec (hopen : s.sealed = false)
    (hjournal : ∀ w, s.journal = some w → RequestJournal.Sound c w) (outcome : Outcome) (reply : Reply)
    (raises : Bool) : (s.finish c outcome reply raises).1.events = s.events ∧
    (∀ w, (s.finish c outcome reply raises).1.journal = some w → RequestJournal.Sound c w) ∧
    ((s.finish c outcome reply raises).1.sealed = true → Told c (s.finish c outcome reply raises).1) ∧
    (s.failed = true → (s.finish c outcome reply raises).1.failed = true) := by
  have hunsealed : ∀ P : Prop, s.sealed = true → P := fun P h => by cases hopen.symm.trans h
  unfold Scope.finish
  dsimp only
  by_cases hrequired : s.required = true
  case neg =>
    rw [if_neg hrequired]
    exact ⟨rfl, hjournal, fun _ => ⟨outcome, rfl, fun h => absurd h hrequired⟩, id⟩
  rw [if_pos hrequired]
  split
  next w _ hw =>
    have hsound := hjournal w hw
    have hsealing := hsound.seal (outcomeObject outcome) (some s.failed) reply
    cases hseal : w.seal c (outcomeObject outcome) (some s.failed) reply with
    | mk w' result =>
        rw [hseal] at hsealing
        cases result with
        | error e =>
            refine ⟨rfl, fun x hx => ?_, hunsealed _, fun _ => rfl⟩
            obtain rfl := Option.some.inj hx
            exact hsealing.close raises
        | ok u =>
            obtain ⟨v, failed, hflag, ⟨held, hobject⟩, -, hverified⟩ := hsound.verified hseal
            obtain rfl := Option.some.inj hflag
            obtain ⟨-, summary, hverdict⟩ := hverified [.close raises]
            have hrun : World.run c w' [.close raises] = (w'.close raises).1 := rfl
            rw [hrun] at hverdict
            have hclosing := hsealing.close raises
            dsimp only
            cases hclose : w'.close raises with
            | mk closed result' =>
                rw [hclose] at hverdict hclosing
                cases result' with
                | error e =>
                    refine ⟨rfl, fun x hx => ?_, hunsealed _, fun _ => rfl⟩
                    obtain rfl := Option.some.inj hx
                    exact hclosing
                | ok u =>
                    refine ⟨rfl, fun x hx => ?_, fun _ => ?_, id⟩
                    · obtain rfl := Option.some.inj hx
                      exact hclosing
                    · have hv : v = .str outcome.text := by
                        cases hobject
                        rfl
                      rw [hv] at hverdict
                      exact ⟨outcome, rfl, fun _ => ⟨closed, summary, rfl, hverdict⟩⟩
  next => exact ⟨rfl, hjournal, hunsealed _, fun _ => rfl⟩

/-- **Every event keeps the invariant.** -/
theorem Good.step (hr : Good c r) (event : Event) : Good c (r.step c event) := by
  have hopen : r.phase ≠ .finished → r.scope.sealed = false := fun hphase =>
    Bool.eq_false_iff.mpr fun h => hphase (hr.finished h)
  cases event with
  | emit kind facts reply => exact hr.emit kind facts reply
  | fail =>
      show Good c { r with scope := r.scope.fail }
      unfold Scope.fail
      split
      · exact hr
      next hsealed => exact .of_open hr.numbered hr.journal (Bool.eq_false_iff.mpr hsealed)
  | require =>
      show Good c (if _ then _ else _)
      split
      next hphase => exact .of_open hr.numbered hr.journal (hopen (hphase ▸ nofun))
      · exact hr
  | callNext =>
      show Good c (if _ then _ else _)
      split
      next hphase => exact .of_open hr.numbered hr.journal (hopen (hphase ▸ nofun))
      · exact hr
  | attach owns payload reply raises calls =>
      show Good c (if _ then _ else _)
      split
      next hphase =>
        have hsound := (RequestJournal.run_sound c owns payload reply raises calls).claim r.scope.owner
          r.scope.key r.scope.tool r.scope.argumentsSha256
        dsimp only
        cases hclaim : World.claim ((RequestJournal.create c owns payload reply raises).1.run c calls)
            r.scope.owner r.scope.key r.scope.tool r.scope.argumentsSha256 with
        | mk w result =>
            rw [hclaim] at hsound
            cases result with
            | error e => exact hr.leave (hphase ▸ nofun) .raised
            | ok u =>
                refine .of_open hr.numbered (fun w' hw' => ?_) (hopen (hphase ▸ nofun))
                obtain rfl := Option.some.inj hw'
                exact hsound
      · exact hr
  | ready =>
      show Good c (if _ then _ else _)
      split
      next hphase =>
        have hgood : Good c { r with scope := { r.scope with ready := true } } :=
          .of_open hr.numbered hr.journal (hopen (hphase ▸ nofun))
        dsimp only
        split
        · exact hgood.leave (hphase ▸ nofun) .raised
        · exact .of_open hr.numbered hr.journal (hopen (hphase ▸ nofun))
      · exact hr
  | exit outcome =>
      show Good c (match r.phase, outcome with
        | .running, outcome => r.leave outcome
        | .required, .raised => r.leave .raised
        | .required, .cancelled => r.leave .cancelled
        | _, _ => r)
      split
      next hphase => exact hr.leave (hphase ▸ nofun) _
      next hphase => exact hr.leave (hphase ▸ nofun) _
      next hphase => exact hr.leave (hphase ▸ nofun) _
      · exact hr
  | finish reply raises =>
      show Good c (match r.phase with
        | .left outcome => { scope := (r.scope.finish c outcome reply raises).1, phase := .finished }
        | _ => r)
      split
      next outcome hphase =>
        obtain ⟨hevents, hjournal, htold, -⟩ :=
          finish_spec (hopen (hphase ▸ nofun)) hr.journal outcome reply raises
        refine ⟨?_, fun _ => rfl, hjournal, htold⟩
        rw [hevents]
        exact hr.numbered
      · exact hr

theorem Good.run (hr : Good c r) (events : List Event) : Good c (r.run c events) := by
  induction events generalizing r with
  | nil => exact hr
  | cons event events ih => exact ih (hr.step event)

/-- A request that was just entered. -/
theorem good_opened (c : Codec) (key tool argumentsSha256 : Json) (maxEvents maxBytes owner : Nat) :
    Good c (opened key tool argumentsSha256 maxEvents maxBytes owner) :=
  .of_open nofun nofun rfl

/-- **A sealed scope stays as it is.** -/
theorem Good.step_sealed (hr : Good c r) (hsealed : r.scope.sealed = true) (event : Event) :
    (r.step c event).scope = r.scope := by
  have hphase := hr.finished hsealed
  cases event with
  | emit kind facts reply => exact congrArg Prod.fst (if_pos hsealed)
  | fail => exact if_pos hsealed
  | require => exact congrArg Request.scope (if_neg (hphase ▸ nofun))
  | callNext => exact congrArg Request.scope (if_neg (hphase ▸ nofun))
  | attach owns payload reply raises calls => exact congrArg Request.scope (if_neg (hphase ▸ nofun))
  | ready => exact congrArg Request.scope (if_neg (hphase ▸ nofun))
  | exit outcome =>
      unfold Request.step
      rw [hphase]
  | finish reply raises =>
      unfold Request.step
      rw [hphase]

theorem Good.run_sealed (hr : Good c r) (hsealed : r.scope.sealed = true) (events : List Event) :
    (r.run c events).scope = r.scope := by
  induction events generalizing r with
  | nil => rfl
  | cons event events ih =>
      have hstep := hr.step_sealed hsealed event
      exact (ih (hr.step event) (hstep ▸ hsealed)).trans hstep

/-- **A failure is not taken back.** -/
theorem Good.step_failed (hr : Good c r) (hfailed : r.scope.failed = true) (event : Event) :
    (r.step c event).scope.failed = true := by
  cases event with
  | emit kind facts reply =>
      show (r.scope.emit c kind facts reply).1.failed = true
      generalize hs : (r.scope.emit c kind facts reply).1 = s'
      have hemitted := emitted c r.scope kind facts reply
      rw [hs] at hemitted
      cases hemitted with
      | sealed h => exact hfailed
      | refused h journal hjournal => rfl
      | recorded h journal k fs hjournal => exact hfailed
  | fail =>
      show r.scope.fail.failed = true
      unfold Scope.fail
      split
      · exact hfailed
      · rfl
  | require =>
      show (if _ then _ else _ : Request).scope.failed = true
      split <;> exact hfailed
  | callNext =>
      show (if _ then _ else _ : Request).scope.failed = true
      split <;> exact hfailed
  | attach owns payload reply raises calls =>
      show (if _ then _ else _ : Request).scope.failed = true
      split
      · dsimp only
        split
        · exact hfailed
        · exact (leave_scope r .raised).2.2.2 hfailed
      · exact hfailed
  | ready =>
      show (if _ then _ else _ : Request).scope.failed = true
      split
      · exact (leave_scope _ .raised).2.2.2 hfailed
      · exact hfailed
  | exit outcome =>
      show (match r.phase, outcome with
        | .running, outcome => r.leave outcome
        | .required, .raised => r.leave .raised
        | .required, .cancelled => r.leave .cancelled
        | _, _ => r : Request).scope.failed = true
      split
      · exact (leave_scope r _).2.2.2 hfailed
      · exact (leave_scope r _).2.2.2 hfailed
      · exact (leave_scope r _).2.2.2 hfailed
      · exact hfailed
  | finish reply raises =>
      show (match r.phase with
        | .left outcome => { scope := (r.scope.finish c outcome reply raises).1, phase := .finished }
        | _ => r : Request).scope.failed = true
      split
      next outcome hphase =>
        have hopen : r.scope.sealed = false :=
          Bool.eq_false_iff.mpr fun h => absurd ((hr.finished h).symm.trans hphase) nofun
        exact (finish_spec hopen hr.journal outcome reply raises).2.2.2 hfailed
      · exact hfailed

theorem Good.run_failed (hr : Good c r) (hfailed : r.scope.failed = true) (events : List Event) :
    (r.run c events).scope.failed = true := by
  induction events generalizing r with
  | nil => exact hfailed
  | cons event events ih => exact ih (hr.step event) (hr.step_failed hfailed event)

end Invariant

/-- What the scope of a request and its journal say in a state. -/
structure SameStory (c : Codec) (r : Request) : Prop where
  /-- The events have the numbers from one on. -/
  numbered : ∀ i event, r.scope.events[i]? = some event →
    get event "sequence" = some (.int (i + 1 : Nat))
  /-- Nothing is recorded, and nothing changes, after the seal. -/
  final : r.scope.sealed = true → ∀ events, (r.run c events).scope = r.scope
  /-- A failure is not taken back. -/
  sticky : r.scope.failed = true → ∀ events, (r.run c events).scope.failed = true
  /-- A scope that failed is not sealed as returned. -/
  honest : r.scope.sealed = true → r.scope.failed = true → r.scope.outcome ≠ some .returned
  /-- The scope and the journal have the same outcome, but that a return of a scope that had
      failed is a raise in the scope and a failed archive in the journal. -/
  told : r.scope.sealed = true → ∃ o,
    r.scope.outcome = some (if o = .returned ∧ r.scope.failed = true then .raised else o) ∧
    (r.scope.required = true → ∃ w summary, r.scope.journal = some w ∧
      c.verify w.disk = .ok { summary, eventCount := w.journal.events,
                              status := if r.scope.failed then .failed else .complete,
                              outcome := some (.str o.text), headRef := w.journal.head })

/-- **A scope and its journal tell the same story** in every run of a request. -/
theorem same_story (c : Codec) (key tool argumentsSha256 : Json) (maxEvents maxBytes owner : Nat)
    (events : List Event) :
    SameStory c ((opened key tool argumentsSha256 maxEvents maxBytes owner).run c events) := by
  have hgood := (good_opened c key tool argumentsSha256 maxEvents maxBytes owner).run events
  refine ⟨hgood.numbered, hgood.run_sealed, hgood.run_failed, fun hsealed hfailed => ?_, hgood.told⟩
  obtain ⟨o, ho, -⟩ := hgood.told hsealed
  rw [ho]
  exact fun hreturned => taken_ne hfailed o (Option.some.inj hreturned)

/-! A request whose event is refused, and that returns all the same. -/

theorem attach_ok {c : Codec} {r : Request} {owns : Bool} {payload : Object} {reply : Reply} {raises : Bool}
    {calls : List Call} {w : World} (hphase : r.phase = .required)
    (hclaim : ((RequestJournal.create c owns payload reply raises).1.run c calls).claim r.scope.owner
      r.scope.key r.scope.tool r.scope.argumentsSha256 = (w, .ok ())) :
    r.step c (.attach owns payload reply raises calls) =
      { scope := { r.scope with journal := some w }, phase := .attached } := by
  show (if _ then _ else _ : Request) = _
  rw [if_pos hphase]
  dsimp only
  rw [hclaim]

theorem finish_ok {c : Codec} {s : Scope} {outcome : Outcome} {reply : Reply} {raises : Bool}
    {w w' w'' : World} (hrequired : s.required = true) (hready : s.ready = true) (hjournal : s.journal = some w)
    (hseal : w.seal c (outcomeObject outcome) (some s.failed) reply = (w', .ok ()))
    (hclose : w'.close raises = (w'', .ok ())) : s.finish c outcome reply raises =
      ({ s with outcome := some (s.taken outcome), sealed := true, journal := some w'' }, .ok s.failed) := by
  unfold Scope.finish
  dsimp only
  rw [if_pos hrequired, hready, hjournal]
  dsimp only
  rw [hseal]
  dsimp only
  rw [hclose]

/-- The run of a request that fails, and returns. -/
theorem run_failed_return {c : Codec} {key tool argumentsSha256 : Json} {owner : Nat} {owns : Bool}
    {payload : Object} {reply reply' : Reply} {raises : Bool} {w w' w'' : World}
    (maxEvents maxBytes : Nat) (raises' : Bool)
    (hclaim : (RequestJournal.create c owns payload reply raises).1.claim owner key tool argumentsSha256 =
      (w, .ok ()))
    (hseal : w.seal c (outcomeObject .returned) (some true) reply' = (w', .ok ()))
    (hclose : w'.close raises' = (w'', .ok ())) :
    ∃ s, (opened key tool argumentsSha256 maxEvents maxBytes owner).run c [.require,
        .attach owns payload reply raises [], .ready, .fail, .exit .returned, .finish reply' raises'] =
      ⟨s, .finished⟩ ∧ s.sealed = true ∧ s.journal = some w'' ∧ s.outcome = some .raised := by
  let before : Scope := { (opened key tool argumentsSha256 maxEvents maxBytes owner).scope with
    required := true }
  let failing : Scope := { before with journal := some w, ready := true, failed := true }
  have hattach : Request.step c ⟨before, .required⟩ (.attach owns payload reply raises []) =
      ⟨{ before with journal := some w }, .attached⟩ := attach_ok rfl hclaim
  have hfinish : failing.finish c .returned reply' raises' =
      ({ failing with outcome := some .raised, sealed := true, journal := some w'' }, .ok true) :=
    finish_ok rfl rfl rfl hseal hclose
  refine ⟨{ failing with outcome := some .raised, sealed := true, journal := some w'' }, ?_, rfl, rfl, rfl⟩
  show Request.run c (Request.step c ⟨before, .required⟩ (.attach owns payload reply raises [])) _ = _
  rw [hattach]
  show (⟨(failing.finish c .returned reply' raises').1, .finished⟩ : Request) = _
  rw [hfinish]

open RequestJournal (sampleCodec samplePayload value_samplePayload sampleWorld sample_created acknowledgment
  acknowledges_own seal_acknowledged create_sound)

/-- The part of the sample's acceptance that a scope is opened with. -/
def samplePart (name : String) : Json := (get samplePayload name).getD .null

theorem sample_claim (raw : Bytes) : (sampleWorld raw).claim 0 (samplePart "key") (samplePart "tool")
    (samplePart "arguments_sha256") =
      ({ sampleWorld raw with journal := { (sampleWorld raw).journal with owner := some 0 } }, .ok ()) := by
  have hmismatch : Journal.mismatch (sampleWorld raw).journal (samplePart "key") (samplePart "tool")
      (samplePart "arguments_sha256") = false := by
    show Journal.mismatch (RequestJournal.blank false samplePayload) (samplePart "key") (samplePart "tool")
      (samplePart "arguments_sha256") = false
    decide
  unfold World.claim
  rw [if_neg (show ¬ (sampleWorld raw).journal.owner.isSome = true from nofun), hmismatch]
  rfl

/-- **The snapshot and the journal may differ in the outcome.** -/
theorem outcomes_differ : ¬ ∀ (c : Codec) (key tool argumentsSha256 : Json) (maxEvents maxBytes owner : Nat)
    (events : List Event) (w : World),
    ((opened key tool argumentsSha256 maxEvents maxBytes owner).run c events).scope.sealed = true →
    ((opened key tool argumentsSha256 maxEvents maxBytes owner).run c events).scope.journal = some w →
    ∃ verdict, c.verify w.disk = .ok verdict ∧ verdict.outcome =
      ((opened key tool argumentsSha256 maxEvents maxBytes owner).run c events).scope.outcome.map
        fun o => .str o.text := by
  intro hall
  obtain ⟨raw, hcreate⟩ := sample_created
  have hworld : (RequestJournal.create sampleCodec false (.json samplePayload value_samplePayload)
      (acknowledgment raw 0) false).1 = sampleWorld raw := congrArg Prod.fst hcreate
  have hsound := create_sound sampleCodec false (.json samplePayload value_samplePayload)
    (acknowledgment raw 0) false
  have hclaim := sample_claim raw
  rw [hworld] at hsound
  have hclaimed := hsound.claim 0 (samplePart "key") (samplePart "tool") (samplePart "arguments_sha256")
  rw [hclaim] at hclaimed
  obtain ⟨last, hlast, -⟩ := hclaimed.seal_fits rfl .returned true (fun _ => rfl)
  have hseal := seal_acknowledged rfl hlast (acknowledges_own last 1)
  obtain ⟨v, failed, -, ⟨held, hobject⟩, -, hverified⟩ := hclaimed.verified hseal
  obtain ⟨-, summary, hverdict⟩ := hverified [.close false]
  obtain ⟨s, hrun, hsealed, hjournal, houtcome⟩ :=
    run_failed_return 4 100 false ((congrArg (World.claim · 0 _ _ _) hworld).trans hclaim) hseal rfl
  have hrefuted := hall sampleCodec (samplePart "key") (samplePart "tool") (samplePart "arguments_sha256")
    4 100 0 _ _ (congrArg (fun r => r.scope.sealed) hrun |>.trans hsealed)
    (congrArg (fun r => r.scope.journal) hrun |>.trans hjournal)
  obtain ⟨verdict, hverify, hsame⟩ := hrefuted
  rw [hrun, houtcome] at hsame
  obtain rfl := Except.ok.inj (hverify.symm.trans hverdict)
  cases hobject
  have htext : Outcome.returned.text ≠ Outcome.raised.text := by decide
  exact htext (Json.str.inj (Option.some.inj hsame))

end ObservationScope
