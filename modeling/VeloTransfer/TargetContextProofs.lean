import VeloTransfer.EffectProofs
import VeloTransfer.PaginationProofs

/-! # The target — one client, and at most one second attempt

    A tool runs on the one Windows client of the organization, which the process
    finds once and keeps.  Where a run fails and the client is gone, it is found
    again and the tool runs a second time, on the client that replaces it.

    * `Stopped` — how an attempt ends early, and what was asked before it did;
    * `history_run` — the shapes that the history of a call can have;
    * `retries_safely` — what that means for the attempts, the error and the client.

    The tool, the probe and the listing are programs of their own, and so is what
    refuses the facts of an observation, where a request is observed. -/

namespace McpCore

open CanonicalJson EffectPrograms EffectPrograms.Program

/-! ## The call and its surroundings -/

/-- A client of the target: never the empty text. -/
abbrev ClientId : Type := { s : Text // s ≠ [] }

inductive Resolution where
  | selected
  | cacheHit
deriving DecidableEq, Repr

inductive OperationEnd where
  | returned
  | raised
  | cancelled
deriving DecidableEq, Repr

/-- The facts that an observation may hold: those of the target, which carry one
    operation identity in one call, and those that a tool reads, by their kind. -/
inductive Fact where
  | resolve (mode : Resolution) (client : ClientId)
  | operationBegin (attempt : Nat) (client : ClientId)
  | operationEnd (attempt : Nat) (client : ClientId) (outcome : OperationEnd)
  | existence (attempt : Nat) (client : ClientId) (answer : Bool)
  | clear (previous : Option ClientId)
  | flow (kind : String) (client : ClientId)

/-- The observation of a request. -/
structure Scope where
  facts : List Fact
  isFailed : Bool
  isSealed : Bool

/-- What a tool and the backend reach: the observation, where the request has one. -/
structure Shared (σ : Type) where
  scope : Option Scope
  outside : σ

/-- What a call did, as far as this module tells it. -/
inductive Event where
  | listed (candidates : Outcome Raised (List Row))
  | ran (attempt : Nat) (client : ClientId) (result : Outcome Raised Unit)
  | probed (client : ClientId) (answer : Outcome Raised Bool)
  | unrecorded (client : ClientId) (error : Raised)
  | cleared (previous : Option ClientId)

/-- The target of the process, and the history of the call. -/
structure World (σ : Type) where
  clientId : Option ClientId
  shared : Shared σ
  history : List Event

structure TargetBackend (σ : Type) where
  listWindowsClients : Program (Shared σ) Raised (List Row)
  clientIdExists : ClientId → Program (Shared σ) Raised Bool

section Call

variable {σ α : Type}

def record (event : Event) : Program (World σ) Raised Unit :=
  update fun w => { w with history := w.history ++ [event] }

/-- Call a program of the outside, and note how it ended. -/
def call (m : Program (Shared σ) Raised α) (event : Outcome Raised α → Event) :
    Program (World σ) Raised α := fun w =>
  ((m w.shared).1, { w with shared := (m w.shared).2, history := w.history ++ [event (m w.shared).1] })

/-- What `except Exception` catches. -/
def isException : Raised → Bool
  | .interrupt _ => false
  | _ => true

/-! ## Facts

    `refuse` is what the budgets and the journal of an observation make of a fact. -/

variable (refuse : Scope → Fact → Option Raised)

/-- What an emission does: a refusal marks the observation as failed for good. -/
def emitFact (fact : Fact) : Program (Shared σ) Raised Unit := fun s =>
  match s.scope with
  | none => (.done (), s)
  | some scope =>
      if scope.isSealed then (.raised .observation, s)
      else
        match refuse scope fact with
        | some e => (.raised e, { s with scope := some { scope with isFailed := true } })
        | none =>
            if scope.isFailed then (.raised .observation, s)
            else (.done (), { s with scope := some { scope with facts := scope.facts ++ [fact] } })

/-- `emit_target_fact`. -/
def emitTargetFact (fact : Fact) : Program (World σ) Raised Unit := fun w =>
  ((emitFact refuse fact w.shared).1, { w with shared := (emitFact refuse fact w.shared).2 })

/-- `observation_failed`. -/
def observationFailed (w : World σ) : Bool :=
  match w.shared.scope with
  | some scope => scope.isFailed
  | none => false

/-- The errors of an observed tool that neither a probe nor a second attempt follows. -/
def isUntouched (w : World σ) (e : Raised) : Bool :=
  observationFailed w || (w.shared.scope.isSome && decide (e = .observation))

/-! ## The client -/

variable (backend : TargetBackend σ)

/-- `_clear`. -/
def clear : Program (World σ) Raised Unit := do
  let w ← read
  record (.cleared w.clientId)
  update fun w => { w with clientId := none }
  emitTargetFact refuse (.clear w.clientId)

/-- The client of a candidate, where it names one. -/
def clientOf (candidate : Row) : Option ClientId :=
  match candidate.fields.lookup (ascii "client_id") with
  | some (.str s) => if h : s ≠ [] then some ⟨s, h⟩ else none
  | _ => none

/-- The one client of the listing, which is kept from there on. -/
def selectClient : Program (World σ) Raised ClientId := do
  let candidates ← call backend.listWindowsClients .listed
  match candidates with
  | [] => raise .clientNotFound
  | [candidate] =>
      match clientOf candidate with
      | none => raise (.backend "list_windows_clients" "missing_client_id")
      | some client => do
          update fun w => { w with clientId := some client }
          emitTargetFact refuse (.resolve .selected client)
          pure client
  | _ :: _ :: _ => raise (.clientNotUnique candidates.length)

/-- `_resolve_client_id`. -/
def resolveClientId : Program (World σ) Raised ClientId := do
  let w ← read
  match w.clientId with
  | some client => do
      emitTargetFact refuse (.resolve .cacheHit client)
      pure client
  | none => selectClient refuse backend

/-! ## The attempts -/

variable (operation : ClientId → Program (Shared σ) Raised α)

def endOf : Raised → OperationEnd
  | .interrupt "CancelledError" => .cancelled
  | _ => .raised

def asUnit : Outcome Raised α → Outcome Raised Unit
  | .done _ => .done ()
  | .raised e => .raised e
  | .crashed => .crashed

/-- `_operation`: the error of the tool comes before that of its end fact. -/
def operationOf (attempt : Nat) (client : ClientId) : Program (World σ) Raised α := do
  emitTargetFact refuse (.operationBegin attempt client)
  let result ← handle (call (operation client) (fun o => .ran attempt client (asUnit o))) (fun e => do
    handle (emitTargetFact refuse (.operationEnd attempt client (endOf e))) (fun _ => pure ())
    raise e)
  emitTargetFact refuse (.operationEnd attempt client .returned)
  pure result

/-- The fact of an answer of the probe; its refusal is noted. -/
def emitExistence (attempt : Nat) (client : ClientId) (answer : Bool) : Program (World σ) Raised Unit :=
  handle (emitTargetFact refuse (.existence attempt client answer)) (fun e => do
    record (.unrecorded client e)
    raise e)

/-- What follows an error of the tool: the error, or nothing where the client is gone. -/
def afterError (attempt : Nat) (client : ClientId) (e : Raised) : Program (World σ) Raised Unit := do
  let w ← read
  if isUntouched w e then raise e
  else do
    let answer ← handle (call (backend.clientIdExists client) (.probed client)) (fun f =>
      if isException f then raise e else raise f)
    emitExistence refuse attempt client answer
    if answer then raise e else pure ()

/-- One attempt: its result, or nothing where it failed and the client is gone. -/
def attemptOn (attempt : Nat) (client : ClientId) : Program (World σ) Raised (Option α) :=
  handle (do
    let result ← operationOf refuse operation attempt client
    pure (some result))
  (fun e =>
    if isException e then do
      afterError refuse backend attempt client e
      pure none
    else raise e)

/-- `run_with_client`. -/
def runWithClient : Program (World σ) Raised α := do
  let client ← resolveClientId refuse backend
  let first ← attemptOn refuse backend operation 1 client
  match first with
  | some result => pure result
  | none => do
      clear refuse
      let replacement ← handle (resolveClientId refuse backend) (fun e =>
        if e = .clientNotFound then raise .clientIdNotFound else raise e)
      let second ← attemptOn refuse backend operation 2 replacement
      match second with
      | some result => pure result
      | none => raise .clientIdNotFound

/-! ## What each part does to the client and the history -/

/-- The client that is kept, and the history so far. -/
def At (client : Option ClientId) (history : List Event) (w : World σ) : Prop :=
  w.clientId = client ∧ w.history = history

variable {refuse backend operation} {b : Option ClientId} {c : ClientId} {t : List Event}

theorem triple_record {K : Option Raised → World σ → Prop} (event : Event) :
    Triple id (At b t) (record event) (fun _ w => At b (t ++ [event]) w) K := by
  rintro w ⟨hclient, hhistory⟩
  exact ⟨hclient, congrArg (· ++ [event]) hhistory⟩

theorem triple_bindClient {K : Option Raised → World σ → Prop} (b' : Option ClientId) :
    Triple id (At b t) (update fun w : World σ => { w with clientId := b' }) (fun _ w => At b' t w) K := by
  rintro w ⟨-, hhistory⟩
  exact ⟨rfl, hhistory⟩

theorem triple_call (m : Program (Shared σ) Raised α) (event : Outcome Raised α → Event) :
    Triple id (At b t) (call m event) (fun a w => At b (t ++ [event (.done a)]) w)
      (fun e w => At b (t ++ [event (early e)]) w) := by
  rintro w ⟨hclient, hhistory⟩
  have hafter : At b (t ++ [event (m w.shared).1]) (call m event w).2 :=
    ⟨hclient, congrArg (· ++ [event (m w.shared).1]) hhistory⟩
  show endsIn _ _ (m w.shared).1 (call m event w).2
  cases hend : (m w.shared).1 with
  | done a => rwa [hend] at hafter
  | raised e => rwa [hend] at hafter
  | crashed => rwa [hend] at hafter

/-- A fact leaves the client and the history alone; a refusal is not probed. -/
theorem triple_emit (fact : Fact) :
    Triple id (At b t) (emitTargetFact (σ := σ) refuse fact) (fun _ w => At b t w)
      (fun e w => At b t w ∧ ∃ f, e = some f ∧ isUntouched w f = true) := by
  rintro w ⟨hclient, hhistory⟩
  show endsIn _ _ (emitTargetFact refuse fact w).1 (emitTargetFact refuse fact w).2
  unfold emitTargetFact emitFact
  cases hscope : w.shared.scope with
  | none => exact ⟨hclient, hhistory⟩
  | some scope =>
      by_cases hsealed : scope.isSealed = true
      · simp only [hsealed, if_true]
        exact ⟨⟨hclient, hhistory⟩, _, rfl, by simp [isUntouched, hscope]⟩
      · simp only [hsealed]
        cases hrefuse : refuse scope fact with
        | some e => exact ⟨⟨hclient, hhistory⟩, e, rfl, by simp [isUntouched, observationFailed]⟩
        | none =>
            by_cases hfailed : scope.isFailed = true
            · simp only [hfailed, if_true]
              exact ⟨⟨hclient, hhistory⟩, _, rfl, by simp [isUntouched, hscope]⟩
            · simp only [hfailed]
              exact ⟨hclient, hhistory⟩

/-! ## One attempt -/

/-- What an attempt that ended early adds to the history, and how it ended. -/
inductive Stopped (n : Nat) (c : ClientId) : List Event → Option Raised → Prop where
  | unbegun (f : Raised) : Stopped n c [] (some f)
  | unfinished (f : Raised) : Stopped n c [.ran n c (.done ())] (some f)
  | lost : Stopped n c [.ran n c .crashed] none
  | unprobed (e : Raised) : Stopped n c [.ran n c (.raised e)] (some e)
  | present (e : Raised) : Stopped n c [.ran n c (.raised e), .probed c (.done true)] (some e)
  | failed (e : Raised) {f : Raised} (hf : isException f = true) :
      Stopped n c [.ran n c (.raised e), .probed c (.raised f)] (some e)
  | interrupted (e : Raised) {f : Raised} (hf : isException f = false) :
      Stopped n c [.ran n c (.raised e), .probed c (.raised f)] (some f)
  | probeLost (e : Raised) : Stopped n c [.ran n c (.raised e), .probed c .crashed] none
  | unrecorded (e : Raised) (answer : Bool) (f : Raised) :
      Stopped n c [.ran n c (.raised e), .probed c (.done answer), .unrecorded c f] (some f)

/-- The history that a gone client leaves behind. -/
def goneOn (n : Nat) (c : ClientId) (e : Raised) : List Event :=
  [.ran n c (.raised e), .probed c (.done false)]

/-- Where the tool ends early: before it ran, after it ran, or in its own run. -/
theorem triple_operationOf (n : Nat) :
    Triple id (At (some c) t) (operationOf refuse operation n c)
      (fun _ w => At (some c) (t ++ [.ran n c (.done ())]) w)
      (fun e w => (∃ f, e = some f ∧ isUntouched w f = true ∧
          ∃ tail, At (some c) (t ++ tail) w ∧ Stopped n c tail (some f)) ∨
        (∃ f, e = some f ∧ At (some c) (t ++ [.ran n c (.raised f)]) w) ∨
        (e = none ∧ At (some c) (t ++ [.ran n c .crashed]) w)) := by
  unfold operationOf
  refine triple_bind (triple_conseq (triple_emit _) (fun _ h => h) (fun _ _ h => h) ?_) (fun _ => ?_)
  · rintro e w ⟨hat, f, rfl, huntouched⟩
    exact .inl ⟨f, rfl, huntouched, [], by rwa [List.append_nil], .unbegun f⟩
  · refine triple_bind (Q := fun _ w => At (some c) (t ++ [.ran n c (.done ())]) w) ?_ (fun result => ?_)
    · refine triple_handle (H := fun e w => At (some c) (t ++ [.ran n c (.raised e)]) w) ?_ (fun e => ?_)
      · refine triple_conseq (triple_call _ _) (fun _ h => h) (fun _ _ h => h) ?_
        intro e w hat
        cases e with
        | none => exact .inr (.inr ⟨rfl, hat⟩)
        | some f => exact hat
      -- whatever becomes of the end fact, the error of the tool is raised
      · refine triple_bind (Q := fun _ w => At (some c) (t ++ [.ran n c (.raised e)]) w) ?_ (fun _ => ?_)
        · refine triple_handle (H := fun _ w => At (some c) (t ++ [.ran n c (.raised e)]) w) ?_
            (fun _ => triple_pure (fun _ h => h))
          refine triple_conseq (triple_emit _) (fun _ h => h) (fun _ _ h => h) ?_
          rintro _ w ⟨hat, f, rfl, -⟩
          exact hat
        · exact triple_raise (fun w hat => .inr (.inl ⟨e, rfl, hat⟩))
    · refine triple_bind (triple_conseq (triple_emit _) (fun _ h => h) (fun _ _ h => h) ?_)
        (fun _ => triple_pure (fun _ h => h))
      rintro e w ⟨hat, f, rfl, huntouched⟩
      exact .inl ⟨f, rfl, huntouched, _, hat, .unfinished f⟩

theorem triple_existence (n : Nat) (e : Raised) (answer : Bool) :
    Triple id (At (some c) (t ++ [.ran n c (.raised e), .probed c (.done answer)]))
      (emitExistence (σ := σ) refuse n c answer)
      (fun _ w => At (some c) (t ++ [.ran n c (.raised e), .probed c (.done answer)]) w)
      (fun f w => ∃ tail, At (some c) (t ++ tail) w ∧ Stopped n c tail f) := by
  unfold emitExistence
  refine triple_handle (H := fun _ w =>
    At (some c) (t ++ [.ran n c (.raised e), .probed c (.done answer)]) w) ?_ (fun f => ?_)
  · refine triple_conseq (triple_emit _) (fun _ h => h) (fun _ _ h => h) ?_
    rintro _ w ⟨hat, f, rfl, -⟩
    exact hat
  · refine triple_bind (triple_record (.unrecorded c f)) (fun _ => triple_raise (fun w hat => ?_))
    refine ⟨_, ?_, .unrecorded e answer f⟩
    rwa [List.append_assoc] at hat

/-- After an error of the tool: the client is gone, or the attempt ends. -/
theorem triple_afterError (n : Nat) (e : Raised) :
    Triple id (At (some c) (t ++ [.ran n c (.raised e)])) (afterError refuse backend n c e)
      (fun _ w => At (some c) (t ++ goneOn n c e) w)
      (fun f w => ∃ tail, At (some c) (t ++ tail) w ∧ Stopped n c tail f) := by
  unfold afterError
  refine triple_read (fun w₀ => triple_ite (fun _ => ?_) (fun _ => ?_))
  · exact triple_raise (fun w hw => ⟨_, hw.1, .unprobed e⟩)
  · refine triple_bind (Q := fun answer w =>
      At (some c) (t ++ [.ran n c (.raised e), .probed c (.done answer)]) w) ?_ (fun answer => ?_)
    · refine triple_handle (H := fun f w =>
        At (some c) (t ++ [.ran n c (.raised e), .probed c (.raised f)]) w) ?_ (fun f => ?_)
      · refine triple_conseq (triple_call _ _) (fun w hw => hw.1) ?_ ?_
        · intro answer w hat
          rwa [List.append_assoc] at hat
        · intro f w hat
          rw [List.append_assoc] at hat
          cases f with
          | none => exact ⟨_, hat, .probeLost e⟩
          | some f => exact hat
      · refine triple_ite (fun hf => ?_) (fun hf => ?_)
        · exact triple_raise (fun w hat => ⟨_, hat, .failed e hf⟩)
        · exact triple_raise (fun w hat => ⟨_, hat, .interrupted e (eq_false_of_ne_true hf)⟩)
    · refine triple_bind (triple_existence n e answer) (fun _ => ?_)
      cases answer with
      | true => exact triple_raise (fun w hat => ⟨_, hat, .present e⟩)
      | false => exact triple_pure (fun w hat => hat)

/-- A failed observation is not probed. -/
theorem afterError_untouched (n : Nat) (c : ClientId) {e : Raised} {w : World σ}
    (h : isUntouched w e = true) : afterError refuse backend n c e w = (.raised e, w) := by
  show (if isUntouched w e then raise e else _ : Program (World σ) Raised Unit) w = _
  rw [if_pos h]
  rfl

/-- **One attempt** on the client that is kept. -/
theorem triple_attemptOn (n : Nat) :
    Triple id (At (some c) t) (attemptOn refuse backend operation n c)
      (fun result w => match result with
        | some _ => At (some c) (t ++ [.ran n c (.done ())]) w
        | none => ∃ e, At (some c) (t ++ goneOn n c e) w)
      (fun e w => ∃ tail, At (some c) (t ++ tail) w ∧ Stopped n c tail e) := by
  unfold attemptOn
  refine triple_handle (H := fun e w => (isUntouched w e = true ∧
      ∃ tail, At (some c) (t ++ tail) w ∧ Stopped n c tail (some e)) ∨
    At (some c) (t ++ [.ran n c (.raised e)]) w) ?_ (fun e => ?_)
  · refine triple_bind (triple_conseq (triple_operationOf n) (fun _ h => h) (fun _ _ h => h) ?_)
      (fun result => triple_pure (fun _ h => h))
    rintro e w (⟨f, rfl, huntouched, hstopped⟩ | ⟨f, rfl, hat⟩ | ⟨rfl, hat⟩)
    · exact .inl ⟨huntouched, hstopped⟩
    · exact .inr hat
    · exact ⟨_, hat, .lost⟩
  · refine triple_ite (fun _ => ?_) (fun _ => triple_raise ?_)
    · rintro w (⟨huntouched, hstopped⟩ | hat)
      · show endsIn _ _ (andThen (afterError refuse backend n c e) _ w).1
          (andThen (afterError refuse backend n c e) _ w).2
        unfold andThen
        rw [show afterError refuse backend n c e w = (.raised e, w) from afterError_untouched n c huntouched]
        exact hstopped
      · exact triple_bind (triple_afterError n e) (fun _ => triple_pure (fun w hat => ⟨e, hat⟩)) w hat
    · rintro w (⟨-, hstopped⟩ | hat)
      · exact hstopped
      · exact ⟨_, hat, .unprobed e⟩

/-! ## The whole call -/

/-- The history of finding a client, from one that is kept or from none. -/
inductive Found (b : Option ClientId) (c : ClientId) : List Event → Prop where
  | kept (h : b = some c) : Found b c []
  | selected {row : Row} (h : b = none) (hrow : clientOf row = some c) : Found b c [.listed (.done [row])]

theorem triple_resolve :
    Triple id (At b t) (resolveClientId refuse backend)
      (fun c w => ∃ found, Found b c found ∧ At (some c) (t ++ found) w)
      (fun _ w => ∃ b' found, At b' (t ++ found) w ∧ (b ≠ none → b' = b ∧ found = []) ∧
        ∀ event ∈ found, ∃ candidates, event = .listed candidates) := by
  unfold resolveClientId
  refine triple_read (fun w₀ => ?_)
  rintro w ⟨hat, hread⟩
  obtain rfl : w = w₀ := hread
  cases hb : w.clientId with
  | some c =>
      obtain rfl : b = some c := hat.1.symm.trans hb
      refine triple_bind (triple_conseq (triple_emit _) (fun _ h => h) (fun _ _ h => h) ?_)
        (fun _ => triple_pure ?_) w hat
      · rintro e w ⟨hat, -⟩
        exact ⟨_, [], by rwa [List.append_nil], fun _ => ⟨rfl, rfl⟩, fun _ h => absurd h List.not_mem_nil⟩
      · intro w hat
        exact ⟨[], .kept rfl, by rwa [List.append_nil]⟩
  | none =>
      obtain rfl : b = none := hat.1.symm.trans hb
      -- whatever the listing was, it is all that the history gains
      have hlisted : ∀ {b' : Option ClientId} {l : Outcome Raised (List Row)} {w : World σ},
          At b' (t ++ [.listed l]) w → ∃ b' found, At b' (t ++ found) w ∧
            ((none : Option ClientId) ≠ none → b' = none ∧ found = []) ∧
            ∀ event ∈ found, ∃ candidates, event = .listed candidates := by
        intro b' l w hat
        exact ⟨b', _, hat, fun h => absurd rfl h, fun event h => ⟨l, List.mem_singleton.mp h⟩⟩
      refine triple_bind (triple_conseq (triple_call _ _) (fun _ h => h) (fun _ _ h => h)
        (fun e w hat => hlisted hat)) (fun candidates => ?_) w hat
      match candidates with
      | [] => exact triple_raise (fun w hat => hlisted hat)
      | [candidate] =>
          dsimp only
          cases hclient : clientOf candidate with
          | none => exact triple_raise (fun w hat => hlisted hat)
          | some c =>
              refine triple_bind (triple_bindClient (some c)) (fun _ => ?_)
              refine triple_bind (triple_conseq (triple_emit _) (fun _ h => h) (fun _ _ h => h)
                (fun e w hat => hlisted hat.1)) (fun _ => triple_pure (fun w hat => ?_))
              exact ⟨_, .selected rfl hclient, hat⟩
      | _ :: _ :: _ => exact triple_raise (fun w hat => hlisted hat)

theorem triple_clear :
    Triple id (At b t) (clear (σ := σ) refuse) (fun _ w => At none (t ++ [.cleared b]) w)
      (fun _ w => At none (t ++ [.cleared b]) w) := by
  unfold clear
  refine triple_read (fun w₀ => ?_)
  rintro w ⟨hat, hread⟩
  obtain rfl : w = w₀ := hread
  obtain rfl : w.clientId = b := hat.1
  refine triple_bind (triple_record (.cleared w.clientId)) (fun _ => ?_) w hat
  refine triple_bind (triple_bindClient none) (fun _ => ?_)
  exact triple_conseq (triple_emit _) (fun _ h => h) (fun _ _ h => h) (fun _ _ h => h.1)

/-- How the second attempt ends. -/
inductive Second (c : ClientId) : List Event → Outcome Raised α → Prop where
  | returned (a : α) : Second c [.ran 2 c (.done ())] (.done a)
  | stopped {tail : List Event} {e : Option Raised} (h : Stopped 2 c tail e) : Second c tail (early e)
  | gone (e : Raised) : Second c (goneOn 2 c e) (.raised .clientIdNotFound)

/-- The shapes of a call: its history, the client that is kept, and its end. -/
inductive History (b : Option ClientId) : List Event → Option ClientId → Outcome Raised α → Prop where
  | unresolved {t : List Event} {b' : Option ClientId} {e : Option Raised} (hb : b ≠ none → b' = b)
      (ht : ∀ event ∈ t, ∃ l, event = .listed l) : History b t b' (early e)
  | returned {found : List Event} {c : ClientId} (a : α) (hfound : Found b c found) :
      History b (found ++ [.ran 1 c (.done ())]) (some c) (.done a)
  | stopped {found tail : List Event} {c : ClientId} {e : Option Raised} (hfound : Found b c found)
      (h : Stopped 1 c tail e) : History b (found ++ tail) (some c) (early e)
  | unreplaced {found t : List Event} {c : ClientId} {e : Raised} {b' : Option ClientId}
      {f : Option Raised} (hfound : Found b c found) (ht : ∀ event ∈ t, ∃ l, event = .listed l) :
      History b (found ++ goneOn 1 c e ++ .cleared (some c) :: t) b' (early f)
  | replaced {found tail : List Event} {c c' : ClientId} {e : Raised} {row : Row} {o : Outcome Raised α}
      (hfound : Found b c found) (hrow : clientOf row = some c') (h : Second c' tail o) :
      History b (found ++ goneOn 1 c e ++ [.cleared (some c), .listed (.done [row])] ++ tail) (some c') o

/-- The history, the client and the end of a call have one of the shapes. -/
def Shaped (b : Option ClientId) (o : Outcome Raised α) (w : World σ) : Prop :=
  History b w.history w.clientId o

theorem shaped_of {o : Outcome Raised α} {t : List Event} {b' : Option ClientId} {w : World σ}
    (hat : At b' t w) (h : History b t b' o) : Shaped b o w := by
  unfold Shaped
  rw [hat.1, hat.2]
  exact h

/-- The second attempt, on the client that replaces the one that is gone. -/
theorem triple_second {found : List Event} {e : Raised} {c' : ClientId} {row : Row}
    (hfound : Found b c found) (hrow : clientOf row = some c') :
    Triple id (At (some c') (found ++ goneOn 1 c e ++ [.cleared (some c), .listed (.done [row])]))
      (attemptOn refuse backend operation 2 c' >>= fun second =>
        match second with
        | some result => pure result
        | none => raise .clientIdNotFound)
      (fun a w => Shaped b (.done a) w) (fun e w => Shaped b (early e : Outcome Raised α) w) := by
  refine triple_bind (triple_conseq (triple_attemptOn 2) (fun _ h => h) (fun _ _ h => h) ?_) (fun second => ?_)
  · rintro f w ⟨tail, hat, hstopped⟩
    exact shaped_of hat (.replaced hfound hrow (.stopped hstopped))
  · cases second with
    | some a => exact triple_pure (fun w hat => shaped_of hat (.replaced hfound hrow (.returned a)))
    | none =>
        refine triple_raise (fun w h => ?_)
        obtain ⟨e', hat⟩ := h
        exact shaped_of hat (.replaced hfound hrow (.gone e'))

/-- **Every call has one of the shapes.** -/
theorem triple_runWithClient :
    Triple id (At b []) (runWithClient refuse backend operation)
      (fun a w => Shaped b (.done a) w) (fun e w => Shaped b (early e : Outcome Raised α) w) := by
  unfold runWithClient
  refine triple_bind (triple_conseq triple_resolve (fun _ h => h) (fun _ _ h => h) ?_) (fun c => ?_)
  · rintro e w ⟨b', found, hat, hb, hlisted⟩
    exact shaped_of hat (.unresolved (fun h => (hb h).1) hlisted)
  intro w hw
  obtain ⟨found, hfound, hat⟩ := hw
  rw [List.nil_append] at hat
  refine triple_bind (triple_conseq (triple_attemptOn 1) (fun _ h => h) (fun _ _ h => h) ?_) (fun first => ?_)
    w hat
  · rintro f w ⟨tail, hat, hstopped⟩
    exact shaped_of hat (.stopped hfound hstopped)
  cases first with
  | some a => exact triple_pure (fun w hat => shaped_of hat (.returned a hfound))
  | none =>
      intro w hw
      obtain ⟨e, hat⟩ := hw
      have hunreplaced : ∀ {b' : Option ClientId} {t : List Event} {f : Option Raised} {w : World σ},
          At b' (found ++ goneOn 1 c e ++ [.cleared (some c)] ++ t) w →
          (∀ event ∈ t, ∃ l, event = .listed l) → Shaped b (early f : Outcome Raised α) w := by
        intro b' t f w hat ht
        rw [List.append_assoc, List.singleton_append] at hat
        exact shaped_of hat (.unreplaced hfound ht)
      refine triple_bind (triple_conseq triple_clear (fun _ h => h) (fun _ _ h => h) ?_) (fun _ => ?_) w hat
      · intro f w hat
        exact hunreplaced (t := []) (by rwa [List.append_nil]) (fun _ h => absurd h List.not_mem_nil)
      refine triple_bind (Q := fun c' w => ∃ row, clientOf row = some c' ∧
        At (some c') (found ++ goneOn 1 c e ++ [.cleared (some c), .listed (.done [row])]) w) ?_ (fun c' => ?_)
      · refine triple_handle (H := fun _ w => ∀ f : Raised, Shaped b (.raised f : Outcome Raised α) w) ?_
          (fun f => triple_ite (fun _ => triple_raise (fun w h => h _)) (fun _ => triple_raise (fun w h => h _)))
        refine triple_conseq triple_resolve (fun _ h => h) ?_ ?_
        · rintro c' w ⟨listing, hlisting, hat⟩
          cases hlisting with
          | kept h => exact absurd h nofun
          | selected _ hrow =>
              refine ⟨_, hrow, ?_⟩
              rwa [List.append_assoc] at hat
        · rintro f w ⟨b', listing, hat, -, hlisted⟩
          cases f with
          | none => exact hunreplaced (f := none) hat hlisted
          | some f => exact fun g => hunreplaced (f := some g) hat hlisted
      · intro w hw
        obtain ⟨row, hrow, hat⟩ := hw
        exact triple_second hfound hrow w hat

end Call

/-! ## Reading a history -/

section Reading

variable {τ : Type} {P : τ → Prop} {s u pre post : List τ} {x y : τ}

theorem not_split (h : ∀ z ∈ s, ¬ P z) (hy : P y) : s ≠ pre ++ y :: post := by
  rintro rfl
  exact h y (List.mem_append_right _ List.mem_cons_self) hy

/-- Where one element alone has a property, there is one way to split a list at it. -/
theorem split_unique (h : s ++ x :: u = pre ++ y :: post) (hs : ∀ z ∈ s, ¬ P z) (hu : ∀ z ∈ u, ¬ P z)
    (hy : P y) : pre = s ∧ y = x ∧ post = u := by
  induction s generalizing pre with
  | nil =>
      cases pre with
      | nil =>
          obtain ⟨rfl, rfl⟩ := List.cons.inj h
          exact ⟨rfl, rfl, rfl⟩
      | cons z zs => exact absurd (List.cons.inj h).2 (not_split hu hy)
  | cons a s ih =>
      obtain ⟨ha, hs⟩ := List.forall_mem_cons.mp hs
      cases pre with
      | nil => exact absurd ((List.cons.inj h).1 ▸ hy) ha
      | cons z zs =>
          obtain ⟨hhead, htail⟩ := List.cons.inj h
          obtain ⟨hpre, hrest⟩ := ih htail hs
          rw [hhead, hpre]
          exact ⟨rfl, hrest⟩

end Reading

/-- The tool ran, in this attempt. -/
def IsRan (n : Nat) : Event → Prop
  | .ran m _ _ => m = n
  | _ => False

def IsCleared : Event → Prop
  | .cleared _ => True
  | _ => False

def isRan : Event → Bool
  | .ran _ _ _ => true
  | _ => false

/-- How a call ends whose tool raised `e`, by what its history holds after that. -/
def EndsAs {α : Type} (e : Raised) : List Event → Outcome Raised α → Prop
  | [], o => o = .raised e
  | [.probed _ (.done true)], o => o = .raised e
  | [.probed _ (.done false)], o => o = .raised .clientIdNotFound
  | [.probed _ (.raised f)], o => o = .raised (if isException f then e else f)
  | [.probed _ .crashed], o => o = .crashed
  | [.probed _ (.done _), .unrecorded _ f], o => o = .raised f
  | _, _ => False

/-- What holds of a call with the client `b` at its start: of its history, the
    client at its end, and how it ends. -/
structure RetriesSafely {α : Type} (b : Option ClientId) (t : List Event) (b' : Option ClientId)
    (o : Outcome Raised α) : Prop where
  twice : (t.filter isRan).length ≤ 2
  second : ∀ {pre c r post}, t = pre ++ .ran 2 c r :: post → ∃ found bound e row,
    pre = found ++ [.ran 1 bound (.raised e), .probed bound (.done false), .cleared (some bound),
      .listed (.done [row])] ∧ clientOf row = some c
  firstError : ∀ {pre c e post}, t = pre ++ .ran 1 c (.raised e) :: post →
    (∃ post', post = .probed c (.done false) :: .cleared (some c) :: post') ∨
      (b' = some c ∧ EndsAs e post o ∧ post ≠ [.probed c (.done false)])
  secondError : ∀ {pre c e post}, t = pre ++ .ran 2 c (.raised e) :: post → EndsAs e post o
  cleared : ∀ {pre previous post}, t = pre ++ .cleared previous :: post → ∃ found c e,
    previous = some c ∧ pre = found ++ [.ran 1 c (.raised e), .probed c (.done false)]
  kept : (∀ previous, .cleared previous ∉ t) → ∀ c, b = some c → b' = some c

section Reading

variable {α : Type} {b b' : Option ClientId} {c : ClientId} {n : Nat} {found tail t : List Event}
  {e : Option Raised} {o : Outcome Raised α}

theorem Found.quiet (h : Found b c found) : ∀ event ∈ found, ∃ l, event = .listed l := by
  cases h with
  | kept _ => exact fun _ hmem => absurd hmem List.not_mem_nil
  | selected _ _ => exact fun event hmem => ⟨_, List.mem_singleton.mp hmem⟩

/-- A listing is no attempt, and clears nothing. -/
theorem listed_not (h : ∀ event ∈ t, ∃ l, event = .listed l) :
    (∀ event ∈ t, ¬ IsRan n event) ∧ ∀ event ∈ t, ¬ IsCleared event := by
  constructor
  · intro event hmem
    obtain ⟨l, rfl⟩ := h event hmem
    exact id
  · intro event hmem
    obtain ⟨l, rfl⟩ := h event hmem
    exact id

/-- An attempt that ended early ran its tool once, or not at all. -/
theorem Stopped.shape (h : Stopped n c tail e) :
    tail = [] ∨ ∃ r rest, tail = .ran n c r :: rest ∧ (∀ m, ∀ event ∈ rest, ¬ IsRan m event) ∧
      (∀ event ∈ rest, ¬ IsCleared event) ∧ rest.filter isRan = [] := by
  cases h with
  | unbegun f => exact .inl rfl
  | unfinished f => exact .inr ⟨_, [], rfl, by simp, by simp, rfl⟩
  | lost => exact .inr ⟨_, [], rfl, by simp, by simp, rfl⟩
  | unprobed e => exact .inr ⟨_, [], rfl, by simp, by simp, rfl⟩
  | present e => exact .inr ⟨_, _, rfl, by simp [IsRan], by simp [IsCleared], rfl⟩
  | failed e hf => exact .inr ⟨_, _, rfl, by simp [IsRan], by simp [IsCleared], rfl⟩
  | interrupted e hf => exact .inr ⟨_, _, rfl, by simp [IsRan], by simp [IsCleared], rfl⟩
  | probeLost e => exact .inr ⟨_, _, rfl, by simp [IsRan], by simp [IsCleared], rfl⟩
  | unrecorded e answer f => exact .inr ⟨_, _, rfl, by simp [IsRan], by simp [IsCleared], rfl⟩

theorem Stopped.ends {error : Raised} {rest : List Event} (h : Stopped n c (.ran n c (.raised error) :: rest) e) :
    EndsAs error rest (early e : Outcome Raised α) ∧ rest ≠ [.probed c (.done false)] := by
  cases h with
  | unprobed => exact ⟨rfl, (by intro h; cases h)⟩
  | present => exact ⟨rfl, (by intro h; cases h)⟩
  | failed _ hf => exact ⟨congrArg Outcome.raised (if_pos hf).symm, (by intro h; cases h)⟩
  | interrupted _ hf => exact ⟨congrArg Outcome.raised (if_neg (by rw [hf]; exact Bool.false_ne_true)).symm, (by intro h; cases h)⟩
  | probeLost => exact ⟨rfl, (by intro h; cases h)⟩
  | unrecorded _ answer f =>
      cases answer with
      | false => exact ⟨rfl, (by intro h; cases h)⟩
      | true => exact ⟨rfl, (by intro h; cases h)⟩

/-- An attempt that ended early holds a run of its own number at most. -/
theorem Stopped.not_ran (h : Stopped n c tail e) {m : Nat} (hm : m ≠ n) : ∀ event ∈ tail, ¬ IsRan m event := by
  rcases h.shape with rfl | ⟨r, rest, rfl, hrest, -⟩
  · exact fun _ hmem => absurd hmem List.not_mem_nil
  · exact List.forall_mem_cons.mpr ⟨fun heq => hm heq.symm, hrest m⟩

theorem Stopped.not_cleared (h : Stopped n c tail e) : ∀ event ∈ tail, ¬ IsCleared event := by
  rcases h.shape with rfl | ⟨r, rest, rfl, -, hrest, -⟩
  · exact fun _ hmem => absurd hmem List.not_mem_nil
  · exact List.forall_mem_cons.mpr ⟨id, hrest⟩

theorem Stopped.once (h : Stopped n c tail e) : (tail.filter isRan).length ≤ 1 := by
  rcases h.shape with rfl | ⟨r, rest, rfl, -, -, hrest⟩
  · exact Nat.zero_le 1
  · rw [List.filter_cons_of_pos rfl, hrest]
    exact Nat.le_refl 1

theorem Second.not_ran (h : Second c tail o) : ∀ event ∈ tail, ¬ IsRan 1 event := by
  cases h with
  | returned a => simp [IsRan]
  | stopped h => exact h.not_ran (by decide)
  | gone e => simp [goneOn, IsRan]

theorem Second.not_cleared (h : Second c tail o) : ∀ event ∈ tail, ¬ IsCleared event := by
  cases h with
  | returned a => simp [IsCleared]
  | stopped h => exact h.not_cleared
  | gone e => simp [goneOn, IsCleared]

theorem Second.once (h : Second c tail o) : (tail.filter isRan).length ≤ 1 := by
  cases h with
  | returned a => exact Nat.le_refl 1
  | stopped h => exact h.once
  | gone e => exact Nat.le_refl 1

/-- The second attempt runs its tool once on its client, or not at all. -/
theorem Second.shape (h : Second c tail o) : tail = [] ∨ ∃ r rest, tail = .ran 2 c r :: rest ∧
    (∀ event ∈ rest, ¬ IsRan 2 event) ∧ ∀ error, r = .raised error → EndsAs error rest o := by
  cases h with
  | returned a => exact .inr ⟨_, [], rfl, by simp, fun _ => nofun⟩
  | gone e =>
      refine .inr ⟨_, _, rfl, by simp [IsRan], fun error herror => ?_⟩
      exact rfl
  | stopped h =>
      rcases h.shape with rfl | ⟨r, rest, rfl, hrest, -, -⟩
      · exact .inl rfl
      · refine .inr ⟨r, rest, rfl, hrest 2, fun error herror => ?_⟩
        obtain rfl := herror
        exact h.ends.1

theorem found_filter (h : ∀ event ∈ t, ∃ l, event = .listed l) : t.filter isRan = [] := by
  refine List.filter_eq_nil_iff.mpr (fun event hmem => ?_)
  obtain ⟨l, rfl⟩ := h event hmem
  exact nofun

theorem Found.same {c₀ : ClientId} (h : Found b c found) (hb : b = some c₀) : some c = b := by
  cases h with
  | kept h => exact h.symm
  | selected h _ => exact absurd (h.symm.trans hb) nofun

section Shapes

variable {e₀ : Raised} {c' : ClientId} {row : Row}

theorem unresolved_safe (hb : b ≠ none → b' = b) (ht : ∀ event ∈ t, ∃ l, event = .listed l) :
    RetriesSafely b t b' (early e : Outcome Raised α) where
  twice := by
    rw [found_filter ht]
    exact Nat.zero_le 2
  second heq := absurd heq (not_split (listed_not ht).1 rfl)
  firstError heq := absurd heq (not_split (listed_not ht).1 rfl)
  secondError heq := absurd heq (not_split (listed_not ht).1 rfl)
  cleared heq := absurd heq (not_split (listed_not (n := 1) ht).2 trivial)
  kept _ c hc := by rw [hb (hc ▸ nofun), hc]

theorem returned_safe (a : α) (hfound : Found b c found) :
    RetriesSafely b (found ++ [.ran 1 c (.done ())]) (some c) (.done a) where
  twice := by
    rw [List.filter_append, found_filter hfound.quiet]
    exact Nat.le_succ 1
  second heq := absurd heq (not_split
    (List.forall_mem_append.mpr ⟨(listed_not hfound.quiet).1, by simp [IsRan]⟩) rfl)
  firstError heq := by
    obtain ⟨-, hran, -⟩ := split_unique (P := IsRan 1) heq (listed_not hfound.quiet).1 (by simp) rfl
    exact absurd hran nofun
  secondError heq := absurd heq (not_split
    (List.forall_mem_append.mpr ⟨(listed_not hfound.quiet).1, by simp [IsRan]⟩) rfl)
  cleared heq := absurd heq (not_split
    (List.forall_mem_append.mpr ⟨(listed_not (n := 1) hfound.quiet).2, by simp [IsCleared]⟩) trivial)
  kept _ c hc := (hfound.same hc).trans hc

theorem stopped_safe (hfound : Found b c found) (h : Stopped 1 c tail e) :
    RetriesSafely b (found ++ tail) (some c) (early e : Outcome Raised α) where
  twice := by
    rw [List.filter_append, found_filter hfound.quiet]
    exact Nat.le_succ_of_le h.once
  second heq := absurd heq (not_split
    (List.forall_mem_append.mpr ⟨(listed_not hfound.quiet).1, h.not_ran (by decide)⟩) rfl)
  firstError heq := by
    rcases h.shape with rfl | ⟨r, rest, rfl, hrest, -, -⟩
    · rw [List.append_nil] at heq
      exact absurd heq (not_split (listed_not hfound.quiet).1 rfl)
    · obtain ⟨-, hran, rfl⟩ := split_unique (P := IsRan 1) heq (listed_not hfound.quiet).1 (hrest 1) rfl
      obtain ⟨-, rfl, rfl⟩ := Event.ran.inj hran
      exact .inr ⟨rfl, h.ends⟩
  secondError heq := absurd heq (not_split
    (List.forall_mem_append.mpr ⟨(listed_not hfound.quiet).1, h.not_ran (by decide)⟩) rfl)
  cleared heq := absurd heq (not_split
    (List.forall_mem_append.mpr ⟨(listed_not (n := 1) hfound.quiet).2, h.not_cleared⟩) trivial)
  kept _ c hc := (hfound.same hc).trans hc

/-- Up to the loss of the client, only the first attempt ran its tool. -/
theorem gone_not (hfound : Found b c found) :
    (∀ event ∈ found ++ goneOn 1 c e₀, ¬ IsRan 2 event) ∧
      ∀ event ∈ found ++ goneOn 1 c e₀, ¬ IsCleared event :=
  ⟨List.forall_mem_append.mpr ⟨(listed_not hfound.quiet).1, by simp [goneOn, IsRan]⟩,
    List.forall_mem_append.mpr ⟨(listed_not (n := 1) hfound.quiet).2, by simp [goneOn, IsCleared]⟩⟩

/-- After the loss of the client, the history goes on with the client cleared. -/
theorem gone_first {post pre : List Event} {error : Raised} {client : ClientId} (hfound : Found b c found)
    (ht : ∀ event ∈ t, ¬ IsRan 1 event)
    (heq : found ++ goneOn 1 c e₀ ++ .cleared (some c) :: t = pre ++ .ran 1 client (.raised error) :: post) :
    ∃ post', post = .probed client (.done false) :: .cleared (some client) :: post' := by
  rw [List.append_assoc] at heq
  have hrest : ∀ event ∈ Event.probed c (.done false) :: .cleared (some c) :: t, ¬ IsRan 1 event :=
    List.forall_mem_cons.mpr ⟨id, List.forall_mem_cons.mpr ⟨id, ht⟩⟩
  obtain ⟨-, hran, rfl⟩ := split_unique (P := IsRan 1) heq (listed_not hfound.quiet).1 hrest rfl
  obtain ⟨-, rfl, -⟩ := Event.ran.inj hran
  exact ⟨t, rfl⟩

theorem gone_cleared {post pre : List Event} {previous : Option ClientId} (hfound : Found b c found)
    (ht : ∀ event ∈ t, ¬ IsCleared event)
    (heq : found ++ goneOn 1 c e₀ ++ .cleared (some c) :: t = pre ++ .cleared previous :: post) :
    ∃ found c e, previous = some c ∧
      pre = found ++ [.ran 1 c (.raised e), .probed c (.done false)] := by
  obtain ⟨rfl, hcleared, -⟩ := split_unique (P := IsCleared) heq (gone_not hfound).2 ht trivial
  obtain rfl := Event.cleared.inj hcleared
  exact ⟨found, c, e₀, rfl, rfl⟩

theorem unreplaced_safe (hfound : Found b c found) (ht : ∀ event ∈ t, ∃ l, event = .listed l) :
    RetriesSafely b (found ++ goneOn 1 c e₀ ++ .cleared (some c) :: t) b' (early e : Outcome Raised α) where
  twice := by
    rw [List.filter_append, List.filter_append, found_filter hfound.quiet,
      List.filter_cons_of_neg (Bool.false_ne_true), found_filter ht]
    exact Nat.le_succ 1
  second heq := absurd heq (not_split (List.forall_mem_append.mpr ⟨(gone_not hfound).1,
    List.forall_mem_cons.mpr ⟨id, (listed_not ht).1⟩⟩) rfl)
  firstError heq := .inl (gone_first hfound (listed_not ht).1 heq)
  secondError heq := absurd heq (not_split (List.forall_mem_append.mpr ⟨(gone_not hfound).1,
    List.forall_mem_cons.mpr ⟨id, (listed_not ht).1⟩⟩) rfl)
  cleared heq := gone_cleared hfound (listed_not (n := 1) ht).2 heq
  kept h := absurd (List.mem_append_right _ List.mem_cons_self) (h (some c))

theorem after_listing {pre post rest : List Event} {x : Event}
    (h : found ++ goneOn 1 c e₀ ++ .cleared (some c) :: .listed (.done [row]) :: rest = pre ++ x :: post) :
    found ++ goneOn 1 c e₀ ++ [.cleared (some c), .listed (.done [row])] ++ rest = pre ++ x :: post := by
  rw [List.append_assoc]
  exact h

theorem replaced_safe (hfound : Found b c found) (hrow : clientOf row = some c') (h : Second c' tail o) :
    RetriesSafely b (found ++ goneOn 1 c e₀ ++ .cleared (some c) :: .listed (.done [row]) :: tail) (some c') o where
  twice := by
    rw [List.filter_append, List.filter_append, found_filter hfound.quiet, List.length_append]
    exact Nat.add_le_add_left h.once 1
  second heq := by
    rcases h.shape with rfl | ⟨r, rest, rfl, hrest, -⟩
    · refine absurd heq (not_split (List.forall_mem_append.mpr ⟨(gone_not hfound).1, ?_⟩) rfl)
      simp [IsRan]
    · have hbefore : ∀ event ∈ found ++ goneOn 1 c e₀ ++ [.cleared (some c), .listed (.done [row])],
          ¬ IsRan 2 event := List.forall_mem_append.mpr ⟨(gone_not hfound).1, by simp [IsRan]⟩
      obtain ⟨rfl, hran, -⟩ := split_unique (P := IsRan 2) (after_listing heq) hbefore hrest rfl
      obtain ⟨-, rfl, -⟩ := Event.ran.inj hran
      refine ⟨found, c, e₀, row, ?_, hrow⟩
      rw [List.append_assoc]
      rfl
  firstError heq := .inl (gone_first hfound (List.forall_mem_cons.mpr ⟨id, h.not_ran⟩) heq)
  secondError heq := by
    rcases h.shape with rfl | ⟨r, rest, rfl, hrest, hends⟩
    · refine absurd heq (not_split (List.forall_mem_append.mpr ⟨(gone_not hfound).1, ?_⟩) rfl)
      simp [IsRan]
    · have hbefore : ∀ event ∈ found ++ goneOn 1 c e₀ ++ [.cleared (some c), .listed (.done [row])],
          ¬ IsRan 2 event := List.forall_mem_append.mpr ⟨(gone_not hfound).1, by simp [IsRan]⟩
      obtain ⟨-, hran, rfl⟩ := split_unique (P := IsRan 2) (after_listing heq) hbefore hrest rfl
      obtain ⟨-, -, rfl⟩ := Event.ran.inj hran
      exact hends _ rfl
  cleared heq := gone_cleared hfound (List.forall_mem_cons.mpr ⟨id, h.not_cleared⟩) heq
  kept hnot := absurd (List.mem_append_right _ List.mem_cons_self) (hnot (some c))

/-- **What the shapes of a call mean.** -/
theorem History.safe (h : History b t b' o) : RetriesSafely b t b' o := by
  cases h with
  | unresolved hb ht => exact unresolved_safe hb ht
  | returned a hfound => exact returned_safe a hfound
  | stopped hfound h => exact stopped_safe hfound h
  | unreplaced hfound ht => exact unreplaced_safe hfound ht
  | replaced hfound hrow h =>
      rw [List.append_assoc]
      exact replaced_safe hfound hrow h

end Shapes

end Reading

/-- **The target is retried safely**: whatever the tool, the probe, the listing and
    the observation do. -/
theorem retries_safely {σ α : Type} (refuse : Scope → Fact → Option Raised) (backend : TargetBackend σ)
    (operation : ClientId → Program (Shared σ) Raised α) (w : World σ) (hstart : w.history = []) :
    RetriesSafely w.clientId (runWithClient refuse backend operation w).2.history
      (runWithClient refuse backend operation w).2.clientId (runWithClient refuse backend operation w).1 := by
  have hshaped := @triple_runWithClient σ α refuse backend operation
    w.clientId w ⟨rfl, hstart⟩
  exact (endsIn_outcome (A := Shaped w.clientId) hshaped).safe

/-! ## What a call keeps -/

section Keeps

variable {σ α : Type} {refuse : Scope → Fact → Option Raised} {target : TargetBackend σ}
  {operation : ClientId → Program (Shared σ) Raised α} {I : Shared σ → Prop}

/-- An invariant of what the tool and the backend reach. -/
abbrev Reached (I : Shared σ → Prop) (w : World σ) : Prop := I w.shared

theorem keeps_call {m : Program (Shared σ) Raised α} (hm : Keeps I m) (event : Outcome Raised α → Event) :
    Keeps (Reached I) (call m event) :=
  fun w hw => hm w.shared hw

variable (hemit : ∀ fact, Keeps I (emitFact refuse fact))
include hemit

theorem keeps_emitTarget (fact : Fact) : Keeps (Reached I) (emitTargetFact refuse fact) :=
  fun w hw => hemit fact w.shared hw

theorem keeps_resolve (hlist : Keeps I target.listWindowsClients) :
    Keeps (Reached I) (resolveClientId refuse target) := by
  refine keeps_bind keeps_read (fun w => ?_)
  cases w.clientId with
  | some client => exact keeps_bind (keeps_emitTarget hemit _) (fun _ => keeps_pure _)
  | none =>
      refine keeps_bind (keeps_call hlist _) (fun candidates => ?_)
      match candidates with
      | [] => exact keeps_raise _
      | [candidate] =>
          dsimp only
          cases clientOf candidate with
          | none => exact keeps_raise _
          | some client =>
              refine keeps_bind (keeps_update (fun _ hw => hw)) (fun _ => ?_)
              exact keeps_bind (keeps_emitTarget hemit _) (fun _ => keeps_pure _)
      | _ :: _ :: _ => exact keeps_raise _

theorem keeps_attemptOn (hprobe : ∀ client, Keeps I (target.clientIdExists client))
    (hop : ∀ client, Keeps I (operation client)) (n : Nat) (client : ClientId) :
    Keeps (Reached I) (attemptOn refuse target operation n client) := by
  have hemitted := keeps_emitTarget hemit
  refine keeps_handle (keeps_bind (keeps_bind (hemitted _) (fun _ => ?_)) (fun _ => keeps_pure _)) (fun e => ?_)
  · refine keeps_bind (keeps_handle (keeps_call (hop client) _) (fun e => ?_))
      (fun _ => keeps_bind (hemitted _) (fun _ => keeps_pure _))
    exact keeps_bind (keeps_handle (hemitted _) (fun _ => keeps_pure _)) (fun _ => keeps_raise _)
  · refine keeps_ite (keeps_bind (keeps_bind keeps_read (fun w => keeps_ite (keeps_raise _) ?_))
      (fun _ => keeps_pure _)) (keeps_raise _)
    refine keeps_bind (keeps_handle (keeps_call (hprobe client) _) (fun f =>
      keeps_ite (keeps_raise _) (keeps_raise _))) (fun answer => ?_)
    refine keeps_bind (keeps_handle (hemitted _) (fun f => ?_)) (fun _ => keeps_ite (keeps_raise _) (keeps_pure _))
    exact keeps_bind (keeps_update (fun _ hw => hw)) (fun _ => keeps_raise _)

/-- **A call keeps what its tool, its backend and its facts keep.** -/
theorem keeps_runWithClient (hlist : Keeps I target.listWindowsClients)
    (hprobe : ∀ client, Keeps I (target.clientIdExists client)) (hop : ∀ client, Keeps I (operation client)) :
    Keeps (Reached I) (runWithClient refuse target operation) := by
  refine keeps_bind (keeps_resolve hemit hlist) (fun client => ?_)
  refine keeps_bind (keeps_attemptOn hemit hprobe hop 1 client) (fun first => ?_)
  cases first with
  | some result => exact keeps_pure _
  | none =>
      have hclear : Keeps (Reached I) (clear refuse) := by
        refine keeps_bind keeps_read (fun w => keeps_bind (keeps_update (fun _ hw => hw)) (fun _ => ?_))
        exact keeps_bind (keeps_update (fun _ hw => hw)) (fun _ => keeps_emitTarget hemit _)
      refine keeps_bind hclear (fun _ => keeps_bind (keeps_handle (keeps_resolve hemit hlist) (fun e =>
        keeps_ite (keeps_raise _) (keeps_raise _))) (fun replacement => ?_))
      refine keeps_bind (keeps_attemptOn hemit hprobe hop 2 replacement) (fun second => ?_)
      cases second with
      | some result => exact keeps_pure _
      | none => exact keeps_raise _

end Keeps

/-! ## Samples -/

/-- A client that is there, and its listing. -/
def presentBackend : TargetBackend Unit where
  listWindowsClients := pure [⟨[(ascii "client_id", .str (ascii "C.1"))]⟩]
  clientIdExists _ := pure true

/-- No client is kept yet, and the request is observed. -/
def observedWorld : World Unit :=
  { clientId := none
    shared := { scope := some { facts := [], isFailed := false, isSealed := false }, outside := () }
    history := [] }

theorem retries_safely_sample : RetriesSafely observedWorld.clientId
    (runWithClient (fun _ _ => none) presentBackend (fun _ => pure ()) observedWorld).2.history
    (runWithClient (fun _ _ => none) presentBackend (fun _ => pure ()) observedWorld).2.clientId
    (runWithClient (fun _ _ => none) presentBackend (fun _ => pure ()) observedWorld).1 :=
  retries_safely _ _ _ _ rfl

/-- Observations that refuse the answer of the probe. -/
def refuseExistence (_ : Scope) : Fact → Option Raised
  | .existence _ _ _ => some .observation
  | _ => none

/-- The tool failed and its client is there; the refused fact is what is raised. -/
theorem refused_answer_raised :
    (runWithClient refuseExistence presentBackend
        (fun _ => (raise (.exception "RuntimeError") : Program (Shared Unit) Raised Unit)) observedWorld).2.history
      = [.listed (.done [⟨[(ascii "client_id", .str (ascii "C.1"))]⟩]),
        .ran 1 ⟨ascii "C.1", by decide⟩ (.raised (.exception "RuntimeError")),
        .probed ⟨ascii "C.1", by decide⟩ (.done true), .unrecorded ⟨ascii "C.1", by decide⟩ .observation] ∧
    (runWithClient refuseExistence presentBackend
        (fun _ => (raise (.exception "RuntimeError") : Program (Shared Unit) Raised Unit)) observedWorld).1
      ≠ .raised (.exception "RuntimeError") := by
  constructor
  · rfl
  · have hend : (runWithClient refuseExistence presentBackend
        (fun _ => (raise (.exception "RuntimeError") : Program (Shared Unit) Raised Unit)) observedWorld).1
          = .raised .observation := rfl
    rw [hend]
    exact nofun

end McpCore
