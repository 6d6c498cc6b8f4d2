import VeloTransfer.FlowResultsProofs

/-! # Starting a hunt — what a failed start leaves behind

    `start_hunt` creates a paused hunt, starts a flow on the client, adds the flow to
    the hunt and reads its state.  Where one of these fails, it cancels the flow and
    stops the hunt that it has in hand, and the target may run all of it once more.

    The flow is created inside `start_collection`, which goes on to read its state
    before it returns the identity: what fails there fails with nothing in hand.

    * `tried_iff` — what an attempt cancels and stops is what it had in hand when an
      exception ended it;
    * `start_hunt_attended` — when that is everything the backend was told of. -/

namespace McpCore

open CanonicalJson EffectPrograms EffectPrograms.Program

/-! ## Answers of the server -/

/-- One response of a query. -/
inductive Response where
  | rows (rows : List Row)
  | refused
  | undecodable

/-- The responses of a query, and the error in which reading them ended, if one did. -/
structure Stream where
  responses : List Response
  failure : Option Raised

/-- `run_vql_query`: the rows before the first error, and that error. -/
def readResponses : List Response → List Row × Option Raised
  | [] => ([], none)
  | .rows rows :: rest => (rows ++ (readResponses rest).1, (readResponses rest).2)
  | .refused :: _ => ([], some (.exception "RuntimeError"))
  | .undecodable :: _ => ([], some (.exception "ValueError"))

/-- The rows that were received, whatever followed them. -/
def Stream.received (s : Stream) : List Row := (readResponses s.responses).1

def Stream.result (s : Stream) : Except Raised (List Row) :=
  match (readResponses s.responses).2 with
  | some e => .error e
  | none =>
      match s.failure with
      | some e => .error e
      | none => .ok s.received

structure HuntRequest where
  artifact : Text
  parameters : List (Text × Json)
  description : Text

/-- The queries of `start_hunt`, each with the checks of its arguments before it. -/
structure HuntServer (ρ : Type) where
  listClients : ρ → Except Raised (List Row) × ρ
  clientExists : ClientId → ρ → Except Raised Bool × ρ
  hunt : HuntRequest → ρ → Stream × ρ
  huntsOf : Text → ρ → Stream × ρ
  collectClient : ClientId → HuntRequest → Option Nat → Option Nat → ρ → Stream × ρ
  flows : ClientId → Text → ρ → Stream × ρ
  huntAdd : ClientId → Text → Text → ρ → Stream × ρ
  hunts : Text → ρ → Stream × ρ
  cancelFlow : ClientId → Text → ρ → Stream × ρ
  huntUpdate : Text → ρ → Stream × ρ

/-! ## What answers name

    `reprOf` is how Python writes a list or a dictionary, which no server answers
    where a text is expected. -/

section Names

variable (reprOf : Json → Text)

/-- `str`, of a JSON value. -/
def strOf : Json → Text
  | .null => ascii "None"
  | .bool true => ascii "True"
  | .bool false => ascii "False"
  | .int i => renderInt i
  | .float token => token
  | .str s => s
  | v => reprOf v

/-- The first of the values that `or` does not pass over. -/
def firstOf : List (Option Json) → Text
  | [] => []
  | some v :: rest => if isFalsy (some v) then firstOf rest else strOf reprOf v
  | none :: rest => firstOf rest

/-- The identity in the answer of `hunt()`, or the empty text. -/
def huntIdIn (rows : List Row) : Text :=
  match rows with
  | [] => []
  | row :: _ =>
      match row.fields.lookup (ascii "HuntResult") with
      | some (.obj result) =>
          let request := match result.lookup (ascii "Request") with
            | some (.obj request) => request
            | _ => []
          firstOf reprOf [result.lookup (ascii "HuntId"), result.lookup (ascii "hunt_id"),
            request.lookup (ascii "hunt_id")]
      | _ => []

/-- The identity of the last hunt with a description, or the empty text. -/
def foundHuntIn (rows : List Row) : Text :=
  match rows with
  | [] => []
  | row :: _ => firstOf reprOf [row.fields.lookup (ascii "hunt_id")]

/-- The result that confirms a change. -/
def resultIn (rows : List Row) : Text :=
  match rows with
  | [] => []
  | row :: _ => firstOf reprOf [row.fields.lookup (ascii "Result")]

end Names

/-- The identity of the flow in the answer of `collect_client`. -/
def flowIdIn (rows : List Row) : Option Text :=
  match rows with
  | [] => none
  | row :: _ =>
      match row.fields.lookup (ascii "flow_id") with
      | some (.str s) => some s
      | _ => none

/-- The state in the first row, a text. -/
def stateIn (rows : List Row) : Option Text :=
  match rows with
  | [] => none
  | row :: _ =>
      match row.fields.lookup (ascii "state") with
      | some (.str s) => some s
      | _ => none

/-! ## The attempt -/

/-- What a creation answer names. -/
inductive Named where
  | hunt (id : Text)
  | flow (client : ClientId) (id : Text)
deriving DecidableEq

def Named.isHunt : Named → Bool
  | .hunt _ => true
  | .flow _ _ => false

/-- The names of a text that may be empty, which is no identity. -/
def named (name : Text → Named) (id : Text) : List Named := if id = [] then [] else [name id]

/-- What the outside answered to one attempt, as far as it decides on what the attempt
    has in hand: the streams, and whether the facts after them were accepted. -/
structure Answers where
  hunt : Option Stream
  search : Option Stream
  collect : Option Stream
  isReturnNoted : Bool
  details : Option Stream
  isMetadataNoted : Bool

/-- The course of one attempt: its client and answers, the error that ended it and the
    one of its cancellation, and what it tried to end. -/
structure AttemptLog where
  client : ClientId
  answers : Answers
  failure : Option Raised
  cancelFailure : Option Raised
  tried : List Named

structure Attempt (ρ : Type) where
  server : ρ
  log : AttemptLog

structure Flow where
  id : Text
  state : Text

structure HuntStarted where
  huntId : Text
  flowId : Text
  clientId : ClientId
  state : Text
  flowState : Text

section Attempt

variable {ρ α : Type}

def note (f : AttemptLog → AttemptLog) : Program (Shared (Attempt ρ)) Raised Unit :=
  update fun s => { s with outside := { s.outside with log := f s.outside.log } }

def ask (query : ρ → Stream × ρ) : Program (Shared (Attempt ρ)) Raised Stream := fun s =>
  (.done (query s.outside.server).1, { s with outside := { s.outside with server := (query s.outside.server).2 } })

/-- A query whose answer is not noted. -/
def askRows (query : ρ → Stream × ρ) : Program (Shared (Attempt ρ)) Raised (List Row) := do
  let answer ← ask query
  ofExcept answer.result

/-- A query whose answer is noted. -/
def askNoted (query : ρ → Stream × ρ) (seen : Stream → Answers → Answers) :
    Program (Shared (Attempt ρ)) Raised (List Row) := do
  let answer ← ask query
  note fun log => { log with answers := seen answer log.answers }
  ofExcept answer.result

variable (refuse : Scope → Fact → Option Raised) (reprOf : Json → Text) (server : HuntServer ρ)

/-- A fact whose acceptance is noted. -/
def emitNoted (fact : Fact) (seen : Answers → Answers) : Program (Shared (Attempt ρ)) Raised Unit := do
  emitFact refuse fact
  note fun log => { log with answers := seen log.answers }

/-- `create_paused_hunt`: an answer without an identity is looked for by its description. -/
def createPausedHunt (request : HuntRequest) : Program (Shared (Attempt ρ)) Raised Text := do
  let rows ← askNoted (server.hunt request) (fun answer seen => { seen with hunt := some answer })
  if huntIdIn reprOf rows ≠ [] then pure (huntIdIn reprOf rows)
  else do
    let found ← askNoted (server.huntsOf request.description)
      (fun answer seen => { seen with search := some answer })
    if foundHuntIn reprOf found ≠ [] then pure (foundHuntIn reprOf found)
    else raise (.exception "RuntimeError")

/-- The time and upload limits of a collection: only a memory image has its own. -/
def collectionLimits (artifact : Text) : Option Nat × Option Nat :=
  if artifact = ascii "Windows.Memory.Acquisition" then (some 3600, some (8 * 1024 ^ 3)) else (none, none)

/-- `start_collection`, of the backend and of the interface under it. -/
def startCollection (client : ClientId) (request : HuntRequest) : Program (Shared (Attempt ρ)) Raised Flow := do
  let limits := collectionLimits request.artifact
  emitFact refuse (.flow "flow.create.begin" client)
  let rows ← askNoted (server.collectClient client request limits.1 limits.2)
    (fun answer seen => { seen with collect := some answer })
  emitNoted refuse (.flow "flow.create.return" client) (fun seen => { seen with isReturnNoted := true })
  match flowIdIn rows with
  | none => raise (.backend "start_collection" "missing_flow_id")
  | some id => do
      let details ← askNoted (server.flows client id) (fun answer seen => { seen with details := some answer })
      match stateIn details with
      | none => raise (.backend "get_flow_details" "missing_state")
      | some state =>
          if state = [] then raise (.backend "get_flow_details" "missing_state")
          else do
            emitNoted refuse (.flow "flow.metadata.return" client)
              (fun seen => { seen with isMetadataNoted := true })
            pure { id := id, state := state }

/-- `add_hunt_flow`. -/
def addHuntFlow (client : ClientId) (hunt flow : Text) : Program (Shared (Attempt ρ)) Raised Unit := do
  let rows ← askRows (server.huntAdd client hunt flow)
  raiseIf (rows = [] ∨ resultIn reprOf rows ≠ client.val) (.exception "RuntimeError")

/-- `cancel_flow`. -/
def cancelFlow (client : ClientId) (flow : Text) : Program (Shared (Attempt ρ)) Raised Unit := do
  note fun log => { log with tried := log.tried ++ [.flow client flow] }
  let rows ← askRows (server.cancelFlow client flow)
  match rows with
  | [] => raise (.exception "RuntimeError")
  | row :: _ =>
      match row.fields.lookup (ascii "Result") with
      | none => raise (.exception "RuntimeError")
      | some .null => raise (.exception "RuntimeError")
      | some _ => pure ()

/-- `stop_hunt`, of the backend. -/
def stopHunt (hunt : Text) : Program (Shared (Attempt ρ)) Raised Unit := do
  note fun log => { log with tried := log.tried ++ [.hunt hunt] }
  let rows ← askRows (server.huntUpdate hunt)
  raiseIf (rows = [] ∨ resultIn reprOf rows ≠ hunt) (.exception "RuntimeError")

/-- `except Exception: pass`. -/
def quietly (m : Program (Shared (Attempt ρ)) Raised Unit) (seen : Raised → AttemptLog → AttemptLog) :
    Program (Shared (Attempt ρ)) Raised Unit :=
  handle m (fun e => do
    note (seen e)
    if isException e then pure () else raise e)

/-- The cancellation of the flow, then the stop of the hunt; nothing in hand is empty. -/
def compensate (client : ClientId) (hunt flow : Text) : Program (Shared (Attempt ρ)) Raised Unit := do
  whenever (flow ≠ []) (quietly (cancelFlow server client flow) (fun e log => { log with cancelFailure := some e }))
  whenever (hunt ≠ []) (quietly (stopHunt reprOf server hunt) (fun _ log => log))

/-- A part of the `try` block of `start_hunt`, with what is in hand there. -/
def guarded (client : ClientId) (hunt flow : Text) (m : Program (Shared (Attempt ρ)) Raised α) :
    Program (Shared (Attempt ρ)) Raised α :=
  handle m (fun e => do
    note fun log => { log with failure := some e }
    if isException e then do
      compensate reprOf server client hunt flow
      raise e
    else raise e)

/-- The operation of `start_hunt` on its client. -/
def huntOperation (request : HuntRequest) (client : ClientId) :
    Program (Shared (Attempt ρ)) Raised HuntStarted := do
  let hunt ← guarded reprOf server client [] []
    (backendCall "create_paused_hunt" (createPausedHunt reprOf server request))
  let flow ← guarded reprOf server client hunt []
    (backendCall "start_hunt_flow" (startCollection refuse server client request))
  guarded reprOf server client hunt flow.id (do
    backendCall "add_hunt_flow" (addHuntFlow reprOf server client hunt flow.id)
    let details ← backendCall "get_hunt_status" (askRows (server.hunts hunt))
    match stateIn details with
    | none => raise (.backend "get_hunt_status" "missing_state")
    | some state => pure { huntId := hunt, flowId := flow.id, clientId := client, state := state,
                           flowState := flow.state })

end Attempt

/-! ## The call -/

/-- The server, and the attempts of the call. -/
structure Ledger (ρ : Type) where
  server : ρ
  attempts : List AttemptLog

section Call

variable {ρ α : Type}

def emptyLog (client : ClientId) : AttemptLog :=
  { client := client
    answers := { hunt := none, search := none, collect := none, isReturnNoted := false, details := none
                 isMetadataNoted := false }
    failure := none, cancelFailure := none, tried := [] }

/-- Run an attempt, and keep its course. -/
def asAttempt (client : ClientId) (m : Program (Shared (Attempt ρ)) Raised α) :
    Program (Shared (Ledger ρ)) Raised α := fun s =>
  let r := m { scope := s.scope, outside := { server := s.outside.server, log := emptyLog client } }
  (r.1, { scope := r.2.scope
          outside := { server := r.2.outside.server, attempts := s.outside.attempts ++ [r.2.outside.log] } })

/-- A query of the target. -/
def serve (query : ρ → Except Raised α × ρ) : Program (Shared (Ledger ρ)) Raised α := fun s =>
  (outcomeOf (query s.outside.server).1,
    { s with outside := { s.outside with server := (query s.outside.server).2 } })

def huntTarget (server : HuntServer ρ) : TargetBackend (Ledger ρ) where
  listWindowsClients := serve server.listClients
  clientIdExists client := serve (server.clientExists client)

/-- The arguments of `start_hunt`; `validate` is the check of the parameters against
    the specification of an artifact, where there is one. -/
def huntRequest (validate : Text → Option (List (Text × Json) → Except Raised (List (Text × Json))))
    (artifact : Text) (parameters : Option (List (Text × Json))) (description : Option Text) :
    Except Raised HuntRequest := do
  let artifact ← requireText artifact "artifact"
  match validate artifact with
  | none => throw (.notFound "artifact" artifact)
  | some check => do
      let parameters ← check (parameters.getD [])
      let description ← match description with
        | none => pure (ascii "MCP Hunt: " ++ artifact)
        | some [] => pure (ascii "MCP Hunt: " ++ artifact)
        | some text => requireText text "description"
      pure { artifact := artifact, parameters := parameters, description := description }

/-- `start_hunt`. -/
def startHunt (refuse : Scope → Fact → Option Raised) (reprOf : Json → Text) (server : HuntServer ρ)
    (validate : Text → Option (List (Text × Json) → Except Raised (List (Text × Json))))
    (artifact : Text) (parameters : Option (List (Text × Json))) (description : Option Text) :
    Program (World (Ledger ρ)) Raised HuntStarted := do
  let request ← ofExcept (huntRequest validate artifact parameters description)
  runWithClient refuse (huntTarget server) (fun client =>
    asAttempt client (huntOperation refuse reprOf server request client))

end Call

/-! ## What an attempt has in hand -/

section InHand

variable (reprOf : Json → Text)

/-- The hunt that the answers put in hand: its creation answer was read to the end and
    names it, or the search for it does. -/
def huntInHand (a : Answers) : Text :=
  match a.hunt.map Stream.result with
  | some (.ok rows) =>
      if huntIdIn reprOf rows ≠ [] then huntIdIn reprOf rows
      else
        match a.search.map Stream.result with
        | some (.ok found) => foundHuntIn reprOf found
        | _ => []
  | _ => []

/-- The flow that the answers put in hand: its creation answer was read to the end,
    its state too, and the facts of both were accepted. -/
def flowInHand (a : Answers) : Text :=
  match a.collect.map Stream.result, a.details.map Stream.result with
  | some (.ok rows), some (.ok details) =>
      if a.isReturnNoted = true ∧ a.isMetadataNoted = true ∧ (stateIn details).getD [] ≠ [] then
        (flowIdIn rows).getD []
      else []
  | _, _ => []

def inHand (log : AttemptLog) : List Named :=
  named .hunt (huntInHand reprOf log.answers) ++ named (.flow log.client) (flowInHand log.answers)

/-- What the creation answers of the attempt named, as far as they were received. -/
def createdBy (log : AttemptLog) : List Named :=
  named .hunt ((log.answers.hunt.map fun answer => huntIdIn reprOf answer.received).getD []) ++
    named (.flow log.client) ((log.answers.collect.bind fun answer => flowIdIn answer.received).getD [])

/-- An error that the handlers of `start_hunt` catch ended the attempt while this was
    in hand; the stop of a hunt comes after the cancellation of the flow. -/
def Attended (log : AttemptLog) (x : Named) : Prop :=
  x ∈ inHand reprOf log ∧ (∃ e, log.failure = some e ∧ isException e = true) ∧
    (x.isHunt = true → ∀ e, log.cancelFailure = some e → isException e = true)

/-- What was tried is what is to be attended. -/
def Settles (log : AttemptLog) : Prop := ∀ x, x ∈ log.tried ↔ Attended reprOf log x

/-- The course of an attempt with this in hand: what ended it so far, and what it tried. -/
structure Course (client : ClientId) (hunt flow : Text) (failure cancelFailure : Option Raised)
    (tried : List Named) (log : AttemptLog) : Prop where
  client : log.client = client
  hunt : huntInHand reprOf log.answers = hunt
  flow : flowInHand log.answers = flow
  failure : log.failure = failure
  cancelFailure : log.cancelFailure = cancelFailure
  tried : log.tried = tried

end InHand

section Course

variable {reprOf : Json → Text} {client : ClientId} {hunt flow : Text} {failure cancelFailure : Option Raised}
  {tried : List Named} {log : AttemptLog} {e : Raised}

theorem Course.inHand (h : Course reprOf client hunt flow failure cancelFailure tried log) :
    inHand reprOf log = named .hunt hunt ++ named (.flow client) flow := by
  unfold McpCore.inHand
  rw [h.hunt, h.flow, h.client]

/-- An attempt that goes on has nothing to attend to. -/
theorem Course.goes (h : Course reprOf client hunt flow none none [] log) : Settles reprOf log := by
  intro x
  rw [h.tried]
  constructor
  · exact fun hx => absurd hx List.not_mem_nil
  · rintro ⟨-, ⟨e, he, -⟩, -⟩
    exact absurd (h.failure.symm.trans he) nofun

theorem Course.settles (h : Course reprOf client hunt flow (some e) cancelFailure tried log)
    (htried : ∀ x, x ∈ tried ↔ x ∈ named .hunt hunt ++ named (.flow client) flow ∧ isException e = true ∧
      (x.isHunt = true → ∀ g, cancelFailure = some g → isException g = true)) : Settles reprOf log := by
  intro x
  unfold Attended
  rw [h.tried, h.inHand, h.failure, h.cancelFailure, htried x]
  constructor
  · rintro ⟨hmem, he, hcancel⟩
    exact ⟨hmem, ⟨e, rfl, he⟩, hcancel⟩
  · rintro ⟨hmem, ⟨e', he', hexception⟩, hcancel⟩
    obtain rfl := Option.some.inj he'
    exact ⟨hmem, hexception, hcancel⟩

end Course

/-! ## What the parts of an attempt do to its course -/

section Attempt

variable {ρ α : Type} {refuse : Scope → Fact → Option Raised} {reprOf : Json → Text} {server : HuntServer ρ}
  {client : ClientId} {L : AttemptLog}

def logOf (s : Shared (Attempt ρ)) : AttemptLog := s.outside.log

theorem fixes_ofExcept {ν : Type} {f : Shared (Attempt ρ) → ν} (r : Except Raised α) : Fixes f (ofExcept r) := by
  cases r with
  | ok a => exact fixes_pure a
  | error e => exact fixes_raise e

theorem fixes_askRows (query : ρ → Stream × ρ) : Fixes logOf (askRows query) :=
  fixes_bind (fun _ => rfl) (fun _ => fixes_ofExcept _)

theorem fixes_emitFact (fact : Fact) : Fixes (logOf (ρ := ρ)) (emitFact refuse fact) := by
  intro s
  unfold emitFact
  split
  · rfl
  · split
    · rfl
    · split
      · rfl
      · split
        · rfl
        · rfl

theorem fixes_backendCall {ν : Type} {f : Shared (Attempt ρ) → ν} {m : Program (Shared (Attempt ρ)) Raised α}
    (h : Fixes f m) (operation : String) : Fixes f (backendCall operation m) :=
  fixes_handle h (fun _ => fixes_raise _)

theorem triple_note {K : Option Raised → AttemptLog → Prop} (f : AttemptLog → AttemptLog) :
    Triple (logOf (ρ := ρ)) (· = L) (note f) (fun _ log => log = f L) K := by
  rintro s hs
  exact congrArg f hs

/-- A noted query: its answer, and the rows of it or its error. -/
theorem triple_askNoted (query : ρ → Stream × ρ) (seen : Stream → Answers → Answers) :
    Triple logOf (· = L) (askNoted query seen)
      (fun rows log => ∃ answer, answer.result = .ok rows ∧ log = { L with answers := seen answer L.answers })
      (fun _ log => ∃ answer e, answer.result = .error e ∧ log = { L with answers := seen answer L.answers }) := by
  refine triple_bind (Q := fun _ log => log = L) (fun s hs => hs) (fun answer => ?_)
  refine triple_bind (triple_note _) (fun _ => ?_)
  cases hresult : answer.result with
  | ok rows => exact triple_pure (fun log h => ⟨answer, hresult, h⟩)
  | error e => exact triple_raise (fun log h => ⟨answer, e, hresult, h⟩)

theorem triple_emitNoted (fact : Fact) (seen : Answers → Answers) :
    Triple (logOf (ρ := ρ)) (· = L) (emitNoted refuse fact seen)
      (fun _ log => log = { L with answers := seen L.answers }) (fun _ log => log = L) :=
  triple_bind (triple_fixes (fixes_emitFact fact) (fun _ _ h => h)) (fun _ => triple_note _)

/-- What is known of the flow is the same. -/
def SameFlow (a b : Answers) : Prop :=
  a.collect = b.collect ∧ a.details = b.details ∧ a.isMetadataNoted = b.isMetadataNoted

/-- What `create_paused_hunt` returns is in hand; where it raises, no hunt is. -/
theorem triple_createPausedHunt (request : HuntRequest) :
    Triple logOf (· = L) (createPausedHunt reprOf server request)
      (fun id log => ∃ a, log = { L with answers := a } ∧ huntInHand reprOf a = id ∧ SameFlow a L.answers)
      (fun _ log => ∃ a, log = { L with answers := a } ∧ huntInHand reprOf a = [] ∧ SameFlow a L.answers) := by
  have hsame : ∀ {a : Answers}, a.collect = L.answers.collect → a.details = L.answers.details →
      a.isMetadataNoted = L.answers.isMetadataNoted → SameFlow a L.answers := fun h1 h2 h3 => ⟨h1, h2, h3⟩
  refine triple_bind (triple_conseq (triple_askNoted _ _) (fun _ h => h) (fun _ _ h => h) ?_) (fun rows => ?_)
  · rintro _ log ⟨answer, e, hresult, rfl⟩
    exact ⟨_, rfl, by simp [huntInHand, hresult], hsame rfl rfl rfl⟩
  rintro s ⟨answer, hresult, hs⟩
  refine triple_ite (P := fun log => log = { L with answers := { L.answers with hunt := some answer } })
    (fun hid => ?_) (fun hid => ?_) s hs
  · exact triple_pure (fun log h => ⟨_, h, by simp [huntInHand, hresult, hid], hsame rfl rfl rfl⟩)
  · refine triple_bind (triple_conseq (triple_askNoted _ _) (fun _ h => h) (fun _ _ h => h) ?_) (fun found => ?_)
    · rintro _ log ⟨search, e, hsearch, rfl⟩
      exact ⟨_, rfl, by simp [huntInHand, hresult, hid, hsearch], hsame rfl rfl rfl⟩
    · rintro s ⟨search, hsearch, hs⟩
      refine triple_ite (P := fun log => log = { L with answers :=
          { L.answers with hunt := some answer, search := some search } }) (fun hfound => ?_) (fun hfound => ?_) s hs
      · exact triple_pure (fun log h =>
          ⟨_, h, by simp [huntInHand, hresult, hid, hsearch], hsame rfl rfl rfl⟩)
      · exact triple_raise (fun log h =>
          ⟨_, h, by simpa [huntInHand, hresult, hid, hsearch] using hfound, hsame rfl rfl rfl⟩)

/-- What `start_collection` returns is in hand; where it raises, no flow is. -/
theorem triple_startCollection (request : HuntRequest) (hdetails : L.answers.details = none)
    (hcollect : L.answers.collect = none) (hmetadata : L.answers.isMetadataNoted = false) :
    Triple logOf (· = L) (startCollection refuse server client request)
      (fun flow log => ∃ a, log = { L with answers := a } ∧ flowInHand a = flow.id ∧
        a.hunt = L.answers.hunt ∧ a.search = L.answers.search)
      (fun _ log => ∃ a, log = { L with answers := a } ∧ flowInHand a = [] ∧
        a.hunt = L.answers.hunt ∧ a.search = L.answers.search) := by
  refine triple_bind (triple_conseq (triple_fixes (P := fun log => log = L) (K := fun _ log => log = L)
    (fixes_emitFact _) (fun _ _ h => h)) (fun _ h => h) (fun _ _ h => h) ?_) (fun _ => ?_)
  · rintro _ log rfl
    exact ⟨_, rfl, by simp [flowInHand, hcollect], rfl, rfl⟩
  refine triple_bind (triple_conseq (triple_askNoted _ _) (fun _ h => h) (fun _ _ h => h) ?_) (fun rows => ?_)
  · rintro _ log ⟨answer, e, hresult, rfl⟩
    exact ⟨_, rfl, by simp [flowInHand, hresult], rfl, rfl⟩
  rintro s ⟨answer, hresult, hs⟩
  refine triple_bind (triple_conseq (triple_emitNoted _ _) (fun _ h => h) (fun _ _ h => h) ?_) (fun _ => ?_) s hs
  · rintro _ log rfl
    exact ⟨_, rfl, by simp [flowInHand, hdetails], rfl, rfl⟩
  cases hflow : flowIdIn rows with
  | none => exact triple_raise (fun log h => ⟨_, h, by simp [flowInHand, hdetails], rfl, rfl⟩)
  | some id =>
      refine triple_bind (triple_conseq (triple_askNoted _ _) (fun _ h => h) (fun _ _ h => h) ?_) (fun details => ?_)
      · rintro _ log ⟨seen, e, hseen, rfl⟩
        exact ⟨_, rfl, by simp [flowInHand, hseen], rfl, rfl⟩
      rintro s ⟨seen, hseen, hs⟩
      cases hstate : stateIn details with
      | none =>
          exact triple_raise (P := fun log => log = _) (fun log h =>
            ⟨_, h, by simp [flowInHand, hresult, hseen, hstate], rfl, rfl⟩) s hs
      | some state =>
          refine triple_ite (P := fun log => log = _) (fun hempty => ?_) (fun hsome => ?_) s hs
          · exact triple_raise (fun log h =>
              ⟨_, h, by simp [flowInHand, hresult, hseen, hstate, hempty], rfl, rfl⟩)
          · refine triple_bind (triple_conseq (triple_emitNoted _ _) (fun _ h => h) (fun _ _ h => h) ?_)
              (fun _ => triple_pure (fun log h => ⟨_, h, ?_, rfl, rfl⟩))
            · rintro _ log rfl
              exact ⟨_, rfl, by simp [flowInHand, hresult, hseen, hmetadata], rfl, rfl⟩
            · simp [flowInHand, hresult, hseen, hstate, hsome, hflow]

/-! ## The compensation -/

/-- A query ends, in an answer or an error. -/
theorem raises_askRows (query : ρ → Stream × ρ) : Raises (fun _ => True) (askRows query) := by
  refine raises_bind (fun _ => trivial) (fun answer => ?_)
  cases answer.result with
  | ok rows => exact raises_pure rows
  | error e => exact raises_raise trivial

theorem raises_cancelFlow (flow : Text) : Raises (fun _ => True) (cancelFlow server client flow) := by
  refine raises_bind (raises_update _) (fun _ => raises_bind (raises_askRows _) (fun rows => ?_))
  cases rows with
  | nil => exact raises_raise trivial
  | cons row rows =>
      dsimp only
      split
      · exact raises_raise trivial
      · exact raises_raise trivial
      · exact raises_pure ()

theorem triple_raises {ν : Type} {f : Shared (Attempt ρ) → ν} {P : ν → Prop} {Q : α → ν → Prop}
    {K : Option Raised → ν → Prop} {E : Raised → Prop} {m : Program (Shared (Attempt ρ)) Raised α}
    (h : Triple f P m Q K) (hm : Raises E m) : Triple f P m Q (fun e v => e ≠ none ∧ K e v) := by
  intro s hs
  have hrun := h s hs
  have hraises := hm s
  cases hend : (m s).1 with
  | done a => rwa [hend] at hrun
  | raised e =>
      rw [hend] at hrun
      exact ⟨nofun, hrun⟩
  | crashed =>
      rw [hend] at hraises
      exact hraises.elim

section Compensation

variable {hunt flow : Text} {tried : List Named} {e : Raised} {cancelFailure : Option Raised}

/-- A tried identity is noted, and nothing else of the course changes. -/
theorem triple_try {m : Program (Shared (Attempt ρ)) Raised Unit} (x : Named) (hm : Fixes logOf m) :
    Triple logOf (Course reprOf client hunt flow (some e) cancelFailure tried)
      (note (fun log => { log with tried := log.tried ++ [x] }) >>= fun _ => m)
      (fun _ log => Course reprOf client hunt flow (some e) cancelFailure (tried ++ [x]) log)
      (fun _ log => Course reprOf client hunt flow (some e) cancelFailure (tried ++ [x]) log) := by
  refine triple_bind (Q := fun _ log => Course reprOf client hunt flow (some e) cancelFailure (tried ++ [x]) log)
    ?_ (fun _ => triple_fixes hm (fun _ _ h => h))
  rintro s ⟨hclient, hhunt, hflow, hfailure, hcancel, htried⟩
  exact ⟨hclient, hhunt, hflow, hfailure, hcancel, congrArg (· ++ [x]) htried⟩

theorem fixes_cancel (query : ρ → Stream × ρ) : Fixes logOf (do
    let rows ← askRows query
    match rows with
    | [] => raise (.exception "RuntimeError")
    | row :: _ =>
        match row.fields.lookup (ascii "Result") with
        | none => raise (.exception "RuntimeError")
        | some .null => raise (.exception "RuntimeError")
        | some _ => pure () : Program (Shared (Attempt ρ)) Raised Unit) := by
  refine fixes_bind (fixes_askRows query) (fun rows => ?_)
  cases rows with
  | nil => exact fixes_raise _
  | cons row rows =>
      dsimp only
      split
      · exact fixes_raise _
      · exact fixes_raise _
      · exact fixes_pure _

/-- The cancellation of a flow, whose own error is passed over if it is an exception. -/
theorem triple_cancelFlow (id : Text) :
    Triple logOf (Course reprOf client hunt flow (some e) none tried)
      (quietly (cancelFlow server client id) (fun f log => { log with cancelFailure := some f }))
      (fun _ log => ∃ g, (∀ f, g = some f → isException f = true) ∧
        Course reprOf client hunt flow (some e) g (tried ++ [.flow client id]) log)
      (fun _ log => ∃ f, isException f = false ∧
        Course reprOf client hunt flow (some e) (some f) (tried ++ [.flow client id]) log) := by
  unfold quietly
  refine triple_handle
    (H := fun _ log => Course reprOf client hunt flow (some e) none (tried ++ [.flow client id]) log) ?_ (fun f => ?_)
  · have htry : Triple logOf (Course reprOf client hunt flow (some e) none tried) (cancelFlow server client id)
        (fun _ log => Course reprOf client hunt flow (some e) none (tried ++ [.flow client id]) log)
        (fun _ log => Course reprOf client hunt flow (some e) none (tried ++ [.flow client id]) log) :=
      triple_try _ (fixes_cancel _)
    refine triple_conseq (triple_raises htry (raises_cancelFlow id)) (fun _ h => h) ?_ ?_
    · exact fun _ log h => ⟨none, fun _ => nofun, h⟩
    · rintro f log ⟨hsome, h⟩
      cases f with
      | none => exact absurd rfl hsome
      | some f => exact h
  · refine triple_bind
      (Q := fun _ log => Course reprOf client hunt flow (some e) (some f) (tried ++ [.flow client id]) log) ?_
      (fun _ => triple_ite (fun hf => ?_) (fun hf => ?_))
    · rintro s ⟨hclient, hhunt, hflow, hfailure, -, htried⟩
      exact ⟨hclient, hhunt, hflow, hfailure, rfl, htried⟩
    · exact triple_pure (fun log h => ⟨some f, fun g hg => Option.some.inj hg ▸ hf, h⟩)
    · exact triple_raise (fun log h => ⟨f, eq_false_of_ne_true hf, h⟩)

theorem triple_stopHunt (id : Text) :
    Triple logOf (Course reprOf client hunt flow (some e) cancelFailure tried)
      (quietly (stopHunt reprOf server id) (fun _ log => log))
      (fun _ log => Course reprOf client hunt flow (some e) cancelFailure (tried ++ [.hunt id]) log)
      (fun _ log => Course reprOf client hunt flow (some e) cancelFailure (tried ++ [.hunt id]) log) := by
  unfold quietly
  refine triple_handle
    (H := fun _ log => Course reprOf client hunt flow (some e) cancelFailure (tried ++ [.hunt id]) log) ?_ (fun f => ?_)
  · refine triple_conseq (triple_try _ (fixes_bind (fixes_askRows _) (fun _ => fixes_raiseIf _ _)))
      (fun _ h => h) (fun _ _ h => h) ?_
    intro f log h
    cases f with
    | none => exact h
    | some f => exact h
  · refine triple_bind
      (Q := fun _ log => Course reprOf client hunt flow (some e) cancelFailure (tried ++ [.hunt id]) log) ?_ (fun _ => ?_)
    · rintro s ⟨hclient, hhunt, hflow, hfailure, hcancel, htried⟩
      exact ⟨hclient, hhunt, hflow, hfailure, hcancel, htried⟩
    · exact triple_ite (fun _ => triple_pure (fun _ h => h)) (fun _ => triple_raise (fun _ h => h))

/-- The stop of a hunt, after the cancellation of the flow. -/
theorem triple_stop (he : isException e = true) (hcancel : ∀ f, cancelFailure = some f → isException f = true) :
    Triple logOf
      (Course reprOf client hunt flow (some e) cancelFailure (named (.flow client) flow))
      (whenever (hunt ≠ []) (quietly (stopHunt reprOf server hunt) (fun _ log => log)))
      (fun _ log => Settles reprOf log) (fun _ log => Settles reprOf log) := by
  refine triple_ite (fun hhunt => ?_) (fun hhunt => ?_)
  · have hsettles : ∀ log, Course reprOf client hunt flow (some e) cancelFailure
        (named (.flow client) flow ++ [.hunt hunt]) log → Settles reprOf log := by
      refine fun log h => h.settles (fun x => ?_)
      have hnamed : named .hunt hunt = [.hunt hunt] := if_neg hhunt
      rw [hnamed, List.mem_append, List.mem_append]
      exact ⟨fun hx => ⟨hx.symm, he, fun _ => hcancel⟩, fun hx => hx.1.symm⟩
    exact triple_conseq (triple_stopHunt hunt) (fun _ h => h) (fun _ => hsettles) (fun _ => hsettles)
  · refine triple_pure (fun log h => h.settles (fun x => ?_))
    have hnamed : named .hunt hunt = [] := if_pos (Decidable.not_not.mp hhunt)
    rw [hnamed, List.nil_append]
    exact ⟨fun hx => ⟨hx, he, fun _ => hcancel⟩, fun hx => hx.1⟩

/-- **What the compensation tries is what is in hand**; a stop comes after the cancellation. -/
theorem triple_compensate (he : isException e = true) :
    Triple logOf (Course reprOf client hunt flow (some e) none []) (compensate reprOf server client hunt flow)
      (fun _ log => Settles reprOf log) (fun _ log => Settles reprOf log) := by
  unfold compensate
  by_cases hflow : flow = []
  · have hnamed : named (.flow client) flow = [] := if_pos hflow
    have hskip : whenever (flow ≠ []) (quietly (cancelFlow server client flow)
        (fun e log => { log with cancelFailure := some e })) = pure () := if_neg (fun h => h hflow)
    rw [hskip, program_pure_bind, ← hnamed]
    exact triple_stop he (fun _ => nofun)
  · have hnamed : named (.flow client) flow = [.flow client flow] := if_neg hflow
    have htry : whenever (flow ≠ []) (quietly (cancelFlow server client flow)
        (fun e log => { log with cancelFailure := some e })) = quietly (cancelFlow server client flow)
        (fun e log => { log with cancelFailure := some e }) := if_pos hflow
    rw [htry]
    refine triple_bind (triple_conseq (triple_cancelFlow flow) (fun _ h => h) (fun _ _ h => h) ?_) (fun _ => ?_)
    · -- an interrupt in the cancellation leaves the hunt running
      rintro _ log ⟨f, hf, h⟩
      refine h.settles (fun x => ?_)
      rw [hnamed, List.nil_append, List.mem_append]
      constructor
      · intro hx
        obtain rfl := List.mem_singleton.mp hx
        exact ⟨.inr hx, he, nofun⟩
      · rintro ⟨hx | hx, -, hcancel⟩
        · have hhunt : x.isHunt = true := by
            unfold named at hx
            split at hx
            · exact absurd hx List.not_mem_nil
            · rw [List.mem_singleton.mp hx]
              rfl
          exact absurd ((hcancel hhunt f rfl).symm.trans hf) nofun
        · exact hx
    · intro s hs
      obtain ⟨g, hg, h⟩ := hs
      rw [List.nil_append, ← hnamed] at h
      exact triple_stop he hg s h

/-- A part of the attempt: it goes on, or what was in hand is settled. -/
theorem triple_guarded {m : Program (Shared (Attempt ρ)) Raised α} {P : AttemptLog → Prop}
    {Q : α → AttemptLog → Prop}
    (hm : Triple logOf P m Q (fun _ log => Course reprOf client hunt flow none none [] log)) :
    Triple logOf P (guarded reprOf server client hunt flow m) Q (fun _ log => Settles reprOf log) := by
  unfold guarded
  refine triple_handle (H := fun _ log => Course reprOf client hunt flow none none [] log) ?_ (fun e => ?_)
  · refine triple_conseq hm (fun _ h => h) (fun _ _ h => h) ?_
    intro e log h
    cases e with
    | none => exact h.goes
    | some e => exact h
  · refine triple_bind (Q := fun _ log => Course reprOf client hunt flow (some e) none [] log) ?_
      (fun _ => triple_ite (fun he => ?_) (fun he => ?_))
    · rintro s ⟨hclient, hhunt, hflow, -, hcancel, htried⟩
      exact ⟨hclient, hhunt, hflow, rfl, hcancel, htried⟩
    · exact triple_bind (triple_compensate he) (fun _ => triple_raise (fun _ h => h))
    · refine triple_raise (fun log h => h.settles (fun x => ?_))
      exact ⟨fun hx => absurd hx List.not_mem_nil, fun hx => absurd hx.2.1 he⟩

end Compensation

/-- `_backend_call` changes the error, and nothing else. -/
theorem triple_backendCall {m : Program (Shared (Attempt ρ)) Raised α} {P K : AttemptLog → Prop}
    {Q : α → AttemptLog → Prop} (hm : Triple logOf P m Q (fun _ log => K log)) (operation : String) :
    Triple logOf P (backendCall operation m) Q (fun _ log => K log) := by
  refine triple_handle (H := fun _ log => K log) ?_ (fun e => triple_raise (fun _ h => h))
  refine triple_conseq hm (fun _ h => h) (fun _ _ h => h) ?_
  intro e log h
  cases e with
  | none => exact h
  | some e => exact h

/-- **An attempt tries to end what it had in hand** when an exception ended it, and
    nothing else. -/
theorem tried_iff (request : HuntRequest) :
    Triple logOf (· = emptyLog client) (huntOperation refuse reprOf server request client)
      (fun _ log => Settles reprOf log) (fun _ log => Settles reprOf log) := by
  unfold huntOperation
  refine triple_bind (triple_guarded (triple_backendCall (triple_conseq (triple_createPausedHunt request)
    (fun _ h => h) (fun _ _ h => h) ?_) _)) (fun hunt => ?_)
  · rintro _ log ⟨a, rfl, hhunt, hcollect, -⟩
    exact ⟨rfl, hhunt, by simp [flowInHand, hcollect, emptyLog], rfl, rfl, rfl⟩
  rintro s ⟨a, hs, hhunt, hcollect, hdetails, hmetadata⟩
  refine triple_bind (P := fun log => log = { emptyLog client with answers := a })
    (@triple_guarded _ _ _ _ _ hunt [] _ _ _ (triple_backendCall (triple_conseq
      (triple_startCollection request hdetails hcollect hmetadata) (fun _ h => h) (fun _ _ h => h) ?_) _))
    (fun flow => ?_) s hs
  · rintro _ log ⟨a', rfl, hflow, hsame, hsearch⟩
    refine ⟨rfl, ?_, hflow, rfl, rfl, rfl⟩
    unfold huntInHand at hhunt ⊢
    rwa [hsame, hsearch]
  rintro s ⟨a', hs, hflow, hsame, hsearch⟩
  have hcourse : Course reprOf client hunt flow.id none none [] (logOf s) := by
    rw [hs]
    refine ⟨rfl, ?_, hflow, rfl, rfl, rfl⟩
    unfold huntInHand at hhunt ⊢
    rwa [hsame, hsearch]
  have hrest : Fixes (logOf (ρ := ρ)) (do
      backendCall "add_hunt_flow" (addHuntFlow reprOf server client hunt flow.id)
      let details ← backendCall "get_hunt_status" (askRows (server.hunts hunt))
      match stateIn details with
      | none => raise (.backend "get_hunt_status" "missing_state")
      | some state => pure ({ huntId := hunt, flowId := flow.id, clientId := client, state := state,
                              flowState := flow.state } : HuntStarted)) := by
    refine fixes_bind (fixes_backendCall (fixes_bind (fixes_askRows _) (fun _ => fixes_raiseIf _ _)) _)
      (fun _ => fixes_bind (fixes_backendCall (fixes_askRows _) _) (fun details => ?_))
    cases stateIn details with
    | none => exact fixes_raise _
    | some state => exact fixes_pure _
  exact triple_conseq (triple_guarded (triple_fixes hrest (fun _ _ h => h))) (fun _ h => h)
    (fun _ _ h => h.goes) (fun _ _ h => h) s hcourse

end Attempt

/-! ## The whole call -/

section Call

variable {ρ : Type} {refuse : Scope → Fact → Option Raised} {reprOf : Json → Text} {server : HuntServer ρ}

/-- Each attempt of the call is settled. -/
def AllSettled (reprOf : Json → Text) (s : Shared (Ledger ρ)) : Prop :=
  ∀ log ∈ s.outside.attempts, Settles reprOf log

theorem keeps_asAttempt (request : HuntRequest) (client : ClientId) :
    Keeps (AllSettled reprOf) (asAttempt client (huntOperation refuse reprOf server request client)) := by
  intro s hs
  have hrun := @tried_iff ρ refuse reprOf server client request
    { scope := s.scope, outside := { server := s.outside.server, log := emptyLog client } } rfl
  have hlast := endsIn_outcome (A := fun _ log => Settles reprOf log) hrun
  refine List.forall_mem_append.mpr ⟨hs, fun log hlog => ?_⟩
  obtain rfl := List.mem_singleton.mp hlog
  exact hlast

theorem keeps_serve {α : Type} (query : ρ → Except Raised α × ρ) : Keeps (AllSettled reprOf) (serve query) :=
  fun _ hs => hs

theorem keeps_emitFact (fact : Fact) : Keeps (AllSettled (ρ := ρ) reprOf) (emitFact refuse fact) := by
  intro s hs
  unfold emitFact
  split
  · exact hs
  · split
    · exact hs
    · split
      · exact hs
      · split
        · exact hs
        · exact hs

end Call

section Result

variable {ρ : Type} (reprOf : Json → Text)

/-- The end of the call leaves nothing unattended: what creation answers named was
    tried to be ended where the call raises, and what it returns was not. -/
def LeavesNothing (o : Outcome Raised HuntStarted) (s : Shared (Ledger ρ)) : Prop :=
  match o with
  | .done started => ∀ log ∈ s.outside.attempts,
      .hunt started.huntId ∉ log.tried ∧ .flow started.clientId started.flowId ∉ log.tried
  | .raised _ => ∀ log ∈ s.outside.attempts, ∀ x ∈ createdBy reprOf log, ∃ log' ∈ s.outside.attempts, x ∈ log'.tried
  | .crashed => True

/-- The condition on the answers: whatever a creation answer named came into hand, in an
    attempt that an exception ended; what the call returns was in hand in none of these. -/
def CameInHand (o : Outcome Raised HuntStarted) (s : Shared (Ledger ρ)) : Prop :=
  match o with
  | .done started => ∀ log ∈ s.outside.attempts,
      ¬ Attended reprOf log (.hunt started.huntId) ∧ ¬ Attended reprOf log (.flow started.clientId started.flowId)
  | .raised _ => ∀ log ∈ s.outside.attempts, ∀ x ∈ createdBy reprOf log,
      ∃ log' ∈ s.outside.attempts, Attended reprOf log' x
  | .crashed => True

theorem leavesNothing_iff {o : Outcome Raised HuntStarted} {s : Shared (Ledger ρ)} (h : AllSettled reprOf s) :
    LeavesNothing reprOf o s ↔ CameInHand reprOf o s := by
  cases o with
  | done started =>
      refine forall₂_congr (fun log hlog => ?_)
      rw [h log hlog, h log hlog]
  | raised e =>
      refine forall₄_congr (fun _ _ x _ => exists_congr (fun log => and_congr_right (fun hlog => ?_)))
      exact h log hlog x
  | crashed => exact Iff.rfl

end Result

/-- **A failed start leaves nothing unattended exactly** where whatever its creation
    answers named came into hand. -/
theorem start_hunt_attended {ρ : Type} (refuse : Scope → Fact → Option Raised) (reprOf : Json → Text)
    (server : HuntServer ρ)
    (validate : Text → Option (List (Text × Json) → Except Raised (List (Text × Json))))
    (artifact : Text) (parameters : Option (List (Text × Json))) (description : Option Text)
    (w : World (Ledger ρ)) (hstart : w.shared.outside.attempts = []) :
    LeavesNothing reprOf (startHunt refuse reprOf server validate artifact parameters description w).1
        (startHunt refuse reprOf server validate artifact parameters description w).2.shared ↔
      CameInHand reprOf (startHunt refuse reprOf server validate artifact parameters description w).1
        (startHunt refuse reprOf server validate artifact parameters description w).2.shared := by
  have hkeeps : Keeps (Reached (AllSettled reprOf))
      (startHunt refuse reprOf server validate artifact parameters description) := by
    refine keeps_bind ?_ (fun request => keeps_runWithClient keeps_emitFact (keeps_serve _)
      (fun client => keeps_serve _) (fun client => keeps_asAttempt request client))
    cases huntRequest validate artifact parameters description with
    | ok request => exact keeps_pure _
    | error e => exact keeps_raise _
  refine leavesNothing_iff reprOf (hkeeps w ?_)
  intro log hlog
  rw [hstart] at hlog
  exact absurd hlog List.not_mem_nil

/-- A server that creates a hunt and a flow, and does not tell the state of the flow. -/
def forgetfulServer : HuntServer Unit where
  listClients s := (.ok [⟨[(ascii "client_id", .str (ascii "C.1"))]⟩], s)
  clientExists _ s := (.ok true, s)
  hunt _ s := (⟨[.rows [⟨[(ascii "HuntResult", .obj [(ascii "HuntId", .str (ascii "H.1"))])]⟩]], none⟩, s)
  huntsOf _ s := (⟨[], none⟩, s)
  collectClient _ _ _ _ s := (⟨[.rows [⟨[(ascii "flow_id", .str (ascii "F.1"))]⟩]], none⟩, s)
  flows _ _ s := (⟨[], some (.exception "RpcError")⟩, s)
  huntAdd _ _ _ s := (⟨[], none⟩, s)
  hunts _ s := (⟨[], none⟩, s)
  cancelFlow _ _ s := (⟨[.rows [⟨[(ascii "Result", .obj [])]⟩]], none⟩, s)
  huntUpdate id s := (⟨[.rows [⟨[(ascii "Result", .str id)]⟩]], none⟩, s)

/-- The start of a hunt whose flow is created, and whose state cannot be read. -/
def forgottenStart : Outcome Raised HuntStarted × World (Ledger Unit) :=
  startHunt (fun _ _ => none) (fun _ => []) forgetfulServer (fun _ => some fun parameters => .ok parameters)
    (ascii "Generic.Client.Info") none none
    { clientId := none, shared := { scope := none, outside := { server := (), attempts := [] } }, history := [] }

theorem start_hunt_attended_sample :
    LeavesNothing (fun _ => []) forgottenStart.1 forgottenStart.2.shared ↔
      CameInHand (fun _ => []) forgottenStart.1 forgottenStart.2.shared :=
  start_hunt_attended _ _ _ _ _ _ _ _ rfl

/-- Its hunt is stopped; its flow runs on. -/
theorem forgotten_flow : ¬ LeavesNothing (fun _ => []) forgottenStart.1 forgottenStart.2.shared := by
  have hend : forgottenStart.1 = .raised (.exception "RpcError") := rfl
  have htried : forgottenStart.2.shared.outside.attempts.map AttemptLog.tried = [[.hunt (ascii "H.1")]] := rfl
  have hcreated : forgottenStart.2.shared.outside.attempts.map (createdBy fun _ => [])
      = [[.hunt (ascii "H.1"), .flow ⟨ascii "C.1", by decide⟩ (ascii "F.1")]] := rfl
  intro h
  rw [hend] at h
  generalize forgottenStart.2.shared = s at h htried hcreated
  obtain ⟨log, hlogs, hmade⟩ := List.map_eq_singleton_iff.mp hcreated
  have hnamed : Named.flow ⟨ascii "C.1", by decide⟩ (ascii "F.1") ∈ createdBy (fun _ => []) log := by
    rw [hmade]
    simp
  obtain ⟨log', hlog', hx⟩ := h log (by simp [hlogs]) _ hnamed
  have hmem : log'.tried ∈ s.outside.attempts.map AttemptLog.tried := List.mem_map_of_mem hlog'
  rw [htried] at hmem
  rw [List.mem_singleton.mp hmem] at hx
  simp at hx

end McpCore
