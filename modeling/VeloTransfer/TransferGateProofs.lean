import Mathlib
import VeloTransfer.GuestTaskProofs
import VeloTransfer.WireHeaderProofs

/-! # The gate of the transfer wire — who is let through, and when

    Every HTTP request passes the gate before the application sees it.  The gate looks
    up the session that a request names, receives the body part by part, and then hands
    the request on.  Between two parts anything may happen: another request opens a
    session, the SDK deletes one, time passes.

    The session of a call of a transfer tool is looked up once more when the body is
    there, that of a binary request is not.

    * `known_step` — the invariant of the gate: each step keeps it;
    * `served_step` — when a step hands on what it should;
    * `served_iff` — a run hands on nothing for a session that is gone, exactly where
      the session of each binary request is still there when its body is. -/

namespace TransferGate

open CanonicalJson JsonDict TransferWire

/-! ## Sessions -/

section Sessions

variable {Time Owner : Type}

/-- The scope in which the SDK waits for a session that idles. -/
structure IdleScope (Time : Type) where
  cancelCalled : Bool
  deadline : Time

structure Transport (Time : Type) where
  isTerminated : Bool
  idleScope : Option (IdleScope Time)

/-- The session manager of the SDK: whether it runs, its transports, and its clock. -/
structure Manager (Time : Type) where
  running : Bool
  transports : Text → Option (Transport Time)
  currentTime : Time

/-- `SDKSessionBindings`: who opened a session, and which sessions are initialised. -/
structure Bindings (Owner : Type) where
  owners : Text → Option Owner
  initialized : Text → Bool

def Bindings.new : Bindings Owner := { owners := fun _ => none, initialized := fun _ => false }

/-- `self.owners.pop(session, None); self.initialized.discard(session)`. -/
def Bindings.forget (b : Bindings Owner) (session : Text) : Bindings Owner :=
  { owners := Function.update b.owners session none
    initialized := Function.update b.initialized session false }

def Bindings.open (b : Bindings Owner) (session : Text) (owner : Owner) : Bindings Owner :=
  { b with owners := Function.update b.owners session (some owner) }

def Bindings.initialize (b : Bindings Owner) (session : Text) : Bindings Owner :=
  { b with initialized := Function.update b.initialized session true }

variable [LinearOrder Time]

/-- Whether the time of an idle session is up. -/
def IdleScope.over (idle : IdleScope Time) (now : Time) : Bool := idle.cancelCalled || idle.deadline ≤ now

/-- The manager has a session, and has neither ended it nor let it expire. -/
def Manager.serves (m : Manager Time) (session : Text) : Bool :=
  m.running && match m.transports session with
    | none => false
    | some t => !t.isTerminated && !t.idleScope.any (fun idle => idle.over m.currentTime)

/-- `live`; a session that is gone is forgotten, one whose time is up is not. -/
def live (m : Manager Time) (b : Bindings Owner) (session : Text) : Bool × Bindings Owner :=
  if m.running = false then (false, b)
  else
    match m.transports session with
    | none => (false, b.forget session)
    | some t =>
        if t.isTerminated then (false, b.forget session)
        else
          match t.idleScope with
          | some idle => (!idle.over m.currentTime, b)
          | none => (true, b)

/-- `security_error`. -/
structure Refusal where
  status : Nat
  code : String
deriving Repr, DecidableEq

def invalidFrame : Refusal := ⟨400, "invalid_frame"⟩

def sessionNotFound : Refusal := ⟨404, "session_not_found"⟩

def bodyTooLarge : Refusal := ⟨413, "body_too_large"⟩

variable [DecidableEq Owner]

/-- `check`: why a request is refused, if it is. -/
def check (server : Text) (m : Manager Time) (b : Bindings Owner) (headers : Headers) (owner : Owner)
    (instanceRequired : Bool) : Option Refusal × Bindings Owner :=
  match oneHeader headers "mcp-session-id" false with
  | .error _ => (some invalidFrame, b)
  | .ok none => (some ⟨400, "session_required"⟩, b)
  | .ok (some session) =>
      let alive := (live m b session).1
      let b := (live m b session).2
      if alive = false ∨ b.initialized session = false ∨ b.owners session ≠ some owner then
        (some sessionNotFound, b)
      else
        match oneHeader headers "x-mcp-server-instance" instanceRequired with
        | .error _ => (some invalidFrame, b)
        | .ok none => (none, b)
        | .ok (some expected) => (if expected ≠ server then some invalidFrame else none, b)

end Sessions

/-! ## The binary endpoint -/

/-- The chunks of a push, each with its part of the payload. -/
def chunksOf (payload : Bytes) : Nat → List Json → List (Option GuestTask.BatchItem)
  | _, [] => []
  | cursor, item :: items =>
      let count := match get item "count" with
        | some (.int count) => count
        | _ => 0
      let sha := match get item "chunk_sha256" with
        | some (.str sha) => some sha
        | _ => none
      let data := (payload.drop cursor).take count.toNat
      some { count, dataBase64 := some (Base64.encode data), chunkSha256 := sha } ::
        chunksOf payload (cursor + count.toNat) items

def requestComponent : Direction → Component
  | .push => .pushRequest
  | .pull => .pullRequest

/-- What the headers and the frame ask of the service. -/
def chunkCall (py : Interpreter) (headers : Headers) (body : Bytes) : Except Failure GuestTask.BatchCall := do
  let h ← requestHeaders headers
  let (header, payload) ← decode py body (requestComponent h.direction)
  let items := match h.direction, get header "chunks" with
    | .push, some (.arr items) => some (chunksOf payload 0 items)
    | _, _ => none
  pure { transferId := h.transferId, requestDigest := h.requestDigest, offset := h.offset
         chunks := items, countPerChunk := h.countPerChunk.map Int.ofNat
         chunkCount := h.chunkCount.map Int.ofNat }

/-- `endpoint`, up to the call of the service. -/
def endpoint (py : Interpreter) (headers : Headers) (body : Bytes) : Except Refusal GuestTask.BatchCall :=
  match oneHeader headers "content-type" true with
  | .error _ => .error ⟨415, "unsupported_media_type"⟩
  | .ok contentType =>
      if contentType ≠ some (ascii "application/octet-stream") then .error ⟨415, "unsupported_media_type"⟩
      else if body.length > BODY_LIMIT then .error bodyTooLarge
      else
        match chunkCall py headers body with
        | .error _ => .error invalidFrame
        | .ok call => .ok call

/-! ## The gate -/

/-- What is fixed when the application is built. -/
structure Gate where
  py : Interpreter
  server : Text
  mcpPath : Text
  bodyLimit : Nat

def Gate.limit (g : Gate) : Nat := min g.bodyLimit BODY_LIMIT

/-- A request; the gate of the bearer token, which is passed before, has set its owner. -/
structure Scope (Owner : Type) where
  http : Bool
  method : Text
  path : Text
  headers : Headers
  owner : Owner

def Scope.binary {Owner : Type} (scope : Scope Owner) : Bool := scope.path == ascii "/chunkbin"

/-- What `receive` gives. -/
inductive Receive where
  | request (body : Bytes) (moreBody : Bool)
  | disconnect
deriving Repr, DecidableEq

def toolNames : List String :=
  ["transfer_capabilities", "transfer_begin", "transfer_status", "transfer_chunk", "transfer_chunks",
    "transfer_finish", "transfer_abort"]

/-- Whether a message of JSON-RPC calls a tool of the transfer. -/
def callsTransfer (message : Json) : Bool :=
  isText ((get message "method").getD .null) (ascii "tools/call") &&
    match get message "params" with
    | some params => toolNames.any fun name => isText ((get params "name").getD .null) (ascii name)
    | none => false

/-- What the gate does with a request when it arrives. -/
inductive Arrival where
  | passed
  | refused (r : Refusal)
  | reading
deriving Repr, DecidableEq

section Requests

variable {Time Owner : Type} [LinearOrder Time] [DecidableEq Owner]

/-- `__call__`, up to the first part of the body. -/
def arrive (g : Gate) (m : Manager Time) (b : Bindings Owner) (scope : Scope Owner) : Arrival × Bindings Owner :=
  if scope.http = false then (.passed, b)
  else if scope.binary then
    match check g.server m b scope.headers scope.owner true with
    | (some r, b) => (.refused r, b)
    | (none, b) => (.reading, b)
  else if scope.path ≠ g.mcpPath ∨ scope.method ≠ ascii "POST" then (.passed, b)
  else
    match oneHeader scope.headers "mcp-session-id" false with
    | .error _ => (.refused invalidFrame, b)
    | .ok none => (.reading, b)
    | .ok (some session) =>
        let alive := (live m b session).1
        let b := (live m b session).2
        if alive = false ∨ b.owners session ≠ some scope.owner then (.refused sessionNotFound, b)
        else (.reading, b)

/-- What is handed to the application beside the body: whether the transfer is called,
    and the method of the message. -/
structure Target where
  transfer : Bool
  method : Json

/-- `__call__`, from the last part of the body to the application. -/
def dispatch (g : Gate) (m : Manager Time) (b : Bindings Owner) (scope : Scope Owner) (body : Bytes) :
    Except Refusal Target × Bindings Owner :=
  if scope.binary then (.ok { transfer := true, method := .null }, b)
  else
    match strictJson g.py body with
    | .ok (.obj fs) =>
        let target := { transfer := callsTransfer (.obj fs), method := (get (.obj fs) "method").getD .null }
        if target.transfer = false then
          (if body.length > 4194304 then .error bodyTooLarge else .ok target, b)
        else
          match check g.server m b scope.headers scope.owner false with
          | (some r, b) => (.error r, b)
          | (none, b) => (.ok target, b)
    | _ => (.error invalidFrame, b)

end Requests

/-! ## Answers of the application -/

/-- What the application sends. -/
inductive Send where
  | start (status : Nat) (headers : Headers)
  | body (bytes : Bytes) (moreBody : Bool)
  | other
deriving Repr, DecidableEq

/-- What the client is sent: a message of the application, or an error of the gate. -/
inductive Reply where
  | message (m : Send)
  | error (r : Refusal)
deriving Repr, DecidableEq

/-- A request that the application has. -/
structure Serving where
  target : Target
  started : Bool
  count : Nat
  startMessage : Option Send

/-- A handshake that an answer completes: the session is the caller's, or is ready. -/
inductive Handshake where
  | opened (session : Text)
  | ready (session : Text)
deriving Repr, DecidableEq

section Answers

variable {Time Owner : Type} [LinearOrder Time] [DecidableEq Owner]

/-- The session that an answer names; `decode` raises for what is not ASCII. -/
def answeredSession (headers : Headers) : Except Failure (Option Text) :=
  match valuesOf headers "mcp-session-id" with
  | [] => .ok none
  | value :: _ => if value.any (fun b => 128 ≤ b) then .error .valueError else .ok (some (textOf value))

/-- The handshake that the start of an answer completes, if it does one. -/
def handshakeOf (m : Manager Time) (b : Bindings Owner) (scope : Scope Owner) (method : Json) (status : Nat)
    (headers : Headers) : Except Failure (Option Handshake) × Bindings Owner :=
  if isText method (ascii "initialize") ∧ status = 200 then
    match answeredSession headers with
    | .error e => (.error e, b)
    | .ok none => (.ok none, b)
    | .ok (some session) =>
        if session = [] then (.ok none, b)
        else if (live m b session).1 then (.ok (some (.opened session)), (live m b session).2)
        else (.ok none, (live m b session).2)
  else if isText method (ascii "notifications/initialized") ∧ status = 202 then
    match oneHeader scope.headers "mcp-session-id" true with
    | .ok (some session) =>
        if (live m b session).1 ∧ (live m b session).2.owners session = some scope.owner then
          (.ok (some (.ready session)), (live m b session).2)
        else (.ok none, (live m b session).2)
    | _ => (.ok none, b)
  else (.ok none, b)

/-- `counted_send`, behind the handshakes: what is sent on.  The start of the answer to
    a call of the transfer is held back until the first part of the body fits. -/
def countedSend (limit : Nat) (s : Serving) : Send → Serving × List Reply
  | .start status headers =>
      if s.target.transfer then ({ s with startMessage := some (.start status headers) }, [])
      else ({ s with startMessage := some (.start status headers), started := true },
        [.message (.start status headers)])
  | .body bytes more =>
      if s.target.transfer then
        let s := { s with count := s.count + bytes.length }
        if s.count > limit then (s, if s.started then [] else [.error bodyTooLarge])
        else if s.started then (s, [.message (.body bytes more)])
        else ({ s with started := true }, s.startMessage.toList.map .message ++ [.message (.body bytes more)])
      else (s, [.message (.body bytes more)])
  | .other => (s, [.message .other])

end Answers

/-! ## Runs

    The SDK acts between the steps of the gate: it opens, ends and deletes sessions,
    and its clock runs. -/

/-- Where a request is. -/
inductive Phase where
  | reading (body : Bytes)
  | serving (s : Serving)
  | passed
  | refused (r : Refusal)
  | gone

/-- A connection: its request, what has been received of the body and what was sent. -/
structure Connection (Owner : Type) where
  scope : Scope Owner
  received : List Receive
  sent : List Reply
  phase : Phase

/-- A request at the moment at which the application gets it, and what the binary
    endpoint asks of the service with it. -/
structure HandOver (Time Owner : Type) where
  id : Nat
  scope : Scope Owner
  received : List Receive
  body : Bytes
  target : Target
  manager : Manager Time
  bindings : Bindings Owner
  opened : List (Text × Owner)
  ready : List (Text × Owner)
  called : Option GuestTask.BatchCall

/-- The gate in its surroundings.  `handed` is what the application was given; `opened`
    and `ready` are the handshakes that were answered, each with its caller. -/
structure World (Time Owner : Type) where
  manager : Manager Time
  bindings : Bindings Owner
  connections : Nat → Option (Connection Owner)
  handed : List (HandOver Time Owner)
  opened : List (Text × Owner)
  ready : List (Text × Owner)

inductive Action (Time Owner : Type) where
  | sdk (m : Manager Time)
  | arrive (id : Nat) (scope : Scope Owner)
  | receive (id : Nat) (message : Receive)
  | send (id : Nat) (message : Send)

section Runs

variable {Time Owner : Type} [LinearOrder Time] [DecidableEq Owner]

def World.new (m : Manager Time) : World Time Owner :=
  { manager := m, bindings := .new, connections := fun _ => none, handed := [], opened := [], ready := [] }

def World.put (w : World Time Owner) (id : Nat) (c : Connection Owner) : World Time Owner :=
  { w with connections := Function.update w.connections id (some c) }

def Connection.new (scope : Scope Owner) : Arrival → Connection Owner
  | .passed => { scope, received := [], sent := [], phase := .passed }
  | .refused r => { scope, received := [], sent := [.error r], phase := .refused r }
  | .reading => { scope, received := [], sent := [], phase := .reading [] }

def Connection.refuse (c : Connection Owner) (r : Refusal) : Connection Owner :=
  { c with sent := [.error r], phase := .refused r }

/-- The call with which the binary endpoint reaches the service, if it does. -/
def calledOf (g : Gate) (scope : Scope Owner) (body : Bytes) : Option GuestTask.BatchCall :=
  if scope.binary ∧ scope.method = ascii "POST" then (endpoint g.py scope.headers body).toOption else none

/-- The body is complete. -/
def World.complete (g : Gate) (w : World Time Owner) (id : Nat) (c : Connection Owner) (body : Bytes) :
    World Time Owner :=
  match dispatch g w.manager w.bindings c.scope body with
  | (.error r, b) => { w with bindings := b }.put id (c.refuse r)
  | (.ok target, b) =>
      let h := { id, scope := c.scope, received := c.received, body, target, manager := w.manager, bindings := b
                 opened := w.opened, ready := w.ready, called := calledOf g c.scope body }
      { w with bindings := b, handed := h :: w.handed }.put id
        { c with phase := .serving { target, started := false, count := 0, startMessage := none } }

/-- What `receive` gives while the gate waits for the body. -/
def World.take (g : Gate) (w : World Time Owner) (id : Nat) (c : Connection Owner) (body : Bytes)
    (message : Receive) : World Time Owner :=
  let c := { c with received := c.received ++ [message] }
  match message with
  | .disconnect => w.put id { c with phase := .gone }
  | .request part more =>
      if body.length + part.length > g.limit then w.put id (c.refuse bodyTooLarge)
      else if more then w.put id { c with phase := .reading (body ++ part) }
      else w.complete g id c (body ++ part)

/-- The handshake that was answered is recorded. -/
def World.shake (w : World Time Owner) (scope : Scope Owner) : Option Handshake → World Time Owner
  | none => w
  | some (.opened session) =>
      { w with bindings := w.bindings.open session scope.owner, opened := (session, scope.owner) :: w.opened }
  | some (.ready session) =>
      { w with bindings := w.bindings.initialize session, ready := (session, scope.owner) :: w.ready }

/-- The application sends a message through the gate. -/
def World.answer (g : Gate) (w : World Time Owner) (id : Nat) (c : Connection Owner) (s : Serving)
    (message : Send) : World Time Owner :=
  let on := countedSend g.limit s message
  let sent := { c with phase := .serving on.1, sent := c.sent ++ on.2 }
  match message with
  | .start status headers =>
      match handshakeOf w.manager w.bindings c.scope s.target.method status headers with
      | (.ok handshake, b) => ({ w with bindings := b }.shake c.scope handshake).put id sent
      | (.error _, b) =>
          { w with bindings := b }.put id { c with phase := .serving { s with startMessage := on.1.startMessage } }
  | _ => w.put id sent

def step (g : Gate) (w : World Time Owner) : Action Time Owner → World Time Owner
  | .sdk m => { w with manager := m }
  | .arrive id scope =>
      match w.connections id with
      | some _ => w
      | none =>
          let arrival := arrive g w.manager w.bindings scope
          { w with bindings := arrival.2 }.put id (.new scope arrival.1)
  | .receive id message =>
      match w.connections id with
      | some c =>
          match c.phase with
          | .reading body => w.take g id c body message
          | _ => w
      | none => w
  | .send id message =>
      match w.connections id with
      | some c =>
          match c.phase with
          | .serving s => w.answer g id c s message
          | _ => w
      | none => w

def run (g : Gate) (w : World Time Owner) (acts : List (Action Time Owner)) : World Time Owner :=
  acts.foldl (step g) w

/-! ## What has to hold -/

/-- The session that a request names is there, is initialised, and is the caller's. -/
def Alive (m : Manager Time) (b : Bindings Owner) (scope : Scope Owner) : Prop :=
  ∃ session, oneHeader scope.headers "mcp-session-id" false = .ok (some session) ∧ m.serves session = true ∧
    b.initialized session = true ∧ b.owners session = some scope.owner

/-- Both handshakes of the session that a request names were answered, the first one
    to the same caller. -/
def Shaken (opened ready : List (Text × Owner)) (scope : Scope Owner) : Prop :=
  ∃ session, oneHeader scope.headers "mcp-session-id" false = .ok (some session) ∧
    (session, scope.owner) ∈ opened ∧ ∃ caller, (session, caller) ∈ ready

/-- The parts of a body, so far. -/
def Begun (received : List Receive) (body : Bytes) : Prop :=
  ∃ parts : List Bytes, received = parts.map (.request · true) ∧ body = parts.flatten

/-- All of the body was received, and this is it. -/
def Whole (received : List Receive) (body : Bytes) : Prop :=
  ∃ (parts : List Bytes) (last : Bytes), received = parts.map (.request · true) ++ [.request last false] ∧
    body = parts.flatten ++ last

/-- **A request is handed on as it should be.** -/
structure HandOver.Sound (g : Gate) (h : HandOver Time Owner) : Prop where
  alive : Alive h.manager h.bindings h.scope
  shaken : Shaken h.opened h.ready h.scope
  whole : Whole h.received h.body
  small : h.body.length ≤ g.limit

/-- The application was given the request of a connection. -/
def World.Gave (w : World Time Owner) (id : Nat) : Prop := ∃ h ∈ w.handed, h.id = id

/-- The gate lets everything through that is no request to either of its paths. -/
def Outside (g : Gate) (scope : Scope Owner) : Prop :=
  scope.http = false ∨ (scope.binary = false ∧ (scope.path ≠ g.mcpPath ∨ scope.method ≠ ascii "POST"))

/-- A connection is waited for, or was handed on, or was answered with an error, or its
    client has left; only where it was handed on has the application seen it. -/
def Settled (g : Gate) (w : World Time Owner) (id : Nat) (c : Connection Owner) : Prop :=
  match c.phase with
  | .reading body => Begun c.received body ∧ ¬ w.Gave id
  | .serving _ => w.Gave id
  | .passed => Outside g c.scope ∧ ¬ w.Gave id
  | .refused r => Reply.error r ∈ c.sent ∧ 400 ≤ r.status ∧ ¬ w.Gave id
  | .gone => Receive.disconnect ∈ c.received ∧ ¬ w.Gave id

/-- **The gate never serves a session that is dead or foreign.** -/
structure Safe (g : Gate) (w : World Time Owner) : Prop where
  sound : ∀ h ∈ w.handed, h.target.transfer = true → h.Sound g
  settled : ∀ id c, w.connections id = some c → Settled g w id c

/-- Where a step completes the body of a binary request, the session is still there. -/
def InTime (g : Gate) (w : World Time Owner) : Action Time Owner → Prop
  | .receive id (.request part false) => ∀ c body, w.connections id = some c → c.phase = .reading body →
      c.scope.binary = true → body.length + part.length ≤ g.limit → Alive w.manager w.bindings c.scope
  | _ => True

/-- So it is at each step of a run. -/
def Timely (g : Gate) (w : World Time Owner) : List (Action Time Owner) → Prop
  | [] => True
  | act :: acts => InTime g w act ∧ Timely g (step g w act) acts

end Runs

/-! ## Looking a session up -/

section Lookup

variable {Time Owner : Type}

/-- Nothing is bound that was not. -/
structure Bindings.Within (b' b : Bindings Owner) : Prop where
  owners : ∀ session owner, b'.owners session = some owner → b.owners session = some owner
  initialized : ∀ session, b'.initialized session = true → b.initialized session = true

theorem within_refl (b : Bindings Owner) : b.Within b := ⟨fun _ _ h => h, fun _ h => h⟩

theorem forget_within (b : Bindings Owner) (session : Text) : (b.forget session).Within b := by
  constructor
  · intro s owner h
    by_cases hs : s = session
    · subst hs
      simp only [Bindings.forget, Function.update_self] at h
      cases h
    · simpa only [Bindings.forget, Function.update_of_ne hs] using h
  · intro s h
    by_cases hs : s = session
    · subst hs
      simp only [Bindings.forget, Function.update_self] at h
      cases h
    · simpa only [Bindings.forget, Function.update_of_ne hs] using h

variable [LinearOrder Time] {m : Manager Time} {b : Bindings Owner} {session : Text}

theorem live_fst : (live m b session).1 = m.serves session := by
  simp only [live, Manager.serves]
  cases m.running with
  | false => rfl
  | true =>
      cases m.transports session with
      | none => rfl
      | some t =>
          obtain ⟨terminated, idle⟩ := t
          cases terminated <;> cases idle <;> rfl

theorem live_within : (live m b session).2.Within b := by
  simp only [live]
  split
  · exact within_refl b
  · split
    · exact forget_within b session
    · split
      · exact forget_within b session
      · split <;> exact within_refl b

/-- Looking up a session that is there changes nothing. -/
theorem live_served (h : m.serves session = true) : (live m b session).2 = b := by
  rw [Manager.serves, Bool.and_eq_true] at h
  simp only [live, h.1, Bool.true_eq_false, if_false]
  cases ht : m.transports session with
  | none =>
      rw [ht] at h
      exact absurd h.2 nofun
  | some t =>
      obtain ⟨terminated, idle⟩ := t
      rw [ht] at h
      cases terminated with
      | true => exact absurd h.2 nofun
      | false => cases idle <;> rfl

variable [DecidableEq Owner]

theorem check_within (server : Text) (headers : Headers) (owner : Owner) (required : Bool) :
    (check server m b headers owner required).2.Within b := by
  simp only [check]
  split
  · exact within_refl b
  · exact within_refl b
  · split
    · exact live_within
    · split <;> exact live_within

/-- The instance that a request names, where it names one, is this one. -/
def Here (server : Text) (headers : Headers) (required : Bool) : Prop :=
  ∃ expected, oneHeader headers "x-mcp-server-instance" required = .ok expected ∧ ∀ e ∈ expected, e = server

theorem check_alive {server : Text} {scope : Scope Owner} {required : Bool} (h : Alive m b scope) :
    check server m b scope.headers scope.owner required =
      match oneHeader scope.headers "x-mcp-server-instance" required with
      | .error _ => (some invalidFrame, b)
      | .ok none => (none, b)
      | .ok (some expected) => (if expected ≠ server then some invalidFrame else none, b) := by
  obtain ⟨session, hsession, hserves, hinitialized, howner⟩ := h
  rw [check, hsession]
  simp only [live_fst, live_served hserves, hserves, hinitialized, howner, Bool.true_eq_false, ne_eq,
    not_true_eq_false, or_self, if_false]

/-- **What the check lets through**: a session that is there, on this instance. -/
theorem check_iff {server : Text} {scope : Scope Owner} {required : Bool} :
    (check server m b scope.headers scope.owner required).1 = none ↔
      Alive m b scope ∧ Here server scope.headers required := by
  constructor
  · intro h
    have halive : Alive m b scope := by
      simp only [check] at h
      split at h
      · exact absurd h nofun
      · exact absurd h nofun
      next session hsession =>
        rw [live_fst] at h
        split at h
        · exact absurd h nofun
        next hbound =>
          rw [not_or, not_or, not_not, Bool.not_eq_false, Bool.not_eq_false] at hbound
          rw [live_served hbound.1] at hbound
          exact ⟨session, hsession, hbound.1, hbound.2.1, hbound.2.2⟩
    refine ⟨halive, ?_⟩
    rw [check_alive halive] at h
    split at h
    · exact absurd h nofun
    next hnone => exact ⟨none, hnone, nofun⟩
    next expected hsome =>
      refine ⟨some expected, hsome, fun e he => ?_⟩
      obtain rfl := Option.some.inj he
      exact not_not.mp fun hne => absurd (h.symm.trans (if_pos hne)) nofun
  · rintro ⟨halive, expected, hexpected, hhere⟩
    rw [check_alive halive, hexpected]
    cases expected with
    | none => rfl
    | some e => exact if_neg (not_not.mpr (hhere e rfl))

/-- What the check lets through leaves the bindings as they were. -/
theorem check_none {server : Text} {scope : Scope Owner} {required : Bool}
    (h : (check server m b scope.headers scope.owner required).1 = none) :
    Alive m b scope ∧ (check server m b scope.headers scope.owner required).2 = b := by
  have halive := (check_iff.mp h).1
  refine ⟨halive, ?_⟩
  rw [check_alive halive]
  split <;> rfl

end Lookup

/-! ## One request -/

section Steps

variable {Time Owner : Type} [LinearOrder Time] [DecidableEq Owner] {g : Gate} {w w' : World Time Owner}

theorem arrive_within (scope : Scope Owner) : (arrive g w.manager w.bindings scope).2.Within w.bindings := by
  simp only [arrive]
  split
  · exact within_refl _
  · split
    · have hw := check_within (m := w.manager) (b := w.bindings) g.server scope.headers scope.owner true
      split <;> simp_all only
    · split
      · exact within_refl _
      · split
        · exact within_refl _
        · exact within_refl _
        · split <;> exact live_within

theorem arrive_passed {scope : Scope Owner} (h : (arrive g w.manager w.bindings scope).1 = .passed) :
    Outside g scope := by
  simp only [arrive] at h
  split at h
  next hhttp => exact .inl hhttp
  · split at h
    · split at h <;> exact absurd h nofun
    next hbinary =>
      split at h
      next hpath => exact .inr ⟨Bool.eq_false_iff.mpr hbinary, hpath⟩
      · split at h
        · exact absurd h nofun
        · exact absurd h nofun
        · split at h <;> exact absurd h nofun

theorem check_status {server : Text} {m : Manager Time} {b : Bindings Owner} {headers : Headers} {owner : Owner}
    {required : Bool} {r : Refusal} (h : (check server m b headers owner required).1 = some r) :
    400 ≤ r.status := by
  simp only [check] at h
  split at h
  · obtain rfl := Option.some.inj h
    decide
  · obtain rfl := Option.some.inj h
    decide
  · split at h
    · obtain rfl := Option.some.inj h
      decide
    · split at h
      · obtain rfl := Option.some.inj h
        decide
      · exact absurd h nofun
      · split at h
        · obtain rfl := Option.some.inj h
          decide
        · exact absurd h nofun

theorem arrive_refused {scope : Scope Owner} {r : Refusal}
    (h : (arrive g w.manager w.bindings scope).1 = .refused r) : 400 ≤ r.status := by
  simp only [arrive] at h
  split at h
  · exact absurd h nofun
  · split at h
    · split at h
      next r' b hcheck =>
        obtain rfl : r' = r := by injection h
        exact check_status (congrArg Prod.fst hcheck)
      · exact absurd h nofun
    · split at h
      · exact absurd h nofun
      · split at h
        · obtain rfl : invalidFrame = r := by injection h
          decide
        · exact absurd h nofun
        · split at h
          · obtain rfl : sessionNotFound = r := by injection h
            decide
          · exact absurd h nofun

/-- The application gets the request of a binary path, and of the other one what is no
    call of the transfer or has a session that is there. -/
theorem dispatch_ok {m : Manager Time} {b b' : Bindings Owner} {scope : Scope Owner} {body : Bytes}
    {target : Target} (h : dispatch g m b scope body = (.ok target, b')) : b' = b ∧
      (target.transfer = true → scope.binary = true ∨ Alive m b scope) := by
  simp only [dispatch] at h
  split at h
  next hbinary =>
    obtain ⟨-, rfl⟩ := Prod.mk.inj h
    exact ⟨rfl, fun _ => .inl hbinary⟩
  · split at h
    next fs =>
      split at h
      next hother =>
        obtain ⟨htarget, rfl⟩ := Prod.mk.inj h
        refine ⟨rfl, fun htransfer => ?_⟩
        split at htarget
        · exact absurd htarget nofun
        · obtain rfl := Except.ok.inj htarget
          exact absurd (htransfer.symm.trans hother) nofun
      next hcalls =>
        split at h
        · exact absurd (Prod.mk.inj h).1 nofun
        next hcheck =>
          obtain ⟨-, rfl⟩ := Prod.mk.inj h
          have hnone := check_none (congrArg Prod.fst hcheck)
          rw [hcheck] at hnone
          exact ⟨hnone.2, fun _ => .inr hnone.1⟩
    · exact absurd (Prod.mk.inj h).1 nofun

theorem dispatch_binary {m : Manager Time} {b : Bindings Owner} {scope : Scope Owner} (body : Bytes)
    (h : scope.binary = true) : dispatch g m b scope body = (.ok { transfer := true, method := .null }, b) := by
  rw [dispatch, if_pos h]

theorem dispatch_error {m : Manager Time} {b b' : Bindings Owner} {scope : Scope Owner} {body : Bytes}
    {r : Refusal} (h : dispatch g m b scope body = (.error r, b')) : 400 ≤ r.status ∧ b'.Within b := by
  simp only [dispatch] at h
  split at h
  · exact absurd (Prod.mk.inj h).1 nofun
  · split at h
    next fs =>
      split at h
      next hother =>
        obtain ⟨herror, rfl⟩ := Prod.mk.inj h
        refine ⟨?_, within_refl b⟩
        split at herror
        · obtain rfl := Except.error.inj herror
          decide
        · exact absurd herror nofun
      next hcalls =>
        split at h
        next r' b'' hcheck =>
          obtain ⟨herror, rfl⟩ := Prod.mk.inj h
          obtain rfl := Except.error.inj herror
          refine ⟨check_status (congrArg Prod.fst hcheck), ?_⟩
          have hw := check_within (m := m) (b := b) g.server scope.headers scope.owner false
          rwa [hcheck] at hw
        · exact absurd (Prod.mk.inj h).1 nofun
    · obtain ⟨herror, rfl⟩ := Prod.mk.inj h
      obtain rfl := Except.error.inj herror
      exact ⟨by decide, within_refl b⟩

theorem handshakeOf_within {m : Manager Time} {b : Bindings Owner} (scope : Scope Owner) (method : Json)
    (status : Nat) (headers : Headers) : (handshakeOf m b scope method status headers).2.Within b := by
  simp only [handshakeOf]
  split
  · split
    · exact within_refl b
    · exact within_refl b
    · split
      · exact within_refl b
      · split <;> exact live_within
  · split
    · split
      · split <;> exact live_within
      · exact within_refl b
    · exact within_refl b

end Steps

/-! ## What is known of every state -/

section Invariant

variable {Time Owner : Type} {g : Gate} {w w' : World Time Owner}

/-- What is bound was answered. -/
structure Honest (b : Bindings Owner) (opened ready : List (Text × Owner)) : Prop where
  owners : ∀ session owner, b.owners session = some owner → (session, owner) ∈ opened
  initialized : ∀ session, b.initialized session = true → ∃ caller, (session, caller) ∈ ready

/-- The invariant of the gate. -/
structure Known (g : Gate) (w : World Time Owner) : Prop where
  honest : Honest w.bindings w.opened w.ready
  settled : ∀ id c, w.connections id = some c → Settled g w id c
  placed : ∀ h ∈ w.handed, w.connections h.id ≠ none
  handed : ∀ h ∈ w.handed, Whole h.received h.body ∧ h.body.length ≤ g.limit ∧ Honest h.bindings h.opened h.ready

theorem honest_within {b b' : Bindings Owner} {opened ready : List (Text × Owner)} (h : Honest b opened ready)
    (hw : b'.Within b) : Honest b' opened ready :=
  ⟨fun session owner ho => h.owners session owner (hw.owners session owner ho),
    fun session hi => h.initialized session (hw.initialized session hi)⟩

theorem honest_open {b : Bindings Owner} {opened ready : List (Text × Owner)} (h : Honest b opened ready)
    (session : Text) (owner : Owner) : Honest (b.open session owner) ((session, owner) :: opened) ready := by
  refine ⟨fun s o ho => ?_, h.initialized⟩
  by_cases hs : s = session
  · subst hs
    simp only [Bindings.open, Function.update_self] at ho
    obtain rfl := Option.some.inj ho
    exact List.mem_cons_self
  · simp only [Bindings.open, Function.update_of_ne hs] at ho
    exact List.mem_cons_of_mem _ (h.owners s o ho)

theorem honest_initialize {b : Bindings Owner} {opened ready : List (Text × Owner)} (h : Honest b opened ready)
    (session : Text) (caller : Owner) :
    Honest ( b.initialize session) opened ((session, caller) :: ready) := by
  refine ⟨h.owners, fun s hi => ?_⟩
  by_cases hs : s = session
  · subst hs
    exact ⟨caller, List.mem_cons_self⟩
  · simp only [ Bindings.initialize, Function.update_of_ne hs] at hi
    obtain ⟨c, hc⟩ := h.initialized s hi
    exact ⟨c, List.mem_cons_of_mem _ hc⟩

/-- A session that is there was opened by its owner and is ready. -/
theorem shaken_of_alive [LinearOrder Time] {m : Manager Time} {b : Bindings Owner} {opened ready : List (Text × Owner)}
    {scope : Scope Owner} (h : Honest b opened ready) (ha : Alive m b scope) : Shaken opened ready scope := by
  obtain ⟨session, hnamed, -, hinit, howner⟩ := ha
  exact ⟨session, hnamed, h.owners _ _ howner, h.initialized _ hinit⟩

theorem settled_congr {id : Nat} {c : Connection Owner} (h : w.Gave id ↔ w'.Gave id) :
    Settled g w id c ↔ Settled g w' id c := by
  simp only [Settled]
  split <;> rw [h]

/-- One connection changes, and what was handed on stays, for the others. -/
theorem settled_put {id : Nat} {c : Connection Owner} (hs : ∀ i d, w.connections i = some d → Settled g w i d)
    (hconn : w'.connections = Function.update w.connections id (some c))
    (hgave : ∀ i, i ≠ id → (w.Gave i ↔ w'.Gave i)) (hc : Settled g w' id c) :
    ∀ i d, w'.connections i = some d → Settled g w' i d := by
  intro i d hd
  rw [hconn] at hd
  by_cases hi : i = id
  · subst hi
    rw [Function.update_self] at hd
    obtain rfl := Option.some.inj hd
    exact hc
  · rw [Function.update_of_ne hi] at hd
    exact (settled_congr (hgave i hi)).mp (hs i d hd)

theorem put_placed {id i : Nat} {c : Connection Owner} (h : w.connections i ≠ none) :
    (w.put id c).connections i ≠ none := by
  simp only [World.put]
  by_cases hi : i = id
  · subst hi
    rw [Function.update_self]
    exact nofun
  · rwa [Function.update_of_ne hi]

/-- A step that hands nothing on and binds what was answered, and changes one connection. -/
theorem known_bind {id : Nat} {c : Connection Owner} {b : Bindings Owner} {opened ready : List (Text × Owner)}
    (hk : Known g w) (hb : Honest b opened ready) (hc : Settled g w id c) :
    Known g ({ w with bindings := b, opened := opened, ready := ready }.put id c) where
  honest := hb
  settled := settled_put hk.settled rfl (fun _ _ => Iff.rfl) hc
  placed := fun h hh => put_placed (hk.placed h hh)
  handed := hk.handed

/-- A step that hands nothing on and binds nothing, and changes one connection. -/
theorem known_put {id : Nat} {c : Connection Owner} {b : Bindings Owner} (hk : Known g w)
    (hw : b.Within w.bindings) (hc : Settled g w id c) : Known g ({ w with bindings := b }.put id c) :=
  known_bind hk (honest_within hk.honest hw) hc

theorem whole_of_begun {received : List Receive} {body part : Bytes} (h : Begun received body) :
    Whole (received ++ [.request part false]) (body ++ part) := by
  obtain ⟨parts, rfl, rfl⟩ := h
  exact ⟨parts, part, rfl, rfl⟩

theorem begun_more {received : List Receive} {body part : Bytes} (h : Begun received body) :
    Begun (received ++ [.request part true]) (body ++ part) := by
  obtain ⟨parts, rfl, rfl⟩ := h
  exact ⟨parts ++ [part], by simp, by simp⟩

theorem known_new (m : Manager Time) : Known g (World.new m : World Time Owner) where
  honest := ⟨fun _ _ h => absurd h nofun, fun _ h => absurd h nofun⟩
  settled := fun _ _ h => absurd h nofun
  placed := fun _ h => absurd h nofun
  handed := fun _ h => absurd h nofun

/-- All calls of the transfer that were handed on were handed on as they should be. -/
def Served [LinearOrder Time] (g : Gate) (w : World Time Owner) : Prop := ∀ h ∈ w.handed, h.target.transfer = true → h.Sound g

theorem served_congr [LinearOrder Time] {w' : World Time Owner} (h : w'.handed = w.handed) : Served g w' ↔ Served g w := by
  rw [Served, Served, h]

/-- A step that is no part of a body that the gate waits for is in time. -/
theorem inTime_of [LinearOrder Time] {id : Nat} (h : ∀ c body, w.connections id = some c → c.phase ≠ .reading body)
    (message : Receive) : InTime g w (.receive id message) := by
  cases message with
  | disconnect => trivial
  | request part more =>
      cases more with
      | true => trivial
      | false => exact fun c body hc hp => absurd hp (h c body hc)

theorem safe_iff_served [LinearOrder Time] (hk : Known g w) : Safe g w ↔ Served g w :=
  ⟨fun h => h.sound, fun h => ⟨h, hk.settled⟩⟩

end Invariant

/-! ## The steps -/

section Steps

variable {Time Owner : Type} [LinearOrder Time] [DecidableEq Owner] {g : Gate} {w : World Time Owner}

/-- The body is complete: the invariant holds on, and what is handed on is sound unless
    it is a binary request whose session is gone. -/
theorem known_complete {id : Nat} {c : Connection Owner} {body : Bytes} (hk : Known g w) (hnew : ¬ w.Gave id)
    (hwhole : Whole c.received body) (hsmall : body.length ≤ g.limit) : Known g (w.complete g id c body) := by
  rw [World.complete]
  split
  next r b hd =>
    obtain ⟨hstatus, hwithin⟩ := dispatch_error hd
    exact known_put hk hwithin ⟨List.mem_singleton_self _, hstatus, hnew⟩
  next target b hd =>
    obtain ⟨rfl, -⟩ := dispatch_ok hd
    constructor
    · exact hk.honest
    · refine settled_put hk.settled rfl (fun i hi => ?_) ⟨_, List.mem_cons_self, rfl⟩
      constructor
      · rintro ⟨h, hh, hid⟩
        exact ⟨h, List.mem_cons_of_mem _ hh, hid⟩
      · rintro ⟨h, hh, hid⟩
        rcases List.mem_cons.mp hh with rfl | hh
        · exact absurd hid.symm hi
        · exact ⟨h, hh, hid⟩
    · intro h hh
      rcases List.mem_cons.mp hh with rfl | hh
      · simp [World.put]
      · exact put_placed (hk.placed h hh)
    · intro h hh
      rcases List.mem_cons.mp hh with rfl | hh
      · exact ⟨hwhole, hsmall, hk.honest⟩
      · exact hk.handed h hh

theorem known_take {id : Nat} {c : Connection Owner} {body : Bytes} (hk : Known g w)
    (hc : w.connections id = some c) (hp : c.phase = .reading body) (message : Receive) :
    Known g (w.take g id c body message) := by
  have hs := hk.settled id c hc
  rw [Settled, hp] at hs
  obtain ⟨hbegun, hnew⟩ := hs
  cases message with
  | disconnect =>
      exact known_put hk (within_refl _) ⟨List.mem_append_right _ (List.mem_singleton_self _), hnew⟩
  | request part more =>
      simp only [World.take]
      split
      · exact known_put hk (within_refl _) ⟨List.mem_singleton_self _, by decide, hnew⟩
      next hfits =>
        cases more with
        | true =>
            exact known_put hk (within_refl _) ⟨begun_more hbegun, hnew⟩
        | false =>
            refine known_complete hk hnew (whole_of_begun hbegun) ?_
            rw [List.length_append]
            exact Nat.not_lt.mp hfits

theorem known_answer {id : Nat} {c : Connection Owner} {s : Serving} (hk : Known g w)
    (hc : w.connections id = some c) (hp : c.phase = .serving s) (message : Send) :
    Known g (w.answer g id c s message) := by
  have hgave := hk.settled id c hc
  rw [Settled, hp] at hgave
  cases message with
  | start status headers =>
      simp only [World.answer]
      split
      next handshake b hh =>
        have hwithin : b.Within w.bindings := by
          have hw := handshakeOf_within (m := w.manager) (b := w.bindings) c.scope s.target.method status headers
          rwa [hh] at hw
        have hb := honest_within hk.honest hwithin
        cases handshake with
        | none => exact known_put hk hwithin hgave
        | some handshake =>
            cases handshake with
            | opened session => exact known_bind (w := w) hk (honest_open hb session c.scope.owner) hgave
            | ready session => exact known_bind (w := w) hk ( honest_initialize hb session c.scope.owner) hgave
      next e b hh =>
        have hw := handshakeOf_within (m := w.manager) (b := w.bindings) c.scope s.target.method status headers
        rw [hh] at hw
        exact known_put hk hw hgave
  | body bytes more => exact known_put hk (within_refl _) hgave
  | other => exact known_put hk (within_refl _) hgave

theorem known_arrive {id : Nat} (hk : Known g w) (hnone : w.connections id = none) (scope : Scope Owner) :
    Known g (step g w (.arrive id scope)) := by
  have hnew : ¬ w.Gave id := by
    rintro ⟨h, hh, rfl⟩
    exact hk.placed h hh hnone
  simp only [step, hnone]
  refine known_put hk (arrive_within scope) ?_
  cases ha : (arrive g w.manager w.bindings scope).1 with
  | passed => exact ⟨arrive_passed ha, hnew⟩
  | refused r => exact ⟨List.mem_singleton_self _, arrive_refused ha, hnew⟩
  | reading => exact ⟨⟨[], rfl, rfl⟩, hnew⟩

/-- Each step keeps the invariant. -/
theorem known_step (hk : Known g w) (act : Action Time Owner) : Known g (step g w act) := by
  cases act with
  | sdk m => exact ⟨hk.honest, hk.settled, hk.placed, hk.handed⟩
  | arrive id scope =>
      cases hc : w.connections id with
      | none => exact known_arrive hk hc scope
      | some c =>
          simp only [step, hc]
          exact hk
  | receive id message =>
      simp only [step]
      split
      next c hc =>
        split
        next body hp => exact known_take hk hc hp message
        · exact hk
      · exact hk
  | send id message =>
      simp only [step]
      split
      next c hc =>
        split
        next s hp => exact known_answer hk hc hp message
        · exact hk
      · exact hk

/-! ## What is handed on -/

theorem answer_handed (id : Nat) (c : Connection Owner) (s : Serving) (message : Send) :
    (w.answer g id c s message).handed = w.handed := by
  cases message with
  | start status headers =>
      simp only [World.answer]
      split
      next handshake b hh =>
        cases handshake with
        | none => rfl
        | some handshake => cases handshake <;> rfl
      · rfl
  | body bytes more => rfl
  | other => rfl

/-- What is handed on when a body is complete is sound, unless it is a binary request
    whose session is gone. -/
theorem served_complete {id : Nat} {c : Connection Owner} {body : Bytes} (hk : Known g w)
    (hwhole : Whole c.received body) (hsmall : body.length ≤ g.limit) :
    Served g (w.complete g id c body) ↔
      Served g w ∧ (c.scope.binary = true → Alive w.manager w.bindings c.scope) := by
  rw [World.complete]
  split
  next r b hd =>
    constructor
    · intro h
      refine ⟨h, fun hbinary => ?_⟩
      rw [dispatch_binary body hbinary] at hd
      exact absurd (Prod.mk.inj hd).1 nofun
    · exact fun h => h.1
  next target b hd =>
    obtain ⟨rfl, htransfer⟩ := dispatch_ok hd
    constructor
    · intro h
      refine ⟨fun h' hh' => h h' (List.mem_cons_of_mem _ hh'), fun hbinary => ?_⟩
      refine (h _ List.mem_cons_self ?_).alive
      rw [dispatch_binary body hbinary] at hd
      rw [← Except.ok.inj (Prod.mk.inj hd).1]
    · rintro ⟨hserved, hbinary⟩ h hh hcalls
      rcases List.mem_cons.mp hh with rfl | hh
      · have halive : Alive w.manager w.bindings c.scope := (htransfer hcalls).elim hbinary (fun ha => ha)
        exact ⟨halive, shaken_of_alive hk.honest halive, hwhole, hsmall⟩
      · exact hserved h hh hcalls

theorem served_take {id : Nat} {c : Connection Owner} {body : Bytes} (hk : Known g w)
    (hc : w.connections id = some c) (hp : c.phase = .reading body) (message : Receive) :
    Served g (w.take g id c body message) ↔ Served g w ∧ InTime g w (.receive id message) := by
  have hs := hk.settled id c hc
  rw [Settled, hp] at hs
  cases message with
  | disconnect => exact ⟨fun h => ⟨h, trivial⟩, fun h => h.1⟩
  | request part more =>
      simp only [World.take]
      split
      next hlong =>
        refine ⟨fun h => ⟨h, ?_⟩, fun h => h.1⟩
        cases more with
        | true => trivial
        | false =>
            intro d body' hd hp' _ hfits
            obtain rfl := Option.some.inj (hc.symm.trans hd)
            obtain rfl : body = body' := by
              injection hp.symm.trans hp'
            exact absurd hlong (Nat.not_lt.mpr hfits)
      next hfits =>
        cases more with
        | true => exact ⟨fun h => ⟨h, trivial⟩, fun h => h.1⟩
        | false =>
            refine (served_complete hk (whole_of_begun hs.1) ?_).trans (and_congr_right fun _ => ?_)
            · rw [List.length_append]
              exact Nat.not_lt.mp hfits
            · constructor
              · intro h d body' hd hp' hbinary _
                obtain rfl := Option.some.inj (hc.symm.trans hd)
                exact h hbinary
              · exact fun h hbinary => h c body hc hp hbinary (Nat.not_lt.mp hfits)

/-- **Each step** hands on what it should, exactly where it is in time. -/
theorem served_step (hk : Known g w) (act : Action Time Owner) :
    Served g (step g w act) ↔ Served g w ∧ InTime g w act := by
  cases act with
  | sdk m => exact ⟨fun h => ⟨h, trivial⟩, fun h => h.1⟩
  | arrive id scope =>
      refine Iff.trans (served_congr ?_) ⟨fun h => ⟨h, trivial⟩, fun h => h.1⟩
      simp only [step]
      split <;> rfl
  | send id message =>
      refine Iff.trans (served_congr ?_) ⟨fun h => ⟨h, trivial⟩, fun h => h.1⟩
      simp only [step]
      split
      · split
        · exact answer_handed ..
        · rfl
      · rfl
  | receive id message =>
      simp only [step]
      split
      next c hc =>
        split
        next body hp => exact served_take hk hc hp message
        next hother =>
          refine ⟨fun h => ⟨h, ?_⟩, fun h => h.1⟩
          exact inTime_of (fun d body hd hbody => absurd hbody (by
            obtain rfl := Option.some.inj (hc.symm.trans hd)
            exact hother body)) message
      next hnone =>
        refine ⟨fun h => ⟨h, ?_⟩, fun h => h.1⟩
        exact inTime_of (fun d body hd _ => absurd (hnone.symm.trans hd) nofun) message

/-! ## Runs -/

theorem known_run (hk : Known g w) (acts : List (Action Time Owner)) : Known g (run g w acts) := by
  induction acts generalizing w with
  | nil => exact hk
  | cons act acts ih => exact ih (known_step hk act)

theorem served_run (hk : Known g w) (acts : List (Action Time Owner)) :
    Served g (run g w acts) ↔ Served g w ∧ Timely g w acts := by
  induction acts generalizing w with
  | nil => exact ⟨fun h => ⟨h, trivial⟩, fun h => h.1⟩
  | cons act acts ih =>
      calc Served g (run g w (act :: acts))
        _ ↔ Served g (step g w act) ∧ Timely g (step g w act) acts := ih (known_step hk act)
        _ ↔ (Served g w ∧ InTime g w act) ∧ Timely g (step g w act) acts := and_congr_left' (served_step hk act)
        _ ↔ Served g w ∧ Timely g w (act :: acts) := and_assoc

/-- **In every run** the gate hands nothing on for a session that is dead or foreign, and
    answers with an error what it does not hand on, exactly where the session of each
    binary request is still there when the last part of its body is received. -/
theorem served_iff (g : Gate) (m : Manager Time) (acts : List (Action Time Owner)) :
    Safe g (run g (World.new m : World Time Owner) acts) ↔ Timely g (World.new m : World Time Owner) acts := by
  rw [safe_iff_served (known_run (known_new m) acts), served_run (known_new m)]
  exact and_iff_right (fun h hh => absurd hh nofun)

end Steps

/-! ## A session that is deleted while a binary request is received -/

def sampleGate : Gate :=
  { py := { digits := 4300, nesting := 1000, roomy := by decide }
    server := ascii "instance", mcpPath := ascii "/mcp", bodyLimit := BODY_LIMIT }

def asciiBytes (s : String) : Bytes := (ascii s).map UInt8.ofNat

def emptyManager : Manager Nat := { running := true, transports := fun _ => none, currentTime := 0 }

/-- The SDK with the one session `s1`. -/
def oneSession : Manager Nat :=
  { emptyManager with
    transports := fun session =>
      if session = ascii "s1" then some { isTerminated := false, idleScope := none } else none }

def postScope (path : String) (headers : List (String × String)) : Scope Nat :=
  { http := true, method := ascii "POST", path := ascii path
    headers := headers.map fun h => (asciiBytes h.1, asciiBytes h.2), owner := 7 }

/-- A request to pull one chunk. -/
def pullScope : Scope Nat :=
  postScope "/chunkbin"
    [("Mcp-Session-Id", "s1"), ("X-MCP-Server-Instance", "instance"),
      ("Content-Type", "application/octet-stream"), ("x-velo-direction", "pull"),
      ("x-velo-transfer-id", "trial"),
      ("x-velo-request-digest", "aaaaaaaaaaaaaaaaaaaaaaaaaaaaaaaaaaaaaaaaaaaaaaaaaaaaaaaaaaaaaaaa"),
      ("x-velo-offset", "0"), ("x-velo-count-per-chunk", "16"), ("x-velo-chunk-count", "1")]

/-- The session is opened and initialised, then a binary request arrives, and between
    the two parts of its body the session is deleted. -/
def deletedBetween : List (Action Nat Nat) :=
  [.arrive 0 (postScope "/mcp" []),
    .receive 0 (.request (asciiBytes "\x7b\"method\":\"initialize\"\x7d") false),
    .sdk oneSession,
    .send 0 (.start 200 [(asciiBytes "mcp-session-id", asciiBytes "s1")]),
    .arrive 1 (postScope "/mcp" [("mcp-session-id", "s1")]),
    .receive 1 (.request (asciiBytes "\x7b\"method\":\"notifications/initialized\"\x7d") false),
    .send 1 (.start 202 []),
    .arrive 2 pullScope,
    .receive 2 (.request (MAGIC ++ [2, 0, 0, 0]) true),
    .sdk emptyManager,
    .receive 2 (.request (asciiBytes "\x7b\x7d") false)]

/-- The request reaches the service, and its session is gone. -/
def servesNobody (h : HandOver Nat Nat) : Bool :=
  h.target.transfer && h.called.isSome && !h.manager.serves (ascii "s1") &&
    match oneHeader h.scope.headers "mcp-session-id" false with
    | .ok (some session) => session == ascii "s1"
    | _ => false

theorem deletedBetween_handed :
    (run sampleGate (World.new emptyManager) deletedBetween).handed.any servesNobody = true := by
  decide +kernel

/-- **A binary request is served for a session that was deleted.** -/
theorem deletedBetween_unsafe : ¬ Safe sampleGate (run sampleGate (World.new emptyManager) deletedBetween) := by
  intro h
  obtain ⟨handed, hmem, hdead⟩ := List.any_eq_true.mp deletedBetween_handed
  simp only [servesNobody, Bool.and_eq_true, Bool.not_eq_true'] at hdead
  obtain ⟨⟨⟨htransfer, -⟩, hgone⟩, hnamed⟩ := hdead
  obtain ⟨session, hsession, hserves, -⟩ := (h.sound handed hmem htransfer).alive
  rw [hsession] at hnamed
  rw [eq_of_beq hnamed, hgone] at hserves
  cases hserves

end TransferGate
