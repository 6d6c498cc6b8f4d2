import VeloTransfer.ControlCommandProofs

/-! # The control channel — a call over lost and late commands

    Every command of a call may be refused, its answer may be lost, or it is run later,
    after other commands or after the call; pieces of the request are sent again.

    * `classify` — what the host makes of a failed exchange;
    * `call` — one operation, from the request file to its removal. -/

namespace ControlChannel

open CanonicalJson JsonDict EffectPrograms EffectPrograms.Program
open Sha256 (hexdigest)

/-! ## Operations and errors -/

inductive Operation where
  | capabilities
  | begin
  | status
  | chunk
  | chunks
  | finish
  | abort
deriving DecidableEq, Repr

def Operation.name : Operation → Text
  | .capabilities => ascii "transfer_capabilities"
  | .begin => ascii "transfer_begin"
  | .status => ascii "transfer_status"
  | .chunk => ascii "transfer_chunk"
  | .chunks => ascii "transfer_chunks"
  | .finish => ascii "transfer_finish"
  | .abort => ascii "transfer_abort"

/-- `operation in READ_ONLY` -/
def Operation.isReadOnly : Operation → Bool
  | .capabilities => true
  | .status => true
  | _ => false

structure AdapterError where
  code : Text
  mayHaveCommitted : Bool
  retryable : Bool
  guestResult : Option (List (Text × Json))
  cleanupPath : Option Text
  operation : Option Operation
  transferId : Option Json
  requestDigest : Option Json

/-- `AdapterError(code, may_have_committed=…, retryable=…)` -/
def adapterError (code : String) (mayHaveCommitted retryable : Bool) : AdapterError where
  code := ascii code
  mayHaveCommitted := mayHaveCommitted
  retryable := retryable
  guestResult := none
  cleanupPath := none
  operation := none
  transferId := none
  requestDigest := none

/-- What a call raises: an error of the adapter, or whatever else. -/
inductive Raised where
  | adapter (e : AdapterError)
  | other (name : String)

def failure (code : String) (mayHaveCommitted : Bool) : Raised :=
  .adapter (adapterError code mayHaveCommitted false)

/-- An exchange that failed, as the libraries below tell it. -/
inductive Failure where
  | group (children : List Failure)
  | bodyLimit (code : String)
  | connect (isTls isUnreachable : Bool)
  | timeout
  | status (code : Nat)
  | cancelled
  | other

mutual

/-- `_classify`; a cancellation is no `Exception`. -/
def classify (unknown : Bool) : Failure → Option AdapterError
  | .group children =>
      let classified := classifyAll unknown children
      match classified with
      | [] => some (adapterError "protocol_error" unknown false)
      | first :: _ =>
          if classified.all (fun e => e.code == ascii "connection_unavailable") then some first
          else some ((classified.find? fun e =>
            e.code != ascii "connection_unavailable" && e.code != ascii "protocol_error").getD
              (adapterError "protocol_error" unknown false))
  | .bodyLimit code => some (adapterError code unknown false)
  | .connect isTls isUnreachable =>
      if isTls then some (adapterError "tls_auth_failed" unknown false)
      else if isUnreachable then
        some (adapterError (if unknown then "outcome_unknown" else "connection_unavailable") unknown (!unknown))
      else some (adapterError "connection_failed" unknown false)
  | .timeout => some (adapterError (if unknown then "outcome_unknown" else "transport_timeout") unknown (!unknown))
  | .status code =>
      if code = 401 ∨ code = 403 then some (adapterError "authentication_denied" false false)
      else if code = 400 ∨ code = 421 then some (adapterError "host_rejected" false false)
      else some (adapterError "protocol_error" unknown false)
  | .cancelled => none
  | .other => some (adapterError "protocol_error" unknown false)

def classifyAll (unknown : Bool) : List Failure → List AdapterError
  | [] => []
  | f :: fs => (classify unknown f).toList ++ classifyAll unknown fs

end

mutual

/-- The server turned the command down: it is not run. -/
def Failure.isDenial : Failure → Bool
  | .group children => anyDenial children
  | .status code => code == 400 || code == 401 || code == 403 || code == 421
  | _ => false

def anyDenial : List Failure → Bool
  | [] => false
  | f :: fs => f.isDenial || anyDenial fs

end

/-! ## The network -/

/-- What comes back in place of the answer: a failed exchange, or a report of the
    server that the command failed. -/
inductive Reply where
  | failure (f : Failure)
  | report (text : Text)

def Reply.isDenial : Reply → Bool
  | .failure f => f.isDenial
  | .report _ => false

/-- What becomes of a command: it is not run, it is run and answered, it is run and the
    answer is lost, or it is run at some later time, or never. -/
inductive Fate where
  | unsent (reply : Reply)
  | answered
  | lost (reply : Reply) (h : reply.isDenial = false)
  | delayed (reply : Reply) (h : reply.isDenial = false)

/-- What happens at the guest between two commands of the host. -/
inductive Happening where
  | arrives (index : Nat) (chance : Chance)
  | swapped (node : Option RequestNode)

/-- An exchange: what happens before it, whether the deadline has passed, what becomes of
    the command, and what a script prints that throws. -/
structure NetEvent where
  happenings : List Happening
  isLate : Bool
  fate : Fate
  chance : Chance
  thrown : Text

def NetEvent.calm : NetEvent :=
  { happenings := [], isLate := false, fate := .answered, chance := { identity := [], fault := none }, thrown := [] }

/-- The guest and the network, and what the adapter and the call keep. -/
structure Site (γ : Type) where
  guest : Guest γ
  inFlight : List Command
  events : List NetEvent
  rawChunkBytes : Nat
  capabilities : List (Text × Json)
  cleanupFailed : Bool
  controlCleanupUnknown : Bool
  pendingControlPath : Option Text
  ownerIdentity : Option Text
  createAttempted : Bool
  invoked : Bool

abbrev Effect (γ α : Type) : Type := Program (Site γ) Raised α

/-- How an adapter is configured; the schema library decides which arguments are valid. -/
structure Config (γ : Type) where
  deployment : Deployment
  isTimeoutValid : Bool
  validates : Operation → List (Text × Json) → Bool
  helper : γ → Bytes → γ × Printed

section Network

variable {γ : Type} (cfg : Config γ)

/-- Something happens at the guest. -/
def Site.happen (s : Site γ) : Happening → Site γ
  | .swapped node => { s with guest := s.guest.swap node }
  | .arrives index chance =>
      match s.inFlight[index]? with
      | none => s
      | some c => { s with guest := (s.guest.run cfg.helper chance c).1, inFlight := s.inFlight.eraseIdx index }

def Site.happenAll (s : Site γ) (happenings : List Happening) : Site γ := happenings.foldl (Site.happen cfg) s

def nextEvent : Effect γ NetEvent := fun s =>
  match s.events with
  | [] => (.done .calm, s)
  | event :: rest => (.done event, Site.happenAll cfg { s with events := rest } event.happenings)

/-- The command is run. -/
def runCommand (chance : Chance) (c : Command) : Effect γ (Option Printed) := fun s =>
  (.done (s.guest.run cfg.helper chance c).2, { s with guest := (s.guest.run cfg.helper chance c).1 })

variable (op : Operation)

/-- `operation not in READ_ONLY` -/
def mayCommit : Bool := !op.isReadOnly

def replied (reply : Reply) : Effect γ ToolResult :=
  match reply with
  | .report text => pure (resultOf text none)
  | .failure f =>
      match classify (mayCommit op) f with
      | some e => raise (.adapter e)
      | none => raise (.other "CancelledError")

/-- `call_tool`, of a command. -/
def callTool (c : Command) : Effect γ ToolResult := do
  let event ← nextEvent cfg
  if event.isLate then raise (failure "deadline_exceeded" false)
  else if cfg.isTimeoutValid = false then raise (failure "invalid_timeout" false)
  else
    match event.fate with
    | .unsent reply => replied op reply
    | .answered => do
        let printed ← runCommand cfg event.chance c
        pure (resultOf event.thrown printed)
    | .lost reply _ => do
        let _ ← runCommand cfg event.chance c
        replied op reply
    | .delayed reply _ => do
        update fun s => { s with inFlight := s.inFlight ++ [c] }
        replied op reply

/-- A `ValueError` of a builder. -/
def command (script : Except String Text) : Effect γ Text :=
  match script with
  | .ok text => pure text
  | .error _ => raise (failure "command_too_long" false)

/-- A `ValueError` of a parser. -/
def understood {α : Type} (answer : Except String α) : Effect γ α :=
  match answer with
  | .ok a => pure a
  | .error _ => raise (failure "powershell_response" (mayCommit op))

/-- `_powershell`, with the exit code of the helper. -/
def powershellStatus (script : Text) (c : Command) : Effect γ (Text × Int) := do
  let _ ← command (bounded script)
  let result ← callTool cfg op c
  understood op (parseOuterStatus result)

/-- `_powershell`. -/
def powershell (script : Text) (c : Command) : Effect γ Text := do
  let _ ← command (bounded script)
  let result ← callTool cfg op c
  understood op (parseOuter result)

end Network

/-! ## The call -/

section Call

variable {γ : Type} (cfg : Config γ) (op : Operation) (path : Text)

def invalidAck : Raised := failure "control_ack_invalid" true

/-- `ACK:created:([0-9a-f]{24})` -/
def createdIdentity (created : Text) : Option Text :=
  match after (ascii "ACK:created:") created with
  | none => none
  | some identity => if isIdentity identity then some identity else none

/-- The longest piece, halved until its command fits. -/
def fitting (identity : Text) (offset : Nat) (rest : Bytes) (count : Nat) : Option (Nat × Text) :=
  if _ : count = 0 then none
  else
    match writeScript path offset (rest.take count) identity with
    | .ok script => some (count, script)
    | .error _ => fitting identity offset rest (count / 2)
termination_by count
decreasing_by omega

/-- A piece is sent once more where its outcome is unknown. -/
def isResent : Raised → Bool
  | .adapter e => e.code == ascii "outcome_unknown" || e.code == ascii "transport_timeout"
  | .other _ => false

def writeOnce (script : Text) (offset : Nat) (piece : Bytes) (identity : Text) : Effect γ Unit := do
  let ack ← powershell cfg op script (.write offset piece identity)
  raiseIf (ack ≠ ackWritten offset piece) invalidAck

def writePiece (script : Text) (offset : Nat) (piece : Bytes) (identity : Text) : Effect γ Unit :=
  handle (writeOnce cfg op script offset piece identity) (fun e =>
    if isResent e then writeOnce cfg op script offset piece identity else raise e)

/-- The loop over the pieces: as many rounds as bytes are enough. -/
def writeAll (raw : Bytes) (identity : Text) : Nat → Nat → Effect γ Unit
  | 0, _ => pure ()
  | rounds + 1, offset =>
      if offset < raw.length then
        match fitting path identity offset (raw.drop offset) (min 4096 (raw.length - offset)) with
        | none => raise (failure "command_too_long" false)
        | some (count, script) => do
            writePiece cfg op script offset ((raw.drop offset).take count) identity
            writeAll raw identity rounds (offset + count)
      else pure ()

def intOf : Json → Option Int
  | .int i => some i
  | _ => none

def fieldsOf : Json → List (Text × Json)
  | .obj fields => fields
  | _ => []

def OBSERVED : List String :=
  ["vm_uuid", "boot_identity", "policy_id", "build", "limits", "protocol_version"]

/-- The observations of the capabilities, and the chunk size that they allow. -/
def observeCapabilities (result : List (Text × Json)) : Effect γ Unit := do
  update fun s => { s with capabilities := OBSERVED.map fun key => (ascii key, field result key) }
  match field result "enabled" with
  | .bool true =>
      match intOf (field (fieldsOf (field result "limits")) "max_chunk_bytes"),
          intOf (field result "default_chunk_bytes") with
      | some maximum, some default =>
          if maximum ≤ 0 ∨ ¬ (0 < default ∧ default ≤ maximum) then raise (failure "protocol_error" false)
          else update fun s => { s with rawChunkBytes := min 4096 (min maximum.toNat default.toNat) }
      | _, _ => raise (failure "protocol_error" false)
  | _ => pure ()

/-- What the answer of the helper says. -/
def helperResult (stdout : Text) (status : Int) : Effect γ (List (Text × Json)) :=
  match parseHelper stdout status with
  | .ok result => pure result
  | .error (.guest code) =>
      raise (.adapter { adapterError "" (mayCommit op) false with code := code })
  | .error .invalid => raise (failure "helper_response" (mayCommit op))

/-- The helper is run on the request. -/
def invokeHelper (identity : Text) : Effect γ (List (Text × Json)) := do
  let script ← command (invokeScript cfg.deployment path identity)
  let answer ← powershellStatus cfg op script (.invoke identity)
  let result ← helperResult op answer.1 answer.2
  raiseIf (isText (field result "schema") "velo.transfer.guest.response.v1" = false)
    (failure "helper_response" (mayCommit op))
  whenever (op = .capabilities) (observeCapabilities result)
  pure result

/-- The request file is made. -/
def createFile : Effect γ Text := do
  let script ← command (createScript path)
  update fun s => { s with createAttempted := true }
  let created ← powershell cfg op script .create
  match createdIdentity created with
  | none => raise invalidAck
  | some identity => do
      update fun s => { s with ownerIdentity := some identity }
      pure identity

/-- The request is verified where it was written. -/
def verifyFile (raw : Bytes) (identity : Text) : Effect γ Unit := do
  let script ← command (verifyScript path raw.length (hexdigest raw) identity)
  let ack ← powershell cfg op script (.verify raw.length (hexdigest raw) identity)
  raiseIf (ack ≠ ACK_VERIFIED) invalidAck

/-- The block of a call. -/
def exchange (raw : Bytes) : Effect γ (List (Text × Json)) := do
  let identity ← createFile cfg op path
  writeAll cfg op path raw identity raw.length 0
  verifyFile cfg op path raw identity
  update fun s => { s with invoked := true }
  invokeHelper cfg op path identity

/-- The file is deleted, and how that ended; what is left behind is noted. -/
def removeFile (identity : Text) : Effect γ Bool :=
  handle (do
    let script ← command (cleanupScript path identity)
    let ack ← powershell cfg op script (.cleanup identity)
    raiseIf (ack ≠ ACK_DELETED) (failure "cleanup_failed" false)
    pure true)
  (fun _ => do
    update fun s => { s with cleanupFailed := true, pendingControlPath := some path }
    pure false)

/-- What a call ends with whose file was not deleted. -/
def unremoved (invoked : Bool) : Except Raised (List (Text × Json)) → Except Raised (List (Text × Json))
  | .ok result => .error (.adapter { adapterError "cleanup_failed" invoked false with
      guestResult := some result, cleanupPath := some path })
  | .error (.adapter e) => .error (.adapter { e with cleanupPath := some path })
  | .error e => .error e

/-- The end of the block, after an error or a result. -/
def finishCall (pending : Except Raised (List (Text × Json))) : Effect γ (Except Raised (List (Text × Json))) := do
  let s ← read
  match s.ownerIdentity with
  | some identity => do
      let removed ← removeFile cfg op path identity
      pure (if removed then pending else unremoved path s.invoked pending)
  | none =>
      match pending with
      | .ok result => pure (.ok result)
      | .error e => do
          whenever (s.createAttempted = true) (update fun s =>
            { s with controlCleanupUnknown := true, pendingControlPath := some path })
          pure (.error e)

/-- The call is over, with its operation in its error. -/
def settled (arguments : List (Text × Json)) (pending : Except Raised (List (Text × Json))) :
    Effect γ (List (Text × Json)) :=
  match pending with
  | .ok result => pure result
  | .error (.adapter e) =>
      match arguments.lookup (ascii "request") with
      | some (.obj details) => raise (.adapter { e with operation := some op
                                                        transferId := details.lookup (ascii "transfer_id")
                                                        requestDigest := details.lookup (ascii "request_digest") })
      | some _ => raise (.other "AttributeError")
      | none => raise (.adapter { e with operation := some op
                                         transferId := arguments.lookup (ascii "transfer_id")
                                         requestDigest := arguments.lookup (ascii "request_digest") })
  | .error e => raise e

/-- The checks of a chunk. -/
def checkCount (arguments : List (Text × Json)) : Effect γ Unit := do
  let s ← read
  whenever (op = .chunk) (match field arguments "count" with
    | .int count => raiseIf (count > s.rawChunkBytes) (failure "chunk_too_large" false)
    | _ => raise (.other "KeyError"))

def requestOf (arguments : List (Text × Json)) : Json :=
  .obj [(ascii "operation", .str op.name), (ascii "arguments", .obj arguments)]

/-- `WindowsAdapter.call`, with the variables of the block at their start. -/
def call (nonce : Text) (arguments : List (Text × Json)) : Effect γ (List (Text × Json)) := do
  raiseIf (cfg.validates op arguments = false) (failure "invalid_arguments" false)
  checkCount op arguments
  match dumps (requestOf op arguments) with
  | none => raise (.other "UnicodeEncodeError")
  | some raw => do
      raiseIf (raw.length > 4 * 1024 * 1024) (failure "request_too_large" false)
      match requestsPath cfg.deployment.guestWorkRoot nonce with
      | .error _ => raise (.other "ValueError")
      | .ok path => do
          update fun s => { s with ownerIdentity := none, createAttempted := false, invoked := false }
          let pending ← handle (do
            let result ← exchange cfg op path raw
            pure (.ok result)) (fun e => pure (.error e))
          let ended ← finishCall cfg op path pending
          settled op arguments ended

end Call

end ControlChannel
