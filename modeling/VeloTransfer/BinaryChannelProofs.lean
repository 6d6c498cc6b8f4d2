import VeloTransfer.ChunkServiceProofs
import VeloTransfer.TransferGateProofs
import VeloTransfer.WireBatchProofs

/-! # Two ways for a batch of chunks

    The host sends a batch as a call of the tool `transfer_chunks`, or, where the server
    offers it, as a frame to the binary endpoint.  Both pass the gate and reach the same
    service; the binary way has its own encoding on each side, its own limits, and its
    own errors.

    What the binary way says in headers has to fit into headers.  A transfer identity
    that does not is refused by the service on one way and by the endpoint on the other.

    * `request_sent`, `binary_admitted`, `respond_read` — a request whose arguments fit
      into headers gets through, and so does its answer;
    * `binary_agrees` — what the service answers over the tool comes back the same over
      the endpoint, exactly where the arguments fit into headers;
    * `comma_disagrees` — a transfer identity that does not. -/

namespace BinaryChannel

open CanonicalJson JsonDict JsonLimits TransferWire ChunkService
open TransferGate hiding Reply
open GuestTask (BatchCall BatchItem)

/-! ## A call on the host -/

structure ChunkItem where
  count : Nat
  dataBase64 : Text
  chunkSha256 : Text
deriving Repr, DecidableEq

inductive Batch where
  | push (chunks : List ChunkItem)
  | pull (countPerChunk chunkCount : Nat)
deriving Repr, DecidableEq

/-- The arguments of `transfer_chunks`. -/
structure Arguments where
  transferId : Text
  requestDigest : Text
  offset : Nat
  batch : Batch
deriving Repr, DecidableEq

/-- `AdapterError`. -/
structure AdapterError where
  code : Text
  mayHaveCommitted : Bool
  retryable : Bool
deriving Repr, DecidableEq

/-- How a call ends: with a result, with an error of the service that came back, or
    with any other exception. -/
inductive Answer where
  | result (r : Reply)
  | serviceError (e : AdapterError)
  | fault (e : AdapterError)
  | valueError
deriving Repr, DecidableEq

/-- An error before the call was attempted. -/
def early (code : String) : AdapterError := { code := ascii code, mayHaveCommitted := false, retryable := false }

/-- `_invoke`: an error of a call that was attempted; only one code says that nothing
    was done. -/
def attempted (code : Text) : AdapterError :=
  { code, mayHaveCommitted := code != ascii "batch_not_allowed", retryable := false }

/-- The pattern of a digest in the contract; in Python, `$` lets a line feed pass. -/
def matchesDigest (t : Text) : Bool := Sha256.isHex t || (t.getLast? == some 10 && Sha256.isHex t.dropLast)

/-- The input schema of `transfer_chunks`. -/
def validInput (args : Arguments) : Bool :=
  args.transferId != [] && matchesDigest args.requestDigest &&
    match args.batch with
    | .push chunks => 1 ≤ chunks.length && chunks.length ≤ 64 && chunks.all fun c =>
        1 ≤ c.count && c.count ≤ 1048576 && c.dataBase64.length ≤ 1398104 && matchesDigest c.chunkSha256
    | .pull countPerChunk chunkCount =>
        1 ≤ countPerChunk && countPerChunk ≤ 1048576 && 1 ≤ chunkCount && chunkCount ≤ 64

/-- The checks of `call` on each chunk, with the sum of the counts before it. -/
def checkChunks (rawChunkBytes : Nat) : Nat → List ChunkItem → Except String Unit
  | _, [] => .ok ()
  | total, c :: cs =>
      if c.count > rawChunkBytes ∨ c.dataBase64.length > 4 * ((c.count + 2) / 3) then .error "chunk_too_large"
      else if total + c.count > BATCH_LIMIT then .error "chunk_too_large"
      else
        match Base64.decode c.dataBase64 with
        | none => .error "invalid_chunk"
        | some raw =>
            if raw.length ≠ c.count ∨ Sha256.hexdigest raw ≠ c.chunkSha256 then .error "chunk_hash_mismatch"
            else checkChunks rawChunkBytes (total + c.count) cs

/-! ### The size of a message -/

/-- The bytes of a character in a JSON text; a lone surrogate has none. -/
def charSize (c : Nat) : Option Nat :=
  if c = 34 ∨ c = 92 ∨ c = 8 ∨ c = 9 ∨ c = 10 ∨ c = 12 ∨ c = 13 then some 2
  else if c < 32 then some 6
  else if c < 128 then some 1
  else if c < 2048 then some 2
  else if isSurrogate c then none
  else if c < 65536 then some 3
  else some 4

def textSize : Text → Option Nat
  | [] => some 2
  | c :: cs => do pure ((← charSize c) + (← textSize cs))

mutual

/-- The bytes of a value, with a blank behind each comma and colon. -/
def messageSize : Json → Option Nat
  | .null => some 4
  | .bool true => some 4
  | .bool false => some 5
  | .int i => some (renderInt i).length
  | .float token => some token.length
  | .str s => textSize s
  | .arr items => do pure (2 + (← itemsSize items))
  | .obj fields => do pure (2 + (← fieldsSize fields))

def itemsSize : List Json → Option Nat
  | [] => some 0
  | [x] => messageSize x
  | x :: xs => do pure ((← messageSize x) + 2 + (← itemsSize xs))

def fieldsSize : List (Text × Json) → Option Nat
  | [] => some 0
  | [(k, v)] => do pure ((← textSize k) + 2 + (← messageSize v))
  | (k, v) :: fs => do pure ((← textSize k) + 2 + (← messageSize v) + 2 + (← fieldsSize fs))

end

def ChunkItem.json (c : ChunkItem) : Json :=
  .obj [(ascii "count", .int c.count), (ascii "data_base64", .str c.dataBase64),
    (ascii "chunk_sha256", .str c.chunkSha256)]

def Arguments.json (args : Arguments) : Json :=
  .obj ([(ascii "transfer_id", .str args.transferId), (ascii "request_digest", .str args.requestDigest),
      (ascii "offset", .int args.offset)] ++
    match args.batch with
    | .push chunks => [(ascii "chunks", .arr (chunks.map ChunkItem.json))]
    | .pull countPerChunk chunkCount =>
        [(ascii "count_per_chunk", .int countPerChunk), (ascii "chunk_count", .int chunkCount)])

/-- The message of JSON-RPC that `call` measures. -/
def message (args : Arguments) : Json :=
  .obj [(ascii "jsonrpc", .str (ascii "2.0")), (ascii "id", .int 0), (ascii "method", .str (ascii "tools/call")),
    (ascii "params", .obj [(ascii "name", .str (ascii "transfer_chunks")), (ascii "arguments", args.json)])]

/-- The host's end of a session: its interpreter, which texts its HTTP client sends as
    headers, the identities that it was given, and how long a chunk may be.  An
    interpreter lets integers have 640 digits at least; the client sends ASCII only, and
    whatever of it is plain. -/
structure Channel where
  py : Interpreter
  digits : DIGITS ≤ py.digits
  sends : Text → Bool
  sendsAscii : ∀ t, sends t = true → ∀ c ∈ t, c < 128
  sendsPlain : ∀ t, Plain t → sends t = true
  sessionId : Text
  server : Text
  protocolVersion : Option Text
  rawChunkBytes : Nat

/-- `call`, before the call is attempted. -/
def checkCall (ch : Channel) (args : Arguments) : Option Answer :=
  if validInput args = false then some (.fault (early "invalid_arguments"))
  else
    match (match args.batch with
      | .push chunks => checkChunks ch.rawChunkBytes 0 chunks
      | .pull _ _ => .ok ()) with
    | .error code => some (.fault (early code))
    | .ok _ =>
        match (if fewDigits ch.py.digits (message args) then messageSize (message args) else none) with
        | none => some .valueError
        | some size => if size > BODY_LIMIT - 4096 then some (.fault (early "request_too_large")) else none

/-- `call`, on either way. -/
def adapterCall (path : Arguments → Task → Answer × Task) (ch : Channel) (args : Arguments) (t : Task) :
    Answer × Task :=
  match checkCall ch args with
  | some answer => (answer, t)
  | none => path args t

/-! ## The server -/

/-- A server with its service; its identity is a UUID, or as plain as one. -/
structure Server where
  py : Interpreter
  digits : DIGITS ≤ py.digits
  identity : Text
  plain : Plain identity
  mcpPath : Text
  service : ToolService

def Server.gate (server : Server) : Gate :=
  { py := server.py, server := server.identity, mcpPath := server.mcpPath, bodyLimit := BODY_LIMIT }

/-- The sessions of the server when a call arrives, and whose call it is. -/
structure Session (Time Owner : Type) where
  manager : Manager Time
  bindings : Bindings Owner
  owner : Owner

/-- `_http_safety_code`, of an answer of the gate or the endpoint. -/
def safetyCode (r : Refusal) : Text :=
  let known := match r.status with
    | 400 => ["session_required", "invalid_frame"]
    | 401 => ["unauthorized"]
    | 403 => ["origin_denied"]
    | 404 => ["session_not_found"]
    | 413 => ["body_too_large"]
    | 415 => ["unsupported_media_type"]
    | 421 => ["bad_host"]
    | 500 => ["internal_error"]
    | _ => []
  if known.contains r.code then ascii r.code else ascii "protocol_error"

/-- What the service is called with. -/
def Arguments.call (args : Arguments) : BatchCall :=
  match args.batch with
  | .push chunks =>
      { transferId := args.transferId, requestDigest := args.requestDigest, offset := args.offset
        chunks := some (chunks.map fun c => some
          { count := c.count, dataBase64 := some c.dataBase64, chunkSha256 := some c.chunkSha256 })
        countPerChunk := none, chunkCount := none }
  | .pull countPerChunk chunkCount =>
      { transferId := args.transferId, requestDigest := args.requestDigest, offset := args.offset
        chunks := none, countPerChunk := some countPerChunk, chunkCount := some chunkCount }

section Paths

variable {Time Owner : Type} [LinearOrder Time] [DecidableEq Owner]

/-- The gate, for a request whose body comes in one part. -/
def Gate.admit (g : Gate) (session : Session Time Owner) (scope : Scope Owner) (body : Bytes) : Except Refusal Target :=
  match arrive g session.manager session.bindings scope with
  | (.passed, _) => .ok { transfer := false, method := .null }
  | (.refused r, _) => .error r
  | (.reading, b) =>
      if body.length > g.limit then .error bodyTooLarge else (dispatch g session.manager b scope body).1

/-! ## The way over the tool -/

/-- The SDK of both sides: the message that it writes, and whether a call and an answer
    get through.  What gets through is what was sent. -/
structure Sdk where
  body : Arguments → Bytes
  carries : Arguments → Bool
  returns : Envelope → Bool

def jsonPairs (ch : Channel) : List (String × Text) :=
  ("mcp-session-id", ch.sessionId) :: ch.protocolVersion.toList.map fun v => ("mcp-protocol-version", v)

/-- Whether the client sends these headers. -/
def Channel.lets (ch : Channel) (pairs : List (String × Text)) : Bool := pairs.all fun p => ch.sends p.2

def jsonScope (ch : Channel) (server : Server) (session : Session Time Owner) : Scope Owner :=
  { http := true, method := ascii "POST", path := server.mcpPath, headers := headersOf (jsonPairs ch)
    owner := session.owner }

/-- The output schema of `transfer_chunks`. -/
def validOutput : Envelope → Bool
  | .error code => codeNames.contains code
  | .success (.push r) => 1 ≤ r.accepted && r.accepted ≤ 64
  | .success (.pull r) => r.chunks.length ≤ 64 && r.chunks.all fun c =>
      1 ≤ c.count && c.count ≤ 1048576 && c.dataBase64.length ≤ 1398104 && matchesDigest c.chunkSha256

/-- `_guest_result`, and how its error is classified. -/
def answerOf : Envelope → Answer
  | .success r => .result r
  | .error code => .serviceError (attempted (ascii code))

/-- `_invoke` over the tool. -/
def jsonCall (ch : Channel) (server : Server) (session : Session Time Owner) (sdk : Sdk) (args : Arguments)
    (t : Task) : Answer × Task :=
  if ch.lets (jsonPairs ch) = false then (.fault (attempted (ascii "protocol_error")), t)
  else
    match Gate.admit server.gate session (jsonScope ch server session) (sdk.body args) with
    | .error r => (.fault (attempted (safetyCode r)), t)
    | .ok target =>
        if target.transfer = false ∨ sdk.carries args = false ∨ validInput args = false then
          (.fault (attempted (ascii "tool_error")), t)
        else
          match invoke server.service args.call t with
          | (none, t) => (.fault (attempted (ascii "protocol_error")), t)
          | (some env, t) =>
              if sdk.returns env = false then (.fault (attempted (ascii "protocol_error")), t)
              else if ch.server ≠ server.identity then (.fault (attempted (ascii "instance_changed")), t)
              else if validOutput env = false then (.fault (attempted (ascii "malformed_response")), t)
              else (answerOf env, t)

/-! ## The way over the endpoint -/

/-- `b"".join(base64.b64decode(...))`. -/
def decodeAll : List Text → Option Bytes
  | [] => some []
  | t :: ts => do pure ((← Base64.decode t) ++ (← decodeAll ts))

def Arguments.headers (args : Arguments) : ChunkHeaders :=
  match args.batch with
  | .push _ =>
      { direction := .push, transferId := args.transferId, requestDigest := args.requestDigest
        offset := args.offset, countPerChunk := none, chunkCount := none }
  | .pull countPerChunk chunkCount =>
      { direction := .pull, transferId := args.transferId, requestDigest := args.requestDigest
        offset := args.offset, countPerChunk := some countPerChunk, chunkCount := some chunkCount }

def binaryPairs (ch : Channel) (args : Arguments) : List (String × Text) :=
  [("Mcp-Session-Id", ch.sessionId), ("X-MCP-Server-Instance", ch.server),
    ("Content-Type", ascii "application/octet-stream")] ++
  (askedPairs args.headers ++ ((ch.protocolVersion.toList.map fun v => ("Mcp-Protocol-Version", v)) ++
    countPairs args.headers))

def binaryScope (ch : Channel) (session : Session Time Owner) (args : Arguments) : Scope Owner :=
  { http := true, method := ascii "POST", path := ascii "/chunkbin", headers := headersOf (binaryPairs ch args)
    owner := session.owner }

/-- The frame of a request. -/
def requestFrame (py : Interpreter) (args : Arguments) : Except Failure Bytes :=
  match args.batch with
  | .push chunks =>
      match decodeAll (chunks.map ChunkItem.dataBase64) with
      | none => .error .valueError
      | some payload => encode py (pushHeader (chunks.map fun c => pushItem c.count c.chunkSha256)) payload .pushRequest
  | .pull _ _ => encode py (.obj []) [] .pullRequest

/-- The answer of the endpoint; an answer that cannot be written is an internal error. -/
def respond (py : Interpreter) (direction : Direction) : Envelope → Except Refusal Bytes
  | env =>
    let frame := match env, direction with
      | .error code, _ =>
          encode py (errorAnswer (ascii (if codeNames.contains code then code else "internal_error"))) [] .errorResponse
      | .success (.push r), .push => encode py (pushAnswer r.verifiedOffset r.accepted) [] .pushResponse
      | .success (.pull r), .pull =>
          match decodeAll (r.chunks.map PullTask.PullChunk.dataBase64) with
          | none => .error .valueError
          | some payload =>
              encode py (pullAnswer r.verifiedOffset
                (r.chunks.map fun (c : PullTask.PullChunk) => pullItem c.offset c.count c.chunkSha256)) payload .pullResponse
      | _, _ => .error .valueError
    match frame with
    | .ok body => .ok body
    | .error _ => .error ⟨500, "internal_error"⟩

def natAt (v : Json) (key : String) : Nat :=
  match get v key with
  | some (.int i) => i.toNat
  | _ => 0

def textAt (v : Json) (key : String) : Text :=
  match get v key with
  | some (.str s) => s
  | _ => []

/-- The chunks of an answer, each with its part of the payload. -/
def chunksIn (payload : Bytes) : Nat → List Json → List PullTask.PullChunk
  | _, [] => []
  | cursor, item :: items =>
      let count := natAt item "count"
      { offset := natAt item "offset", count, dataBase64 := Base64.encode ((payload.drop cursor).take count)
        chunkSha256 := textAt item "chunk_sha256" } :: chunksIn payload (cursor + count) items

/-- All but the last count are what was asked for. -/
def fullCounts (countPerChunk : Nat) : List Nat → Bool
  | [] => true
  | [n] => n ≤ countPerChunk
  | n :: ns => n == countPerChunk && fullCounts countPerChunk ns

/-- The host reads a frame that answers its request. -/
def readAnswer (py : Interpreter) (args : Arguments) (body : Bytes) : Answer :=
  let malformed := .fault (attempted (ascii "malformed_response"))
  match parse py body with
  | .error _ => malformed
  | .ok (header, payload) =>
      let result := (get header "result").getD .null
      if isText ((get header "status").getD .null) (ascii "error") then
        match validate header payload .errorResponse with
        | .error _ => malformed
        | .ok _ => .serviceError (attempted (textAt ((get header "error").getD .null) "code"))
      else
        match args.batch with
        | .push chunks =>
            match validate header payload .pushResponse with
            | .error _ => malformed
            | .ok _ =>
                if natAt result "accepted" ≠ chunks.length ∨
                    natAt result "verified_offset" ≠ args.offset + (chunks.map ChunkItem.count).sum then malformed
                else .result (.push
                  { verifiedOffset := natAt result "verified_offset", accepted := natAt result "accepted" })
        | .pull countPerChunk chunkCount =>
            match validate header payload .pullResponse with
            | .error _ => malformed
            | .ok _ =>
                let items := match get result "chunks" with
                  | some (.arr items) => items
                  | _ => []
                if items.length > chunkCount ∨ (items.head?.any fun item => natAt item "offset" != args.offset) = true ∨
                    fullCounts countPerChunk (items.map fun item => natAt item "count") = false then malformed
                else .result (.pull
                  { chunks := chunksIn payload 0 items, verifiedOffset := natAt result "verified_offset" })

/-- `_DirectChunkChannel.call`, and how `_invoke` classifies what it raises. -/
def binaryCall (ch : Channel) (server : Server) (session : Session Time Owner) (args : Arguments) (t : Task) :
    Answer × Task :=
  match requestFrame ch.py args with
  | .error _ => (.fault (attempted (ascii "invalid_arguments")), t)
  | .ok body =>
      if ch.lets (binaryPairs ch args) = false then (.fault (attempted (ascii "protocol_error")), t)
      else
        match Gate.admit server.gate session (binaryScope ch session args) body with
        | .error r => (.fault (attempted (safetyCode r)), t)
        | .ok _ =>
            match endpoint server.py (headersOf (binaryPairs ch args)) body with
            | .error r => (.fault (attempted (safetyCode r)), t)
            | .ok call =>
                match invoke server.service call t with
                | (none, t) => (.fault (attempted (ascii "outcome_unknown")), t)
                | (some env, t) =>
                    match respond server.py args.headers.direction env with
                    | .error r => (.fault (attempted (safetyCode r)), t)
                    | .ok frame =>
                        if ch.server ≠ server.identity then (.fault (attempted (ascii "instance_changed")), t)
                        else if frame.length > BODY_LIMIT then (.fault (attempted (ascii "response_too_large")), t)
                        else (readAnswer ch.py args frame, t)

/-! ## What has to agree -/

/-- A call that reached the service, and whose answer came back. -/
def Answer.served : Answer → Bool
  | .result _ => true
  | .serviceError _ => true
  | _ => false

/-- **The two ways agree**: what the service answers over the tool, it answers over the
    endpoint, and the task is the same afterwards. -/
def Agree (ch : Channel) (server : Server) (session : Session Time Owner) (sdk : Sdk) (args : Arguments) (t : Task) :
    Prop :=
  (adapterCall (jsonCall ch server session sdk) ch args t).1.served = true →
    adapterCall (binaryCall ch server session) ch args t = adapterCall (jsonCall ch server session sdk) ch args t

/-- The arguments fit into headers that the client sends. -/
structure Arguments.Carried (args : Arguments) (ch : Channel) : Prop where
  sent : ch.sends args.transferId = true
  transferId : Sendable args.transferId
  short : args.transferId.length ≤ 128
  requestDigest : Sha256.isHex args.requestDigest = true
  offset : args.offset < 10 ^ 128

end Paths

/-! ## What the host has checked -/

/-- An item holds these bytes. -/
structure Holds (c : ChunkItem) (part : Bytes) : Prop where
  count : c.count = part.length
  data : Base64.decode c.dataBase64 = some part
  sha : c.chunkSha256 = Sha256.hexdigest part
  short : c.dataBase64.length ≤ 4 * ((c.count + 2) / 3)

/-- A batch that the host lets out. -/
inductive Batch.Checked : Batch → Prop where
  | push {chunks : List ChunkItem} {parts : List Bytes} (holds : List.Forall₂ Holds chunks parts)
      (sized : Sized parts) (some : parts ≠ []) : Checked (.push chunks)
  | pull {countPerChunk chunkCount : Nat} (count : 1 ≤ countPerChunk ∧ countPerChunk ≤ CHUNK_LIMIT)
      (chunks : 1 ≤ chunkCount ∧ chunkCount ≤ 64) : Checked (.pull countPerChunk chunkCount)

theorem checkChunks_ok {limit total : Nat} {chunks : List ChunkItem} (htotal : total ≤ BATCH_LIMIT)
    (h : checkChunks limit total chunks = .ok ()) :
    ∃ parts, List.Forall₂ Holds chunks parts ∧ total + parts.flatten.length ≤ BATCH_LIMIT := by
  induction chunks generalizing total with
  | nil => exact ⟨[], .nil, htotal⟩
  | cons c cs ih =>
      rw [checkChunks] at h
      split at h
      · exact absurd h nofun
      next hsmall =>
        split at h
        · exact absurd h nofun
        next hbudget =>
          split at h
          · exact absurd h nofun
          next raw hraw =>
            split at h
            · exact absurd h nofun
            next hagrees =>
              rw [not_or, not_not, not_not] at hagrees
              rw [not_or, Nat.not_lt, Nat.not_lt] at hsmall
              obtain ⟨parts, hparts, hmost⟩ := ih (Nat.not_lt.mp hbudget) h
              refine ⟨raw :: parts, .cons ⟨hagrees.1.symm, hraw, hagrees.2.symm, hsmall.2⟩ hparts, ?_⟩
              rw [List.flatten_cons, List.length_append]
              omega

theorem holds_sized {chunks : List ChunkItem} {parts : List Bytes} (h : List.Forall₂ Holds chunks parts)
    (hcounts : ∀ c ∈ chunks, 1 ≤ c.count ∧ c.count ≤ CHUNK_LIMIT) :
    ∀ p ∈ parts, 1 ≤ p.length ∧ p.length ≤ CHUNK_LIMIT := by
  induction h with
  | nil => exact nofun
  | cons hc _ ih =>
      intro p hp
      rcases List.mem_cons.mp hp with rfl | hp
      · rw [← hc.count]
        exact hcounts _ List.mem_cons_self
      · exact ih (fun c hc => hcounts c (List.mem_cons_of_mem _ hc)) p hp

/-- **What the host lets out** holds the bytes that it says it holds. -/
theorem checkCall_none {ch : Channel} {args : Arguments} (h : checkCall ch args = none) : args.batch.Checked := by
  simp only [checkCall] at h
  split at h
  · exact absurd h nofun
  next hvalid =>
    rw [Bool.not_eq_false, validInput, Bool.and_eq_true] at hvalid
    split at h
    · exact absurd h nofun
    next hchecked =>
      cases hbatch : args.batch with
      | push chunks =>
          simp only [hbatch, Bool.and_eq_true, decide_eq_true_eq, List.all_eq_true] at hvalid hchecked
          obtain ⟨parts, hholds, hmost⟩ := checkChunks_ok (Nat.zero_le _) hchecked
          have hlength := hholds.length_eq
          refine .push hholds ⟨by omega, holds_sized hholds fun c hc => ?_, by omega⟩ fun hnil => ?_
          · have hc := hvalid.2.2 c hc
            exact ⟨hc.1.1.1, hc.1.1.2⟩
          · rw [hnil, List.length_nil] at hlength
            omega
      | pull countPerChunk chunkCount =>
          simp only [hbatch, Bool.and_eq_true, decide_eq_true_eq] at hvalid
          exact .pull ⟨hvalid.2.1.1.1, hvalid.2.1.1.2⟩ ⟨hvalid.2.1.2, hvalid.2.2⟩

/-! ## The request -/

section Request

variable {chunks : List ChunkItem} {parts : List Bytes}

theorem decodeAll_holds (h : List.Forall₂ Holds chunks parts) :
    decodeAll (chunks.map ChunkItem.dataBase64) = some parts.flatten := by
  induction h with
  | nil => rfl
  | cons hc _ ih =>
      rw [List.map_cons, decodeAll, hc.data, ih]
      rfl

theorem pushItems_holds (h : List.Forall₂ Holds chunks parts) :
    (chunks.map fun c => pushItem c.count c.chunkSha256) = pushItems parts := by
  induction h with
  | nil => rfl
  | cons hc _ ih =>
      rw [List.map_cons, hc.count, hc.sha, ih]
      rfl

/-- An item as the endpoint writes it. -/
def itemOf (part : Bytes) : BatchItem :=
  { count := part.length, dataBase64 := some (Base64.encode part), chunkSha256 := some (Sha256.hexdigest part) }

/-- Each chunk of a push gets its part of the payload. -/
theorem chunksOf_pushItems (before : Bytes) (parts : List Bytes) :
    chunksOf (before ++ parts.flatten) before.length (pushItems parts) = (parts.map itemOf).map some := by
  induction parts generalizing before with
  | nil => rfl
  | cons p ps ih =>
      have hrest := ih (before ++ p)
      rw [List.append_assoc, List.length_append] at hrest
      have hdata : ((before ++ (p ++ ps.flatten)).drop before.length).take p.length = p := by
        rw [List.drop_left, List.take_left]
      show some { count := ((p.length : Nat) : Int), dataBase64 := some (Base64.encode
          (((before ++ (p ++ ps.flatten)).drop before.length).take p.length)), chunkSha256 := _ } ::
        chunksOf (before ++ (p ++ ps.flatten)) (before.length + p.length) (pushItems ps) = _
      rw [hrest, hdata]
      rfl

theorem sameItem_holds {c : ChunkItem} {part : Bytes} (h : Holds c part) :
    SameItem (itemOf part) { count := c.count, dataBase64 := some c.dataBase64, chunkSha256 := some c.chunkSha256 } where
  count := congrArg Nat.cast h.count.symm
  sha := congrArg some h.sha.symm
  data := ⟨_, _, part, rfl, rfl, Base64.decode_encode part, h.data, le_of_eq (Base64.encode_length part), h.short⟩

theorem sameItems_holds (h : List.Forall₂ Holds chunks parts) :
    List.Forall₂ SameItem (parts.map itemOf) (chunks.map fun c =>
      { count := c.count, dataBase64 := some c.dataBase64, chunkSha256 := some c.chunkSha256 }) := by
  induction h with
  | nil => exact .nil
  | cons hc _ ih => exact .cons (sameItem_holds hc) ih

/-- What the arguments ask for can be said in headers. -/
theorem headers_carried {ch : Channel} {args : Arguments} (hc : args.Carried ch) (hb : args.batch.Checked) : args.headers.Carried := by
  obtain ⟨transferId, requestDigest, offset, batch⟩ := args
  cases hb with
  | push => exact ⟨hc.transferId, hc.short, hc.requestDigest, hc.offset, fun _ => ⟨rfl, rfl⟩, nofun⟩
  | pull hcount hchunks =>
      exact ⟨hc.transferId, hc.short, hc.requestDigest, hc.offset, nofun, fun _ => ⟨_, _, rfl, rfl, hcount, hchunks⟩⟩

theorem binaryPairs_names (ch : Channel) (args : Arguments) :
    (binaryPairs ch args).map Prod.fst = sentNames args.headers.direction ch.protocolVersion.isSome := by
  obtain ⟨transferId, requestDigest, offset, batch⟩ := args
  cases hv : ch.protocolVersion with
  | none => cases batch <;> simp only [binaryPairs, hv] <;> rfl
  | some v => cases batch <;> simp only [binaryPairs, hv] <;> rfl

theorem binaryPairs_asked {ch : Channel} {args : Arguments} :
    ∀ p ∈ askedPairs args.headers ++ countPairs args.headers, p ∈ binaryPairs ch args := by
  intro p hp
  simp only [binaryPairs, List.mem_append] at hp ⊢
  rcases hp with hp | hp
  · exact .inr (.inl hp)
  · exact .inr (.inr (.inr hp))

/-- The client sends all that a request says, where it sends what a call of the tool says. -/
theorem binary_sent {ch : Channel} {args : Arguments} (hc : args.Carried ch) (hserver : Plain ch.server)
    (hjson : ch.lets (jsonPairs ch) = true) : ch.lets (binaryPairs ch args) = true := by
  have hsent := List.all_eq_true.mp hjson
  have hasked : ∀ p ∈ askedPairs args.headers ++ countPairs args.headers, ch.sends p.2 = true := by
    intro p hp
    simp only [askedPairs, countPairs, List.mem_append, List.mem_cons, List.not_mem_nil, or_false, List.mem_map] at hp
    rcases hp with (rfl | rfl | rfl | rfl) | ⟨n, -, rfl⟩ | ⟨n, -, rfl⟩
    · exact ch.sendsPlain _ (plain_direction _)
    · obtain ⟨transferId, requestDigest, offset, batch⟩ := args
      cases batch <;> exact hc.sent
    · obtain ⟨transferId, requestDigest, offset, batch⟩ := args
      cases batch <;> exact ch.sendsPlain _ (plain_hex hc.requestDigest)
    · exact ch.sendsPlain _ (plain_decimal _)
    · exact ch.sendsPlain _ (plain_decimal n)
    · exact ch.sendsPlain _ (plain_decimal n)
  refine List.all_eq_true.mpr fun p hp => ?_
  simp only [binaryPairs, List.mem_append, List.mem_cons, List.not_mem_nil, or_false] at hp
  rcases hp with (rfl | rfl | rfl) | hp | hp | hp
  · exact hsent ("mcp-session-id", ch.sessionId) List.mem_cons_self
  · exact ch.sendsPlain _ hserver
  · exact ch.sendsPlain _ ⟨by decide, by decide⟩
  · exact hasked p (List.mem_append_left _ hp)
  · obtain ⟨v, hv, rfl⟩ := List.mem_map.mp hp
    exact hsent ("mcp-protocol-version", v) (List.mem_cons_of_mem _ (List.mem_map_of_mem hv))
  · exact hasked p (List.mem_append_right _ hp)

theorem frame_bounded {py : Interpreter} {component : Component} {header : Json} {payload frame : Bytes}
    (h : encode py header payload component = .ok frame) : frame.length ≤ BODY_LIMIT := by
  obtain ⟨raw, -, -, rfl, hraw, hbounded⟩ := encode_iff.mp h
  exact hbounded

/-- What the service is asked by headers and the frame with them. -/
def callOf (h : ChunkHeaders) (header : Json) (payload : Bytes) : BatchCall :=
  { transferId := h.transferId, requestDigest := h.requestDigest, offset := h.offset
    chunks := match h.direction, get header "chunks" with
      | .push, some (.arr items) => some (chunksOf payload 0 items)
      | _, _ => none
    countPerChunk := h.countPerChunk.map Int.ofNat, chunkCount := h.chunkCount.map Int.ofNat }

theorem endpoint_ok {py : Interpreter} {ch : Channel} {args : Arguments} {frame payload : Bytes} {header : Json}
    (hc : args.Carried ch) (hb : args.batch.Checked) (hframe : frame.length ≤ BODY_LIMIT)
    (hdecode : decode py frame (requestComponent args.headers.direction) = .ok (header, payload)) :
    endpoint py (headersOf (binaryPairs ch args)) frame = .ok (callOf args.headers header payload) := by
  have hnames := binaryPairs_names ch args
  have htype : oneHeader (headersOf (binaryPairs ch args)) "content-type" true =
      .ok (some (ascii "application/octet-stream")) := by
    refine oneHeader_sent true (n := "Content-Type") ?_ (by simp [binaryPairs]) ?_
    · rw [hnames]
      exact sentNames_one _ _ (by simp)
    · exact ⟨by decide, by decide, by decide, by decide⟩
  have hasked := requestHeaders_sent (headers_carried hc hb) hnames binaryPairs_asked
  have hcall : chunkCall py (headersOf (binaryPairs ch args)) frame = .ok (callOf args.headers header payload) := by
    rw [chunkCall, hasked]
    show (decode py frame (requestComponent args.headers.direction) >>= _) = _
    rw [hdecode]
    rfl
  rw [endpoint, htype]
  simp only [ne_eq, not_true_eq_false, if_false, if_neg (Nat.not_lt.mpr hframe), hcall]

/-- **The request gets through**: its frame is written and read back, and asks the
    service for the same as a call of the tool. -/
theorem request_sent {ch : Channel} {server : Server} {args : Arguments} (hc : args.Carried ch) (hb : args.batch.Checked) :
    ∃ frame call, requestFrame ch.py args = .ok frame ∧ frame.length ≤ BODY_LIMIT ∧
      endpoint server.py (headersOf (binaryPairs ch args)) frame = .ok call ∧ SameCall call args.call := by
  obtain ⟨transferId, requestDigest, offset, batch⟩ := args
  cases hb with
  | push hholds hsized hsome =>
      obtain ⟨hencode, -⟩ := fits_push hsized hsome ch.py ch.digits
      obtain ⟨-, hdecode⟩ := fits_push hsized hsome server.py server.digits
      have hframe := frame_bounded hencode
      refine ⟨_, _, ?_, hframe, endpoint_ok hc (.push hholds hsized hsome) hframe hdecode, rfl, rfl, rfl, rfl, rfl,
        .inr ⟨_, _, ?_, congrArg some (List.map_map ..).symm, sameItems_holds hholds⟩⟩
      · simp only [requestFrame, decodeAll_holds hholds, pushItems_holds hholds, hencode]
      · exact congrArg some (chunksOf_pushItems [] _)
  | pull hcount hchunks =>
      obtain ⟨hencode, -⟩ := fits_pullRequest ch.py ch.digits
      obtain ⟨-, hdecode⟩ := fits_pullRequest server.py server.digits
      have hframe := frame_bounded hencode
      exact ⟨_, _, hencode, hframe, endpoint_ok hc (.pull hcount hchunks) hframe hdecode, rfl, rfl, rfl, rfl, rfl,
        .inl ⟨rfl, rfl⟩⟩

end Request

/-! ## The gate -/

theorem alive_within {Time Owner : Type} [LinearOrder Time] {m : Manager Time} {b b' : Bindings Owner}
    {scope : Scope Owner} (hw : b'.Within b) (h : Alive m b' scope) : Alive m b scope := by
  obtain ⟨session, hsession, hserves, hinitialized, howner⟩ := h
  exact ⟨session, hsession, hserves, hw.initialized _ hinitialized, hw.owners _ _ howner⟩

section Gates

variable {Time Owner : Type} [LinearOrder Time] [DecidableEq Owner] {g : Gate} {session : Session Time Owner}
variable {ch : Channel} {server : Server} {args : Arguments} {scope : Scope Owner} {body : Bytes}

/-- A call of a tool that the gate hands on has a session. -/
theorem admit_alive {target : Target} (hbinary : scope.binary = false) (htransfer : target.transfer = true)
    (h : Gate.admit g session scope body = .ok target) : Alive session.manager session.bindings scope := by
  have hwithin := arrive_within (g := g) (w := { World.new session.manager with bindings := session.bindings }) scope
  unfold Gate.admit at h
  split at h
  · obtain rfl := Except.ok.inj h
    cases htransfer
  · cases h
  next b harrive =>
    split at h
    · cases h
    · have hdispatch : dispatch g session.manager b scope body = (.ok target, _) := Prod.ext h rfl
      obtain ⟨-, halive⟩ := dispatch_ok hdispatch
      have hb : b = (arrive g session.manager session.bindings scope).2 := (congrArg Prod.snd harrive).symm
      rcases halive htransfer with hpath | halive
      · cases hbinary.symm.trans hpath
      · refine alive_within ?_ halive
        rw [hb]
        exact hwithin

/-- **A binary request passes** where its session is there, on this instance. -/
theorem admit_binary (hhttp : scope.http = true) (hbinary : scope.binary = true) :
    (∃ target, Gate.admit g session scope body = .ok target) ↔ (Alive session.manager session.bindings scope ∧
      Here g.server scope.headers true) ∧ body.length ≤ g.limit := by
  rw [← check_iff]
  simp only [ Gate.admit, arrive, hhttp, hbinary, Bool.true_eq_false, if_false, if_true, dispatch_binary]
  cases hcheck : check g.server session.manager session.bindings scope.headers scope.owner true with
  | mk refusal b =>
      cases refusal with
      | some r => exact ⟨(by rintro ⟨_, h⟩; cases h), (by rintro ⟨h, _⟩; cases h)⟩
      | none =>
          by_cases hbody : body.length > g.limit
          · simp only [if_pos hbody]
            exact ⟨(by rintro ⟨_, h⟩; cases h), fun h => absurd h.2 (Nat.not_le.mpr hbody)⟩
          · simp only [if_neg hbody]
            exact ⟨fun _ => ⟨trivial, Nat.not_lt.mp hbody⟩, fun _ => ⟨_, rfl⟩⟩

theorem jsonPairs_names (ch : Channel) : (jsonPairs ch).map Prod.fst =
    "mcp-session-id" :: (if ch.protocolVersion.isSome then ["mcp-protocol-version"] else []) := by
  cases hv : ch.protocolVersion <;> simp only [jsonPairs, hv] <;> rfl

/-- Both ways name the same session. -/
theorem same_session (ch : Channel) (args : Arguments) :
    oneHeader (headersOf (jsonPairs ch)) "mcp-session-id" false =
      oneHeader (headersOf (binaryPairs ch args)) "mcp-session-id" false := by
  have hjson : valuesOf (headersOf (jsonPairs ch)) "mcp-session-id" = [headerBytes ch.sessionId] := by
    refine valuesOf_one (n := "mcp-session-id") ?_ (List.mem_cons_self ..)
    rw [jsonPairs_names]
    cases ch.protocolVersion.isSome <;> decide
  have hbinary : valuesOf (headersOf (binaryPairs ch args)) "mcp-session-id" = [headerBytes ch.sessionId] := by
    refine valuesOf_one (n := "Mcp-Session-Id") ?_ (by simp [binaryPairs])
    rw [binaryPairs_names]
    exact sentNames_one _ _ (by simp)
  rw [oneHeader, oneHeader, hjson, hbinary]

/-- The path of the endpoint does not admit a call of a tool, which names no instance. -/
theorem json_not_binary {target : Target} (h : Gate.admit g session (jsonScope ch server session) body = .ok target) :
    (jsonScope ch server session).binary = false := by
  cases hbinary : (jsonScope ch server session).binary with
  | false => rfl
  | true =>
      obtain ⟨⟨-, expected, hexpected, -⟩, -⟩ := (admit_binary rfl hbinary).mp ⟨target, h⟩
      have hvalues : valuesOf (jsonScope ch server session).headers "x-mcp-server-instance" = [] := by
        refine valuesOf_none ?_
        rw [jsonPairs_names]
        cases ch.protocolVersion.isSome <;> decide
      rw [oneHeader, hvalues] at hexpected
      cases hexpected

/-- **Where a call of the tool gets through**, the binary request does. -/
theorem binary_admitted {target : Target} {frame : Bytes} (hserver : ch.server = server.identity)
    (htransfer : target.transfer = true) (hframe : frame.length ≤ BODY_LIMIT)
    (h : Gate.admit server.gate session (jsonScope ch server session) body = .ok target) :
    ∃ target, Gate.admit server.gate session (binaryScope ch session args) frame = .ok target := by
  obtain ⟨name, hname, hserves, hinitialized, howner⟩ := admit_alive (json_not_binary h) htransfer h
  have hhere : oneHeader (headersOf (binaryPairs ch args)) "x-mcp-server-instance" true = .ok (some ch.server) := by
    refine oneHeader_sent true (n := "X-MCP-Server-Instance") ?_ (by simp [binaryPairs])
      (hserver ▸ sendable_of_plain server.plain)
    rw [binaryPairs_names]
    exact sentNames_one _ _ (by simp)
  refine (admit_binary rfl rfl).mpr ⟨⟨⟨name, ?_, hserves, hinitialized, howner⟩, _, hhere, ?_⟩, ?_⟩
  · exact (same_session ch args).symm.trans hname
  · intro e he
    obtain rfl := Option.some.inj he
    exact hserver
  · exact Nat.le_min.mpr ⟨hframe, hframe⟩

end Gates

/-! ## The answer -/

section Answers

variable {ch : Channel} {py : Interpreter} {args : Arguments} {parts : List Bytes} {offset : Nat}

theorem decode_parts {frame payload : Bytes} {component : Component} {header : Json}
    (h : decode py frame component = .ok (header, payload)) :
    parse py frame = .ok (header, payload) ∧ validate header payload component = .ok () := by
  obtain ⟨raw, hframed, hjson, hexact⟩ := decode_iff.mp h
  exact ⟨parse_iff.mpr ⟨raw, hframed, hjson, exact_object hexact⟩, validate_iff.mpr hexact⟩

theorem error_status (code : Text) : isText ((get (errorAnswer code) "status").getD .null) (ascii "error") = true :=
  beq_self_eq_true (ascii "error")

theorem success_status (result : Json) :
    isText ((get (successHeader result) "status").getD .null) (ascii "error") = false := by
  have hne : (ascii "success" == ascii "error") = false := by decide
  exact hne

/-- An error of the service comes back. -/
theorem read_error {code : Text} (hpy : DIGITS ≤ py.digits) (hcode : code ∈ CODES) :
    readAnswer py args (frameOf (errorAnswer code) []) = .serviceError (attempted code) := by
  obtain ⟨-, hdecode⟩ := fits_errorAnswer hcode py hpy
  obtain ⟨hparse, hvalid⟩ := decode_parts hdecode
  simp only [readAnswer, hparse, error_status, if_true, hvalid]
  rfl

theorem decodeAll_place : decodeAll ((PullTask.place offset parts).map PullTask.PullChunk.dataBase64) =
    some parts.flatten := by
  induction parts generalizing offset with
  | nil => rfl
  | cons p ps ih =>
      rw [PullTask.place, List.map_cons, decodeAll, ih]
      show (Base64.decode (Base64.encode p) >>= _) = _
      rw [Base64.decode_encode]
      rfl

theorem pullItems_place : ((PullTask.place offset parts).map fun (c : PullTask.PullChunk) =>
    pullItem c.offset c.count c.chunkSha256) = pullItems offset parts := by
  induction parts generalizing offset with
  | nil => rfl
  | cons p ps ih =>
      rw [PullTask.place, List.map_cons, ih]
      rfl

/-- Each item of an answer gets its part of the payload. -/
theorem chunksIn_pullItems (before : Bytes) :
    chunksIn (before ++ parts.flatten) before.length (pullItems offset parts) = PullTask.place offset parts := by
  induction parts generalizing before offset with
  | nil => rfl
  | cons p ps ih =>
      have hrest : chunksIn ((before ++ p) ++ ps.flatten) (before ++ p).length (pullItems (offset + p.length) ps) =
          PullTask.place (offset + p.length) ps := ih (before ++ p)
      rw [List.append_assoc, List.length_append] at hrest
      have hdata : ((before ++ (p ++ ps.flatten)).drop before.length).take p.length = p := by
        rw [List.drop_left, List.take_left]
      show PullTask.PullChunk.mk offset p.length (Base64.encode
          (((before ++ (p ++ ps.flatten)).drop before.length).take p.length)) (Sha256.hexdigest p) ::
        chunksIn (before ++ (p ++ ps.flatten)) (before.length + p.length) (pullItems (offset + p.length) ps) = _
      rw [hrest, hdata]
      rfl

theorem pullItems_counts : ((pullItems offset parts).map fun item => natAt item "count") = parts.map List.length := by
  induction parts generalizing offset with
  | nil => rfl
  | cons p ps ih => exact congrArg (p.length :: ·) ih

theorem fullCounts_cut {countPerChunk chunkCount : Nat} (h : PullTask.Cut countPerChunk chunkCount parts) :
    fullCounts countPerChunk (parts.map List.length) = true := by
  obtain ⟨-, hsized, hfull⟩ := h
  induction parts with
  | nil => rfl
  | cons p ps ih =>
      cases ps with
      | nil => exact decide_eq_true (hsized p List.mem_cons_self).2
      | cons q qs =>
          have hrest := ih (fun d hd => hsized d (List.mem_cons_of_mem _ hd)) (fun d hd => hfull d (List.mem_cons_of_mem _ hd))
          exact Bool.and_eq_true_iff.mpr ⟨beq_iff_eq.mpr (hfull p List.mem_cons_self), hrest⟩

/-- Chunks that were read come back. -/
theorem read_pull {countPerChunk chunkCount : Nat} (hpy : DIGITS ≤ py.digits)
    (hbatch : args.batch = .pull countPerChunk chunkCount) (hsized : Sized parts)
    (hend : args.offset + parts.flatten.length < 10 ^ 129) (hcut : PullTask.Cut countPerChunk chunkCount parts) :
    readAnswer py args (frameOf (pullAnswer 0 (pullItems args.offset parts)) parts.flatten) =
      .result (.pull { chunks := PullTask.place args.offset parts, verifiedOffset := 0 }) := by
  obtain ⟨-, hdecode⟩ := fits_pullAnswer hsized (show 0 < 10 ^ 129 by decide) hend py hpy
  obtain ⟨hparse, hvalid⟩ := decode_parts hdecode
  have hstatus : isText ((get (pullAnswer 0 (pullItems args.offset parts)) "status").getD .null) (ascii "error") = false :=
    success_status _
  have hresult : (get (pullAnswer 0 (pullItems args.offset parts)) "result").getD .null =
      .obj [(ascii "verified_offset", .int (0 : Nat)), (ascii "chunks", .arr (pullItems args.offset parts))] := rfl
  have hitems : get (.obj [(ascii "verified_offset", .int (0 : Nat)),
      (ascii "chunks", .arr (pullItems args.offset parts))]) "chunks" = some (.arr (pullItems args.offset parts)) := rfl
  have hfirst : ((pullItems args.offset parts).head?.any fun item => natAt item "offset" != args.offset) = false := by
    cases parts with
    | nil => rfl
    | cons p ps => exact bne_self_eq_false args.offset
  have hfew : ¬ (pullItems args.offset parts).length > chunkCount := by
    rw [pullItems_length]
    exact Nat.not_lt.mpr hcut.few
  have hchunks : chunksIn ([] ++ parts.flatten) ([] : Bytes).length (pullItems args.offset parts) =
      PullTask.place args.offset parts := chunksIn_pullItems []
  simp only [readAnswer, hparse, hstatus, hbatch, hvalid, hresult, hitems, hfirst, pullItems_counts,
    fullCounts_cut hcut, hfew, Bool.false_eq_true, Bool.true_eq_false, or_self, if_false]
  rw [show chunksIn parts.flatten 0 (pullItems args.offset parts) = _ from hchunks]
  rfl

/-- What was pushed is acknowledged. -/
theorem read_push {chunks : List ChunkItem} (hpy : DIGITS ≤ py.digits) (hbatch : args.batch = .push chunks)
    (hsome : 1 ≤ chunks.length) (hfew : chunks.length ≤ 64)
    (hend : args.offset + (chunks.map ChunkItem.count).sum < 10 ^ 129) :
    readAnswer py args (frameOf (pushAnswer (args.offset + (chunks.map ChunkItem.count).sum) chunks.length) []) =
      .result (.push
        { verifiedOffset := args.offset + (chunks.map ChunkItem.count).sum, accepted := chunks.length }) := by
  obtain ⟨-, hdecode⟩ := fits_pushAnswer hend hsome hfew py hpy
  obtain ⟨hparse, hvalid⟩ := decode_parts hdecode
  have hstatus : isText ((get (pushAnswer (args.offset + (chunks.map ChunkItem.count).sum) chunks.length)
      "status").getD .null) (ascii "error") = false := success_status _
  simp only [readAnswer, hparse, hstatus, hbatch, hvalid, Bool.false_eq_true, if_false]
  exact if_neg (by rintro (h | h) <;> exact h rfl)

theorem announced_chunks (chunks : List ChunkItem) : announced (chunks.map fun c => some
    { count := c.count, dataBase64 := some c.dataBase64, chunkSha256 := some c.chunkSha256 }) =
      (chunks.map ChunkItem.count).sum := by
  rw [announced, List.map_map]
  rfl

theorem counts_flatten {chunks : List ChunkItem} (h : List.Forall₂ Holds chunks parts) :
    (chunks.map ChunkItem.count).sum = parts.flatten.length := by
  induction h with
  | nil => rfl
  | cons hc _ ih => rw [List.map_cons, List.sum_cons, List.flatten_cons, List.length_append, hc.count, ih]

theorem within_digits {n : Nat} (hc : args.Carried ch) (hn : n ≤ BATCH_LIMIT) : args.offset + n < 10 ^ 129 := by
  have hoffset := hc.offset
  have hlimit : 10 ^ 128 + BATCH_LIMIT < 10 ^ 129 := by decide
  omega

theorem flatten_length_le {n : Nat} (h : ∀ p ∈ parts, p.length ≤ n) : parts.flatten.length ≤ parts.length * n := by
  induction parts with
  | nil => exact Nat.zero_le _
  | cons p ps ih =>
      have hp := h p List.mem_cons_self
      have hps := ih fun q hq => h q (List.mem_cons_of_mem _ hq)
      rw [List.flatten_cons, List.length_append, List.length_cons, Nat.succ_mul]
      omega

/-- A cut of a pull has the size of a batch. -/
theorem cut_sized {countPerChunk chunkCount : Nat} (h : PullTask.Cut countPerChunk chunkCount parts)
    (hfew : chunkCount ≤ 64) (hsmall : countPerChunk ≤ 2 ^ 20) (hbudget : countPerChunk * chunkCount ≤ 2 ^ 26) :
    Sized parts where
  few := h.few.trans hfew
  sized := fun p hp => ⟨(h.sized p hp).1, (h.sized p hp).2.trans hsmall⟩
  small := calc parts.flatten.length ≤ parts.length * countPerChunk := flatten_length_le fun p hp => (h.sized p hp).2
    _ ≤ chunkCount * countPerChunk := Nat.mul_le_mul_right _ h.few
    _ = countPerChunk * chunkCount := Nat.mul_comm ..
    _ ≤ BATCH_LIMIT := hbudget

/-- **The answer comes back**: whatever the service answers, the host reads what it
    would have read from the tool. -/
theorem respond_read {pys : Interpreter} {env : Envelope} (hpy : DIGITS ≤ py.digits) (hpys : DIGITS ≤ pys.digits)
    (hc : args.Carried ch) (hb : args.batch.Checked) (h : ChunkService.Answers args.call env) :
    ∃ frame, respond pys args.headers.direction env = .ok frame ∧ frame.length ≤ BODY_LIMIT ∧
      readAnswer py args frame = answerOf env := by
  obtain ⟨transferId, requestDigest, offset, batch⟩ := args
  cases env with
  | error code =>
      have hcode : ascii code ∈ CODES := List.mem_map.mpr ⟨code, h, rfl⟩
      have hencode := (fits_errorAnswer hcode pys hpys).1
      refine ⟨_, ?_, frame_bounded hencode, read_error hpy hcode⟩
      unfold respond
      simp only [if_pos (List.contains_iff_mem.mpr h), hencode]
  | success r =>
      cases r with
      | push r =>
          obtain ⟨verified, accepted⟩ := r
          obtain ⟨xs, hxs, haccepted, hverified⟩ := h
          cases hb with
          | pull => exact absurd hxs nofun
          | @push chunks parts hholds hsized hsome =>
              obtain rfl := Option.some.inj hxs
              rw [List.length_map] at haccepted
              rw [announced_chunks] at hverified
              have hpos : 1 ≤ chunks.length := hholds.length_eq ▸ List.length_pos_iff.mpr hsome
              have hfew : chunks.length ≤ 64 := hholds.length_eq ▸ hsized.few
              have hend := within_digits hc ((counts_flatten hholds).trans_le hsized.small)
              have hencode := (fits_pushAnswer hend hpos hfew pys hpys).1
              obtain rfl : accepted = chunks.length := haccepted
              obtain rfl : verified = offset + (chunks.map ChunkItem.count).sum := hverified
              refine ⟨_, ?_, frame_bounded hencode, read_push hpy rfl hpos hfew hend⟩
              unfold respond
              simp only [Arguments.headers, hencode]
      | pull r =>
          obtain ⟨chunks, verified⟩ := r
          obtain ⟨countPerChunk, chunkCount, parts, hnone, hper, hcount, hfew, hsmall, hbudget, rfl, hcut, rfl⟩ := h
          cases hb with
          | push => exact absurd hnone nofun
          | pull =>
              obtain rfl := Int.ofNat.inj (Option.some.inj hper)
              obtain rfl := Int.ofNat.inj (Option.some.inj hcount)
              have hsized := cut_sized hcut hfew hsmall hbudget
              have hend := within_digits hc hsized.small
              have hencode := (fits_pullAnswer hsized (show 0 < 10 ^ 129 by decide) hend pys hpys).1
              refine ⟨_, ?_, frame_bounded hencode, read_pull hpy rfl hsized hend hcut⟩
              unfold respond
              simp only [Arguments.headers, Arguments.call, Int.toNat_natCast, decodeAll_place,
                pullItems_place, hencode]

end Answers

/-! ## The two ways -/

section Paths

variable {Time Owner : Type} [LinearOrder Time] [DecidableEq Owner] {ch : Channel} {server : Server}
variable {session : Session Time Owner} {sdk : Sdk} {args : Arguments} {t : Task}

/-- What the host does not let out is not served. -/
theorem checkCall_some {answer : Answer} (h : checkCall ch args = some answer) : answer.served = false := by
  simp only [checkCall] at h
  split at h
  · obtain rfl := Option.some.inj h
    rfl
  · split at h
    · obtain rfl := Option.some.inj h
      rfl
    · split at h
      · obtain rfl := Option.some.inj h
        rfl
      · split at h
        · obtain rfl := Option.some.inj h
          rfl
        · exact absurd h nofun

/-- A call of the tool that is served: it got through, and its answer came back. -/
theorem jsonCall_served (h : (jsonCall ch server session sdk args t).1.served = true) :
    ∃ target env t', ch.lets (jsonPairs ch) = true ∧
      Gate.admit server.gate session (jsonScope ch server session) (sdk.body args) = .ok target ∧
      target.transfer = true ∧ ch.server = server.identity ∧ invoke server.service args.call t = (some env, t') ∧
      jsonCall ch server session sdk args t = (answerOf env, t') := by
  simp only [jsonCall] at h ⊢
  split at h
  · exact absurd h nofun
  next hlets =>
    split at h
    · exact absurd h nofun
    next target hadmit =>
      split at h
      · exact absurd h nofun
      next hcarried =>
        split at h
        · exact absurd h nofun
        next env t' hinvoke =>
          split at h
          · exact absurd h nofun
          next hreturns =>
            split at h
            · exact absurd h nofun
            next hinstance =>
              split at h
              · exact absurd h nofun
              next hvalid =>
                have htransfer : target.transfer = true := by simpa using (not_or.mp hcarried).1
                refine ⟨target, env, t', by simpa using hlets, hadmit, htransfer, not_not.mp hinstance, hinvoke, ?_⟩
                simp only [if_neg hlets, if_neg hcarried, if_neg hreturns, if_neg hinstance, if_neg hvalid]

/-- A binary request that is served: its headers were sent, and read at the endpoint. -/
theorem binaryCall_served (h : (binaryCall ch server session args t).1.served = true) :
    ch.lets (binaryPairs ch args) = true ∧ ∃ read, requestHeaders (headersOf (binaryPairs ch args)) = .ok read := by
  simp only [binaryCall] at h
  split at h
  · exact absurd h nofun
  · split at h
    · exact absurd h nofun
    next hlets =>
      refine ⟨by simpa using hlets, ?_⟩
      split at h
      · exact absurd h nofun
      · split at h
        · exact absurd h nofun
        next call hcall =>
          cases hread : requestHeaders (headersOf (binaryPairs ch args)) with
          | ok read => exact ⟨read, rfl⟩
          | error e =>
              simp only [endpoint, chunkCall, hread] at hcall
              split at hcall
              · exact absurd hcall nofun
              · split at hcall
                · exact absurd hcall nofun
                · split at hcall
                  · exact absurd hcall nofun
                  · exact absurd hcall nofun

/-- What a binary request that is served says fits into headers. -/
theorem binaryCall_carried (h : (binaryCall ch server session args t).1.served = true) : args.Carried ch := by
  obtain ⟨hlets, read, hread⟩ := binaryCall_served h
  have hsent := List.all_eq_true.mp hlets
  have hascii : ∀ p ∈ binaryPairs ch args, ∀ c ∈ p.2, c < 128 := fun p hp => ch.sendsAscii _ (hsent p hp)
  have hasked : ∀ p ∈ askedPairs args.headers, p ∈ binaryPairs ch args := fun p hp =>
    binaryPairs_asked p (List.mem_append_left _ hp)
  have hid := hsent ("x-velo-transfer-id", args.headers.transferId) (hasked _ (by simp [askedPairs]))
  obtain ⟨hsendable, hshort, hhex, hoffset⟩ := requestHeaders_read (binaryPairs_names ch args) hasked hascii hread
  obtain ⟨transferId, requestDigest, offset, batch⟩ := args
  cases batch <;> exact ⟨hid, hsendable, hshort, hhex, hoffset⟩

/-- Where the arguments fit into headers, the two ways agree. -/
theorem agree_carried (hc : args.Carried ch) : Agree ch server session sdk args t := by
  intro hserved
  simp only [adapterCall] at hserved ⊢
  cases hcheck : checkCall ch args with
  | some answer => rfl
  | none =>
      rw [hcheck] at hserved
      have hb := checkCall_none hcheck
      obtain ⟨target, env, t', hlets, hadmit, htransfer, hserver, hinvoke, hjson⟩ := jsonCall_served hserved
      have hsent := binary_sent hc (hserver ▸ server.plain) hlets
      obtain ⟨frame, call, hframe, hsmall, hcall, hsame⟩ := @request_sent ch server args hc hb
      have hbinary : ∃ target, Gate.admit server.gate session (binaryScope ch session args) frame = .ok target :=
        binary_admitted hserver htransfer hsmall hadmit
      obtain ⟨target', hadmit'⟩ := hbinary
      have hinvoke' : invoke server.service call t = (some env, t') := (invoke_same hsame t).trans hinvoke
      obtain ⟨answer, hrespond, hbounded, hread⟩ :=
        respond_read ch.digits server.digits hc hb (invoke_answer hinvoke)
      show binaryCall ch server session args t = jsonCall ch server session sdk args t
      rw [hjson]
      simp only [binaryCall, hframe, hsent, hadmit', hcall, hinvoke', hrespond, hread, hserver, ne_eq,
        not_true_eq_false, Bool.true_eq_false, if_false, if_neg (Nat.not_lt.mpr hbounded)]

/-- **The two ways agree** exactly where the arguments fit into headers: what is answered
    over the tool is answered over the endpoint, and the task is the same afterwards. -/
theorem binary_agrees (ch : Channel) (server : Server) (session : Session Time Owner) (sdk : Sdk) (args : Arguments)
    (t : Task) (hserved : (adapterCall (jsonCall ch server session sdk) ch args t).1.served = true) :
    adapterCall (binaryCall ch server session) ch args t = adapterCall (jsonCall ch server session sdk) ch args t ↔
      args.Carried ch := by
  constructor
  · intro hsame
    rw [← hsame] at hserved
    simp only [adapterCall] at hserved
    cases hcheck : checkCall ch args with
    | some answer =>
        rw [hcheck] at hserved
        exact absurd (hserved.symm.trans (checkCall_some hcheck)) nofun
    | none =>
        rw [hcheck] at hserved
        exact binaryCall_carried hserved
  · exact fun hc => agree_carried hc hserved

end Paths

/-! ## A transfer identity with a comma -/

def sampleChannel : Channel where
  py := sampleGate.py
  digits := by decide
  sends := fun t => t.all fun c => 33 ≤ c && c < 127
  sendsAscii := fun t h c hc => by
    have hc := List.all_eq_true.mp h c hc
    simp only [Bool.and_eq_true, decide_eq_true_eq] at hc
    omega
  sendsPlain := fun t h => List.all_eq_true.mpr fun c hc => by
    have hc := h.visible c hc
    simp only [Bool.and_eq_true, decide_eq_true_eq]
    omega
  sessionId := ascii "s1"
  server := ascii "instance"
  protocolVersion := some (ascii "2025-06-18")
  rawChunkBytes := 1048576

def sampleServer : Server where
  py := sampleGate.py
  digits := by decide
  identity := ascii "instance"
  plain := ⟨by decide, by decide⟩
  mcpPath := ascii "/mcp"
  service :=
    { closed := false, configured := true, opening := none
      policy := { policyId := ascii "policy", maxChunkBytes := 1048576, maxBatchChunks := some 8
                  stateFits := fun _ _ => true } }

def sampleSession : Session Nat Nat where
  manager := oneSession
  bindings := Bindings.initialize (Bindings.new.open (ascii "s1") 7) (ascii "s1")
  owner := 7

def sampleSdk : Sdk where
  body := fun args => (render (message args)).map UInt8.ofNat
  carries := fun _ => true
  returns := fun _ => true

/-- A package of three bytes, which is ready to be pulled. -/
def threeBytes : Task :=
  .pull
    { disk :=
        { state :=
            { transferId := ascii "trial", requestDigest := List.replicate 64 97
              budget := { maxFiles := 1, maxMetadataBytes := 1024, maxLogicalBytes := 1024, maxPackageBytes := 1024
                          minFreeBytes := 0, maxChunkBytes := 1048576 }
              deadlineMonotonic := 1000, phase := .sourceReady, packageSize := 3, cancelled := false, offset := 0
              unreceived := rfl (a := Nat.zero) }
          bundle := some [1, 2, 3] }
      clock := 0, free := 0, script := [] }

def pullOf (transferId : String) : Arguments :=
  { transferId := ascii transferId, requestDigest := List.replicate 64 97, offset := 0, batch := .pull 2 2 }

/-- The package is pulled the same way over both. -/
theorem binary_agrees_pull :
    adapterCall (binaryCall sampleChannel sampleServer sampleSession) sampleChannel (pullOf "trial") threeBytes =
      adapterCall (jsonCall sampleChannel sampleServer sampleSession sampleSdk) sampleChannel (pullOf "trial")
        threeBytes :=
  (binary_agrees sampleChannel sampleServer sampleSession sampleSdk (pullOf "trial") threeBytes (by decide +kernel)).mpr
    ⟨by decide +kernel, ⟨by decide +kernel, by decide +kernel, by decide +kernel, by decide +kernel⟩,
      by decide +kernel, by decide +kernel, by decide +kernel⟩

/-- The service refuses the identity on one way, the endpoint refuses the request on the
    other. -/
theorem comma_answers :
    (adapterCall (jsonCall sampleChannel sampleServer sampleSession sampleSdk) sampleChannel (pullOf "a,b")
      threeBytes).1 = .serviceError (attempted (ascii "invalid_transfer_id")) ∧
    (adapterCall (binaryCall sampleChannel sampleServer sampleSession) sampleChannel (pullOf "a,b")
      threeBytes).1 = .fault (attempted (ascii "invalid_frame")) := by
  decide +kernel

/-- **The two ways disagree** about a transfer identity with a comma. -/
theorem comma_disagrees : ¬ Agree sampleChannel sampleServer sampleSession sampleSdk (pullOf "a,b") threeBytes := by
  intro h
  have hjson := comma_answers.1
  have hsame := congrArg Prod.fst (h (by rw [hjson]; rfl))
  rw [hjson, comma_answers.2] at hsame
  exact absurd hsame nofun

end BinaryChannel
