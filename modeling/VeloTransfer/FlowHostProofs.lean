import Mathlib
import VeloTransfer.EffectProofs
import VeloTransfer.JsonDictProofs

/-! # The flow host — waiting for a flow and paging its results

    One run asks a server for the metadata of three tools, polls the state of a
    flow until it is finished, reads its results page by page, and lists its
    files.  Raw answers and rows are appended to files of their own.

    The server is an event script: an event is how long an answer takes and what
    it is.  Payloads are arbitrary JSON, so each field that is read may be missing
    or of another type; what Python raises there escapes the run.  Times are
    nanoseconds. -/

namespace FlowHost

open EffectPrograms Program CanonicalJson JsonDict

abbrev Bytes := List UInt8

/-! ## Values -/

def FIRST_CURSOR : Text := ascii "v1:0"

def second : Nat := 1000000000

def STATUS_BACKOFF : List Nat := [1 * second, 2 * second, 4 * second, 8 * second, 10 * second]

def LIST_TOOLS_MAX_PAGES : Nat := 16

def LOG_RECORD_LIMIT : Nat := 1048576

def LOG_SLOT_RESERVE : Nat := 1048576

def SAMPLE_ROW_LIMIT : Nat := 4096

def SUMMARY_CODE_LIMIT : Nat := 128

/-- How a run ends. -/
inductive Verdict where
  | complete
  | partially
  | failed
deriving Repr, DecidableEq

/-- A structured end of the run, or an exception that nothing handles. -/
inductive Failure where
  | stop (outcome : Verdict) (reason : Text)
  | escaped (name : String)
deriving Repr, DecidableEq

/-- The tools of a run, under the names they are called by. -/
inductive Tool where
  | getFlowStatus
  | getFlowResults
  | listFlowFiles
deriving Repr, DecidableEq

def Tool.name : Tool → Text
  | .getFlowStatus => ascii "get_flow_status"
  | .getFlowResults => ascii "get_flow_results"
  | .listFlowFiles => ascii "list_flow_files"

def REQUIRED_TOOLS : List Tool := [.getFlowStatus, .getFlowResults, .listFlowFiles]

/-- `value[key]`. -/
def item (v : Json) (key : String) : Except String Json :=
  match v with
  | .obj fs =>
      match fs.lookup (ascii key) with
      | some w => .ok w
      | none => .error "KeyError"
  | _ => .error "TypeError"

/-- What an iteration over the value yields. -/
def members : Json → Except String (List Json)
  | .arr xs => .ok xs
  | .obj fs => .ok (fs.map (fun f => .str f.1))
  | .str s => .ok (s.map (fun c => .str [c]))
  | _ => .error "TypeError"

/-- The constants that `allow_nan=False` refuses. -/
def isConstant (token : Text) : Bool :=
  token == ascii "NaN" || token == ascii "Infinity" || token == ascii "-Infinity"

mutual

/-- `dumps` raises no `ValueError` on the value. -/
def isWritable : Json → Bool
  | .float token => !isConstant token
  | .arr xs => allWritable xs
  | .obj fs => fieldsWritable fs
  | _ => true

def allWritable : List Json → Bool
  | [] => true
  | x :: xs => isWritable x && allWritable xs

def fieldsWritable : List (Text × Json) → Bool
  | [] => true
  | (_, v) :: fs => isWritable v && fieldsWritable fs

end

/-- `json.dumps(value, allow_nan=False).encode()`, with what it may raise. -/
def encode (v : Json) : Except String Bytes :=
  if isWritable v = false then .error "ValueError"
  else
    match encodeUtf8 (render v) with
    | none => .error "UnicodeEncodeError"
    | some raw => .ok raw

/-- A line of a JSON lines file. -/
def line (v : Json) : Except String Bytes := (encode v).map (· ++ [10])

/-- `str`, or `None` as JSON writes them. -/
def textOrNull : Option Text → Json
  | some s => .str s
  | none => .null

/-! ## What a run is given -/

/-- A validated request. -/
structure Spec where
  flowId : Text
  source : Option Text
  pageSize : Nat
  sampleFields : List Text
  sampleRows : Nat
  requestTimeout : Nat
  maxStatusCalls : Nat
  maxPages : Nat
  maxResultBytes : Nat
  maxLogBytes : Nat
  flowIdShort : flowId.length ≤ 256
  sourceShort : ∀ s, source = some s → s.length ≤ 256
  pageSizeSmall : pageSize ≤ 250
  resultBytesSmall : maxResultBytes ≤ 268435456
  logBytesSmall : maxLogBytes ≤ 268435456
  somePages : 1 ≤ maxPages

/-- The schema library: whether a schema is one, and whether it admits a value;
    `none` where the evaluation raises.  `floatIs` is how Python compares a
    fractional number with an integer. -/
structure Library where
  checkSchema : Json → Bool
  isValid : Json → Json → Option Bool
  floatIs : Text → Int → Bool

/-- The answer to a call, as the SDK has parsed it. -/
structure Response where
  isError : Bool
  structuredContent : Option Json
  content : Json
  metadata : Json
  others : List (Text × Json)

/-- `model_dump(mode="json", by_alias=True)`. -/
def Response.modelDump (r : Response) : Json :=
  .obj ([(ascii "_meta", r.metadata), (ascii "content", r.content),
    (ascii "structuredContent", r.structuredContent.getD .null), (ascii "isError", .bool r.isError)]
      ++ r.others)

structure ToolInfo where
  name : Text
  inputSchema : Json
  outputSchema : Option Json

/-- A page of tool metadata. -/
structure ToolsPage where
  tools : List ToolInfo
  nextCursor : Option Text

/-- What the outside does at one request: the time before it, the time it takes,
    and the answer; `none` where the call raises. -/
structure Event where
  wait : Nat
  took : Nat
  page : Option ToolsPage
  result : Option Response

structure Request where
  tool : Tool
  args : Json

/-! ## The state of a run -/

/-- `OutputSink`, with the lines of its files. -/
structure Sink where
  contract : Option Json
  calls : List Bytes
  callsBytes : Nat
  callsComplete : Bool
  rows : List Bytes
  rowsBytes : Nat

/-- The counters of `FlowHostCoordinator`. -/
structure Core where
  callCounts : Tool → Nat
  validators : Option (Tool → Json × Json)
  warningsCount : Nat
  pagesFetched : Nat
  pagesSaved : Nat
  rowsFetched : Nat
  rowsSaved : Nat
  nextUnreadCursor : Option Text
  filesCount : Option Nat
  filesComplete : Option Bool
  sampleRows : List Json
  lastState : Option Json
  downgrade : Option (Verdict × Text)

/-- What the disk will do: whether the two files that are written at once can be,
    and how the other operations go. -/
structure Disk where
  contractBlocked : Bool
  resultBlocked : Bool
  faults : List Bool

/-- A run: its clock and deadline, what the server and the disk will do, what was
    sent to the server and received from it, the coordinator with its files, and
    what was reported. -/
structure World where
  clock : Nat
  deadline : Nat
  script : List Event
  disk : Disk
  sent : List Request
  received : List (Tool × Response)
  sink : Sink
  core : Core
  resultFile : Option Bytes
  emitted : List Bytes

abbrev Flow (α : Type) := Program World Failure α

def stop {α : Type} (outcome : Verdict) (reason : String) : Flow α := raise (.stop outcome (ascii reason))

def stopIf (c : Prop) [Decidable c] (outcome : Verdict) (reason : String) : Flow Unit :=
  raiseIf c (.stop outcome (ascii reason))

/-- A Python expression whose exception nothing handles. -/
def python {α : Type} (x : Except String α) : Flow α :=
  match x with
  | .ok a => pure a
  | .error name => raise (.escaped name)

def setCore (f : Core → Core) : Flow Unit := update (fun w => { w with core := f w.core })

def setSink (f : Sink → Sink) : Flow Unit := update (fun w => { w with sink := f w.sink })

/-- The next operation on the disk fails. -/
def diskFails : Flow Bool := fun w =>
  match w.disk.faults with
  | [] => (.done false, w)
  | fails :: rest => (.done fails, { w with disk := { w.disk with faults := rest } })

/-- A write to an open file. -/
def write : Flow Unit := do
  let fails ← diskFails
  stopIf (fails = true) .failed "io_error"

variable (spec : Spec) (lib : Library)

/-! ## One call -/

/-- The next event; without one the server is gone. -/
def nextEvent : Flow Event := fun w =>
  match w.script with
  | [] => (.done { wait := 0, took := 0, page := none, result := none }, w)
  | e :: rest => (.done e, { w with clock := w.clock + e.wait, script := rest })

def World.remaining (w : World) : Nat := w.deadline - w.clock

def pass (time : Nat) : Flow Unit := update (fun w => { w with clock := w.clock + time })

/-- `_bounded`, around a request that leaves its trace with the server. -/
def bounded (send : World → World) : Flow Event := do
  let e ← nextEvent
  let w ← read
  stopIf (w.remaining = 0) .partially "deadline_exceeded"
  update send
  let timeout := min w.remaining spec.requestTimeout
  pass (min e.took timeout)
  if e.took ≤ timeout then pure e
  else if w.remaining ≤ spec.requestTimeout then stop .partially "deadline_exceeded"
  else stop .failed "request_timeout"

/-- The line of a call in the log. -/
def record (tool : Tool) (args : Json) (r : Response) : Json :=
  .obj [(ascii "name", .str tool.name), (ascii "args", args), (ascii "response", r.modelDump)]

/-- The line that stands for a record that is too long. -/
def marker (tool : Tool) (args : Json) : Json :=
  .obj [(ascii "name", .str tool.name), (ascii "args", args), (ascii "response_omitted", .bool true),
    (ascii "raw_completeness", .str (ascii "unknown")),
    (ascii "reason", .str (ascii "raw_record_too_large"))]

def Sink.addCall (raw : Bytes) (s : Sink) : Sink :=
  { s with calls := s.calls ++ [raw], callsBytes := s.callsBytes + raw.length }

def Sink.incomplete (s : Sink) : Sink := { s with callsComplete := false }

/-- `append_call`. -/
def appendCall (tool : Tool) (args : Json) (r : Response) : Flow Unit := do
  let full ← python (line (record tool args r))
  if full.length ≤ LOG_RECORD_LIMIT then do
    write
    setSink (Sink.addCall full)
  else do
    let short ← python (line (marker tool args))
    write
    setSink (Sink.addCall short)
    setSink Sink.incomplete
    stop .failed "raw_record_too_large"

/-- The error code of an answer, when it is short enough. -/
def errorCode (payload : Option Json) : Except String Text :=
  match payload.bind (get · "code") with
  | some (.str code) =>
      if code = [] then .ok (ascii "tool_error")
      else
        match encodeUtf8 code with
        | none => .error "UnicodeEncodeError"
        | some raw => .ok (if raw.length ≤ SUMMARY_CODE_LIMIT then code else ascii "tool_error")
  | _ => .ok (ascii "tool_error")

/-- Whether the value is this text. -/
def isText (v : Option Json) (s : Text) : Bool :=
  match v with
  | some (.str t) => t == s
  | _ => false

/-- A schema check that may raise. -/
def admits (schema v : Json) (reason : String) : Flow Unit :=
  match lib.isValid schema v with
  | none => raise (.escaped "ValidationFault")
  | some valid => stopIf (valid = false) .failed reason

/-- The validators of a tool. -/
def schemas (tool : Tool) : Flow (Json × Json) := do
  let w ← read
  match w.core.validators with
  | none => raise (.escaped "KeyError")
  | some f => pure (f tool)

/-- `_checked`. -/
def checked (r : Response) (tool : Tool) : Flow Json :=
  if r.isError then do
    let code ← python (errorCode r.structuredContent)
    raise (.stop .failed code)
  else
    match r.structuredContent with
    | some (.obj fs) => do
        stopIf (isText (get (.obj fs) "operation") tool.name = false ∨
          isText (get (.obj fs) "status") (ascii "success") = false) .failed "protocol_error"
        let validators ← schemas tool
        admits lib validators.2 (.obj fs) "schema_mismatch"
        pure (.obj fs)
    | _ => stop .failed "protocol_error"

def Core.count (tool : Tool) (c : Core) : Core :=
  { c with callCounts := fun t => if t = tool then c.callCounts t + 1 else c.callCounts t }

def World.send (tool : Tool) (args : Json) (w : World) : World :=
  { w with sent := w.sent ++ [{ tool := tool, args := args }] }

def World.receive (tool : Tool) (r : Response) (w : World) : World :=
  { w with received := w.received ++ [(tool, r)] }

/-- An answer that arrived is logged and checked. -/
def answered (tool : Tool) (args : Json) : Option Response → Flow Json
  | none => stop .failed "call_failed"
  | some r => do
      update (World.receive tool r)
      appendCall tool args r
      checked lib r tool

/-- `_call`. -/
def call (tool : Tool) (args : Json) : Flow Json := do
  let w ← read
  stopIf (w.sink.callsBytes + LOG_SLOT_RESERVE > spec.maxLogBytes) .partially "log_budget"
  let validators ← schemas tool
  admits lib validators.1 args "invalid_arguments"
  setCore (Core.count tool)
  let e ← bounded spec (World.send tool args)
  answered lib tool args e.result

/-! ## The contract -/

/-- The tools of a page, none of which may be known already. -/
def addTools : List ToolInfo → List ToolInfo → Flow (List ToolInfo)
  | found, [] => pure found
  | found, t :: ts => do
      stopIf (∃ u ∈ found, u.name = t.name) .failed "duplicate_tool"
      addTools (found ++ [t]) ts

def findTool (found : List ToolInfo) (tool : Tool) : Option ToolInfo :=
  found.find? (fun t => t.name == tool.name)

def allFound (found : List ToolInfo) : Bool := REQUIRED_TOOLS.all (fun t => (findTool found t).isSome)

/-- The loop over the pages of tool metadata. -/
def listTools : Nat → List ToolInfo → List Text → Flow (List ToolInfo)
  | 0, _, _ => stop .failed "tools_missing"
  | pages + 1, found, seen => do
      let e ← bounded spec id
      match e.page with
      | none => stop .failed "call_failed"
      | some page => do
          let found ← addTools found page.tools
          match page.nextCursor with
          | none => pure found
          | some cursor =>
              if allFound found then pure found
              else if cursor ∈ seen then stop .failed "protocol_error"
              else listTools pages found (cursor :: seen)

/-- The two schemas of a tool, checked. -/
def contractOf (found : List ToolInfo) (tool : Tool) : Flow (Json × Json) :=
  match findTool found tool with
  | none => stop .failed "tools_missing"
  | some t =>
      match t.outputSchema with
      | none => stop .failed "schema_invalid"
      | some output =>
          if lib.checkSchema t.inputSchema && lib.checkSchema output then pure (t.inputSchema, output)
          else stop .failed "schema_invalid"

def contractField (tool : Tool) (pair : Json × Json) : Text × Json :=
  (tool.name, .obj [(ascii "inputSchema", pair.1), (ascii "outputSchema", pair.2)])

/-- `write_contract`; a file that cannot be created raises no `OSError`. -/
def writeContract (contract : Json) : Flow Unit := do
  let w ← read
  raiseIf (w.disk.contractBlocked = true) (.escaped "SpecError")
  raiseIf (encodeUtf8 (render contract) = none) (.escaped "UnicodeEncodeError")
  write
  setSink (fun s => { s with contract := some contract })

def pairs (status results files : Json × Json) : Tool → Json × Json
  | .getFlowStatus => status
  | .getFlowResults => results
  | .listFlowFiles => files

/-- `_load_contract`. -/
def loadContract : Flow Unit := do
  let found ← listTools spec LIST_TOOLS_MAX_PAGES [] []
  stopIf (allFound found = false) .failed "tools_missing"
  let status ← contractOf lib found .getFlowStatus
  let results ← contractOf lib found .getFlowResults
  let files ← contractOf lib found .listFlowFiles
  setCore (fun c => { c with validators := some (pairs status results files) })
  writeContract (.obj [contractField .getFlowStatus status, contractField .getFlowResults results,
    contractField .listFlowFiles files])

/-! ## Waiting -/

def flowArgs : Json := .obj [(ascii "flow_id", .str spec.flowId)]

/-- `len(payload.get("warnings", []))`, added up. -/
def addWarnings (payload : Json) : Flow Unit := do
  let warnings ← python (members ((get payload "warnings").getD (.arr [])))
  setCore (fun c => { c with warningsCount := c.warningsCount + warnings.length })

/-- The pause before the next poll. -/
def backOff (index : Nat) : Flow Unit := do
  let w ← read
  stopIf (w.remaining = 0) .partially "deadline_exceeded"
  pass (min (STATUS_BACKOFF.getD (min index (STATUS_BACKOFF.length - 1)) 0) w.remaining)

/-- `_wait_finished`, with the polls that are left and the ones that were made. -/
def waitFinished : Nat → Nat → Flow Unit
  | 0, _ => stop .partially "status_budget"
  | left + 1, made => do
      let payload ← call spec lib .getFlowStatus (flowArgs spec)
      let state ← python (item payload "state")
      setCore (fun c => { c with lastState := some state })
      addWarnings payload
      let flowId ← python (item payload "flow_id")
      stopIf (isText (some flowId) spec.flowId = false) .failed "protocol_error"
      if isText (some state) (ascii "FINISHED") then pure ()
      else if isText (some state) (ascii "ERROR") then stop .failed "flow_error"
      else do
        backOff made
        waitFinished left (made + 1)

/-! ## Pages -/

def pageArgs (cursor : Option Text) : Json :=
  .obj [(ascii "flow_id", .str spec.flowId), (ascii "source", textOrNull spec.source),
    (ascii "cursor", textOrNull cursor), (ascii "page_size", .int spec.pageSize)]

/-- `value == number`, for an integer. -/
def isNumber (number : Int) : Json → Bool
  | .int i => i == number
  | .bool b => (if b then 1 else 0) == number
  | .float token => lib.floatIs token number
  | _ => false

/-- `bool(value)`. -/
def isTrue : Json → Bool
  | .null => false
  | .bool b => b
  | .int i => i != 0
  | .float token => !lib.floatIs token 0
  | .str s => s != []
  | .arr xs => !xs.isEmpty
  | .obj fs => !fs.isEmpty

/-- The cursor that the answer to a request has to show. -/
def expectedCursor (cursor : Option Text) : Text := cursor.getD FIRST_CURSOR

/-- A page whose shape was checked: its rows, and the cursor of the next one. -/
structure Page where
  rows : List Json
  next : Option Text

/-- The count and the page size of a page; the size is looked up where the count fits. -/
def pageFits (pagination returned : Json) (rows : List Json) : Except String Bool :=
  if isNumber lib rows.length returned then
    (item pagination "page_size").map (isNumber lib spec.pageSize)
  else .ok false

/-- The next cursor of a page, where it is the one the page's kind needs. -/
def nextOf (truncated next : Json) (rows : List Json) : Option (Option Text) :=
  if isTrue lib truncated then
    match next with
    | .str s => if s = [] ∨ rows = [] then none else some (some s)
    | _ => none
  else
    match next with
    | .null => some none
    | _ => none

/-- The checks on the shape of a page. -/
def checkPage (payload : Json) (expected : Text) : Flow Page := do
  let pagination ← python (item payload "pagination")
  let data ← python (item payload "data")
  let echo ← python (item pagination "cursor")
  stopIf (isText (some echo) expected = false) .failed "protocol_error"
  let returned ← python (item pagination "returned")
  let rows ← python (members data)
  let fits ← python (pageFits spec lib pagination returned rows)
  stopIf (fits = false) .failed "protocol_error"
  let truncated ← python (item pagination "truncated")
  let next ← python (item pagination "next_cursor")
  match nextOf lib truncated next rows with
  | none => stop .failed "protocol_error"
  | some cursor => pure { rows := rows, next := cursor }

def Core.fetched (rows : Nat) (c : Core) : Core :=
  { c with pagesFetched := c.pagesFetched + 1, rowsFetched := c.rowsFetched + rows }

def Core.saved (rows : Nat) (c : Core) : Core :=
  { c with pagesSaved := c.pagesSaved + 1, rowsSaved := c.rowsSaved + rows }

def Core.unread (cursor : Option Text) (c : Core) : Core := { c with nextUnreadCursor := cursor }

/-- The lines of a page; what cannot be encoded is a protocol error. -/
def pageLines (rows : List Json) : Flow (List Bytes) :=
  match rows.mapM line with
  | .ok lines => pure lines
  | .error _ => stop .failed "protocol_error"

def Sink.addRow (raw : Bytes) (s : Sink) : Sink :=
  { s with rows := s.rows ++ [raw], rowsBytes := s.rowsBytes + raw.length }

/-- `append_rows_page`. -/
def appendRowsPage : List Bytes → Flow Unit
  | [] => write
  | l :: ls => do
      write
      setSink (Sink.addRow l)
      appendRowsPage ls

/-- The projection of a row on the sample fields. -/
def project (row : Json) : Except String Json :=
  if spec.sampleFields = [] then .ok row
  else
    match row with
    | .obj fs => .ok (.obj (spec.sampleFields.eraseDups.filterMap
        (fun name => (fs.lookup name).map (fun v => (name, v)))))
    | .arr xs =>
        if spec.sampleFields.any (fun name => xs.any (fun x => isText (some x) name)) then .error "TypeError"
        else .ok (.obj [])
    | .str s =>
        if spec.sampleFields.any (fun name => decide (name <:+: s)) then .error "TypeError"
        else .ok (.obj [])
    | _ => .error "TypeError"

/-- One row of `_extend_sample`: the text that json leaves is encoded without a
    handler. -/
def sampleRow (projected : Json) : Flow Unit :=
  if isWritable projected = false then pure ()
  else
    match encodeUtf8 (render projected) with
    | none => raise (.escaped "UnicodeEncodeError")
    | some raw =>
        if raw.length > SAMPLE_ROW_LIMIT then pure ()
        else setCore (fun c => { c with sampleRows := c.sampleRows ++ [projected] })

/-- `_extend_sample`. -/
def extendSample : List Json → Flow Unit
  | [] => pure ()
  | row :: rows => do
      let w ← read
      if w.core.sampleRows.length ≥ spec.sampleRows then pure ()
      else do
        let projected ← python (project spec row)
        sampleRow projected
        extendSample rows

/-- What is done with a page that was checked. -/
def savePage (payload : Json) (page : Page) (echo : Text) : Flow Unit := do
  setCore (Core.fetched page.rows.length)
  addWarnings payload
  let lines ← pageLines page.rows
  let w ← read
  if w.sink.rowsBytes + (lines.map List.length).sum > spec.maxResultBytes then do
    setCore (Core.unread (some echo))
    stop .partially "result_budget"
  else do
    appendRowsPage lines
    setCore (Core.saved page.rows.length)
    extendSample spec page.rows

/-- `_collect_pages`, with the pages that are left and the cursors that were read. -/
def collectPages : Nat → Option Text → List Text → Flow Unit
  | 0, _, _ => pure ()
  | left + 1, cursor, visited => do
      let payload ← call spec lib .getFlowResults (pageArgs spec cursor)
      let page ← checkPage spec lib payload (expectedCursor cursor)
      savePage spec payload page (expectedCursor cursor)
      match page.next with
      | none => setCore (Core.unread none)
      | some next =>
          if next ∈ expectedCursor cursor :: visited then stop .failed "protocol_error"
          else if left = 0 then do
            setCore (Core.unread (some next))
            stop .partially "page_budget"
          else collectPages left (some next) (expectedCursor cursor :: visited)

/-! ## The files and the run -/

def Core.files (count : Nat) (truncated : Bool) (c : Core) : Core :=
  { c with filesCount := some count, filesComplete := some (!truncated)
           downgrade := if truncated then some (.partially, ascii "filelist_truncated") else c.downgrade }

/-- `_list_files`. -/
def listFiles : Flow Unit := do
  let payload ← call spec lib .listFlowFiles (flowArgs spec)
  addWarnings payload
  let data ← python (item payload "data")
  let files ← python (members data)
  let truncated ← python (item payload "truncated")
  setCore (Core.files files.length (isTrue lib truncated))

structure RunResult where
  outcome : Verdict
  reason : Text
  complete : Bool
  errorCode : Option Text
  secondaryCode : Option Text
deriving Repr, DecidableEq

/-- The four phases of a run, and its outcome where none of them stopped it. -/
def phases : Flow RunResult := do
  loadContract spec lib
  waitFinished spec lib spec.maxStatusCalls 0
  collectPages spec lib spec.maxPages none []
  listFiles spec lib
  let w ← read
  let ending := w.core.downgrade.getD (.complete, ascii "finished")
  pure { outcome := ending.1, reason := ending.2, complete := decide (ending.1 = .complete)
         errorCode := none, secondaryCode := none }

/-- `run`. -/
def run : Flow RunResult :=
  handle (phases spec lib) (fun e =>
    match e with
    | .stop outcome reason =>
        pure { outcome := outcome, reason := reason, complete := false, errorCode := some reason
               secondaryCode := none }
    | e => raise e)

/-- Before a run. -/
def start (clock deadline : Nat) (script : List Event) (disk : Disk) : World :=
  { clock := clock, deadline := deadline, script := script, disk := disk, sent := [], received := []
    resultFile := none, emitted := []
    sink := { contract := none, calls := [], callsBytes := 0, callsComplete := true, rows := []
              rowsBytes := 0 }
    core := { callCounts := fun _ => 0, validators := none, warningsCount := 0, pagesFetched := 0
              pagesSaved := 0, rowsFetched := 0, rowsSaved := 0, nextUnreadCursor := none
              filesCount := none, filesComplete := none, sampleRows := [], lastState := none
              downgrade := none } }

end FlowHost
