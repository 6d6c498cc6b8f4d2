import VeloTransfer.FlowHostRunProofs
import VeloTransfer.Sha256Proofs

/-! # The report of the flow host — the summary and its fallbacks

    After a run the host closes its files, writes a summary to result.json and
    prints a line.  The summary drops its sample rows one by one until it is small
    enough; where it never is, a shorter one takes its place.  Every text that the
    server chose ends up in one of these documents, so each must be written before
    it is encoded again. -/

namespace FlowHost

open EffectPrograms Program CanonicalJson BoundedJson JsonDict

/-! ## The summary -/

def RESULT_JSON_LIMIT : Nat := 16384

def STDOUT_LIMIT : Nat := 4096

def RESULT_SCHEMA : Text := ascii "velo.flow.result.v1"

def EXIT_COMPLETE : Nat := 0

def EXIT_INCOMPLETE : Nat := 2

/-- The directory of a run, which was created for it. -/
structure RunDirectory where
  path : Text
  clean : CleanText path
  short : path.length ≤ 512

/-- A file of the directory. -/
def RunDirectory.file (dir : RunDirectory) (name : String) : Text := dir.path ++ 47 :: ascii name

def Verdict.text : Verdict → Text
  | .complete => ascii "complete"
  | .partially => ascii "partial"
  | .failed => ascii "failed"

/-- A number, or `None`. -/
def countOrNull : Option Nat → Json
  | some n => .int n
  | none => .null

def boolOrNull : Option Bool → Json
  | some b => .bool b
  | none => .null

variable (spec : Spec) (lib : Library) (dir : RunDirectory)

def callCounts (c : Core) : Json := .obj (REQUIRED_TOOLS.map (fun t => (t.name, .int (c.callCounts t))))

/-- The error entry of a summary. -/
def errorField (result : RunResult) : Json :=
  if result.errorCode.any (· ≠ []) ∨ result.secondaryCode.any (· ≠ []) then
    .obj [(ascii "code", textOrNull result.errorCode),
      (ascii "secondary_code", textOrNull result.secondaryCode)]
  else .null

/-- What `finalize` says of the files; the digests are missing where it failed. -/
def fileFacts (sink : Sink) (digests : Option (Text × Text)) : List (Text × Json) :=
  [(ascii "contract_path", .str (dir.file "contract.json")),
    (ascii "calls_path", .str (dir.file "calls.jsonl")), (ascii "calls_bytes", .int sink.callsBytes),
    (ascii "calls_sha256", textOrNull (digests.map Prod.fst)),
    (ascii "rows_path", .str (dir.file "rows.jsonl")), (ascii "rows_bytes", .int sink.rowsBytes),
    (ascii "rows_sha256", textOrNull (digests.map Prod.snd))]

/-- The summary, with the sample rows that are left. -/
def summaryOf (result : RunResult) (facts : List (Text × Json)) (w : World) (samples : List Json) : Json :=
  .obj ([(ascii "schema", .str RESULT_SCHEMA), (ascii "outcome", .str result.outcome.text),
    (ascii "reason", .str result.reason), (ascii "flow_id", .str spec.flowId),
    (ascii "source", textOrNull spec.source), (ascii "last_state", w.core.lastState.getD .null),
    (ascii "result_pages_fetched", .int w.core.pagesFetched),
    (ascii "result_pages_saved", .int w.core.pagesSaved), (ascii "rows_fetched", .int w.core.rowsFetched),
    (ascii "rows_saved", .int w.core.rowsSaved),
    (ascii "next_unread_cursor", textOrNull w.core.nextUnreadCursor),
    (ascii "files_count", countOrNull w.core.filesCount),
    (ascii "files_complete", boolOrNull w.core.filesComplete), (ascii "call_counts", callCounts w.core),
    (ascii "complete", .bool result.complete), (ascii "sample_rows", .arr samples),
    (ascii "warnings_count", .int w.core.warningsCount),
    (ascii "warnings_source", .str (dir.file "calls.jsonl")),
    (ascii "calls_complete", .bool w.sink.callsComplete), (ascii "error", errorField result)]
      ++ facts ++ [(ascii "sample_omitted_count", .int (w.core.rowsSaved - samples.length))])

/-- The loop of `build_summary`, with the number of samples that are left. -/
def fitted (build : List Json → Json) (samples : List Json) : Nat → Flow Json
  | 0 => do
      let raw ← python (encode (build (samples.take 0)))
      if raw.length ≤ RESULT_JSON_LIMIT then pure (build (samples.take 0))
      else stop .failed "summary_overflow"
  | left + 1 => do
      let raw ← python (encode (build (samples.take (left + 1))))
      if raw.length ≤ RESULT_JSON_LIMIT then pure (build (samples.take (left + 1)))
      else fitted build samples left

/-- `build_summary`. -/
def buildSummary (result : RunResult) (facts : List (Text × Json)) : Flow Json := do
  let w ← read
  fitted (summaryOf spec dir result facts w) w.core.sampleRows w.core.sampleRows.length

/-- The bounded fallback. -/
def fallbackSummary (w : World) (reason : Text) : Json :=
  .obj [(ascii "schema", .str RESULT_SCHEMA), (ascii "outcome", .str (ascii "failed")),
    (ascii "reason", .str reason), (ascii "flow_id", .str spec.flowId),
    (ascii "rows_saved", .int w.core.rowsSaved), (ascii "complete", .bool false),
    (ascii "calls_complete", .bool w.sink.callsComplete), (ascii "call_counts", callCounts w.core),
    (ascii "calls_path", .str (dir.file "calls.jsonl")), (ascii "rows_path", .str (dir.file "rows.jsonl"))]

/-- What is left where not even the fallback fits. -/
def shortSummary (reason : Text) : Json :=
  .obj [(ascii "schema", .str RESULT_SCHEMA), (ascii "outcome", .str (ascii "failed")),
    (ascii "reason", .str reason), (ascii "flow_id", .str spec.flowId), (ascii "complete", .bool false)]

/-! ## The line that is printed -/

/-- The entries of a value under some keys. -/
def copied (v : Json) (keys : List String) : Except String (List (Text × Json)) :=
  keys.mapM (fun key => (item v key).map (fun w => (ascii key, w)))

/-- `stdout_summary`. -/
def stdoutSummary (summary : Json) (exitCode : Nat) (resultPath : Option Text) : Flow Json := do
  let head ← python (copied summary ["schema", "outcome", "reason", "flow_id", "rows_saved", "complete"])
  let counts ← python (item summary "call_counts")
  let payload := .obj (head ++ [(ascii "result_path", textOrNull resultPath),
    (ascii "call_counts", counts), (ascii "exit_code", .int exitCode)])
  let raw ← python (encode payload)
  stopIf (raw.length > STDOUT_LIMIT) .failed "stdout_overflow"
  pure payload

/-- `_emit`. -/
def emit (payload : Json) : Flow Unit := do
  let raw ← python (line payload)
  update (fun w => { w with emitted := w.emitted ++ [raw] })

def overflowLine (resultPath : Option Text) : Json :=
  .obj [(ascii "schema", .str RESULT_SCHEMA), (ascii "outcome", .str (ascii "failed")),
    (ascii "reason", .str (ascii "stdout_overflow")), (ascii "flow_id", .str spec.flowId),
    (ascii "complete", .bool false), (ascii "result_path", textOrNull resultPath),
    (ascii "exit_code", .int EXIT_INCOMPLETE)]

/-- `RunStop`, `TypeError` and `ValueError`, which `UnicodeEncodeError` is one of. -/
def isReported : Failure → Bool
  | .stop _ _ => true
  | .escaped name => name == "TypeError" || name == "ValueError" || name == "UnicodeEncodeError"

/-- The end of `execute`: one line, and the exit code. -/
def finish (result : RunResult) (summary : Json) (resultPath : Option Text) : Flow Nat :=
  handle (do
      let exitCode := if result.complete then EXIT_COMPLETE else EXIT_INCOMPLETE
      let payload ← stdoutSummary summary exitCode resultPath
      emit payload
      pure exitCode)
    (fun e =>
      if isReported e then do
        emit (overflowLine spec resultPath)
        pure EXIT_INCOMPLETE
      else raise e)

/-! ## The end of a run -/

/-- Write result.json; whether it was written. -/
def saveResult (raw : Bytes) : Flow Bool := do
  let w ← read
  if w.disk.resultBlocked then pure false
  else do
    update (fun w => { w with resultFile := some raw })
    pure true

/-- A `RunStop` as a value. -/
def attempt {α : Type} (m : Flow α) : Flow (Text ⊕ α) :=
  handle (m >>= fun a => pure (.inr a)) (fun e =>
    match e with
    | .stop _ reason => pure (.inl reason)
    | e => raise e)

def failedWith (reason : Text) : RunResult :=
  { outcome := .failed, reason := reason, complete := false, errorCode := some reason, secondaryCode := none }

/-- Where the session did not close. -/
def afterClose (closeFails : Bool) (result : RunResult) : RunResult :=
  if closeFails then
    if result.complete then
      { outcome := .partially, reason := ascii "close_failed", complete := false
        errorCode := some (ascii "close_failed"), secondaryCode := none }
    else { result with secondaryCode := some (ascii "close_failed") }
  else result

/-- Close the files; whether one of them does not close. -/
def closeFiles : Flow Bool := do
  let callsFail ← diskFails
  if callsFail then pure true else diskFails

/-- `finalize`: the result and what is said of the files. -/
def finalize (result : RunResult) : Flow (RunResult × List (Text × Json)) := do
  let fails ← closeFiles
  let w ← read
  pure (if fails then (failedWith (ascii "io_error"), fileFacts dir w.sink none)
    else (result, fileFacts dir w.sink
      (some (Sha256.hexdigest w.sink.calls.flatten, Sha256.hexdigest w.sink.rows.flatten))))

/-- The summary that takes the place of one that does not fit. -/
def reportFallback (reason : Text) : Flow Nat := do
  let w ← read
  let full ← python (encode (fallbackSummary spec dir w reason))
  let summary := if full.length > RESULT_JSON_LIMIT then shortSummary spec reason
    else fallbackSummary spec dir w reason
  let raw ← python (encode summary)
  let saved ← saveResult raw
  finish spec (failedWith reason) summary (if saved then some (dir.file "result.json") else none)

/-- Where result.json cannot be written. -/
def reportUnsaved (facts : List (Text × Json)) : Flow Nat := do
  let built ← attempt (buildSummary spec dir (failedWith (ascii "io_error")) facts)
  match built with
  | .inr summary => finish spec (failedWith (ascii "io_error")) summary none
  | .inl _ => finish spec (failedWith (ascii "io_error")) (shortSummary spec (ascii "io_error")) none

/-- The report of a result. -/
def report (result : RunResult) (facts : List (Text × Json)) : Flow Nat := do
  let built ← attempt (buildSummary spec dir result facts)
  match built with
  | .inl reason => reportFallback spec dir reason
  | .inr summary => do
      let raw ← python (encode summary)
      let saved ← saveResult raw
      if saved then finish spec result summary (some (dir.file "result.json"))
      else reportUnsaved spec dir facts

/-- `execute`, from the session that is ready. -/
def execute (closeFails : Bool) : Flow Nat := do
  let result ← run spec lib
  let closed ← finalize dir (afterClose closeFails result)
  report spec dir closed.1 closed.2

end FlowHost
