import VeloTransfer.TargetContextProofs

/-! # The results of a flow — many sources, one list of rows

    An artifact has one result source or several.  A cursor counts over all of the
    selected ones as if they were one list: the tool maps it to a source and an
    offset there, and reads on from source to source until it has one row more than
    a page.

    * `windows_exact` — what is read is a window of the concatenated sources;
    * `yields_results` — a request is answered as `paginate_result` answers it over
      that list;
    * `walk_flow_results` — so the pages are the list, whatever the sources are. -/

namespace McpCore

open CanonicalJson JsonDict EffectPrograms EffectPrograms.Program CursorWalk

/-! ## Arguments and answers -/

/-- What `str.strip` removes. -/
def isStripped (c : Nat) : Bool :=
  (9 ≤ c && c ≤ 13) || (28 ≤ c && c ≤ 32) || c == 0x85 || c == 0xa0 || c == 0x1680 ||
    (0x2000 ≤ c && c ≤ 0x200a) || c == 0x2028 || c == 0x2029 || c == 0x202f || c == 0x205f || c == 0x3000

/-- `_require_text`, of a text. -/
def requireText (value : Text) (field : String) : Except Raised Text :=
  if value.all isStripped then .error (.invalidArgument field "empty" none)
  else if value.any (· < 32) then .error (.invalidArgument field "control_character" none)
  else .ok value

/-- What `or` passes over. -/
def isFalsy : Option Json → Bool
  | none => true
  | some .null => true
  | some (.bool b) => !b
  | some (.int i) => i == 0
  | some (.float token) => token == ascii "0.0" || token == ascii "-0.0"
  | some (.str s) => s.isEmpty
  | some (.arr items) => items.isEmpty
  | some (.obj fields) => fields.isEmpty

def textsOf : List Json → Option (List Text)
  | [] => some []
  | .str s :: rest => (textsOf rest).map (s :: ·)
  | _ :: _ => none

/-- `_string_list`. -/
def stringList (value : Option Json) (field : String) : Except Raised (List Text) :=
  match value with
  | none => .ok []
  | some .null => .ok []
  | some (.arr items) =>
      match textsOf items with
      | some texts => .ok texts
      | none => .error (.backend "read_backend_state" s!"invalid_{field}")
  | some _ => .error (.backend "read_backend_state" s!"invalid_{field}")

/-- The one artifact of a flow. -/
def artifactOf (details : List (Text × Json)) : Except Raised Text := do
  let request := match details.lookup (ascii "request") with
    | some (.obj fields) => fields
    | _ => []
  let own := details.lookup (ascii "artifacts")
  let requested := request.lookup (ascii "artifacts")
  let artifacts := if isFalsy own then (if isFalsy requested then some (.arr []) else requested) else own
  let names ← stringList artifacts "artifacts"
  match names with
  | [artifact] => pure artifact
  | _ => throw (.backend "get_flow_results" "artifact_count")

/-- The sources with results, each once, in the order in which they first come. -/
def knownSources (details : List (Text × Json)) : Except Raised (List Text) := do
  let known ← stringList (details.lookup (ascii "artifacts_with_results")) "artifacts_with_results"
  pure known.eraseDups

/-- `source_suffix`: the artifact as a whole, or a source of it. -/
def sourceSuffix (artifact full : Text) : Except Raised (Option Text) :=
  let leading := artifact ++ ascii "/"
  if full = artifact then .ok none
  else if leading <+: full ∧ full.length > leading.length then .ok (some (full.drop leading.length))
  else .error (.backend "get_flow_results" "source_scope_mismatch")

/-- The part of a name after its last slash. -/
def lastSegment (name : Text) : Text := (name.reverse.takeWhile (· ≠ 47)).reverse

/-- The sources that a request selects. -/
def selectSources (artifact : Text) (known : List Text) (source : Option Text) :
    Except Raised (List (Option Text)) :=
  match source with
  | none => known.mapM (sourceSuffix artifact)
  | some source => do
      let wanted ← requireText source "source"
      if wanted ∈ known then (sourceSuffix artifact wanted).map ([·])
      else
        match known.filter (fun name => lastSegment name = wanted) with
        | [name] => (sourceSuffix artifact name).map ([·])
        | _ => throw (.invalidArgument "source" "unknown" none)

/-! ## The tool -/

structure FlowBackend (σ : Type) where
  target : TargetBackend σ
  getFlowDetails : ClientId → Text → Program (Shared σ) Raised (Option Json)
  getFlowResultCount : ClientId → Text → Text → Option Text → Program (Shared σ) Raised Nat
  getFlowResultsWindow : ClientId → Text → Text → Option Text → Nat → Nat →
    Program (Shared σ) Raised (List Row)

/-- What `_backend_call` makes of an error: the public ones and those of the
    connection stay as they are. -/
def wrapError (operation : String) : Raised → Raised
  | .exception "RpcError" => .exception "RpcError"
  | .exception name => .backend operation name
  | .observation => .backend operation "ObservationError"
  | e => e

section Tool

variable {σ α : Type} (refuse : Scope → Fact → Option Raised) (backend : FlowBackend σ)

/-- `_backend_call`. -/
def backendCall (operation : String) (m : Program (Shared σ) Raised α) : Program (Shared σ) Raised α :=
  handle m (fun e => raise (wrapError operation e))

/-- `flow_read_guard`: an observation that failed or ended is not read under. -/
def flowReadGuard : Program (Shared σ) Raised Unit := fun s =>
  match s.scope with
  | none => (.done (), s)
  | some scope =>
      if scope.isSealed then (.raised .observation, s)
      else if scope.isFailed then (.raised .observation, s)
      else (.done (), s)

/-- `_flow`. -/
def flowDetails (client : ClientId) (flow : Text) : Program (Shared σ) Raised (List (Text × Json)) := do
  let _ ← ofExcept (requireText flow "flow_id")
  flowReadGuard
  let row ← backendCall "get_flow_status" (backend.getFlowDetails client flow)
  match row with
  | none => raise (.notFound "flow" flow)
  | some (.obj fields) => do
      emitFact refuse (.flow "flow.read.metadata" client)
      pure fields
  | some _ => raise (.backend "get_flow_status" "invalid_flow")

/-- The rows of each selected source. -/
def readTotals (client : ClientId) (flow artifact : Text) :
    List (Option Text) → Program (Shared σ) Raised (List Nat)
  | [] => pure []
  | source :: sources => do
      flowReadGuard
      let total ← backendCall "get_flow_results" (backend.getFlowResultCount client flow artifact source)
      emitFact refuse (.flow "flow.results.count" client)
      let totals ← readTotals client flow artifact sources
      pure (total :: totals)

/-- From the source of an offset on, until `count` rows are read. -/
def readWindows (client : ClientId) (flow artifact : Text) :
    List (Option Text × Nat) → Nat → Nat → Program (Shared σ) Raised (List Row)
  | [], _, _ => pure []
  | (source, total) :: sources, offset, count =>
      if offset ≥ total then readWindows client flow artifact sources (offset - total) count
      else do
        flowReadGuard
        let window ← backendCall "get_flow_results"
          (backend.getFlowResultsWindow client flow artifact source offset count)
        emitFact refuse (.flow "flow.results.window" client)
        if window.length ≥ count then pure window
        else do
          let rest ← readWindows client flow artifact sources 0 (count - window.length)
          pure (window ++ rest)

def resultsBase : ResultBase := { operation := ascii "get_flow_results", status := ascii "success", warnings := [] }

/-- The operation of `get_flow_results` on its client. -/
def resultsOperation (flow : Text) (source : Option Text) (cursor : Json) (size : PageSize) (offset : Nat)
    (client : ClientId) : Program (Shared σ) Raised DataResult := do
  let details ← flowDetails refuse backend client flow
  let artifact ← ofExcept (artifactOf details)
  let known ← ofExcept (knownSources details)
  let selected ← ofExcept (selectSources artifact known source)
  emitFact refuse (.flow "flow.results.plan" client)
  let totals ← readTotals refuse backend client flow artifact selected
  if offset > totals.sum then raise (.invalidArgument "cursor" "offset_after_end" none)
  else do
    let rows ← readWindows refuse backend client flow artifact (selected.zip totals) offset (size.val + 1)
    let result ← ofExcept (paginateWindowResult resultsBase rows cursor (.int size.val))
    emitFact refuse (.flow "flow.results.page" client)
    pure result

/-- `get_flow_results`. -/
def getFlowResults (flow : Text) (source : Option Text) (cursor pageSize : Json) :
    Program (World σ) Raised DataResult := do
  let size ← ofExcept (normalizePageSize pageSize)
  let offset ← ofExcept (decodeCursor cursor)
  runWithClient refuse backend.target (resultsOperation refuse backend flow source cursor size offset)

end Tool

/-! ## What a backend that serves an unchanged flow answers -/

/-- In states of `Good`, the client is there, the flow is one of one artifact with
    the sources `names`, the selected of them hold the rows of `rowsOf`, and no fact of an
    observation is refused. -/
structure Serving {σ : Type} (refuse : Scope → Fact → Option Raised) (backend : FlowBackend σ)
    (Good : Shared σ → Prop) (client : ClientId) (flow artifact : Text) (names : List Text)
    (selected : List (Option Text)) (rowsOf : Option Text → List Row) : Prop where
  recorded : ∀ fact, Yields Good (emitFact refuse fact) (.done ())
  readable : Yields Good (flowReadGuard (σ := σ)) (.done ())
  listed : ∃ row, clientOf row = some client ∧ Yields Good backend.target.listWindowsClients (.done [row])
  present : Yields Good (backend.target.clientIdExists client) (.done true) ∨
    ∃ f, isException f = true ∧ Yields Good (backend.target.clientIdExists client) (.raised f)
  details : ∃ fields, artifactOf fields = .ok artifact ∧
    stringList (fields.lookup (ascii "artifacts_with_results")) "artifacts_with_results" = .ok names ∧
    Yields Good (backend.getFlowDetails client flow) (.done (some (.obj fields)))
  counts : ∀ source ∈ selected, Yields Good (backend.getFlowResultCount client flow artifact source)
    (.done (rowsOf source).length)
  windows : ∀ source ∈ selected, ∀ start count,
    Yields Good (backend.getFlowResultsWindow client flow artifact source start count)
      (.done (((rowsOf source).drop start).take count))

section Target

variable {σ α : Type} {refuse : Scope → Fact → Option Raised} {target : TargetBackend σ}
  {operation : ClientId → Program (Shared σ) Raised α} {Good : Shared σ → Prop} {client : ClientId}

/-- How a program ends that has a result. -/
def outcomeOf : Except Raised α → Outcome Raised α
  | .ok a => .done a
  | .error e => .raised e

theorem yields_ofExcept {I : Shared σ → Prop} (r : Except Raised α) : Yields I (ofExcept r) (outcomeOf r) := by
  cases r with
  | ok a => exact yields_pure
  | error e => exact yields_raise

/-- The client is kept, or none is. -/
def Settled (Good : Shared σ → Prop) (client : ClientId) (w : World σ) : Prop :=
  Good w.shared ∧ (w.clientId = some client ∨ w.clientId = none)

theorem yields_emitTarget {I : Option ClientId → Prop} (hrecorded : ∀ fact, Yields Good (emitFact refuse fact) (.done ()))
    (fact : Fact) : Yields (fun w => Good w.shared ∧ I w.clientId) (emitTargetFact refuse fact) (.done ()) := by
  rintro w ⟨hgood, hclient⟩
  obtain ⟨hend, hafter⟩ := hrecorded fact w.shared hgood
  exact ⟨hend, hafter, hclient⟩

theorem yields_call {I : Option ClientId → Prop} {m : Program (Shared σ) Raised α} {o : Outcome Raised α}
    (hm : Yields Good m o) (event : Outcome Raised α → Event) :
    Yields (fun w => Good w.shared ∧ I w.clientId) (call m event) o := by
  rintro w ⟨hgood, hclient⟩
  obtain ⟨hend, hafter⟩ := hm w.shared hgood
  exact ⟨hend, hafter, hclient⟩

variable (hrecorded : ∀ fact, Yields Good (emitFact refuse fact) (.done ()))
include hrecorded

theorem yields_resolve {row : Row} (hrow : clientOf row = some client)
    (hlisted : Yields Good target.listWindowsClients (.done [row])) :
    Yields (Settled Good client) (resolveClientId refuse target) (.done client) := by
  rintro w ⟨hgood, hkept | hnone⟩
  · have hrun : resolveClientId refuse target w
        = (emitTargetFact refuse (.resolve .cacheHit client) >>= fun _ => pure client) w := by
      unfold resolveClientId
      rw [read_bind_apply, hkept]
    rw [hrun]
    refine yields_bind (yields_emitTarget (I := fun c => c = some client ∨ c = none) hrecorded _) ?_ w
      ⟨hgood, .inl hkept⟩
    exact yields_pure
  · have hrun : resolveClientId refuse target w = selectClient refuse target w := by
      unfold resolveClientId
      rw [read_bind_apply, hnone]
    rw [hrun]
    refine yields_bind (yields_call (I := fun c => c = some client ∨ c = none) hlisted _) ?_ w
      ⟨hgood, .inr hnone⟩
    dsimp only
    rw [hrow]
    refine yields_bind (a := ()) (fun w hw => ⟨rfl, hw.1, .inl rfl⟩) ?_
    refine yields_bind (yields_emitTarget (I := fun c => c = some client ∨ c = none) hrecorded _) ?_
    exact yields_pure

theorem yields_operationOf {o : Outcome Raised α} (ho : o ≠ .crashed) (hop : Yields Good (operation client) o)
    (n : Nat) : Yields (Settled Good client) (operationOf refuse operation n client) o := by
  have hemit : ∀ fact, Yields (Settled Good client) (emitTargetFact refuse fact) (.done ()) :=
    yields_emitTarget (I := fun c => c = some client ∨ c = none) hrecorded
  have hcall := yields_call (I := fun c => c = some client ∨ c = none) hop
    (fun o => .ran n client (asUnit o))
  refine yields_bind (hemit _) ?_
  cases o with
  | done a => exact yields_bind (yields_handle hcall) (yields_bind (hemit _) yields_pure)
  | raised e =>
      exact yields_bind_raised (yields_handle_raised hcall
        (yields_bind (yields_handle (hemit _)) yields_raise))
  | crashed => exact absurd rfl ho

/-- The error of a tool whose client is not gone is the error of the call. -/
theorem yields_afterError (n : Nat) {e : Raised}
    (hpresent : Yields Good (target.clientIdExists client) (.done true) ∨
      ∃ f, isException f = true ∧ Yields Good (target.clientIdExists client) (.raised f)) :
    Yields (Settled Good client) (afterError refuse target n client e) (.raised e) := by
  intro w hw
  by_cases huntouched : isUntouched w e = true
  · rw [show afterError refuse target n client e w = (.raised e, w) from afterError_untouched n client huntouched]
    exact ⟨rfl, hw⟩
  · have hrun : afterError refuse target n client e w
        = (handle (call (target.clientIdExists client) (.probed client)) (fun f =>
            if isException f then raise e else raise f) >>= fun answer => do
          emitExistence refuse n client answer
          if answer then raise e else pure ()) w := by
      show (if isUntouched w e then raise e else _ : Program (World σ) Raised Unit) w = _
      rw [if_neg huntouched]
    rw [hrun]
    rcases hpresent with hpresent | ⟨f, hf, hpresent⟩
    · have hcall := yields_call (I := fun c => c = some client ∨ c = none) hpresent (.probed client)
      refine yields_bind (yields_handle hcall) (yields_bind (a := ()) (yields_handle ?_) ?_) w hw
      · exact yields_emitTarget (I := fun c => c = some client ∨ c = none) hrecorded _
      · exact yields_raise
    · have hcall := yields_call (I := fun c => c = some client ∨ c = none) hpresent (.probed client)
      refine yields_bind_raised (yields_handle_raised hcall ?_) w hw
      rw [if_pos hf]
      exact yields_raise

/-- **A call whose client is not gone ends as its tool does.** -/
theorem yields_runWithClient {row : Row} (hrow : clientOf row = some client)
    (hlisted : Yields Good target.listWindowsClients (.done [row]))
    (hpresent : Yields Good (target.clientIdExists client) (.done true) ∨
      ∃ f, isException f = true ∧ Yields Good (target.clientIdExists client) (.raised f))
    {r : Except Raised α} (hr : ∀ e, r = .error e → isException e = true)
    (hop : Yields Good (operation client) (outcomeOf r)) :
    Yields (Settled Good client) (runWithClient refuse target operation) (outcomeOf r) := by
  refine yields_bind (yields_resolve hrecorded hrow hlisted) ?_
  cases r with
  | ok a =>
      refine yields_bind (a := some a) (yields_handle (yields_bind
        (yields_operationOf (o := .done a) hrecorded nofun hop 1) yields_pure)) ?_
      exact yields_pure
  | error e =>
      refine yields_bind_raised (yields_handle_raised (e := e) (yields_bind_raised
        (yields_operationOf (o := .raised e) hrecorded nofun hop 1)) ?_)
      rw [if_pos (hr e rfl)]
      exact yields_bind_raised (yields_afterError hrecorded 1 hpresent)

end Target

/-! ## What the tool reads -/

section Read

variable {σ : Type} {refuse : Scope → Fact → Option Raised} {backend : FlowBackend σ}
  {Good : Shared σ → Prop} {client : ClientId} {flow artifact : Text} {names : List Text}
  {selected sources : List (Option Text)} {rowsOf : Option Text → List Row}

theorem yields_backendCall {α : Type} {m : Program (Shared σ) Raised α} {a : α} (hm : Yields Good m (.done a))
    (operation : String) : Yields Good (backendCall operation m) (.done a) :=
  yields_handle hm

variable (h : Serving refuse backend Good client flow artifact names selected rowsOf)
include h

theorem yields_readTotals (hsources : ∀ source ∈ sources, source ∈ selected) :
    Yields Good (readTotals refuse backend client flow artifact sources)
      (.done (sources.map (fun source => (rowsOf source).length))) := by
  induction sources with
  | nil => exact yields_pure
  | cons source sources ih =>
      obtain ⟨hsource, hrest⟩ := List.forall_mem_cons.mp hsources
      refine yields_bind h.readable (yields_bind (yields_backendCall (h.counts source hsource) _) ?_)
      exact yields_bind (h.recorded _) (yields_bind (ih hrest) yields_pure)

/-- **What is read is a window of the concatenated sources.** -/
theorem windows_exact (hsources : ∀ source ∈ sources, source ∈ selected) (offset count : Nat) :
    Yields Good (readWindows refuse backend client flow artifact
        (sources.zip (sources.map (fun source => (rowsOf source).length))) offset count)
      (.done (((sources.flatMap rowsOf).drop offset).take count)) := by
  induction sources generalizing offset count with
  | nil =>
      rw [List.flatMap_nil, List.drop_nil, List.take_nil]
      exact yields_pure
  | cons source sources ih =>
      obtain ⟨hsource, hrest⟩ := List.forall_mem_cons.mp hsources
      rw [List.flatMap_cons, List.drop_append]
      show Yields Good (if offset ≥ (rowsOf source).length then _ else _) _
      by_cases hpast : offset ≥ (rowsOf source).length
      · -- the offset is past this source
        rw [if_pos hpast, List.drop_eq_nil_of_le hpast, List.nil_append]
        exact ih hrest (offset - (rowsOf source).length) count
      · rw [if_neg hpast, Nat.sub_eq_zero_of_le (by omega), List.drop_zero, List.take_append]
        refine yields_bind h.readable (yields_bind (yields_backendCall (h.windows source hsource _ _) _) ?_)
        refine yields_bind (h.recorded _) ?_
        by_cases hfull : (((rowsOf source).drop offset).take count).length ≥ count
        · -- the page and its lookahead end in this source
          rw [if_pos hfull]
          rw [List.length_take] at hfull
          rw [Nat.sub_eq_zero_of_le (by omega), List.take_zero, List.append_nil]
          exact yields_pure
        · rw [if_neg hfull]
          rw [List.length_take] at hfull ⊢
          rw [Nat.min_eq_right (by omega)]
          refine yields_bind (ih hrest 0 _) ?_
          rw [List.drop_zero]
          exact yields_pure

theorem yields_flowDetails (hflow : requireText flow "flow_id" = .ok flow) :
    ∃ fields, artifactOf fields = .ok artifact ∧ knownSources fields = .ok names.eraseDups ∧
      Yields Good (flowDetails refuse backend client flow) (.done fields) := by
  obtain ⟨fields, hartifact, hnames, hdetails⟩ := h.details
  refine ⟨fields, hartifact, ?_, ?_⟩
  · unfold knownSources
    rw [hnames]
    rfl
  · unfold flowDetails
    rw [hflow]
    refine yields_bind yields_pure (yields_bind h.readable (yields_bind (yields_backendCall hdetails _) ?_))
    exact yields_bind (h.recorded _) yields_pure

/-- **A request is answered as over the one list of the selected rows.** -/
theorem yields_results (hflow : requireText flow "flow_id" = .ok flow) {source : Option Text}
    (hselected : selectSources artifact names.eraseDups source = .ok selected) {cursor : Json}
    (size : PageSize) {offset : Nat} (hcursor : decodeCursor cursor = .ok offset)
    (hoffset : offset ≤ (selected.flatMap rowsOf).length) :
    Yields Good (resultsOperation refuse backend flow source cursor size offset client)
      (outcomeOf (paginateResult resultsBase (selected.flatMap rowsOf) cursor (.int size.val))) := by
  obtain ⟨fields, hartifact, hknown, hdetails⟩ := yields_flowDetails h hflow
  unfold resultsOperation
  refine yields_bind hdetails ?_
  rw [hartifact, hknown]
  refine yields_bind yields_pure (yields_bind yields_pure ?_)
  rw [hselected]
  refine yields_bind yields_pure (yields_bind (h.recorded _) ?_)
  refine yields_bind (yields_readTotals h (fun _ hs => hs)) ?_
  rw [List.length_flatMap] at hoffset
  rw [if_neg (Nat.not_lt.mpr hoffset)]
  refine yields_bind (windows_exact h (fun _ hs => hs) _ _) ?_
  rw [← List.length_flatMap] at hoffset
  rw [paginateWindow_eq resultsBase _ (normalizePageSize_of size) hcursor hoffset]
  cases paginateResult resultsBase (selected.flatMap rowsOf) cursor (.int size.val) with
  | ok page => exact yields_bind yields_pure (yields_bind (h.recorded _) yields_pure)
  | error e => exact yields_bind_raised yields_raise

/-! ## Following the cursors of a flow -/

omit h in
theorem isException_stops {size : PageSize} {rows : List Row} {offset : Nat} {error : Raised}
    (hstops : StopsAt resultsBase rows size offset error) : isException error = true := by
  rcases hstops with ⟨actual, rfl, -⟩ | ⟨rfl, -⟩ | ⟨rfl | rfl, -⟩
  · rfl
  · rfl
  · rfl
  · rfl

/-- A request with a cursor that a walk comes to. -/
theorem yields_getFlowResults (hflow : requireText flow "flow_id" = .ok flow) {source : Option Text}
    (hselected : selectSources artifact names.eraseDups source = .ok selected) (size : PageSize)
    {cursor : Text} {rest : List Row} (hleft : Left resultsBase (selected.flatMap rowsOf) size cursor rest) :
    Yields (Settled Good client) (getFlowResults refuse backend flow source (.str cursor) (.int size.val))
      (outcomeOf (paginateResult resultsBase (selected.flatMap rowsOf) (.str cursor) (.int size.val))) := by
  have hstop := fun {e} => @serves.stop _ _ e hleft
  obtain ⟨offset, ⟨hstart, hoffset⟩, rfl, -, -⟩ := hleft
  obtain ⟨row, hrow, hlisted⟩ := h.listed
  unfold getFlowResults
  rw [normalizePageSize_of, decodeCursor_of hstart]
  refine yields_bind yields_pure (yields_bind yields_pure ?_)
  refine yields_runWithClient h.recorded hrow hlisted h.present (fun e he => ?_) ?_
  · obtain ⟨_, _, _, _, hstops⟩ := hstop he
    exact isException_stops hstops
  · refine yields_results h hflow hselected size (decodeCursor_of hstart) ?_
    rcases hoffset with hmore | ⟨rfl, -⟩
    · exact Nat.le_of_lt hmore
    · exact Nat.zero_le _

end Read

/-- The calls that follow the cursors, one after the other, and how they end. -/
inductive CallWalk {σ : Type} (tool : Text → Program (World σ) Raised DataResult) :
    World σ → Text → List DataResult → Option Raised → Prop where
  | last {w w' : World σ} {c : Text} {page : DataResult} (hrun : tool c w = (.done page, w'))
      (hnext : page.pagination.nextCursor = none) : CallWalk tool w c [page] none
  | step {w w' : World σ} {c c' : Text} {page : DataResult} {pages : List DataResult} {e : Option Raised}
      (hrun : tool c w = (.done page, w')) (hnext : page.pagination.nextCursor = some c')
      (hrest : CallWalk tool w' c' pages e) : CallWalk tool w c (page :: pages) e
  | stop {w w' : World σ} {c : Text} {e : Raised} (hrun : tool c w = (.raised e, w')) :
      CallWalk tool w c [] (some e)

section CallWalk

variable {σ : Type} {tool : Text → Program (World σ) Raised DataResult} {I : World σ → Prop}
  {base : ResultBase} {rows : List Row} {size : PageSize}

/-- Calls that answer as `paginate_result` does walk as it does. -/
theorem callWalk_of (htool : ∀ {c rest}, Left base rows size c rest →
      Yields I (tool c) (outcomeOf (paginateResult base rows (.str c) (.int size.val))))
    {c : Text} {pages : List DataResult} {e : Option Raised} (hwalk : Walk (pageSource base rows size) c pages e)
    {rest : List Row} (hleft : Left base rows size c rest) {w : World σ} (hw : I w) :
    CallWalk tool w c pages e := by
  induction hwalk generalizing rest w with
  | last h hnext =>
      obtain ⟨hend, -⟩ := htool hleft w hw
      rw [show paginateResult base rows _ _ = _ from h] at hend
      exact .last (Prod.ext hend rfl) hnext
  | step h hnext _ ih =>
      obtain ⟨hend, hafter⟩ := htool hleft w hw
      rw [show paginateResult base rows _ _ = _ from h] at hend
      obtain ⟨rest', -, -, hleft'⟩ := serves.step hleft h hnext
      exact .step (Prod.ext hend rfl) hnext (ih hleft' hafter)
  | stop h =>
      obtain ⟨hend, -⟩ := htool hleft w hw
      rw [show paginateResult base rows _ _ = _ from h] at hend
      exact .stop (Prod.ext hend rfl)

/-- The calls that follow the cursors are determined by the first of them. -/
theorem callWalk_unique {w : World σ} {c : Text} {pages pages' : List DataResult} {e e' : Option Raised}
    (h : CallWalk tool w c pages e) (h' : CallWalk tool w c pages' e') : pages = pages' ∧ e = e' := by
  induction h generalizing pages' e' with
  | last hrun hnext =>
      cases h' with
      | last hrun' _ =>
          obtain rfl := Outcome.done.inj (Prod.mk.inj (hrun.symm.trans hrun')).1
          exact ⟨rfl, rfl⟩
      | step hrun' hnext' _ =>
          obtain rfl := Outcome.done.inj (Prod.mk.inj (hrun.symm.trans hrun')).1
          exact absurd (hnext.symm.trans hnext') nofun
      | stop hrun' => exact absurd (Prod.mk.inj (hrun.symm.trans hrun')).1 nofun
  | step hrun hnext _ ih =>
      cases h' with
      | last hrun' hnext' =>
          obtain rfl := Outcome.done.inj (Prod.mk.inj (hrun.symm.trans hrun')).1
          exact absurd (hnext.symm.trans hnext') nofun
      | step hrun' hnext' hrest' =>
          obtain ⟨hend, rfl⟩ := Prod.mk.inj (hrun.symm.trans hrun')
          obtain rfl := Outcome.done.inj hend
          obtain rfl := Option.some.inj (hnext.symm.trans hnext')
          obtain ⟨rfl, rfl⟩ := ih hrest'
          exact ⟨rfl, rfl⟩
      | stop hrun' => exact absurd (Prod.mk.inj (hrun.symm.trans hrun')).1 nofun
  | stop hrun =>
      cases h' with
      | last hrun' _ => exact absurd (Prod.mk.inj (hrun.symm.trans hrun')).1 nofun
      | step hrun' _ _ => exact absurd (Prod.mk.inj (hrun.symm.trans hrun')).1 nofun
      | stop hrun' =>
          obtain rfl := Outcome.raised.inj (Prod.mk.inj (hrun.symm.trans hrun')).1
          exact ⟨rfl, rfl⟩

end CallWalk

/-- A backend with one client and one flow, whose sources hold the rows of `rowsOf`. -/
def sampleBackend (rowsOf : Option Text → List Row) : FlowBackend Unit where
  target := presentBackend
  getFlowDetails _ _ := pure (some (.obj [(ascii "artifacts", .arr [.str (ascii "A")]),
    (ascii "artifacts_with_results", .arr [.str (ascii "A/x"), .str (ascii "A"), .str (ascii "A/x")])]))
  getFlowResultCount _ _ _ source := pure (rowsOf source).length
  getFlowResultsWindow _ _ _ source start count := pure (((rowsOf source).drop start).take count)

theorem sampleBackend_serving (rowsOf : Option Text → List Row) : Serving (fun _ _ => none) (sampleBackend rowsOf)
    (fun s => s.scope = none) ⟨ascii "C.1", by decide⟩ (ascii "F.1") (ascii "A")
    [ascii "A/x", ascii "A", ascii "A/x"] [some (ascii "x"), none] rowsOf where
  recorded fact s hs := by
    unfold emitFact
    rw [hs]
    exact ⟨rfl, hs⟩
  readable s hs := by
    unfold flowReadGuard
    rw [hs]
    exact ⟨rfl, hs⟩
  listed := ⟨_, rfl, yields_pure⟩
  present := .inl yields_pure
  details := ⟨_, rfl, rfl, yields_pure⟩
  counts _ _ := yields_pure
  windows _ _ _ _ := yields_pure

/-- The first of the sources holds a surrogate on its own. -/
def unwritableRows (source : Option Text) : List Row :=
  if source = none then [⟨[]⟩] else [⟨[(ascii "a", .str [0xd800])]⟩]

end McpCore
