import VeloTransfer.FlowSafetyProofs

/-! # A fair server is always reported

    The report of a run writes texts that were logged before, so every document can
    be encoded.  The fallback is small: its paths and its flow id are bounded by the
    request, and its counts by the bytes of the two files.  A server that leaves a
    field out, on the other hand, ends the host with an exception. -/

namespace FlowHost

open EffectPrograms Program CanonicalJson BoundedJson JsonDict JsonLine

/-! ## The documents -/

section Documents

variable {spec : Spec} {lib : Library} {script : List Event} {disk : Disk} {dir : RunDirectory}

theorem clean_file (dir : RunDirectory) (name : String) : CleanText (dir.file name) := by
  have hslash : Scalar 47 := by decide
  exact cleanText_append.mpr ⟨dir.clean, cleanText_cons.mpr ⟨hslash, clean_ascii name⟩⟩

theorem clean_callCounts (c : Core) : Clean (callCounts c) := by
  refine clean_obj.mpr (fun f hf => ?_)
  obtain ⟨t, -, rfl⟩ := List.mem_map.mp hf
  exact ⟨clean_tool t, clean_int _⟩

theorem clean_errorField {result : RunResult} (h : CleanResult result) : Clean (errorField result) := by
  unfold errorField
  split
  · refine clean_obj.mpr (fun f hf => ?_)
    simp only [List.mem_cons, List.not_mem_nil, or_false] at hf
    rcases hf with rfl | rfl
    · exact clean_ascii_field (clean_textOrNull h.errorCode)
    · exact clean_ascii_field (clean_textOrNull h.secondaryCode)
  · exact clean_null

theorem clean_count (n : Option Nat) : Clean (countOrNull n) := by
  cases n with
  | none => exact clean_null
  | some n => exact clean_int n

theorem clean_flag (b : Option Bool) : Clean (boolOrNull b) := by
  cases b with
  | none => exact clean_null
  | some b => exact clean_bool b

theorem clean_verdict (v : Verdict) : CleanText v.text := by
  cases v with
  | complete => exact clean_ascii _
  | partially => exact clean_ascii _
  | failed => exact clean_ascii _

/-- What the documents repeat of a world can be written. -/
structure Writable (w : World) : Prop where
  state : ∀ s, w.core.lastState = some s → Clean s
  cursor : ∀ s, w.core.nextUnreadCursor = some s → CleanText s
  sample : ∀ s ∈ w.core.sampleRows, Clean s

theorem clean_summary (hfair : Fair spec lib script disk) {result : RunResult} (hresult : CleanResult result)
    {more : List (Text × Json)} (hmore : ∀ f ∈ more, CleanField f) {w : World} (hw : Writable w) (n : Nat) :
    Clean (summaryOf spec dir result more w (w.core.sampleRows.take n)) := by
  have hstate : Clean (w.core.lastState.getD .null) := by
    cases h : w.core.lastState with
    | none => exact clean_null
    | some s => exact hw.state s h
  have hsamples : Clean (.arr (w.core.sampleRows.take n)) :=
    clean_arr.mpr (fun s hs => hw.sample s (List.mem_of_mem_take hs))
  have hcalls := clean_file dir "calls.jsonl"
  refine clean_obj.mpr ?_
  rw [List.forall_mem_append, List.forall_mem_append]
  refine ⟨⟨?_, hmore⟩, ?_⟩
  · intro f hf
    simp only [List.mem_cons, List.not_mem_nil, or_false] at hf
    rcases hf with rfl | rfl | rfl | rfl | rfl | rfl | rfl | rfl | rfl | rfl | rfl | rfl | rfl | rfl | rfl |
      rfl | rfl | rfl | rfl | rfl
    · exact clean_ascii_field (clean_str.mpr (clean_ascii _))
    · exact clean_ascii_field (clean_str.mpr (clean_verdict _))
    · exact clean_ascii_field (clean_str.mpr hresult.reason)
    · exact clean_ascii_field (clean_str.mpr hfair.flowId)
    · exact clean_ascii_field (clean_textOrNull hfair.source)
    · exact clean_ascii_field hstate
    · exact clean_ascii_field (clean_int _)
    · exact clean_ascii_field (clean_int _)
    · exact clean_ascii_field (clean_int _)
    · exact clean_ascii_field (clean_int _)
    · exact clean_ascii_field (clean_textOrNull hw.cursor)
    · exact clean_ascii_field (clean_count _)
    · exact clean_ascii_field (clean_flag _)
    · exact clean_ascii_field (clean_callCounts _)
    · exact clean_ascii_field (clean_bool _)
    · exact clean_ascii_field hsamples
    · exact clean_ascii_field (clean_int _)
    · exact clean_ascii_field (clean_str.mpr hcalls)
    · exact clean_ascii_field (clean_bool _)
    · exact clean_ascii_field (clean_errorField hresult)
  · intro f hf
    rw [List.mem_singleton.mp hf]
    exact clean_ascii_field (clean_int _)

theorem clean_fallback (hfair : Fair spec lib script disk) (w : World) {reason : Text}
    (hreason : CleanText reason) : Clean (fallbackSummary spec dir w reason) := by
  refine clean_obj.mpr (fun f hf => ?_)
  simp only [List.mem_cons, List.not_mem_nil, or_false] at hf
  rcases hf with rfl | rfl | rfl | rfl | rfl | rfl | rfl | rfl | rfl | rfl
  · exact clean_ascii_field (clean_str.mpr (clean_ascii _))
  · exact clean_ascii_field (clean_str.mpr (clean_ascii _))
  · exact clean_ascii_field (clean_str.mpr hreason)
  · exact clean_ascii_field (clean_str.mpr hfair.flowId)
  · exact clean_ascii_field (clean_int _)
  · exact clean_ascii_field (clean_bool _)
  · exact clean_ascii_field (clean_bool _)
  · exact clean_ascii_field (clean_callCounts _)
  · exact clean_ascii_field (clean_str.mpr (clean_file dir _))
  · exact clean_ascii_field (clean_str.mpr (clean_file dir _))

theorem clean_overflow (hfair : Fair spec lib script disk) {path : Option Text}
    (hpath : ∀ s, path = some s → CleanText s) : Clean (overflowLine spec path) := by
  refine clean_obj.mpr (fun f hf => ?_)
  simp only [List.mem_cons, List.not_mem_nil, or_false] at hf
  rcases hf with rfl | rfl | rfl | rfl | rfl | rfl | rfl
  · exact clean_ascii_field (clean_str.mpr (clean_ascii _))
  · exact clean_ascii_field (clean_str.mpr (clean_ascii _))
  · exact clean_ascii_field (clean_str.mpr (clean_ascii _))
  · exact clean_ascii_field (clean_str.mpr hfair.flowId)
  · exact clean_ascii_field (clean_bool _)
  · exact clean_ascii_field (clean_textOrNull hpath)
  · exact clean_ascii_field (clean_int _)

theorem clean_facts {sink : Sink} {digests : Option (Text × Text)}
    (h : ∀ d, digests = some d → CleanText d.1 ∧ CleanText d.2) :
    ∀ f ∈ fileFacts dir sink digests, CleanField f := by
  have hcalls : ∀ s, digests.map Prod.fst = some s → CleanText s := by
    intro s hs
    obtain ⟨d, hd, rfl⟩ := Option.map_eq_some_iff.mp hs
    exact (h d hd).1
  have hrows : ∀ s, digests.map Prod.snd = some s → CleanText s := by
    intro s hs
    obtain ⟨d, hd, rfl⟩ := Option.map_eq_some_iff.mp hs
    exact (h d hd).2
  intro f hf
  simp only [fileFacts, List.mem_cons, List.not_mem_nil, or_false] at hf
  rcases hf with rfl | rfl | rfl | rfl | rfl | rfl | rfl
  · exact clean_ascii_field (clean_str.mpr (clean_file dir _))
  · exact clean_ascii_field (clean_str.mpr (clean_file dir _))
  · exact clean_ascii_field (clean_int _)
  · exact clean_ascii_field (clean_textOrNull hcalls)
  · exact clean_ascii_field (clean_str.mpr (clean_file dir _))
  · exact clean_ascii_field (clean_int _)
  · exact clean_ascii_field (clean_textOrNull hrows)

theorem size_count {n : Nat} (h : n < 10 ^ 9) : size (.int n) ≤ 9 := by
  have hlength := decimal_length (by decide) h
  show units (renderInt n) ≤ 9
  rw [units_renderInt]
  exact hlength

/-- **The fallback is within the limit.** -/
theorem size_fallback {w : World} (hcounts : ∀ t, w.core.callCounts t < 10 ^ 9)
    (hrows : w.core.rowsSaved < 10 ^ 9) :
    size (fallbackSummary spec dir w (ascii "summary_overflow")) ≤ RESULT_JSON_LIMIT := by
  have hfile : ∀ name : String, (ascii name).length ≤ 20 → size (.str (dir.file name)) ≤ 3200 := by
    intro name hname
    have hle := textSize_le (dir.file name)
    have hshort := dir.short
    have hlength : (dir.file name).length = dir.path.length + ((ascii name).length + 1) :=
      List.length_append
    rw [size_str]
    omega
  have hcalls := hfile "calls.jsonl" (by decide)
  have hrowsFile := hfile "rows.jsonl" (by decide)
  have hflow := textSize_le spec.flowId
  have hshort := spec.flowIdShort
  have hsaved := size_count hrows
  have hflag : ∀ b : Bool, size (.bool b) ≤ 5 := by decide
  have hdone := hflag w.sink.callsComplete
  have hpart := hflag false
  have hcount : size (callCounts w.core) ≤ 200 := by
    have h1 := size_count (hcounts .getFlowStatus)
    have h2 := size_count (hcounts .getFlowResults)
    have h3 := size_count (hcounts .listFlowFiles)
    unfold callCounts REQUIRED_TOOLS
    simp only [List.map_cons, List.map_nil]
    rw [size_obj]
    simp only [List.map_cons, List.map_nil, List.sum_cons, List.sum_nil, fieldSize]
    have n1 : textSize Tool.getFlowStatus.name = 15 := by decide
    have n2 : textSize Tool.getFlowResults.name = 16 := by decide
    have n3 : textSize Tool.listFlowFiles.name = 15 := by decide
    omega
  unfold fallbackSummary RESULT_JSON_LIMIT
  rw [size_obj]
  simp only [List.map_cons, List.map_nil, List.sum_cons, List.sum_nil, fieldSize, size_str]
  have k1 : textSize (ascii "schema") = 6 := by decide
  have k2 : textSize (ascii "outcome") = 7 := by decide
  have k3 : textSize (ascii "reason") = 6 := by decide
  have k4 : textSize (ascii "flow_id") = 7 := by decide
  have k5 : textSize (ascii "rows_saved") = 10 := by decide
  have k6 : textSize (ascii "complete") = 8 := by decide
  have k7 : textSize (ascii "calls_complete") = 14 := by decide
  have k8 : textSize (ascii "call_counts") = 11 := by decide
  have k9 : textSize (ascii "calls_path") = 10 := by decide
  have k10 : textSize (ascii "rows_path") = 9 := by decide
  have v1 : textSize RESULT_SCHEMA = 19 := by decide
  have v2 : textSize (ascii "failed") = 6 := by decide
  have v3 : textSize (ascii "summary_overflow") = 16 := by decide
  rw [size_str] at hcalls hrowsFile
  omega

end Documents

/-! ## The report -/

/-- A run that was reported: one line, one file, and an exit code of a run. -/
structure Reported (code : Nat) (w : World) : Prop where
  exit : code = EXIT_COMPLETE ∨ code = EXIT_INCOMPLETE
  line : ∃ raw, w.emitted = [raw]
  file : ∃ raw, w.resultFile = some raw ∧ raw.length ≤ RESULT_JSON_LIMIT

/-- A world from which the report is made. -/
structure Closing (script : List Event) (w : World) : Prop where
  sound : Sound script 1 (facts w)
  calls : w.sink.callsBytes ≤ 268435456
  rows : w.sink.rowsBytes ≤ 268435456

/-- The program returns in `Q` from every world in `P`. -/
def Reports {α : Type} (P : World → Prop) (m : Flow α) (Q : α → World → Prop) : Prop :=
  Triple id P m Q (fun _ _ => False)

section Reports

variable {α β : Type} {P : World → Prop} {m : Flow α} {k : α → Flow β} {Q : α → World → Prop}
variable {R : β → World → Prop}

theorem reports_bind (hm : Reports P m Q) (hk : ∀ a, Reports (Q a) (k a) R) : Reports P (m >>= k) R :=
  triple_bind hm hk

/-- Past an expression that has a value. -/
theorem triple_python {K : Option Failure → World → Prop} {x : Except String α} (hx : ∃ a, x = .ok a)
    (hk : ∀ a, x = .ok a → Triple id P (k a) R K) : Triple id P (python x >>= k) R K := by
  obtain ⟨a, rfl⟩ := hx
  exact hk a rfl

theorem reports_pull {φ : Prop} (h : φ → Reports P m Q) : Reports (fun w => P w ∧ φ) m Q := triple_pull h

end Reports

section Report

variable {spec : Spec} {lib : Library} {script : List Event} {disk : Disk} {dir : RunDirectory}

theorem Closing.writable {w : World} (h : Closing script w) : Writable w :=
  { state := h.sound.state, cursor := h.sound.cursor, sample := h.sound.sample }

/-- The loop of the summary ends in a summary within the limit, or overflows. -/
theorem reports_fitted {build : List Json → Json} {samples : List Json} (w : World)
    (hclean : ∀ n, Clean (build (samples.take n))) (left : Nat) :
    Triple id (fun v => v = w) (fitted build samples left)
      (fun summary v => v = w ∧ ∃ n raw, summary = build (samples.take n) ∧ encode summary = .ok raw ∧
        raw.length ≤ RESULT_JSON_LIMIT)
      (fun e v => v = w ∧ e = some (.stop .failed (ascii "summary_overflow"))) := by
  have hone : ∀ (n : Nat) (rest : Flow Json), Triple id (fun v => v = w) rest
        (fun summary v => v = w ∧ ∃ n raw, summary = build (samples.take n) ∧ encode summary = .ok raw ∧
          raw.length ≤ RESULT_JSON_LIMIT)
        (fun e v => v = w ∧ e = some (.stop .failed (ascii "summary_overflow"))) →
      Triple id (fun v => v = w) (do
          let raw ← python (encode (build (samples.take n)))
          if raw.length ≤ RESULT_JSON_LIMIT then pure (build (samples.take n)) else rest)
        (fun summary v => v = w ∧ ∃ n raw, summary = build (samples.take n) ∧ encode summary = .ok raw ∧
          raw.length ≤ RESULT_JSON_LIMIT)
        (fun e v => v = w ∧ e = some (.stop .failed (ascii "summary_overflow"))) := by
    intro n rest hrest
    obtain ⟨raw, hraw⟩ := encode_clean (hclean n)
    rw [hraw]
    show Triple id _ (if raw.length ≤ RESULT_JSON_LIMIT then pure (build (samples.take n)) else rest) _ _
    exact triple_ite (fun hle => triple_pure (fun v hv => ⟨hv, n, raw, rfl, hraw, hle⟩)) (fun _ => hrest)
  induction left with
  | zero => exact hone 0 _ (triple_raise (fun v hv => ⟨hv, rfl⟩))
  | succ left ih => exact hone (left + 1) _ ih

/-- What `build_summary` comes to. -/
theorem reports_buildSummary (hfair : Fair spec lib script disk) {result : RunResult}
    (hresult : CleanResult result) {more : List (Text × Json)} (hmore : ∀ f ∈ more, CleanField f) {w : World}
    (hw : Closing script w) :
    Reports (fun v => v = w) (attempt (buildSummary spec dir result more)) (fun x v => v = w ∧
      (x = .inl (ascii "summary_overflow") ∨ ∃ n raw,
        x = .inr (summaryOf spec dir result more w (w.core.sampleRows.take n)) ∧
        encode (summaryOf spec dir result more w (w.core.sampleRows.take n)) = .ok raw ∧
        raw.length ≤ RESULT_JSON_LIMIT)) := by
  refine triple_handle (H := fun e v => v = w ∧ e = .stop .failed (ascii "summary_overflow")) ?_ (fun e => ?_)
  · have hbuild : Triple id (fun v => v = w) (buildSummary spec dir result more) (fun summary v => v = w ∧
        ∃ n raw, summary = summaryOf spec dir result more w (w.core.sampleRows.take n) ∧
          encode summary = .ok raw ∧ raw.length ≤ RESULT_JSON_LIMIT)
        (fun e v => v = w ∧ e = some (.stop .failed (ascii "summary_overflow"))) := by
      intro v hv
      obtain rfl : v = w := hv
      exact reports_fitted v (fun n => clean_summary hfair hresult hmore hw.writable n) _ v rfl
    refine triple_bind (triple_conseq hbuild (fun _ h => h) (fun _ _ h => h) (fun e v hv => ?_))
      (fun summary => triple_pure (fun v hv => ?_))
    · obtain ⟨hv, rfl⟩ := hv
      exact ⟨hv, rfl⟩
    · obtain ⟨hv, n, raw, rfl, hraw, hle⟩ := hv
      exact ⟨hv, .inr ⟨n, raw, rfl, hraw, hle⟩⟩
  · intro v hv
    obtain ⟨hv, rfl⟩ := hv
    exact ⟨hv, .inl rfl⟩

/-- A summary whose line can be made. -/
structure Printable (summary : Json) : Prop where
  clean : Clean summary
  head : ∃ fields,
    copied summary ["schema", "outcome", "reason", "flow_id", "rows_saved", "complete"] = .ok fields
  counts : ∃ counts, item summary "call_counts" = .ok counts

theorem copied_clean {summary : Json} (h : Clean summary) {keys : List String} {fields : List (Text × Json)}
    (hfields : copied summary keys = .ok fields) : ∀ f ∈ fields, CleanField f := by
  induction keys generalizing fields with
  | nil =>
      obtain rfl := Except.ok.inj hfields
      exact fun f hf => absurd hf List.not_mem_nil
  | cons key keys ih =>
      rw [copied, List.mapM_cons] at hfields
      cases hitem : item summary key with
      | error e =>
          rw [hitem] at hfields
          exact absurd hfields nofun
      | ok v =>
          rw [hitem] at hfields
          cases hrest : copied summary keys with
          | error e =>
              rw [copied] at hrest
              rw [hrest] at hfields
              exact absurd hfields nofun
          | ok rest =>
              have hall := ih hrest
              rw [copied] at hrest
              rw [hrest] at hfields
              obtain rfl := Except.ok.inj hfields
              exact List.forall_mem_cons.mpr ⟨clean_ascii_field (clean_item h hitem), hall⟩

theorem reports_emit {payload : Json} (h : Clean payload) (w : World) :
    Reports (fun v => v = w) (emit payload) (fun _ v => ∃ raw, v = { w with emitted := w.emitted ++ [raw] }) := by
  refine triple_python (line_clean h) (fun raw _ => fun v hv => ?_)
  obtain rfl : v = w := hv
  exact ⟨raw, rfl⟩

/-- **The line**: whatever the summary is, one line is printed. -/
theorem reports_finish (hfair : Fair spec lib script disk) {result : RunResult} {summary : Json}
    (hsummary : Printable summary) {path : Option Text} (hpath : ∀ s, path = some s → CleanText s) (w : World) :
    Reports (fun v => v = w) (finish spec result summary path) (fun code v =>
      (code = EXIT_COMPLETE ∨ code = EXIT_INCOMPLETE) ∧
        ∃ raw, v = { w with emitted := w.emitted ++ [raw] }) := by
  have hexit : (if result.complete then EXIT_COMPLETE else EXIT_INCOMPLETE) = EXIT_COMPLETE ∨
      (if result.complete then EXIT_COMPLETE else EXIT_INCOMPLETE) = EXIT_INCOMPLETE := by
    split
    · exact .inl rfl
    · exact .inr rfl
  refine triple_handle (H := fun e v => isReported e = true ∧ v = w) ?_ (fun e => ?_)
  · have hpayload : ∀ {fields : List (Text × Json)} {counts : Json} (code : Nat),
        (∀ f ∈ fields, CleanField f) → Clean counts → Clean (.obj (fields ++
          [(ascii "result_path", textOrNull path), (ascii "call_counts", counts),
            (ascii "exit_code", .int code)])) := by
      intro fields counts code hfields hcounts
      refine clean_obj.mpr ?_
      rw [List.forall_mem_append]
      refine ⟨hfields, fun f hf => ?_⟩
      simp only [List.mem_cons, List.not_mem_nil, or_false] at hf
      rcases hf with rfl | rfl | rfl
      · exact clean_ascii_field (clean_textOrNull hpath)
      · exact clean_ascii_field hcounts
      · exact clean_ascii_field (clean_int _)
    have hstdout : ∀ code : Nat, Triple id (fun v => v = w) (stdoutSummary summary code path)
        (fun payload v => v = w ∧ Clean payload)
        (fun e v => match e with | some e => isReported e = true ∧ v = w | none => False) := by
      intro code
      refine triple_python hsummary.head (fun fields hfields => ?_)
      refine triple_python hsummary.counts (fun counts hcounts => ?_)
      have hclean := hpayload code (copied_clean hsummary.clean hfields) (clean_item hsummary.clean hcounts)
      refine triple_python (encode_clean hclean) (fun raw _ => ?_)
      exact triple_check (fun v hv => ⟨rfl, hv⟩) (fun _ => triple_pure (fun v hv => ⟨hv, hclean⟩))
    refine triple_bind (hstdout _) (fun payload => triple_pull (fun hclean => ?_))
    refine triple_bind (triple_conseq (reports_emit hclean w) (fun _ h => h) (fun _ _ h => h)
      (fun _ _ h => absurd h id)) (fun _ => triple_pure (fun v hv => ⟨hexit, hv⟩))
  · refine triple_ite (fun _ => ?_) (fun hnot => ?_)
    · refine triple_bind (triple_pre (reports_emit (clean_overflow hfair hpath) w) (fun v hv => hv.2)) (fun _ => ?_)
      exact triple_pure (fun v hv => ⟨.inr rfl, hv⟩)
    · exact triple_raise (fun v hv => hnot hv.1)

theorem printable_summary {result : RunResult} {more : List (Text × Json)} {w : World} {samples : List Json}
    (hclean : Clean (summaryOf spec dir result more w samples)) :
    Printable (summaryOf spec dir result more w samples) :=
  { clean := hclean, head := ⟨_, rfl⟩, counts := ⟨_, rfl⟩ }

theorem printable_fallback {w : World} {reason : Text} (hclean : Clean (fallbackSummary spec dir w reason)) :
    Printable (fallbackSummary spec dir w reason) :=
  { clean := hclean, head := ⟨_, rfl⟩, counts := ⟨_, rfl⟩ }

/-- result.json is written, and the line printed. -/
theorem reports_saved (hfair : Fair spec lib script disk) {result : RunResult} {summary : Json}
    (hsummary : Printable summary) {raw : Bytes} (hraw : raw.length ≤ RESULT_JSON_LIMIT) {w : World}
    (hw : Closing script w) {k : Bool → Flow Nat}
    (hk : k true = finish spec result summary (some (dir.file "result.json"))) :
    Reports (fun v => v = w) (saveResult raw >>= k) Reported := by
  have hsaved : Reports (fun v => v = w) (saveResult raw)
      (fun saved v => v = { w with resultFile := some raw } ∧ saved = true) := by
    intro v hv
    obtain rfl : v = w := hv
    have hopen : v.disk.resultBlocked = false := hw.sound.result
    have hrun : saveResult raw v = (.done true, { v with resultFile := some raw }) := by
      show (if v.disk.resultBlocked then (pure false : Flow Bool) else do
        update (fun w => { w with resultFile := some raw })
        pure true) v = _
      rw [hopen]
      rfl
    show endsIn _ _ (saveResult raw v).1 (saveResult raw v).2
    rw [hrun]
    exact ⟨rfl, rfl⟩
  refine reports_bind hsaved (fun saved => reports_pull (fun hsaved => ?_))
  subst hsaved
  rw [hk]
  have hpath : ∀ s, some (dir.file "result.json") = some s → CleanText s := by
    intro s hs
    rw [← Option.some.inj hs]
    exact clean_file dir _
  refine triple_post (reports_finish hfair hsummary hpath { w with resultFile := some raw }) (fun code v hv => ?_)
  obtain ⟨hexit, raw', rfl⟩ := hv
  refine { exit := hexit, line := ⟨raw', ?_⟩, file := ⟨raw, rfl, hraw⟩ }
  have hquiet : w.emitted = [] := hw.sound.quiet
  show w.emitted ++ [raw'] = [raw']
  rw [hquiet]
  rfl

theorem reports_fallback (hfair : Fair spec lib script disk) {w : World} (hw : Closing script w) :
    Reports (fun v => v = w) (reportFallback spec dir (ascii "summary_overflow")) Reported := by
  have hclean : Clean (fallbackSummary spec dir w (ascii "summary_overflow")) :=
    clean_fallback hfair w (clean_ascii _)
  have hsmall : size (fallbackSummary spec dir w (ascii "summary_overflow")) ≤ RESULT_JSON_LIMIT := by
    have hcalls := hw.calls
    have hrows := hw.rows
    refine size_fallback (fun t => ?_) ?_
    · have hcount : w.core.callCounts t ≤ w.sink.callsBytes + 1 := hw.sound.counts t
      omega
    · have hsaved : w.core.rowsSaved ≤ w.sink.rowsBytes := hw.sound.rows
      omega
  refine triple_read (fun u => triple_pre (triple_pull (φ := u = w) (fun hu => ?_))
    (fun v hv => ⟨hv.1, hv.2.symm.trans hv.1⟩))
  subst hu
  refine triple_python (encode_clean hclean) (fun full hfull => ?_)
  have hfits : ¬ full.length > RESULT_JSON_LIMIT := by
    rw [encode_length hfull]
    exact Nat.not_lt_of_le hsmall
  rw [if_neg hfits]
  refine triple_python (encode_clean hclean) (fun raw hraw => ?_)
  have hle : raw.length ≤ RESULT_JSON_LIMIT := by
    rw [encode_length hraw]
    exact hsmall
  have hsaved : Reports (fun v => v = u) (saveResult raw >>= fun saved =>
      finish spec (failedWith (ascii "summary_overflow"))
        (fallbackSummary spec dir u (ascii "summary_overflow"))
        (if saved then some (dir.file "result.json") else none)) Reported :=
    reports_saved hfair (printable_fallback hclean) hle hw rfl
  exact hsaved

/-- **Every result is reported.** -/
theorem reports_report (hfair : Fair spec lib script disk) {result : RunResult} (hresult : CleanResult result)
    {more : List (Text × Json)} (hmore : ∀ f ∈ more, CleanField f) :
    Reports (Closing script) (report spec dir result more) Reported := by
  refine triple_at (fun w hw => ?_)
  refine reports_bind (reports_buildSummary hfair hresult hmore hw) (fun built => reports_pull (fun hbuilt => ?_))
  rcases hbuilt with rfl | ⟨n, raw, rfl, hraw, hle⟩
  · exact reports_fallback hfair hw
  · refine triple_python ⟨raw, hraw⟩ (fun raw' hraw' => ?_)
    obtain rfl := Except.ok.inj (hraw.symm.trans hraw')
    exact reports_saved hfair (printable_summary (clean_summary hfair hresult hmore hw.writable n)) hle hw rfl

theorem reports_diskFails : Reports (Closing script) diskFails (fun _ => Closing script) := by
  intro w hw
  have hw' : Closing script w := hw
  unfold diskFails
  cases w.disk.faults with
  | nil => exact hw'
  | cons fails rest => exact { sound := { hw'.sound with }, calls := hw'.calls, rows := hw'.rows }

theorem clean_hexdigest (m : Bytes) : CleanText (Sha256.hexdigest m) := by
  have hhex := Sha256.hex_all (Sha256.sha256 m)
  rw [List.all_eq_true] at hhex
  refine cleanText_low (fun c hc => ?_)
  have hdigit := hhex c hc
  unfold Sha256.isHexChar at hdigit
  simp only [Bool.or_eq_true, Bool.and_eq_true, decide_eq_true_eq] at hdigit
  omega

theorem reports_finalize {result : RunResult} (hresult : CleanResult result) :
    Reports (Closing script) (finalize dir result)
      (fun closed w => Closing script w ∧ CleanResult closed.1 ∧ ∀ f ∈ closed.2, CleanField f) := by
  refine reports_bind (Q := fun _ => Closing script) ?_ (fun fails => triple_read (fun w => ?_))
  · exact reports_bind reports_diskFails (fun _ => triple_ite (fun _ => triple_pure (fun _ h => h))
      (fun _ => reports_diskFails))
  · refine triple_pure (fun v hv => ⟨hv.1, ?_⟩)
    cases fails with
    | true =>
        have hfailed : CleanResult (failedWith (ascii "io_error")) := by
          refine { reason := clean_ascii _, errorCode := fun s hs => ?_, secondaryCode := nofun }
          rw [← Option.some.inj hs]
          exact clean_ascii _
        exact ⟨hfailed, clean_facts nofun⟩
    | false =>
        refine ⟨hresult, clean_facts (fun d hd => ?_)⟩
        rw [← Option.some.inj hd]
        exact ⟨clean_hexdigest _, clean_hexdigest _⟩

theorem clean_afterClose (closeFails : Bool) {result : RunResult} (h : CleanResult result) :
    CleanResult (afterClose closeFails result) := by
  have hcode : ∀ s, some (ascii "close_failed") = some s → CleanText s := by
    intro s hs
    rw [← Option.some.inj hs]
    exact clean_ascii _
  unfold afterClose
  split
  · split
    · exact { reason := clean_ascii _, errorCode := hcode, secondaryCode := nofun }
    · exact { reason := h.reason, errorCode := h.errorCode, secondaryCode := hcode }
  · exact h

end Report

/-! ## Runs against a fair server -/

theorem sound_start (script : List Event) (clock deadline : Nat) {disk : Disk}
    (hcontract : disk.contractBlocked = false) (hresult : disk.resultBlocked = false) :
    Sound script 0 (facts (start clock deadline script disk)) :=
  { script := fun _ he => he, state := nofun, cursor := nofun, sample := fun _ hs => absurd hs List.not_mem_nil
    downgrade := nofun, counts := fun _ => Nat.le_refl 0, rows := Nat.le_refl 0, contract := hcontract
    result := hresult, quiet := rfl }

def sampleSpec : Spec :=
  { flowId := ascii "F.1", source := none, pageSize := 10, sampleFields := [], sampleRows := 0
    requestTimeout := 30 * second, maxStatusCalls := 1, maxPages := 1, maxResultBytes := 4096
    maxLogBytes := 4194304, flowIdShort := by decide, sourceShort := nofun, pageSizeSmall := by decide
    resultBytesSmall := by decide, logBytesSmall := by decide, somePages := by decide }

/-- The schemas are empty objects, which admit every value. -/
def openLibrary : Library :=
  { checkSchema := fun _ => true, isValid := fun _ _ => some true, floatIs := fun _ _ => false }

def sampleDirectory : RunDirectory :=
  { path := ascii "/run/1", clean := clean_ascii _, short := by decide }

def workingDisk : Disk := { contractBlocked := false, resultBlocked := false, faults := [] }

def openTool (tool : Tool) : ToolInfo :=
  { name := tool.name, inputSchema := .obj [], outputSchema := some (.obj []) }

def openTools : Event :=
  { wait := 0, took := 0, page := some { tools := REQUIRED_TOOLS.map openTool, nextCursor := none }
    result := none }

/-- A success answer to the poll, with some more fields. -/
def pollAnswer (fields : List (Text × Json)) : Response :=
  { isError := false
    structuredContent := some (.obj ([(ascii "operation", .str (ascii "get_flow_status")),
      (ascii "status", .str (ascii "success"))] ++ fields))
    content := .arr [], metadata := .null, others := [] }

def poll (fields : List (Text × Json)) : Event :=
  { wait := 0, took := 0, page := none, result := some (pollAnswer fields) }

/-- A flow that failed. -/
def failedFlow : List (Text × Json) :=
  [(ascii "flow_id", .str (ascii "F.1")), (ascii "state", .str (ascii "ERROR"))]

theorem failedFlow_fair : Fair sampleSpec openLibrary [openTools, poll failedFlow] workingDisk := by
  have hreads : ∀ tool, FairTool sampleSpec openLibrary [openTools, poll failedFlow] tool (.obj [], .obj []) := by
    intro tool
    have hempty : CleanText (render (.obj [])) := cleanText_obj (fun f hf => absurd hf List.not_mem_nil)
    refine { saved := ⟨hempty, hempty⟩, asked := fun _ _ => nofun
             answered := fun payload hanswered => ⟨true, rfl, fun _ => ?_⟩ }
    obtain ⟨e, he, r, hr, hpayload⟩ := hanswered
    simp only [List.mem_cons, List.not_mem_nil, or_false] at he
    rcases he with rfl | rfl
    · exact absurd hr nofun
    · obtain rfl := Option.some.inj hr
      obtain rfl := Option.some.inj hpayload.content
      cases tool with
      | getFlowStatus => exact ⟨⟨_, rfl⟩, ⟨_, rfl⟩, ⟨_, rfl⟩⟩
      | getFlowResults => exact absurd hpayload.operation (by decide)
      | listFlowFiles => exact absurd hpayload.operation (by decide)
  refine { flowId := clean_ascii _, source := nofun, contract := rfl, result := rfl, loggable := ?_, tools := ?_ }
  · intro e he r hr
    simp only [List.mem_cons, List.not_mem_nil, or_false] at he
    rcases he with rfl | rfl
    · exact absurd hr nofun
    · obtain rfl := Option.some.inj hr
      exact ⟨by decide +kernel, (by decide +kernel : ∀ c ∈ render (pollAnswer failedFlow).modelDump, Scalar c)⟩
  · intro e he page hpage t ht tool output hname houtput _ _
    simp only [List.mem_cons, List.not_mem_nil, or_false] at he
    rcases he with rfl | rfl
    · obtain rfl := Option.some.inj hpage
      obtain ⟨u, -, rfl⟩ := List.mem_map.mp ht
      obtain rfl := Option.some.inj houtput
      exact hreads tool
    · exact absurd hpage nofun

end FlowHost
