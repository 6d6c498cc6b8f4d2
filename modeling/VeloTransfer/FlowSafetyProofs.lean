import VeloTransfer.FlowReportProofs

/-! # Where the flow host always reports

    The host reads fixed fields of payloads that only a schema of the server has
    checked, and encodes the server's texts again.  `Fair` is what it needs of a
    server: answers that can be logged, schemas that can be evaluated, and, of what
    these schemas let through, the fields that the tools' handlers read.  Under it
    every run returns a result, and every result is reported. -/

namespace FlowHost

open EffectPrograms Program CanonicalJson BoundedJson JsonDict JsonLine

/-! ## What can be written -/

/-- The value can be logged. -/
def Clean (v : Json) : Prop := isWritable v = true ∧ CleanText (render v)

theorem cleanText_append {s t : Text} : CleanText (s ++ t) ↔ CleanText s ∧ CleanText t :=
  List.forall_mem_append

theorem cleanText_cons {c : Nat} {s : Text} : CleanText (c :: s) ↔ Scalar c ∧ CleanText s :=
  List.forall_mem_cons

theorem cleanText_nil : CleanText [] := fun _ hc => absurd hc List.not_mem_nil

theorem cleanText_low {s : Text} (h : ∀ c ∈ s, c < 127) : CleanText s := fun c hc => scalar_of_lt (h c hc)

theorem cleanText_char (c : Nat) : CleanText (renderChar c) ↔ Scalar c := by
  by_cases hlow : c < 127
  · refine ⟨fun _ => scalar_of_lt hlow, fun _ => cleanText_low ?_⟩
    have hall : ∀ c : Fin 127, ∀ d ∈ renderChar c.val, d < 127 := by decide
    exact hall ⟨c, hlow⟩
  · have hself : renderChar c = [c] := by
      unfold renderChar
      repeat rw [if_neg (by omega)]
    rw [hself, cleanText_cons]
    exact and_iff_left cleanText_nil

theorem cleanText_chars (s : Text) : CleanText (renderChars s) ↔ CleanText s := by
  induction s with
  | nil => exact Iff.rfl
  | cons c cs ih =>
      show CleanText (renderChar c ++ renderChars cs) ↔ _
      rw [cleanText_append, cleanText_cons, cleanText_char, ih]

theorem cleanText_string (s : Text) : CleanText (renderString s) ↔ CleanText s := by
  have hquote : Scalar 34 := by decide
  show CleanText (34 :: (renderChars s ++ [34])) ↔ _
  rw [cleanText_cons, cleanText_append, cleanText_chars, cleanText_cons]
  exact ⟨fun h => h.2.1, fun h => ⟨hquote, h, hquote, cleanText_nil⟩⟩

theorem clean_str {s : Text} : Clean (.str s) ↔ CleanText s :=
  ⟨fun h => (cleanText_string s).mp h.2, fun h => ⟨rfl, (cleanText_string s).mpr h⟩⟩

theorem clean_int (i : Int) : Clean (.int i) :=
  ⟨rfl, cleanText_low (fun c hc => (visible_renderInt i c hc).2)⟩

theorem clean_bool (b : Bool) : Clean (.bool b) := by
  refine ⟨rfl, cleanText_low ?_⟩
  cases b with
  | true => decide
  | false => decide

theorem clean_null : Clean .null := ⟨rfl, cleanText_low (by decide)⟩

theorem clean_items (xs : List Json) :
    (allWritable xs = true ∧ CleanText (renderItems xs)) ↔ ∀ x ∈ xs, Clean x := by
  induction xs with
  | nil => exact ⟨fun _ x hx => absurd hx List.not_mem_nil, fun _ => ⟨rfl, cleanText_low (by decide)⟩⟩
  | cons x xs ih =>
      have hcomma : Scalar 44 := by decide
      show ((isWritable x && allWritable xs) = true ∧ CleanText (44 :: (render x ++ renderItems xs))) ↔ _
      rw [Bool.and_eq_true, cleanText_cons, cleanText_append, List.forall_mem_cons, ← ih]
      exact ⟨fun h => ⟨⟨h.1.1, h.2.2.1⟩, h.1.2, h.2.2.2⟩,
        fun h => ⟨⟨h.1.1, h.2.1⟩, hcomma, h.1.2, h.2.2⟩⟩

theorem clean_arr {xs : List Json} : Clean (.arr xs) ↔ ∀ x ∈ xs, Clean x := by
  cases xs with
  | nil => exact ⟨fun _ x hx => absurd hx List.not_mem_nil, fun _ => ⟨rfl, cleanText_low (by decide)⟩⟩
  | cons x xs =>
      have hopen : Scalar 91 := by decide
      rw [List.forall_mem_cons, ← clean_items]
      show ((isWritable x && allWritable xs) = true ∧ CleanText (91 :: (render x ++ renderItems xs))) ↔ _
      rw [Bool.and_eq_true, cleanText_cons, cleanText_append]
      exact ⟨fun h => ⟨⟨h.1.1, h.2.2.1⟩, h.1.2, h.2.2.2⟩,
        fun h => ⟨⟨h.1.1, h.2.1⟩, hopen, h.1.2, h.2.2⟩⟩

/-- A field whose key and value can be written. -/
def CleanField (f : Text × Json) : Prop := CleanText f.1 ∧ Clean f.2

theorem clean_fields (fs : List (Text × Json)) :
    (fieldsWritable fs = true ∧ CleanText (renderFields fs)) ↔ ∀ f ∈ fs, CleanField f := by
  induction fs with
  | nil => exact ⟨fun _ f hf => absurd hf List.not_mem_nil, fun _ => ⟨rfl, cleanText_low (by decide)⟩⟩
  | cons f fs ih =>
      obtain ⟨k, v⟩ := f
      have hcomma : Scalar 44 := by decide
      have hcolon : Scalar 58 := by decide
      show ((isWritable v && fieldsWritable fs) = true ∧
        CleanText (44 :: (renderString k ++ 58 :: (render v ++ renderFields fs)))) ↔ _
      rw [Bool.and_eq_true, cleanText_cons, cleanText_append, cleanText_cons, cleanText_append,
        cleanText_string, List.forall_mem_cons, ← ih]
      exact ⟨fun h => ⟨⟨h.2.2.1, h.1.1, h.2.2.2.2.1⟩, h.1.2, h.2.2.2.2.2⟩,
        fun h => ⟨⟨h.1.2.1, h.2.1⟩, hcomma, h.1.1, hcolon, h.1.2.2, h.2.2⟩⟩

theorem clean_obj {fs : List (Text × Json)} : Clean (.obj fs) ↔ ∀ f ∈ fs, CleanField f := by
  cases fs with
  | nil => exact ⟨fun _ f hf => absurd hf List.not_mem_nil, fun _ => ⟨rfl, cleanText_low (by decide)⟩⟩
  | cons f fs =>
      obtain ⟨k, v⟩ := f
      have hopen : Scalar 123 := by decide
      have hcolon : Scalar 58 := by decide
      rw [List.forall_mem_cons, ← clean_fields]
      show ((isWritable v && fieldsWritable fs) = true ∧
        CleanText (123 :: (renderString k ++ 58 :: (render v ++ renderFields fs)))) ↔ _
      rw [Bool.and_eq_true, cleanText_cons, cleanText_append, cleanText_cons, cleanText_append,
        cleanText_string]
      exact ⟨fun h => ⟨⟨h.2.2.1, h.1.1, h.2.2.2.2.1⟩, h.1.2, h.2.2.2.2.2⟩,
        fun h => ⟨⟨h.1.2.1, h.2.1⟩, hopen, h.1.1, hcolon, h.1.2.2, h.2.2⟩⟩

/-- The text of an object, whatever its numbers are. -/
theorem cleanText_obj {fs : List (Text × Json)} (h : ∀ f ∈ fs, CleanText f.1 ∧ CleanText (render f.2)) :
    CleanText (render (.obj fs)) := by
  have hopen : Scalar 123 := by decide
  cases fs with
  | nil => exact cleanText_low (by decide)
  | cons f fs =>
      have hall : CleanText (renderFields (f :: fs)) := scalar_renderFields (fun g hg =>
        ⟨(cleanText_string g.1).mpr (h g hg).1, (h g hg).2⟩)
      exact cleanText_cons.mpr ⟨hopen, (cleanText_cons.mp hall).2⟩

theorem encode_clean {v : Json} (h : Clean v) : ∃ raw, encode v = .ok raw := by
  have hscalar : ∀ c ∈ render v, Scalar c := h.2
  unfold encode encodeUtf8
  rw [if_neg (by rw [h.1]; decide), if_pos hscalar]
  exact ⟨_, rfl⟩

theorem line_clean {v : Json} (h : Clean v) : ∃ raw, line v = .ok raw := by
  obtain ⟨raw, hraw⟩ := encode_clean h
  exact ⟨raw ++ [10], by rw [line, hraw]; rfl⟩

theorem clean_item {v w : Json} {key : String} (hv : Clean v) (h : item v key = .ok w) : Clean w := by
  cases v with
  | obj fs =>
      unfold item at h
      dsimp only at h
      cases hlookup : fs.lookup (ascii key) with
      | none =>
          rw [hlookup] at h
          cases h
      | some w' =>
          rw [hlookup] at h
          obtain rfl := Except.ok.inj h
          exact (clean_obj.mp hv _ (lookup_mem hlookup)).2
  | _ => cases h

theorem clean_members {v : Json} {xs : List Json} (hv : Clean v) (h : members v = .ok xs) :
    ∀ x ∈ xs, Clean x := by
  cases v with
  | arr ys =>
      obtain rfl := Except.ok.inj h
      exact clean_arr.mp hv
  | obj fs =>
      obtain rfl := Except.ok.inj h
      intro x hx
      obtain ⟨f, hf, rfl⟩ := List.mem_map.mp hx
      exact clean_str.mpr (clean_obj.mp hv f hf).1
  | str s =>
      obtain rfl := Except.ok.inj h
      intro x hx
      obtain ⟨c, hc, rfl⟩ := List.mem_map.mp hx
      exact clean_str.mpr (cleanText_cons.mpr ⟨clean_str.mp hv c hc, cleanText_nil⟩)
  | _ => exact absurd h nofun

theorem clean_textOrNull {s : Option Text} (h : ∀ t, s = some t → CleanText t) : Clean (textOrNull s) := by
  cases s with
  | none => exact clean_null
  | some t => exact clean_str.mpr (h t rfl)

theorem clean_ascii_field {key : String} {v : Json} (h : Clean v) : CleanField (ascii key, v) :=
  ⟨clean_ascii key, h⟩

theorem clean_tool (tool : Tool) : CleanText tool.name := by
  cases tool with
  | getFlowStatus => exact clean_ascii _
  | getFlowResults => exact clean_ascii _
  | listFlowFiles => exact clean_ascii _

/-! ## What a server must keep to -/

section Fair

variable (spec : Spec) (lib : Library)

/-- The arguments that a run sends to a tool. -/
def Sends : Tool → Json → Prop
  | .getFlowResults, args => ∃ cursor, args = pageArgs spec cursor
  | _, args => args = flowArgs spec

/-- The warnings, where there are any, can be counted. -/
def WarningsRead (payload : Json) : Prop :=
  ∃ warnings, members ((get payload "warnings").getD (.arr [])) = .ok warnings

/-- What is read of the rows of a page that is saved. -/
def RowsRead (payload : Json) (rows : List Json) : Prop :=
  WarningsRead payload ∧ (spec.sampleRows ≠ 0 → ∀ row ∈ rows, ∃ v, project spec row = .ok v)

/-- What is read of the shape of a page, field by field. -/
def ShapeRead (payload pagination data : Json) : Prop :=
  ∃ returned rows fits, item pagination "returned" = .ok returned ∧ members data = .ok rows ∧
    pageFits spec lib pagination returned rows = .ok fits ∧
    (fits = true → ∃ truncated next, item pagination "truncated" = .ok truncated ∧
      item pagination "next_cursor" = .ok next ∧
      (nextOf lib truncated next rows ≠ none → RowsRead spec payload rows))

/-- What the handler of a tool reads of a payload. -/
def Reads : Tool → Json → Prop
  | .getFlowStatus, payload => (∃ state, item payload "state" = .ok state) ∧ WarningsRead payload ∧
      ∃ flowId, item payload "flow_id" = .ok flowId
  | .getFlowResults, payload => ∃ pagination data echo, item payload "pagination" = .ok pagination ∧
      item payload "data" = .ok data ∧ item pagination "cursor" = .ok echo ∧
      (∀ cursor, echo = .str cursor → ShapeRead spec lib payload pagination data)
  | .listFlowFiles, payload => WarningsRead payload ∧ ∃ data files truncated, item payload "data" = .ok data ∧
      members data = .ok files ∧ item payload "truncated" = .ok truncated

/-- A success answer of a tool, among the server's answers. -/
def Answered (script : List Event) (tool : Tool) (payload : Json) : Prop :=
  ∃ e ∈ script, ∃ r, e.result = some r ∧ Payload tool r payload

/-- The schemas of a tool can be written and evaluated, and where they let an
    answer through, its fields are there. -/
structure FairTool (script : List Event) (tool : Tool) (pair : Json × Json) : Prop where
  saved : CleanText (render pair.1) ∧ CleanText (render pair.2)
  asked : ∀ args, Sends spec tool args → lib.isValid pair.1 args ≠ none
  answered : ∀ payload, Answered script tool payload →
    ∃ valid, lib.isValid pair.2 payload = some valid ∧ (valid = true → Reads spec lib tool payload)

/-- **The condition**: the request can be written, the two files can be created, and
    the server keeps to what the host takes for granted. -/
structure Fair (script : List Event) (disk : Disk) : Prop where
  flowId : CleanText spec.flowId
  source : ∀ s, spec.source = some s → CleanText s
  contract : disk.contractBlocked = false
  result : disk.resultBlocked = false
  loggable : ∀ e ∈ script, ∀ r, e.result = some r → Clean r.modelDump
  tools : ∀ e ∈ script, ∀ page, e.page = some page → ∀ t ∈ page.tools, ∀ tool output, t.name = tool.name →
    t.outputSchema = some output → lib.checkSchema t.inputSchema = true → lib.checkSchema output = true →
    FairTool spec lib script tool (t.inputSchema, output)

end Fair

/-! ## The facts that carry the proof -/

/-- What the report depends on. -/
structure Facts where
  script : List Event
  core : Core
  callsBytes : Nat
  rowsBytes : Nat
  contractBlocked : Bool
  resultBlocked : Bool
  emitted : List Bytes

def facts (w : World) : Facts :=
  { script := w.script, core := w.core, callsBytes := w.sink.callsBytes, rowsBytes := w.sink.rowsBytes
    contractBlocked := w.disk.contractBlocked, resultBlocked := w.disk.resultBlocked, emitted := w.emitted }

/-- What can be reported, with a call under way that has no bytes in the log yet
    when `slack` is one. -/
structure Sound (script : List Event) (slack : Nat) (v : Facts) : Prop where
  script : ∀ e ∈ v.script, e ∈ script
  state : ∀ s, v.core.lastState = some s → Clean s
  cursor : ∀ s, v.core.nextUnreadCursor = some s → CleanText s
  sample : ∀ s ∈ v.core.sampleRows, Clean s
  downgrade : ∀ d, v.core.downgrade = some d → CleanText d.2
  counts : ∀ t, v.core.callCounts t ≤ v.callsBytes + slack
  rows : v.core.rowsSaved ≤ v.rowsBytes
  contract : v.contractBlocked = false
  result : v.resultBlocked = false
  quiet : v.emitted = []

theorem Sound.later {script : List Event} {slack : Nat} {v : Facts} (h : Sound script 0 v) : Sound script slack v :=
  { h with counts := fun t => (h.counts t).trans (Nat.le_add_right _ _) }

/-- The run stops with a structured reason, in a state that can be reported. -/
def Halts (script : List Event) (e : Option Failure) (v : Facts) : Prop :=
  (∃ f, e = some f ∧ IsStop f) ∧ Sound script 1 v

/-- From states in `P`, the program returns in `Q` or halts. -/
def Safe {α : Type} (script : List Event) (P : Facts → Prop) (m : Flow α) (Q : α → Facts → Prop) : Prop :=
  Triple facts P m Q (Halts script)

section Safe

variable {α β : Type} {script : List Event} {P P' : Facts → Prop} {m : Flow α} {k : α → Flow β}
variable {Q : α → Facts → Prop} {R : β → Facts → Prop}

theorem safe_bind (hm : Safe script P m Q) (hk : ∀ a, Safe script (Q a) (k a) R) : Safe script P (m >>= k) R :=
  triple_bind hm hk

theorem safe_pure {a : α} (h : ∀ v, P v → Q a v) : Safe script P (pure a) Q := triple_pure h

/-- A program that stops at worst, and leaves the facts alone. -/
theorem safe_leaf (hP : ∀ v, P v → Sound script 1 v) (hf : Fixes facts m) (hr : Raises IsStop m) :
    Safe script P m (fun _ => P) := by
  intro w hw
  have hfix := hf w
  have hends := hr w
  rcases hm : m w with ⟨o, w'⟩
  rw [hm] at hfix hends
  have hw' : P (facts w') := by
    rw [show facts w' = facts w from hfix]
    exact hw
  cases o with
  | done a => exact hw'
  | raised e => exact ⟨⟨e, rfl, hends⟩, hP _ hw'⟩
  | crashed => exact absurd hends id

theorem safe_skip (hP : ∀ v, P v → Sound script 1 v) (hf : Fixes facts m) (hr : Raises IsStop m)
    (hk : ∀ a, Safe script P (k a) R) : Safe script P (m >>= k) R :=
  safe_bind (safe_leaf hP hf hr) hk

theorem safe_python {x : Except String α} (hx : ∃ a, x = .ok a)
    (hk : ∀ a, x = .ok a → Safe script P (k a) R) : Safe script P (python x >>= k) R := by
  obtain ⟨a, rfl⟩ := hx
  exact hk a rfl

theorem safe_raise {e : Failure} (hP : ∀ v, P v → Sound script 1 v) (he : IsStop e) :
    Safe script P (raise e : Flow α) Q :=
  triple_raise (fun v hv => ⟨⟨e, rfl, he⟩, hP v hv⟩)

theorem safe_stop {outcome : Verdict} {reason : String} (hP : ∀ v, P v → Sound script 1 v) :
    Safe script P (stop outcome reason : Flow α) Q :=
  safe_raise hP isStop

theorem safe_stopIf {c : Prop} [Decidable c] {outcome : Verdict} {reason : String} {k : Unit → Flow β}
    (hP : ∀ v, P v → Sound script 1 v) (hk : ¬ c → Safe script P (k ()) R) :
    Safe script P (stopIf c outcome reason >>= k) R :=
  triple_check (fun v hv => ⟨⟨_, rfl, isStop⟩, hP v hv⟩) hk

theorem safe_read {k : World → Flow β} (hk : ∀ w, Safe script (fun v => P v ∧ v = facts w) (k w) R) :
    Safe script P (read >>= k) R :=
  triple_read hk

theorem safe_update {J : Facts → Prop} {f : World → World} {k : Unit → Flow β}
    (hf : ∀ w, P (facts w) → J (facts (f w))) (hk : Safe script J (k ()) R) : Safe script P (update f >>= k) R :=
  fun w hw => hk (f w) (hf w hw)

theorem safe_pre (hm : Safe script P m Q) (h : ∀ v, P' v → P v) : Safe script P' m Q := triple_pre hm h

theorem safe_post {Q' : α → Facts → Prop} (hm : Safe script P m Q) (h : ∀ a v, Q a v → Q' a v) :
    Safe script P m Q' := triple_post hm h

theorem safe_pull {φ : Prop} (h : φ → Safe script P m Q) : Safe script (fun v => P v ∧ φ) m Q := triple_pull h

end Safe

/-! ## Calls -/

section Calls

variable {spec : Spec} {lib : Library} {script : List Event} {disk : Disk} {slack : Nat}

theorem safe_bounded {P : Facts → Prop} {send : World → World} (hsend : ∀ w, facts (send w) = facts w)
    (hsound : ∀ v, P v → Sound script 1 v)
    (hrest : ∀ v rest, P v → (∀ e ∈ rest, e ∈ v.script) → P { v with script := rest }) :
    Safe script P (bounded spec send)
      (fun e v => P v ∧ (e ∈ script ∨ e.page = none ∧ e.result = none)) := by
  have hnext : Safe script P nextEvent (fun e v => P v ∧ (e ∈ script ∨ e.page = none ∧ e.result = none)) := by
    intro w hw
    unfold nextEvent
    cases hscript : w.script with
    | nil => exact ⟨hw, .inr ⟨rfl, rfl⟩⟩
    | cons e rest =>
        have hmem : ∀ e' ∈ rest, e' ∈ w.script := fun e' he' => hscript ▸ List.mem_cons_of_mem _ he'
        have hhead : e ∈ w.script := hscript ▸ List.mem_cons_self
        exact ⟨hrest (facts w) rest hw hmem, .inl ((hsound _ hw).script e hhead)⟩
  refine safe_bind hnext (fun e => ?_)
  have hP : ∀ v, (P v ∧ (e ∈ script ∨ e.page = none ∧ e.result = none)) → Sound script 1 v :=
    fun v hv => hsound v hv.1
  refine safe_bind (safe_leaf hP fixes_read raises_read) (fun w => ?_)
  refine safe_stopIf hP (fun _ => ?_)
  refine safe_skip hP (fun w => hsend w) (raises_update _) (fun _ => ?_)
  refine safe_skip hP (fun _ => rfl) (raises_update _) (fun _ => ?_)
  exact triple_ite (fun _ => safe_pure (fun _ hv => hv)) (fun _ => triple_ite (fun _ => safe_stop hP)
    (fun _ => safe_stop hP))

/-- The validators come from schemas that keep to the condition. -/
def Ready (spec : Spec) (lib : Library) (script : List Event) (slack : Nat) (v : Facts) : Prop :=
  Sound script slack v ∧ ∃ f, v.core.validators = some f ∧ ∀ tool, FairTool spec lib script tool (f tool)

theorem Ready.later {v : Facts} (h : Ready spec lib script 0 v) : Ready spec lib script slack v :=
  ⟨h.1.later, h.2⟩

theorem ready_sound : ∀ v, Ready spec lib script 0 v → Sound script 1 v := fun _ hv => hv.1.later

theorem safe_schemas {P : Facts → Prop} {tool : Tool} {β : Type} {k : Json × Json → Flow β}
    {R : β → Facts → Prop} (hP : ∀ v, P v → Ready spec lib script slack v)
    (hk : ∀ pair, FairTool spec lib script tool pair → Safe script P (k pair) R) :
    Safe script P (schemas tool >>= k) R := by
  intro w hw
  obtain ⟨-, f, hf, hfair⟩ := hP _ hw
  have hvalidators : w.core.validators = some f := hf
  have hrun : schemas tool w = (.done (f tool), w) := by
    unfold schemas
    rw [read_bind_apply, hvalidators]
    rfl
  show endsIn R (Halts script) (andThen (schemas tool) k w).1 (facts (andThen (schemas tool) k w).2)
  unfold andThen
  rw [hrun]
  exact hk (f tool) (hfair tool) w hw

theorem safe_admits {P : Facts → Prop} {schema v : Json} {reason : String} {valid : Bool} {β : Type}
    {k : Unit → Flow β} {R : β → Facts → Prop} (hP : ∀ v, P v → Sound script 1 v)
    (hvalid : lib.isValid schema v = some valid) (hk : valid = true → Safe script P (k ()) R) :
    Safe script P (admits lib schema v reason >>= k) R := by
  unfold admits
  rw [hvalid]
  exact safe_stopIf hP (fun h => hk (eq_true_of_ne_false h))

theorem clean_record {tool : Tool} {args : Json} {r : Response} (hargs : Clean args) (hr : Clean r.modelDump) :
    Clean (record tool args r) := by
  refine clean_obj.mpr (fun f hf => ?_)
  simp only [List.mem_cons, List.not_mem_nil, or_false] at hf
  rcases hf with rfl | rfl | rfl
  · exact clean_ascii_field (clean_str.mpr (clean_tool tool))
  · exact clean_ascii_field hargs
  · exact clean_ascii_field hr

theorem clean_marker {tool : Tool} {args : Json} (hargs : Clean args) : Clean (marker tool args) := by
  refine clean_obj.mpr (fun f hf => ?_)
  simp only [List.mem_cons, List.not_mem_nil, or_false] at hf
  rcases hf with rfl | rfl | rfl | rfl | rfl
  · exact clean_ascii_field (clean_str.mpr (clean_tool tool))
  · exact clean_ascii_field hargs
  · exact clean_ascii_field (clean_bool true)
  · exact clean_ascii_field (clean_str.mpr (clean_ascii _))
  · exact clean_ascii_field (clean_str.mpr (clean_ascii _))

theorem clean_content {r : Response} {payload : Json} (hr : Clean r.modelDump)
    (h : r.structuredContent = some payload) : Clean payload := by
  have hfield : (ascii "structuredContent", payload) ∈ [(ascii "_meta", r.metadata), (ascii "content", r.content),
      (ascii "structuredContent", r.structuredContent.getD .null), (ascii "isError", .bool r.isError)]
        ++ r.others := by
    rw [h]
    exact List.mem_append_left _ (List.mem_cons_of_mem _ (List.mem_cons_of_mem _ List.mem_cons_self))
  exact (clean_obj.mp hr _ hfield).2

theorem clean_get {v w : Json} {key : String} (hv : Clean v) (h : get v key = some w) : Clean w := by
  cases v with
  | obj fs => exact (clean_obj.mp hv _ (lookup_mem h)).2
  | _ => exact absurd h nofun

/-- The bytes of a call that was logged pay for its count. -/
theorem Sound.logged {v : Facts} (h : Sound script 1 v) {bytes : Nat} (hbytes : 1 ≤ bytes) :
    Sound script 0 { v with callsBytes := v.callsBytes + bytes } :=
  { h with counts := fun t => (h.counts t).trans (Nat.add_le_add_left hbytes _) }

theorem line_positive {v : Json} {raw : Bytes} (h : line v = .ok raw) : 1 ≤ raw.length := by
  rw [line_length h]
  exact Nat.le_add_left 1 _

theorem safe_appendCall {tool : Tool} {args : Json} {r : Response} (hargs : Clean args)
    (hr : Clean r.modelDump) :
    Safe script (Ready spec lib script 1) (appendCall tool args r) (fun _ => Ready spec lib script 0) := by
  have hP : ∀ v, Ready spec lib script 1 v → Sound script 1 v := fun _ hv => hv.1
  refine safe_python (line_clean (clean_record hargs hr)) (fun full hfull => ?_)
  refine triple_ite (fun _ => ?_) (fun _ => ?_)
  · refine safe_skip hP (fixes_write (fun _ _ => rfl)) raises_write (fun _ => ?_)
    intro w hw
    exact ⟨hw.1.logged (line_positive hfull), hw.2⟩
  · refine safe_python (line_clean (clean_marker hargs)) (fun short hshort => ?_)
    refine safe_skip hP (fixes_write (fun _ _ => rfl)) raises_write (fun _ => ?_)
    refine safe_update (J := Ready spec lib script 0) ?_ ?_
    · exact fun w hw => ⟨hw.1.logged (line_positive hshort), hw.2⟩
    · refine safe_skip ready_sound (fun _ => rfl) (raises_update _) (fun _ => ?_)
      exact safe_stop ready_sound

theorem errorCode_clean {payload : Option Json} (h : ∀ v, payload = some v → Clean v) :
    ∃ code, errorCode payload = .ok code ∧ CleanText code := by
  have hdefault : CleanText (ascii "tool_error") := clean_ascii _
  unfold errorCode
  split
  next code hcode =>
    have hclean : ∀ c ∈ code, Scalar c := by
      cases payload with
      | none => exact absurd hcode nofun
      | some v => exact clean_str.mp (clean_get (h v rfl) hcode)
    by_cases hempty : code = []
    · rw [if_pos hempty]
      exact ⟨_, rfl, hdefault⟩
    · rw [if_neg hempty]
      unfold encodeUtf8
      rw [if_pos hclean]
      refine ⟨_, rfl, ?_⟩
      split
      · exact hclean
      · exact hdefault
  next => exact ⟨_, rfl, hdefault⟩

theorem safe_checked {tool : Tool} {r : Response} (hr : Clean r.modelDump)
    (hanswer : ∀ payload, Payload tool r payload → Answered script tool payload) :
    Safe script (Ready spec lib script 0) (checked lib r tool)
      (fun payload v => Ready spec lib script 0 v ∧ Clean payload ∧ Reads spec lib tool payload) := by
  unfold checked
  by_cases herror : r.isError = true
  · rw [if_pos herror]
    obtain ⟨code, hcode, hclean⟩ := errorCode_clean (fun v hv => clean_content hr hv)
    refine safe_python ⟨code, hcode⟩ (fun code' hcode' => ?_)
    obtain rfl := Except.ok.inj (hcode.symm.trans hcode')
    exact safe_raise ready_sound ⟨.failed, code, rfl, hclean⟩
  · rw [if_neg herror]
    cases hcontent : r.structuredContent with
    | none => exact safe_stop ready_sound
    | some payload =>
        cases payload with
        | obj fs =>
            refine safe_stopIf ready_sound (fun hshape => ?_)
            rw [not_or] at hshape
            have hpayload : Payload tool r (.obj fs) :=
              ⟨hcontent, eq_true_of_ne_false hshape.1, eq_true_of_ne_false hshape.2, eq_false_of_ne_true herror⟩
            refine safe_schemas (fun _ hv => hv) (fun pair hpair => ?_)
            obtain ⟨valid, hvalid, hreads⟩ := hpair.answered _ (hanswer _ hpayload)
            refine safe_admits ready_sound hvalid (fun htrue => ?_)
            exact safe_pure (fun v hv => ⟨hv, clean_content hr hcontent, hreads htrue⟩)
        | _ => exact safe_stop ready_sound

theorem Ready.count {v : Facts} (h : Ready spec lib script 0 v) (tool : Tool) :
    Ready spec lib script 1 { v with core := Core.count tool v.core } := by
  refine ⟨{ script := h.1.script, state := h.1.state, cursor := h.1.cursor, sample := h.1.sample
            downgrade := h.1.downgrade, counts := ?_, rows := h.1.rows, contract := h.1.contract
            result := h.1.result, quiet := h.1.quiet }, h.2⟩
  intro t
  have ht := h.1.counts t
  show (if t = tool then v.core.callCounts t + 1 else v.core.callCounts t) ≤ v.callsBytes + 1
  split
  · omega
  · omega

/-- **A call** of a fair server halts, or hands over a payload whose fields are there. -/
theorem safe_call (hfair : Fair spec lib script disk) {tool : Tool} {args : Json}
    (hsends : Sends spec tool args) (hargs : Clean args) :
    Safe script (Ready spec lib script 0) (call spec lib tool args)
      (fun payload v => Ready spec lib script 0 v ∧ Clean payload ∧ Reads spec lib tool payload) := by
  refine safe_bind (safe_leaf ready_sound fixes_read raises_read) (fun w => ?_)
  refine safe_stopIf ready_sound (fun _ => ?_)
  refine safe_schemas (fun _ hv => hv) (fun pair hpair => ?_)
  obtain ⟨valid, hvalid⟩ := Option.ne_none_iff_exists'.mp (hpair.asked args hsends)
  refine safe_admits ready_sound hvalid (fun _ => ?_)
  refine safe_update (J := Ready spec lib script 1) (fun w hw => hw.count tool) ?_
  have hlate : ∀ v, Ready spec lib script 1 v → Sound script 1 v := fun _ hv => hv.1
  refine safe_bind (safe_bounded (fun _ => rfl) hlate ?_) (fun e => ?_)
  · exact fun v rest hv hrest => ⟨{ hv.1 with script := fun e he => hv.1.script e (hrest e he) }, hv.2⟩
  refine safe_pull (fun he => ?_)
  cases hresult : e.result with
  | none => exact safe_stop hlate
  | some r =>
      have hmem : e ∈ script := by
        rcases he with he | he
        · exact he
        · rw [he.2] at hresult
          exact absurd hresult nofun
      have hr := hfair.loggable e hmem r hresult
      refine safe_skip hlate (fun _ => rfl) (raises_update _) (fun _ => ?_)
      refine safe_bind (safe_appendCall hargs hr) (fun _ => ?_)
      exact safe_checked hr (fun payload hpayload => ⟨e, hmem, r, hresult, hpayload⟩)

end Calls

/-! ## The contract -/

section Contract

variable {spec : Spec} {lib : Library} {script : List Event} {disk : Disk}

/-- The tools of the server's pages. -/
def Listed (script : List Event) (ts : List ToolInfo) : Prop :=
  ∀ t ∈ ts, ∃ e ∈ script, ∃ page, e.page = some page ∧ t ∈ page.tools

theorem sound_later : ∀ v, Sound script 0 v → Sound script 1 v := fun _ hv => hv.later

theorem safe_addTools {found ts : List ToolInfo} (hfound : Listed script found) (hts : Listed script ts) :
    Safe script (Sound script 0) (addTools found ts) (fun all v => Sound script 0 v ∧ Listed script all) := by
  induction ts generalizing found with
  | nil => exact safe_pure (fun v hv => ⟨hv, hfound⟩)
  | cons t ts ih =>
      obtain ⟨ht, hrest⟩ := List.forall_mem_cons.mp hts
      refine safe_stopIf sound_later (fun _ => ih (?_ : Listed script (found ++ [t])) hrest)
      intro u hu
      rcases List.mem_append.mp hu with hu | hu
      · exact hfound u hu
      · rw [List.mem_singleton.mp hu]
        exact ht

theorem safe_listTools (left : Nat) {found : List ToolInfo} (seen : List Text) (hfound : Listed script found) :
    Safe script (Sound script 0) (listTools spec left found seen)
      (fun all v => Sound script 0 v ∧ Listed script all) := by
  induction left generalizing found seen with
  | zero => exact safe_stop sound_later
  | succ left ih =>
      refine safe_bind (safe_bounded (fun _ => rfl) sound_later
        (fun v rest hv hrest => { hv with script := fun e he => hv.script e (hrest e he) })) (fun e => ?_)
      refine safe_pull (fun he => ?_)
      cases hpage : e.page with
      | none => exact safe_stop sound_later
      | some page =>
          have hlisted : Listed script page.tools := by
            intro t ht
            rcases he with he | he
            · exact ⟨e, he, page, hpage, ht⟩
            · rw [he.1] at hpage
              exact absurd hpage nofun
          refine safe_bind (safe_addTools hfound hlisted) (fun all => safe_pull (fun hall => ?_))
          cases page.nextCursor with
          | none => exact safe_pure (fun v hv => ⟨hv, hall⟩)
          | some cursor =>
              exact triple_ite (fun _ => safe_pure (fun v hv => ⟨hv, hall⟩))
                (fun _ => triple_ite (fun _ => safe_stop sound_later) (fun _ => ih _ hall))

theorem safe_contractOf (hfair : Fair spec lib script disk) {found : List ToolInfo}
    (hfound : Listed script found) (tool : Tool) :
    Safe script (Sound script 0) (contractOf lib found tool)
      (fun pair v => Sound script 0 v ∧ FairTool spec lib script tool pair) := by
  unfold contractOf
  cases htool : findTool found tool with
  | none => exact safe_stop sound_later
  | some t =>
      have hname : t.name = tool.name := by
        have hfind := List.find?_some htool
        exact eq_of_beq hfind
      obtain ⟨e, he, page, hpage, ht⟩ := hfound t (List.mem_of_find?_eq_some htool)
      dsimp only
      cases houtput : t.outputSchema with
      | none => exact safe_stop sound_later
      | some output =>
          refine triple_ite (fun hschemas => ?_) (fun _ => safe_stop sound_later)
          rw [Bool.and_eq_true] at hschemas
          exact safe_pure (fun v hv =>
            ⟨hv, hfair.tools e he page hpage t ht tool output hname houtput hschemas.1 hschemas.2⟩)

theorem cleanText_schemas {tool : Tool} {pair : Json × Json} (h : FairTool spec lib script tool pair) :
    CleanText (contractField tool pair).1 ∧ CleanText (render (contractField tool pair).2) := by
  refine ⟨clean_tool tool, cleanText_obj (fun f hf => ?_)⟩
  simp only [List.mem_cons, List.not_mem_nil, or_false] at hf
  rcases hf with rfl | rfl
  · exact ⟨clean_ascii _, h.saved.1⟩
  · exact ⟨clean_ascii _, h.saved.2⟩

/-- **The contract** of a fair server is kept, and its validators are fair. -/
theorem safe_loadContract (hfair : Fair spec lib script disk) :
    Safe script (Sound script 0) (loadContract spec lib) (fun _ => Ready spec lib script 0) := by
  refine safe_bind (safe_listTools _ [] (fun t ht => absurd ht List.not_mem_nil)) (fun found => ?_)
  refine safe_pull (fun hfound => safe_stopIf sound_later (fun _ => ?_))
  refine safe_bind (safe_contractOf hfair hfound .getFlowStatus) (fun status => safe_pull (fun hstatus => ?_))
  refine safe_bind (safe_contractOf hfair hfound .getFlowResults) (fun results => safe_pull (fun hresults => ?_))
  refine safe_bind (safe_contractOf hfair hfound .listFlowFiles) (fun files => safe_pull (fun hfiles => ?_))
  have hpairs : ∀ tool, FairTool spec lib script tool (pairs status results files tool) := by
    intro tool
    cases tool with
    | getFlowStatus => exact hstatus
    | getFlowResults => exact hresults
    | listFlowFiles => exact hfiles
  refine safe_update (J := Ready spec lib script 0) ?_ ?_
  · exact fun w hw => ⟨{ script := hw.script, state := hw.state, cursor := hw.cursor, sample := hw.sample
                         downgrade := hw.downgrade, counts := hw.counts, rows := hw.rows
                         contract := hw.contract, result := hw.result, quiet := hw.quiet },
      _, rfl, hpairs⟩
  refine safe_read (fun w => ?_)
  have hP : ∀ v, (Ready spec lib script 0 v ∧ v = facts w) → Sound script 1 v := fun v hv => ready_sound v hv.1
  intro w₀ hw₀
  have hopen : ¬ w.disk.contractBlocked = true := by
    have hsame : w.disk.contractBlocked = (facts w₀).contractBlocked :=
      congrArg Facts.contractBlocked hw₀.2.symm
    rw [hsame, hw₀.1.1.contract]
    decide
  have htext : ¬ encodeUtf8 (render (.obj [contractField .getFlowStatus status,
      contractField .getFlowResults results, contractField .listFlowFiles files])) = none := by
    have hclean : CleanText (render (.obj [contractField .getFlowStatus status,
        contractField .getFlowResults results, contractField .listFlowFiles files])) := by
      refine cleanText_obj (fun f hf => ?_)
      simp only [List.mem_cons, List.not_mem_nil, or_false] at hf
      rcases hf with rfl | rfl | rfl
      · exact cleanText_schemas hstatus
      · exact cleanText_schemas hresults
      · exact cleanText_schemas hfiles
    unfold encodeUtf8
    rw [if_pos (show ∀ c ∈ _, Scalar c from hclean)]
    exact nofun
  have hskip : ∀ {β : Type} (c : Prop) [Decidable c] (e : Failure) (k : Unit → Flow β), ¬ c →
      (raiseIf c e >>= k) = k () := by
    intro β c _ e k hc
    unfold raiseIf
    rw [if_neg hc]
    rfl
  have hwrite : ∀ contract, Safe script (fun v => Ready spec lib script 0 v ∧ v = facts w) (do
      write
      setSink (fun s => { s with contract := some contract })) (fun _ => Ready spec lib script 0) :=
    fun contract => safe_skip hP (fixes_write (fun _ _ => rfl)) raises_write (fun _ _ hw => hw.1)
  rw [hskip _ _ _ hopen, hskip _ _ _ htext]
  exact hwrite _ w₀ hw₀

end Contract

/-! ## The phases -/

section Phases

variable {spec : Spec} {lib : Library} {script : List Event} {disk : Disk}

theorem clean_flowArgs (hfair : Fair spec lib script disk) : Clean (flowArgs spec) := by
  refine clean_obj.mpr (fun f hf => ?_)
  rw [List.mem_singleton.mp hf]
  exact clean_ascii_field (clean_str.mpr hfair.flowId)

theorem clean_pageArgs (hfair : Fair spec lib script disk) {cursor : Option Text}
    (hcursor : ∀ s, cursor = some s → CleanText s) : Clean (pageArgs spec cursor) := by
  refine clean_obj.mpr (fun f hf => ?_)
  simp only [List.mem_cons, List.not_mem_nil, or_false] at hf
  rcases hf with rfl | rfl | rfl | rfl
  · exact clean_ascii_field (clean_str.mpr hfair.flowId)
  · exact clean_ascii_field (clean_textOrNull hfair.source)
  · exact clean_ascii_field (clean_textOrNull hcursor)
  · exact clean_ascii_field (clean_int _)

/-- A change of counters that the report does not bound. -/
theorem Ready.core {v : Facts} (h : Ready spec lib script 0 v) {f : Core → Core}
    (hstate : ∀ s, (f v.core).lastState = some s → Clean s)
    (hcursor : ∀ s, (f v.core).nextUnreadCursor = some s → CleanText s)
    (hsample : ∀ s ∈ (f v.core).sampleRows, Clean s)
    (hdowngrade : ∀ d, (f v.core).downgrade = some d → CleanText d.2)
    (hcounts : (f v.core).callCounts = v.core.callCounts) (hrows : (f v.core).rowsSaved ≤ v.rowsBytes)
    (hvalidators : (f v.core).validators = v.core.validators) :
    Ready spec lib script 0 { v with core := f v.core } := by
  refine ⟨{ script := h.1.script, state := hstate, cursor := hcursor, sample := hsample
            downgrade := hdowngrade, counts := fun t => ?_, rows := hrows, contract := h.1.contract
            result := h.1.result, quiet := h.1.quiet }, ?_⟩
  · show (f v.core).callCounts t ≤ _
    rw [hcounts]
    exact h.1.counts t
  · obtain ⟨g, hg, hfair⟩ := h.2
    exact ⟨g, hvalidators.trans hg, hfair⟩

theorem safe_addWarnings {payload : Json} (h : WarningsRead payload) {β : Type} {k : Unit → Flow β}
    {R : β → Facts → Prop} (hk : Safe script (Ready spec lib script 0) (k ()) R) :
    Safe script (Ready spec lib script 0) (addWarnings payload >>= k) R := by
  obtain ⟨warnings, hwarnings⟩ := h
  have hrun : Safe script (Ready spec lib script 0) (addWarnings payload)
      (fun _ => Ready spec lib script 0) := by
    refine safe_python ⟨warnings, hwarnings⟩ (fun ws _ => fun w hw => ?_)
    exact hw.core (f := fun c => { c with warningsCount := c.warningsCount + ws.length }) hw.1.state
      hw.1.cursor hw.1.sample hw.1.downgrade rfl hw.1.rows rfl
  exact safe_bind hrun (fun _ => hk)

/-- **The polls** of a fair server halt or end. -/
theorem safe_waitFinished (hfair : Fair spec lib script disk) (left made : Nat) :
    Safe script (Ready spec lib script 0) (waitFinished spec lib left made)
      (fun _ => Ready spec lib script 0) := by
  induction left generalizing made with
  | zero => exact safe_stop ready_sound
  | succ left ih =>
      refine safe_bind (safe_call hfair rfl (clean_flowArgs hfair)) (fun payload => ?_)
      refine safe_pull (fun hpayload => ?_)
      obtain ⟨hclean, hstate, hwarnings, hflow⟩ := hpayload
      refine safe_python hstate (fun state hitem => ?_)
      refine safe_update (J := Ready spec lib script 0) ?_ ?_
      · intro w hw
        refine hw.core (f := fun c => { c with lastState := some state }) ?_ hw.1.cursor hw.1.sample
          hw.1.downgrade rfl hw.1.rows rfl
        intro s hs
        rw [← Option.some.inj hs]
        exact clean_item hclean hitem
      refine safe_addWarnings hwarnings ?_
      refine safe_python hflow (fun flowId _ => safe_stopIf ready_sound (fun _ => ?_))
      refine triple_ite (fun _ => safe_pure (fun _ hv => hv)) (fun _ => ?_)
      refine triple_ite (fun _ => safe_stop ready_sound) (fun _ => ?_)
      exact safe_skip ready_sound (fixes_backOff (fun _ _ => rfl) made) (raises_backOff made) (fun _ => ih _)

/-- What is known of a page that was checked. -/
structure PageRead (spec : Spec) (payload : Json) (page : Page) : Prop where
  rows : RowsRead spec payload page.rows
  clean : ∀ row ∈ page.rows, Clean row
  next : ∀ s, page.next = some s → CleanText s

theorem safe_checkPage {payload : Json} {expected : Text} (hclean : Clean payload)
    (h : Reads spec lib .getFlowResults payload) :
    Safe script (Ready spec lib script 0) (checkPage spec lib payload expected)
      (fun page v => Ready spec lib script 0 v ∧ PageRead spec payload page) := by
  obtain ⟨pagination, data, echo, hpagination, hdata, hecho, hshape⟩ := h
  refine safe_python ⟨pagination, hpagination⟩ (fun p hp => ?_)
  obtain rfl := Except.ok.inj (hpagination.symm.trans hp)
  refine safe_python ⟨data, hdata⟩ (fun d hd => ?_)
  obtain rfl := Except.ok.inj (hdata.symm.trans hd)
  refine safe_python ⟨echo, hecho⟩ (fun e he => ?_)
  obtain rfl := Except.ok.inj (hecho.symm.trans he)
  refine safe_stopIf ready_sound (fun hsame => ?_)
  obtain ⟨returned, rows, fits, hreturned, hrows, hfits, hrest⟩ :=
    hshape expected (isText_iff.mp (eq_true_of_ne_false hsame))
  refine safe_python ⟨returned, hreturned⟩ (fun r hr => ?_)
  obtain rfl := Except.ok.inj (hreturned.symm.trans hr)
  refine safe_python ⟨rows, hrows⟩ (fun rs hrs => ?_)
  obtain rfl := Except.ok.inj (hrows.symm.trans hrs)
  refine safe_python ⟨fits, hfits⟩ (fun f hf => ?_)
  obtain rfl := Except.ok.inj (hfits.symm.trans hf)
  refine safe_stopIf ready_sound (fun hfit => ?_)
  obtain ⟨truncated, next, htruncated, hnext, hread⟩ := hrest (eq_true_of_ne_false hfit)
  refine safe_python ⟨truncated, htruncated⟩ (fun t ht => ?_)
  obtain rfl := Except.ok.inj (htruncated.symm.trans ht)
  refine safe_python ⟨next, hnext⟩ (fun n hn => ?_)
  obtain rfl := Except.ok.inj (hnext.symm.trans hn)
  have hcleanPage : Clean pagination := clean_item hclean hpagination
  cases hcursor : nextOf lib truncated next rows with
  | none => exact safe_stop ready_sound
  | some cursor =>
      have hread' : RowsRead spec payload rows := hread (by rw [hcursor]; exact nofun)
      refine safe_pure (fun v hv => ⟨hv, { rows := hread', clean := ?_, next := ?_ }⟩)
      · exact clean_members (clean_item hclean hdata) hrows
      · intro s hs
        have hs' : cursor = some s := hs
        have htext : next = .str s := nextOf_some (hcursor.trans (congrArg some hs'))
        have hcleanNext := clean_item hcleanPage hnext
        rw [htext] at hcleanNext
        exact clean_str.mp hcleanNext

/-! ## Saving a page -/

/-- The lines that are still to be appended may be counted as saved. -/
def Saving (spec : Spec) (lib : Library) (script : List Event) (saved : Nat) (v : Facts) : Prop :=
  Ready spec lib script 0 v ∧ v.core.rowsSaved + saved ≤ v.rowsBytes

theorem safe_appendRowsPage (lines : List Bytes) (hlines : ∀ l ∈ lines, 1 ≤ l.length) (saved : Nat) :
    Safe script (Saving spec lib script saved) (appendRowsPage lines)
      (fun _ => Saving spec lib script (saved + lines.length)) := by
  have hP : ∀ n v, Saving spec lib script n v → Sound script 1 v := fun _ v hv => ready_sound v hv.1
  induction lines generalizing saved with
  | nil => exact safe_leaf (hP _) (fixes_write (fun _ _ => rfl)) raises_write
  | cons l ls ih =>
      obtain ⟨hl, hls⟩ := List.forall_mem_cons.mp hlines
      refine safe_skip (hP _) (fixes_write (fun _ _ => rfl)) raises_write (fun _ => ?_)
      refine safe_update (J := Saving spec lib script (saved + 1)) ?_ ?_
      · intro w hw
        have hrows := hw.2
        have hmore : w.core.rowsSaved + saved ≤ w.sink.rowsBytes := hrows
        have hle : w.core.rowsSaved ≤ w.sink.rowsBytes := hw.1.1.rows
        refine ⟨⟨{ script := hw.1.1.script, state := hw.1.1.state, cursor := hw.1.1.cursor
                   sample := hw.1.1.sample, downgrade := hw.1.1.downgrade, counts := hw.1.1.counts
                   rows := Nat.le_add_right_of_le hle, contract := hw.1.1.contract
                   result := hw.1.1.result, quiet := hw.1.1.quiet }, hw.1.2⟩, ?_⟩
        show w.core.rowsSaved + (saved + 1) ≤ w.sink.rowsBytes + l.length
        omega
      · refine safe_post (ih hls (saved + 1)) (fun _ v hv => ?_)
        rw [List.length_cons, Nat.add_comm ls.length, ← Nat.add_assoc]
        exact hv

theorem project_clean {row v : Json} (hrow : Clean row) (h : project spec row = .ok v) : Clean v := by
  have hempty : Clean (.obj []) := clean_obj.mpr (fun f hf => absurd hf List.not_mem_nil)
  unfold project at h
  split at h
  · obtain rfl := Except.ok.inj h
    exact hrow
  · split at h
    next fs =>
      obtain rfl := Except.ok.inj h
      refine clean_obj.mpr (fun f hf => ?_)
      obtain ⟨name, -, hname⟩ := List.mem_filterMap.mp hf
      obtain ⟨w, hlookup, rfl⟩ := Option.map_eq_some_iff.mp hname
      exact clean_obj.mp hrow _ (lookup_mem hlookup)
    next =>
      split at h
      · exact absurd h nofun
      · obtain rfl := Except.ok.inj h
        exact hempty
    next =>
      split at h
      · exact absurd h nofun
      · obtain rfl := Except.ok.inj h
        exact hempty
    next => exact absurd h nofun

theorem safe_extendSample {rows : List Json} (hclean : ∀ row ∈ rows, Clean row)
    (hproject : spec.sampleRows ≠ 0 → ∀ row ∈ rows, ∃ v, project spec row = .ok v) :
    Safe script (Ready spec lib script 0) (extendSample spec rows) (fun _ => Ready spec lib script 0) := by
  induction rows with
  | nil => exact safe_pure (fun _ hv => hv)
  | cons row rows ih =>
      obtain ⟨hrow, hrest⟩ := List.forall_mem_cons.mp hclean
      refine safe_bind (safe_leaf ready_sound fixes_read raises_read) (fun w => ?_)
      refine triple_ite (fun _ => safe_pure (fun _ hv => hv)) (fun hroom => ?_)
      have hsome : spec.sampleRows ≠ 0 := by omega
      obtain ⟨projected, hprojected⟩ := hproject hsome row List.mem_cons_self
      refine safe_python ⟨projected, hprojected⟩ (fun p hp => ?_)
      have hp' : Clean p := project_clean hrow hp
      refine safe_bind (Q := fun _ => Ready spec lib script 0) ?_
        (fun _ => ih hrest (fun h r hr => hproject h r (List.mem_cons_of_mem _ hr)))
      refine triple_ite (fun _ => safe_pure (fun _ hv => hv)) (fun _ => ?_)
      unfold encodeUtf8
      rw [if_pos (show ∀ c ∈ render p, Scalar c from hp'.2)]
      refine triple_ite (fun _ => safe_pure (fun _ hv => hv)) (fun _ => fun w hw => ?_)
      refine hw.core (f := fun c => { c with sampleRows := c.sampleRows ++ [p] }) hw.1.state hw.1.cursor ?_
        hw.1.downgrade rfl hw.1.rows rfl
      intro s hs
      rcases List.mem_append.mp hs with hs | hs
      · exact hw.1.sample s hs
      · rw [List.mem_singleton.mp hs]
        exact hp'

theorem linesOf_length {rows : List Json} {lines : List Bytes} (h : LinesOf rows lines) :
    lines.length = rows.length ∧ ∀ l ∈ lines, 1 ≤ l.length := by
  induction h with
  | nil => exact ⟨rfl, fun _ hl => absurd hl List.not_mem_nil⟩
  | cons hrow _ ih =>
      refine ⟨congrArg (· + 1) ih.1, List.forall_mem_cons.mpr ⟨line_positive hrow, ih.2⟩⟩

/-- **A page** that was checked is saved, or the run halts. -/
theorem safe_savePage {payload : Json} {page : Page} {echo : Text} (hpage : PageRead spec payload page)
    (hecho : CleanText echo) :
    Safe script (Ready spec lib script 0) (savePage spec payload page echo)
      (fun _ => Ready spec lib script 0) := by
  refine safe_update (J := Ready spec lib script 0) ?_ ?_
  · exact fun w hw => hw.core (f := Core.fetched page.rows.length) hw.1.state hw.1.cursor hw.1.sample
      hw.1.downgrade rfl hw.1.rows rfl
  refine safe_addWarnings hpage.rows.1 ?_
  unfold pageLines
  cases hlines : page.rows.mapM line with
  | error e => exact safe_bind (Q := fun _ _ => False) (safe_stop ready_sound) (fun _ _ h => absurd h id)
  | ok lines =>
      obtain ⟨hlength, hpositive⟩ := linesOf_length (mapM_lines hlines)
      rw [program_pure_bind]
      refine safe_bind (safe_leaf ready_sound fixes_read raises_read) (fun w => ?_)
      refine triple_ite (fun _ => ?_) (fun _ => ?_)
      · refine safe_update (J := Ready spec lib script 0) ?_ (safe_stop ready_sound)
        intro w hw
        refine hw.core (f := Core.unread (some echo)) hw.1.state ?_ hw.1.sample hw.1.downgrade rfl hw.1.rows rfl
        intro s hs
        rw [← Option.some.inj hs]
        exact hecho
      · refine safe_bind (safe_pre (safe_appendRowsPage lines hpositive 0) (fun v hv => ⟨hv, hv.1.rows⟩))
          (fun _ => ?_)
        refine safe_update (J := Ready spec lib script 0) ?_ (safe_extendSample hpage.clean hpage.rows.2)
        intro w hw
        refine hw.1.core (f := Core.saved page.rows.length) hw.1.1.state hw.1.1.cursor hw.1.1.sample
          hw.1.1.downgrade rfl ?_ rfl
        have hrows := hw.2
        rw [Nat.zero_add, hlength] at hrows
        exact hrows

/-- **The pages** of a fair server. -/
theorem safe_collectPages (hfair : Fair spec lib script disk) (left : Nat) (cursor : Option Text)
    (visited : List Text) (hcursor : ∀ s, cursor = some s → CleanText s) :
    Safe script (Ready spec lib script 0) (collectPages spec lib left cursor visited)
      (fun _ => Ready spec lib script 0) := by
  induction left generalizing cursor visited with
  | zero => exact safe_pure (fun _ hv => hv)
  | succ left ih =>
      have hexpected : CleanText (expectedCursor cursor) := by
        cases cursor with
        | none => exact clean_ascii _
        | some s => exact hcursor s rfl
      have hunread : ∀ (next : Option Text) (w : World), (∀ s, next = some s → CleanText s) →
          Ready spec lib script 0 (facts w) →
          Ready spec lib script 0 (facts { w with core := Core.unread next w.core }) := by
        intro next w hnext hw
        exact hw.core (f := Core.unread next) hw.1.state hnext hw.1.sample hw.1.downgrade rfl hw.1.rows rfl
      refine safe_bind (safe_call hfair ⟨cursor, rfl⟩ (clean_pageArgs hfair hcursor)) (fun payload => ?_)
      refine safe_pull (fun hpayload => ?_)
      refine safe_bind (safe_checkPage hpayload.1 hpayload.2) (fun page => safe_pull (fun hpage => ?_))
      refine safe_bind (safe_savePage hpage hexpected) (fun _ => ?_)
      cases hnext : page.next with
      | none => exact fun w hw => hunread none w nofun hw
      | some next =>
          have hclean : ∀ s, some next = some s → CleanText s := fun s hs => hpage.next s (hnext.trans hs)
          refine triple_ite (fun _ => safe_stop ready_sound) (fun _ => triple_ite (fun _ => ?_) (fun _ => ?_))
          · exact safe_update (fun w hw => hunread (some next) w hclean hw) (safe_stop ready_sound)
          · exact ih _ _ hclean

theorem safe_listFiles (hfair : Fair spec lib script disk) :
    Safe script (Ready spec lib script 0) (listFiles spec lib) (fun _ => Ready spec lib script 0) := by
  refine safe_bind (safe_call hfair rfl (clean_flowArgs hfair)) (fun payload => ?_)
  refine safe_pull (fun hpayload => ?_)
  obtain ⟨hclean, hwarnings, data, files, truncated, hdata, hfiles, htruncated⟩ := hpayload
  refine safe_addWarnings hwarnings ?_
  refine safe_python ⟨data, hdata⟩ (fun d hd => ?_)
  obtain rfl := Except.ok.inj (hdata.symm.trans hd)
  refine safe_python ⟨files, hfiles⟩ (fun fs _ => ?_)
  refine safe_python ⟨truncated, htruncated⟩ (fun t _ => fun w hw => ?_)
  refine hw.core (f := Core.files fs.length (isTrue lib t)) hw.1.state hw.1.cursor hw.1.sample ?_ rfl
    hw.1.rows rfl
  intro d hd
  have hd' : (if isTrue lib t then some (Verdict.partially, ascii "filelist_truncated") else w.core.downgrade)
      = some d := hd
  split at hd'
  · obtain rfl := Option.some.inj hd'
    exact clean_ascii _
  · exact hw.1.downgrade d hd'

/-- A result whose texts can be written. -/
structure CleanResult (result : RunResult) : Prop where
  reason : CleanText result.reason
  errorCode : ∀ s, result.errorCode = some s → CleanText s
  secondaryCode : ∀ s, result.secondaryCode = some s → CleanText s

/-- **A run against a fair server returns a result.** -/
theorem safe_run (hfair : Fair spec lib script disk) :
    Triple facts (Sound script 0) (run spec lib)
      (fun result v => Sound script 1 v ∧ CleanResult result) (fun _ _ => False) := by
  have hphases : Safe script (Sound script 0) (phases spec lib)
      (fun result v => Sound script 1 v ∧ CleanResult result) := by
    refine safe_bind (safe_loadContract hfair) (fun _ => ?_)
    refine safe_bind (safe_waitFinished hfair _ _) (fun _ => ?_)
    refine safe_bind (safe_collectPages hfair _ _ _ nofun) (fun _ => ?_)
    refine safe_bind (safe_listFiles hfair) (fun _ => safe_read (fun w => ?_))
    refine safe_pure (fun v hv => ⟨ready_sound v hv.1, ?_⟩)
    refine { reason := ?_, errorCode := nofun, secondaryCode := nofun }
    have hcore : v.core = w.core := congrArg Facts.core hv.2
    cases hdowngrade : w.core.downgrade with
    | none => exact clean_ascii _
    | some d => exact hv.1.1.downgrade d (hcore ▸ hdowngrade)
  refine triple_handle (H := fun e v => IsStop e ∧ Sound script 1 v) ?_ (fun e => ?_)
  · refine triple_conseq hphases (fun _ h => h) (fun _ _ h => h) (fun e v hv => ?_)
    obtain ⟨⟨f, rfl, hf⟩, hsound⟩ := hv
    exact ⟨hf, hsound⟩
  · intro w hw
    obtain ⟨⟨outcome, reason, rfl, hreason⟩, hsound⟩ := hw
    refine ⟨hsound, { reason := hreason, errorCode := ?_, secondaryCode := nofun }⟩
    intro s hs
    rw [← Option.some.inj hs]
    exact hreason

end Phases

end FlowHost
