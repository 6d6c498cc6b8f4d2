import VeloTransfer.FlowHostProofs

/-! # What a run of the flow host has read when it says complete

    A run leaves a trace: what it sent, what it received, and what its two files
    hold.  Each call keeps the trace within the budgets; each phase is read off the
    trace it leaves.  The log bound needs one fact about the texts: a marker that
    repeats the cursor of the server is no longer than the record it came in. -/

namespace FlowHost

open EffectPrograms Program CanonicalJson BoundedJson JsonDict

/-! ## The length of a record -/

/-- The bytes of a value's text. -/
def size (v : Json) : Nat := units (render v)

def fieldSize (f : Text × Json) : Nat := 3 + textSize f.1 + size f.2

theorem units_fields (fs : List (Text × Json)) :
    units (renderFields fs) = 1 + (fs.map (fun f => 1 + fieldSize f)).sum := by
  induction fs with
  | nil => rfl
  | cons f fs ih =>
      obtain ⟨k, v⟩ := f
      show units (44 :: (renderString k ++ 58 :: (render v ++ renderFields fs))) = _
      rw [units_cons, units_append, units_cons, units_append, units_renderString, ih, List.map_cons,
        List.sum_cons]
      show 1 + (2 + textSize k + (1 + (size v + (1 + _)))) = 1 + (1 + (3 + textSize k + size v) + _)
      omega

theorem size_obj (f : Text × Json) (fs : List (Text × Json)) :
    size (.obj (f :: fs)) = 2 + fieldSize f + (fs.map (fun f => 1 + fieldSize f)).sum := by
  obtain ⟨k, v⟩ := f
  show units (123 :: (renderString k ++ 58 :: (render v ++ renderFields fs))) = _
  rw [units_cons, units_append, units_cons, units_append, units_renderString, units_fields]
  show 1 + (2 + textSize k + (1 + (size v + (1 + _)))) = 2 + (3 + textSize k + size v) + _
  omega

theorem le_sum_map {α : Type} {g : α → Nat} {a : α} {as : List α} (h : a ∈ as) :
    g a ≤ (as.map g).sum := by
  induction as with
  | nil => exact absurd h List.not_mem_nil
  | cons b bs ih =>
      rw [List.map_cons, List.sum_cons]
      rcases List.mem_cons.mp h with rfl | h
      · exact Nat.le_add_right _ _
      · exact Nat.le_add_left_of_le (ih h)

/-- An object is longer than each of its fields. -/
theorem size_field {fs : List (Text × Json)} {f : Text × Json} (h : f ∈ fs) :
    fieldSize f + 2 ≤ size (.obj fs) := by
  cases fs with
  | nil => exact absurd h List.not_mem_nil
  | cons g gs =>
      rw [size_obj]
      rcases List.mem_cons.mp h with rfl | h
      · omega
      · have hle : 1 + fieldSize f ≤ (gs.map (fun f => 1 + fieldSize f)).sum :=
          le_sum_map (g := fun f => 1 + fieldSize f) h
        omega

theorem encode_length {v : Json} {raw : Bytes} (h : encode v = .ok raw) : raw.length = size v := by
  unfold encode at h
  split at h
  · exact absurd h nofun
  · split at h
    · exact absurd h nofun
    next raw' hraw =>
      obtain rfl := Except.ok.inj h
      unfold encodeUtf8 at hraw
      split at hraw
      · obtain rfl := Option.some.inj hraw
        exact List.length_map _
      · exact absurd hraw nofun

theorem line_length {v : Json} {raw : Bytes} (h : line v = .ok raw) : raw.length = size v + 1 := by
  unfold line at h
  cases hraw : encode v with
  | error e =>
      rw [hraw] at h
      exact absurd h nofun
  | ok raw' =>
      rw [hraw] at h
      obtain rfl := Except.ok.inj h
      show (raw' ++ [10]).length = size v + 1
      rw [List.length_append, encode_length hraw]
      rfl

theorem size_str (s : Text) : size (.str s) = 2 + textSize s := units_renderString s

theorem textSize_le (s : Text) : textSize s ≤ 6 * s.length := by
  induction s with
  | nil => exact Nat.le_refl 0
  | cons c cs ih =>
      have hone : charSize c ≤ 6 := by
        unfold charSize
        split_ifs
        all_goals omega
      show charSize c + textSize cs ≤ 6 * (cs.length + 1)
      omega

/-- The marker of a call fits the slot that is kept for it. -/
def MarkerFits (tool : Tool) (args : Json) : Prop := size (marker tool args) + 1 ≤ LOG_SLOT_RESERVE

theorem size_marker (tool : Tool) (args : Json) :
    size (marker tool args) = textSize tool.name + size args + 104 := by
  unfold marker
  rw [size_obj]
  simp only [List.map_cons, List.map_nil, List.sum_cons, List.sum_nil, fieldSize, size_str]
  have h1 : textSize (ascii "name") = 4 := by decide
  have h2 : textSize (ascii "args") = 4 := by decide
  have h3 : textSize (ascii "response_omitted") = 16 := by decide
  have h4 : textSize (ascii "raw_completeness") = 16 := by decide
  have h5 : textSize (ascii "reason") = 6 := by decide
  have h6 : textSize (ascii "unknown") = 7 := by decide
  have h7 : textSize (ascii "raw_record_too_large") = 20 := by decide
  have h8 : size (.bool true) = 4 := rfl
  omega

theorem size_record (tool : Tool) (args : Json) (r : Response) :
    size (record tool args r) = textSize tool.name + size args + size r.modelDump + 31 := by
  unfold record
  rw [size_obj]
  simp only [List.map_cons, List.map_nil, List.sum_cons, List.sum_nil, fieldSize, size_str]
  have h1 : textSize (ascii "name") = 4 := by decide
  have h2 : textSize (ascii "args") = 4 := by decide
  have h3 : textSize (ascii "response") = 8 := by decide
  omega

theorem size_modelDump {r : Response} {payload : Json} (h : r.structuredContent = some payload) :
    size payload + 53 ≤ size r.modelDump := by
  unfold Response.modelDump
  rw [h, List.cons_append, size_obj]
  simp only [List.cons_append, List.nil_append, List.map_cons, List.sum_cons, fieldSize,
    Option.getD_some]
  have h1 : textSize (ascii "_meta") = 5 := by decide
  have h2 : textSize (ascii "content") = 7 := by decide
  have h3 : textSize (ascii "structuredContent") = 17 := by decide
  have h4 : textSize (ascii "isError") = 7 := by decide
  omega

section Spec

variable (spec : Spec)

theorem size_flowArgs : size (flowArgs spec) ≤ 1600 := by
  unfold flowArgs
  rw [size_obj]
  simp only [List.map_nil, List.sum_nil, fieldSize, size_str]
  have h1 : textSize (ascii "flow_id") = 7 := by decide
  have h2 := textSize_le spec.flowId
  have h3 := spec.flowIdShort
  omega

/-- What the arguments of a page request take besides the cursor. -/
def pageArgsBase : Nat :=
  size (.str spec.flowId) + size (textOrNull spec.source) + size (.int spec.pageSize) + 45

theorem size_pageArgs (cursor : Option Text) :
    size (pageArgs spec cursor) = pageArgsBase spec + size (textOrNull cursor) := by
  unfold pageArgs pageArgsBase
  rw [size_obj]
  simp only [List.map_cons, List.map_nil, List.sum_cons, List.sum_nil, fieldSize]
  have h1 : textSize (ascii "flow_id") = 7 := by decide
  have h2 : textSize (ascii "source") = 6 := by decide
  have h3 : textSize (ascii "cursor") = 6 := by decide
  have h4 : textSize (ascii "page_size") = 9 := by decide
  omega

theorem pageArgsBase_le : pageArgsBase spec ≤ 4000 := by
  unfold pageArgsBase
  have hid := textSize_le spec.flowId
  have hshort := spec.flowIdShort
  have hsource : size (textOrNull spec.source) ≤ 1600 := by
    cases h : spec.source with
    | none => exact Nat.le_of_ble_eq_true rfl
    | some s =>
        have hs := spec.sourceShort s h
        have hle := textSize_le s
        rw [textOrNull, size_str]
        omega
  have hsize : ∀ n : Fin 251, size (.int (n.val : Int)) ≤ 3 := by decide +kernel
  have hpage := hsize ⟨spec.pageSize, Nat.lt_succ_of_le spec.pageSizeSmall⟩
  rw [size_str]
  dsimp only at hpage
  omega

/-- The calls that repeat nothing of the server fit. -/
theorem markerFits_flow (tool : Tool) : MarkerFits tool (flowArgs spec) := by
  have hargs := size_flowArgs spec
  have hname : textSize tool.name ≤ 100 := by
    cases tool with
    | getFlowStatus => decide
    | getFlowResults => decide
    | listFlowFiles => decide
  unfold MarkerFits LOG_SLOT_RESERVE
  rw [size_marker]
  omega

theorem markerFits_first : MarkerFits .getFlowResults (pageArgs spec none) := by
  have hbase := pageArgsBase_le spec
  have hname : textSize Tool.getFlowResults.name = 16 := by decide
  have hnull : size (textOrNull none) = 4 := rfl
  unfold MarkerFits LOG_SLOT_RESERVE
  rw [size_marker, size_pageArgs]
  omega

/-- **A marker that repeats a cursor is no longer than the record it came in.** -/
theorem markerFits_next {cursor : Option Text} {next : Text} {r : Response}
    {payload pagination : Json} (hpayload : r.structuredContent = some payload)
    (hpagination : item payload "pagination" = .ok pagination)
    (hnext : item pagination "next_cursor" = .ok (.str next))
    (hrecord : size (record .getFlowResults (pageArgs spec cursor) r) + 1 ≤ LOG_RECORD_LIMIT) :
    MarkerFits .getFlowResults (pageArgs spec (some next)) := by
  have hfield : ∀ {v w : Json} {key : String}, item v key = .ok w →
      3 + textSize (ascii key) + size w + 2 ≤ size v := by
    intro v w key h
    cases v with
    | obj fs =>
        unfold item at h
        dsimp only at h
        cases hlookup : fs.lookup (ascii key) with
        | none =>
            rw [hlookup] at h
            cases h
        | some w' =>
            rw [hlookup] at h
            obtain rfl := Except.ok.inj h
            exact size_field (lookup_mem hlookup)
    | _ => cases h
  have hdump := size_modelDump hpayload
  have h1 := hfield hpagination
  have h2 := hfield hnext
  have h3 : textSize (ascii "pagination") = 10 := by decide
  have h4 : textSize (ascii "next_cursor") = 11 := by decide
  rw [size_record, size_pageArgs] at hrecord
  unfold MarkerFits
  rw [size_marker, size_pageArgs]
  have hlimit : LOG_RECORD_LIMIT = LOG_SLOT_RESERVE := rfl
  have hnull : size (textOrNull (some next)) = size (.str next) := rfl
  omega

end Spec

/-! ## Traces -/

/-- What a run leaves behind. -/
structure Trace where
  sent : List Request
  received : List (Tool × Response)
  callsBytes : Nat
  rows : List Bytes
  rowsBytes : Nat
  downgrade : Option (Verdict × Text)

def trace (w : World) : Trace :=
  { sent := w.sent, received := w.received, callsBytes := w.sink.callsBytes, rows := w.sink.rows
    rowsBytes := w.sink.rowsBytes, downgrade := w.core.downgrade }

theorem fixes_update {f : World → World} (h : ∀ w, trace (f w) = trace w) : Fixes trace (update f : Flow Unit) :=
  h

section View

variable {ν : Type} {view : World → ν}

theorem fixes_python {α : Type} (x : Except String α) : Fixes view (python x) := by
  cases x with
  | ok a => exact fixes_pure a
  | error name => exact fixes_raise _

theorem fixes_diskFails (h : ∀ w faults, view { w with disk := { w.disk with faults := faults } } = view w) :
    Fixes view diskFails := by
  intro w
  unfold diskFails
  cases w.disk.faults with
  | nil => rfl
  | cons fails rest => exact h w rest

theorem fixes_write (h : ∀ w faults, view { w with disk := { w.disk with faults := faults } } = view w) :
    Fixes view write :=
  fixes_bind (fixes_diskFails h) (fun _ => fixes_raiseIf _ _)

theorem fixes_admits (lib : Library) (schema v : Json) (reason : String) :
    Fixes view (admits lib schema v reason) := by
  unfold admits
  cases lib.isValid schema v with
  | none => exact fixes_raise _
  | some valid => exact fixes_raiseIf _ _

theorem fixes_schemas (tool : Tool) : Fixes view (schemas tool) := by
  refine fixes_bind fixes_read (fun w => ?_)
  cases w.core.validators with
  | none => exact fixes_raise _
  | some f => exact fixes_pure _

theorem fixes_checked (lib : Library) (r : Response) (tool : Tool) : Fixes view (checked lib r tool) := by
  unfold checked
  split
  · exact fixes_bind (fixes_python _) (fun _ => fixes_raise _)
  · split
    · exact fixes_bind (fixes_raiseIf _ _) (fun _ => fixes_bind (fixes_schemas tool) (fun _ =>
        fixes_bind (fixes_admits lib _ _ _) (fun _ => fixes_pure _)))
    · exact fixes_raise _

theorem fixes_nextEvent (h : ∀ w clock script, view { w with clock := clock, script := script } = view w) :
    Fixes view nextEvent := by
  intro w
  unfold nextEvent
  cases w.script with
  | nil => rfl
  | cons e rest => exact h w _ _

theorem fixes_pass (h : ∀ w clock, view { w with clock := clock } = view w) (time : Nat) : Fixes view (pass time) :=
  fun w => h w (w.clock + time)

/-- A request whose sending leaves the view alone. -/
theorem fixes_bounded (h : ∀ w clock script, view { w with clock := clock, script := script } = view w)
    {spec : Spec} {send : World → World} (hsend : ∀ w, view (send w) = view w) : Fixes view (bounded spec send) := by
  refine fixes_bind (fixes_nextEvent h) (fun e => fixes_bind fixes_read (fun w => fixes_bind (fixes_raiseIf _ _)
    (fun _ => fixes_bind hsend (fun _ => fixes_bind (fixes_pass (fun w clock => h w clock w.script) _)
      (fun _ => ?_)))))
  exact fixes_ite (fixes_pure _) (fixes_ite (fixes_raise _) (fixes_raise _))

theorem fixes_addTools (found ts : List ToolInfo) : Fixes view (addTools found ts) := by
  induction ts generalizing found with
  | nil => exact fixes_pure _
  | cons t ts ih => exact fixes_bind (fixes_raiseIf _ _) (fun _ => ih _)

theorem fixes_listTools (h : ∀ w clock script, view { w with clock := clock, script := script } = view w)
    {spec : Spec} (left : Nat) (found : List ToolInfo) (seen : List Text) :
    Fixes view (listTools spec left found seen) := by
  induction left generalizing found seen with
  | zero => exact fixes_raise _
  | succ left ih =>
      refine fixes_bind (fixes_bounded h (fun _ => rfl)) (fun e => ?_)
      cases e.page with
      | none => exact fixes_raise _
      | some page =>
          refine fixes_bind (fixes_addTools _ _) (fun found => ?_)
          cases page.nextCursor with
          | none => exact fixes_pure _
          | some cursor => exact fixes_ite (fixes_pure _) (fixes_ite (fixes_raise _) (ih _ _))

theorem fixes_contractOf {lib : Library} (found : List ToolInfo) (tool : Tool) :
    Fixes view (contractOf lib found tool) := by
  unfold contractOf
  split
  · exact fixes_raise _
  · split
    · exact fixes_raise _
    · exact fixes_ite (fixes_pure _) (fixes_raise _)

theorem fixes_backOff (h : ∀ w clock, view { w with clock := clock } = view w) (index : Nat) :
    Fixes view (backOff index) :=
  fixes_bind fixes_read (fun _ => fixes_bind (fixes_raiseIf _ _) (fun _ => fixes_pass h _))

end View

/-- The counters of the coordinator are not part of the trace. -/
theorem fixes_setCore {f : Core → Core} (h : ∀ c, (f c).downgrade = c.downgrade) : Fixes trace (setCore f) :=
  fixes_update (fun w => congrArg
    (fun d => ({ sent := w.sent, received := w.received, callsBytes := w.sink.callsBytes
                 rows := w.sink.rows, rowsBytes := w.sink.rowsBytes, downgrade := d } : Trace)) (h w.core))

theorem fixes_addWarnings (payload : Json) : Fixes trace (addWarnings payload) :=
  fixes_bind (fixes_python _) (fun _ => fixes_setCore (fun _ => rfl))

/-- `J` holds wherever a program ends early. -/
def Ends {α : Type} (J P : Trace → Prop) (m : Flow α) (Q : α → Trace → Prop) : Prop :=
  Triple trace P m Q (fun _ v => J v)

section Ends

variable {α β : Type} {J P : Trace → Prop} {m : Flow α} {k : α → Flow β} {Q : α → Trace → Prop}
variable {R : β → Trace → Prop}

theorem ends_bind (hm : Ends J P m Q) (hk : ∀ a, Ends J (Q a) (k a) R) : Ends J P (m >>= k) R :=
  triple_bind hm hk

theorem ends_skip (hm : Fixes trace m) (hJ : ∀ v, P v → J v) (hk : ∀ a, Ends J P (k a) R) :
    Ends J P (m >>= k) R :=
  triple_skip hm (fun _ v hv => hJ v hv) hk

theorem ends_stop {e : Failure} (hJ : ∀ v, P v → J v) : Ends J P (raise e : Flow α) Q :=
  triple_raise hJ

theorem ends_pure {a : α} (h : ∀ v, P v → Q a v) : Ends J P (pure a) Q := triple_pure h

/-- Past a Python expression, its value is known. -/
theorem ends_python {x : Except String α} (hJ : ∀ v, P v → J v)
    (hk : ∀ a, x = .ok a → Ends J P (k a) R) : Ends J P (python x >>= k) R := by
  cases x with
  | ok a => exact hk a rfl
  | error name => exact fun s hs => hJ _ hs

theorem ends_stopIf {c : Prop} [Decidable c] {outcome : Verdict} {reason : String} {k : Unit → Flow β}
    (hJ : ∀ v, P v → J v) (hk : ¬ c → Ends J P (k ()) R) : Ends J P (stopIf c outcome reason >>= k) R :=
  triple_check hJ hk

theorem ends_read {k : World → Flow β} (hk : ∀ w, Ends J (fun v => P v ∧ v = trace w) (k w) R) :
    Ends J P (read >>= k) R :=
  triple_read hk

theorem ends_at (h : ∀ v₀, P v₀ → Ends J (fun v => v = v₀) m Q) : Ends J P m Q := triple_at h

theorem ends_weaken {Q' : α → Trace → Prop} (h : Ends J P m Q) (hQ : ∀ a v, Q a v → Q' a v) :
    Ends J P m Q' := triple_post h hQ

/-- A change of the trace that nothing can stop. -/
theorem ends_update {f : World → World} {g : Trace → Trace} {v₀ : Trace} {k : Unit → Flow β}
    (hview : ∀ w, trace (f w) = g (trace w)) (hk : Ends J (fun v => v = g v₀) (k ()) R) :
    Ends J (fun v => v = v₀) (update f >>= k) R := by
  intro w hw
  refine hk (f w) ?_
  show trace (f w) = g v₀
  rw [hview, show trace w = v₀ from hw]

end Ends

/-! ## Calls -/

def Trace.send (req : Request) (v : Trace) : Trace := { v with sent := v.sent ++ [req] }

def Trace.receive (tool : Tool) (r : Response) (v : Trace) : Trace :=
  { v with received := v.received ++ [(tool, r)] }

def Trace.log (bytes : Nat) (v : Trace) : Trace := { v with callsBytes := v.callsBytes + bytes }

section Calls

variable {spec : Spec} {lib : Library} {J : Trace → Prop} {v₀ : Trace}

theorem ends_bounded {send : World → World} {f : Trace → Trace} (hview : ∀ w, trace (send w) = f (trace w))
    (hJ : J v₀) (hJ' : J (f v₀)) :
    Ends J (fun v => v = v₀) (bounded spec send) (fun _ v => v = f v₀) := by
  refine ends_skip (fixes_nextEvent (fun _ _ _ => rfl)) (fun _ hv => hv ▸ hJ) (fun e => ?_)
  refine ends_bind (Q := fun _ v => v = v₀) (triple_fixes fixes_read (fun _ _ hv => hv ▸ hJ)) (fun w => ?_)
  refine ends_stopIf (fun _ hv => hv ▸ hJ) (fun _ => ?_)
  refine ends_update hview ?_
  refine ends_skip (fixes_pass (fun _ _ => rfl) _) (fun _ hv => hv ▸ hJ') (fun _ => ?_)
  by_cases htook : e.took ≤ min w.remaining spec.requestTimeout
  · rw [if_pos htook]
    exact ends_pure (fun _ hv => hv)
  · rw [if_neg htook]
    by_cases hbound : w.remaining ≤ spec.requestTimeout
    · rw [if_pos hbound]
      exact ends_stop (fun _ hv => hv ▸ hJ')
    · rw [if_neg hbound]
      exact ends_stop (fun _ hv => hv ▸ hJ')

/-- The log grows by at most the slot that is kept for a call. -/
theorem ends_appendCall {tool : Tool} {args : Json} {r : Response} (hmarker : MarkerFits tool args)
    (hJ : ∀ bytes, bytes ≤ LOG_SLOT_RESERVE → J (v₀.log bytes)) :
    Ends J (fun v => v = v₀) (appendCall tool args r) (fun _ v => ∃ bytes, bytes ≤ LOG_SLOT_RESERVE ∧
      size (record tool args r) + 1 ≤ LOG_RECORD_LIMIT ∧ v = v₀.log bytes) := by
  have hstart : J v₀ := hJ 0 (Nat.zero_le _)
  have hadd : ∀ raw w, trace { w with sink := Sink.addCall raw w.sink } = (trace w).log raw.length :=
    fun _ _ => rfl
  refine ends_python (fun _ hv => hv ▸ hstart) (fun full hfull => ?_)
  have hlength := line_length hfull
  by_cases hshort : full.length ≤ LOG_RECORD_LIMIT
  · rw [if_pos hshort]
    refine ends_skip (fixes_write (fun _ _ => rfl)) (fun _ hv => hv ▸ hstart) (fun _ => ?_)
    intro w hw
    exact ⟨full.length, hshort, hlength ▸ hshort, (hadd full w).trans (congrArg _ hw)⟩
  · rw [if_neg hshort]
    refine ends_python (fun _ hv => hv ▸ hstart) (fun short hline => ?_)
    have hfits : short.length ≤ LOG_SLOT_RESERVE := by
      rw [line_length hline]
      exact hmarker
    refine ends_skip (fixes_write (fun _ _ => rfl)) (fun _ hv => hv ▸ hstart) (fun _ => ?_)
    refine ends_update (g := Trace.log short.length) (hadd short) ?_
    refine ends_skip (fixes_update (fun _ => rfl)) (fun _ hv => hv ▸ hJ _ hfits) (fun _ => ?_)
    exact ends_stop (fun _ hv => hv ▸ hJ _ hfits)

/-- What `_checked` lets through. -/
structure Payload (tool : Tool) (r : Response) (payload : Json) : Prop where
  content : r.structuredContent = some payload
  operation : isText (get payload "operation") tool.name = true
  status : isText (get payload "status") (ascii "success") = true
  fine : r.isError = false

theorem ends_checked {P : Trace → Prop} {r : Response} {tool : Tool} (hJ : ∀ v, P v → J v) :
    Ends J P (checked lib r tool) (fun payload v => P v ∧ Payload tool r payload) := by
  unfold checked
  by_cases herror : r.isError = true
  · rw [if_pos herror]
    exact ends_skip (fixes_python _) hJ (fun _ => ends_stop hJ)
  · rw [if_neg herror]
    cases hpayload : r.structuredContent with
    | none => exact ends_stop hJ
    | some payload =>
        cases payload with
        | obj fs =>
            refine ends_stopIf hJ (fun hshape => ?_)
            refine ends_skip (fixes_schemas tool) hJ (fun _ => ?_)
            refine ends_skip (fixes_admits lib _ _ _) hJ (fun _ => ?_)
            rw [not_or] at hshape
            exact ends_pure (fun v hv => ⟨hv, hpayload, eq_true_of_ne_false hshape.1,
              eq_true_of_ne_false hshape.2, eq_false_of_ne_true herror⟩)
        | _ => exact ends_stop hJ

/-- **One call**: the request is sent once, its answer is logged within the budget
    and has the shape that was checked. -/
theorem ends_call {tool : Tool} {args : Json} (hmarker : MarkerFits tool args)
    (hstart : ∀ v, v = v₀ → J v)
    (hJ : ∀ received bytes, v₀.callsBytes + bytes ≤ spec.maxLogBytes →
      J { (v₀.send ⟨tool, args⟩).log bytes with received := received }) :
    Ends J (fun v => v = v₀) (call spec lib tool args) (fun payload v => ∃ r bytes,
      Payload tool r payload ∧ size (record tool args r) + 1 ≤ LOG_RECORD_LIMIT ∧
      v₀.callsBytes + bytes ≤ spec.maxLogBytes ∧
      v = ((v₀.send ⟨tool, args⟩).receive tool r).log bytes) := by
  refine ends_read (fun w => ?_)
  refine ends_stopIf (fun v hv => hstart v hv.1) (fun hroom => ?_)
  refine ends_at (fun v hv => ?_)
  obtain ⟨rfl, hw⟩ := hv
  have hbytes : ∀ bytes, bytes ≤ LOG_SLOT_RESERVE → v.callsBytes + bytes ≤ spec.maxLogBytes := by
    intro bytes hle
    have hsame : v.callsBytes = w.sink.callsBytes := congrArg Trace.callsBytes hw
    have hle' := Nat.le_of_not_lt hroom
    omega
  refine ends_skip (fixes_schemas tool) hstart (fun _ => ?_)
  refine ends_skip (fixes_admits lib _ _ _) hstart (fun _ => ?_)
  refine ends_skip (fixes_setCore (fun _ => rfl)) hstart (fun _ => ?_)
  have hsent : J (v.send ⟨tool, args⟩) := hJ v.received 0 (hbytes 0 (Nat.zero_le _))
  refine ends_bind (ends_bounded (f := Trace.send ⟨tool, args⟩) (fun _ => rfl) (hstart v rfl) hsent)
    (fun e => ?_)
  cases hresult : e.result with
  | none => exact ends_stop (fun _ hv => hv ▸ hsent)
  | some r =>
      refine ends_update (g := Trace.receive tool r) (fun _ => rfl) ?_
      refine ends_bind (ends_appendCall hmarker (fun bytes hle => hJ _ bytes (hbytes bytes hle))) (fun _ => ?_)
      refine ends_weaken (ends_checked (P := fun u => ∃ bytes, bytes ≤ LOG_SLOT_RESERVE ∧
        size (record tool args r) + 1 ≤ LOG_RECORD_LIMIT ∧
        u = ((v.send ⟨tool, args⟩).receive tool r).log bytes) ?_) ?_
      · rintro u ⟨bytes, hle, -, rfl⟩
        exact hJ _ bytes (hbytes bytes hle)
      · rintro payload u ⟨⟨bytes, hle, hrecord, hu⟩, hpayload⟩
        exact ⟨r, bytes, hpayload, hrecord, hbytes bytes hle, hu⟩

end Calls

/-! ## Pages -/

/-- A page that was read: the cursor it was asked for with, its rows, its answer. -/
structure ReadPage where
  asked : Option Text
  page : Page
  response : Response

/-- The answer is a page at the cursor that was asked for. -/
structure PageOf (lib : Library) (p : ReadPage) : Prop where
  shape : ∃ payload pagination data truncated next,
    Payload .getFlowResults p.response payload ∧
    item payload "pagination" = .ok pagination ∧ item payload "data" = .ok data ∧
    item pagination "cursor" = .ok (.str (expectedCursor p.asked)) ∧ members data = .ok p.page.rows ∧
    item pagination "truncated" = .ok truncated ∧ item pagination "next_cursor" = .ok next ∧
    nextOf lib truncated next p.page.rows = some p.page.next

/-- The pages follow one another from the first cursor to the one to be asked next. -/
inductive Linked (lib : Library) : List ReadPage → Option Text → Prop
  | start : Linked lib [] none
  | step {pages : List ReadPage} {p : ReadPage} {cursor : Text} (h : Linked lib pages p.asked)
      (hpage : PageOf lib p) (hnext : p.page.next = some cursor) : Linked lib (pages ++ [p]) (some cursor)

/-- The lines are those of the rows, in their order. -/
def LinesOf (rows : List Json) (lines : List Bytes) : Prop :=
  List.Forall₂ (fun row raw => line row = .ok raw) rows lines

def Trace.addRows (lines : List Bytes) (v : Trace) : Trace :=
  { v with rows := v.rows ++ lines, rowsBytes := v.rowsBytes + (lines.map List.length).sum }

theorem mapM_lines {rows : List Json} {lines : List Bytes} (h : rows.mapM line = .ok lines) :
    LinesOf rows lines := by
  induction rows generalizing lines with
  | nil =>
      obtain rfl := Except.ok.inj h
      exact List.Forall₂.nil
  | cons row rows ih =>
      rw [List.mapM_cons] at h
      cases hrow : line row with
      | error e =>
          rw [hrow] at h
          exact absurd h nofun
      | ok raw =>
          rw [hrow] at h
          cases hrows : rows.mapM line with
          | error e =>
              rw [hrows] at h
              exact absurd h nofun
          | ok raws =>
              rw [hrows] at h
              obtain rfl := Except.ok.inj h
              exact List.Forall₂.cons hrow (ih hrows)

section Pages

variable {spec : Spec} {lib : Library} {J : Trace → Prop} {v₀ : Trace}

theorem isText_iff {v : Json} {s : Text} : isText (some v) s = true ↔ v = .str s := by
  cases v with
  | str t =>
      show (t == s) = true ↔ _
      rw [beq_iff_eq]
      exact ⟨fun h => congrArg Json.str h, fun h => Json.str.inj h⟩
  | _ => exact ⟨fun h => absurd h nofun, fun h => absurd h nofun⟩

theorem ends_checkPage {P : Trace → Prop} {payload : Json} {r : Response} (asked : Option Text)
    (hJ : ∀ v, P v → J v) (hpayload : Payload .getFlowResults r payload) :
    Ends J P (checkPage spec lib payload (expectedCursor asked))
      (fun page v => P v ∧ PageOf lib { asked := asked, page := page, response := r }) := by
  refine ends_python hJ (fun pagination hpagination => ?_)
  refine ends_python hJ (fun data hdata => ?_)
  refine ends_python hJ (fun echo hecho => ?_)
  refine ends_stopIf hJ (fun hsame => ?_)
  obtain rfl := isText_iff.mp (eq_true_of_ne_false hsame)
  refine ends_python hJ (fun returned _ => ?_)
  refine ends_python hJ (fun rows hrows => ?_)
  refine ends_python hJ (fun fits _ => ?_)
  refine ends_stopIf hJ (fun _ => ?_)
  refine ends_python hJ (fun truncated htruncated => ?_)
  refine ends_python hJ (fun next hnext => ?_)
  cases hcursor : nextOf lib truncated next rows with
  | none => exact ends_stop hJ
  | some cursor =>
      exact ends_pure (fun v hv => ⟨hv, ⟨payload, pagination, data, truncated, next, hpayload, hpagination,
        hdata, hecho, hrows, htruncated, hnext, hcursor⟩⟩)

theorem ends_appendRowsPage {lines : List Bytes}
    (hJ : ∀ done, done <+: lines → J (v₀.addRows done)) :
    Ends J (fun v => v = v₀) (appendRowsPage lines) (fun _ v => v = v₀.addRows lines) := by
  have hnone : v₀.addRows [] = v₀ := by
    unfold Trace.addRows
    rw [List.append_nil]
    rfl
  induction lines generalizing v₀ with
  | nil =>
      refine triple_conseq (triple_fixes (fixes_write (fun _ _ => rfl)) (fun _ _ hv => hv)) (fun _ hv => hv) ?_ ?_
      · exact fun _ v hv => hv.trans hnone.symm
      · exact fun _ v hv => hv ▸ hnone ▸ hJ [] List.prefix_rfl
  | cons l ls ih =>
      have hstart : J v₀ := hnone ▸ hJ [] List.nil_prefix
      refine ends_skip (fixes_write (fun _ _ => rfl)) (fun _ hv => hv ▸ hstart) (fun _ => ?_)
      have hmore : ∀ done, (v₀.addRows [l]).addRows done = v₀.addRows (l :: done) := by
        intro done
        unfold Trace.addRows
        simp only [List.append_assoc, List.cons_append, List.nil_append, List.map_cons, List.map_nil,
          List.sum_cons, List.sum_nil, Nat.add_assoc, Nat.zero_add]
      refine ends_update (g := Trace.addRows [l]) (fun _ => rfl) ?_
      refine ends_weaken (ih (fun done hdone => ?_) ?_) (fun _ v hv => hv.trans (hmore ls))
      · rw [hmore]
        exact hJ _ (List.cons_prefix_cons.mpr ⟨rfl, hdone⟩)
      · unfold Trace.addRows
        simp only [List.append_nil, List.map_nil, List.sum_nil, Nat.add_zero]

theorem fixes_extendSample (rows : List Json) : Fixes trace (extendSample spec rows) := by
  induction rows with
  | nil => exact fixes_pure _
  | cons row rows ih =>
      refine fixes_bind fixes_read (fun w => fixes_ite (fixes_pure _) ?_)
      refine fixes_bind (fixes_python _) (fun projected => fixes_bind ?_ (fun _ => ih))
      unfold sampleRow
      refine fixes_ite (fixes_pure _) ?_
      cases encodeUtf8 (render projected) with
      | none => exact fixes_raise _
      | some raw => exact fixes_ite (fixes_pure _) (fixes_setCore (fun _ => rfl))

/-- **One page is saved** within the budget, or the run stops. -/
theorem ends_savePage {payload : Json} {page : Page} {echo : Text}
    (hJ : ∀ done, v₀.rowsBytes + (done.map List.length).sum ≤ spec.maxResultBytes → J (v₀.addRows done))
    (hstart : J v₀) :
    Ends J (fun v => v = v₀) (savePage spec payload page echo) (fun _ v => ∃ lines,
      LinesOf page.rows lines ∧ v₀.rowsBytes + (lines.map List.length).sum ≤ spec.maxResultBytes ∧
      v = v₀.addRows lines) := by
  have hv : ∀ v, v = v₀ → J v := fun _ hv => hv ▸ hstart
  refine ends_skip (fixes_setCore (fun _ => rfl)) hv (fun _ => ?_)
  refine ends_skip (fixes_addWarnings payload) hv (fun _ => ?_)
  unfold pageLines
  cases hlines : page.rows.mapM line with
  | error e => exact ends_bind (Q := fun _ _ => False) (ends_stop hv) (fun _ _ h => absurd h id)
  | ok lines =>
      refine ends_bind (Q := fun a v => v = v₀ ∧ a = lines) (ends_pure (fun v hv => ⟨hv, rfl⟩)) (fun a => ?_)
      refine ends_at (fun v ha => ?_)
      obtain ⟨rfl, rfl⟩ := ha
      refine ends_read (fun w => ?_)
      refine ends_at (fun u hu => ?_)
      obtain ⟨rfl, hw⟩ := hu
      have hsame : u.rowsBytes = w.sink.rowsBytes := congrArg Trace.rowsBytes hw
      by_cases hbudget : w.sink.rowsBytes + (a.map List.length).sum > spec.maxResultBytes
      · rw [if_pos hbudget]
        exact ends_skip (fixes_setCore (fun _ => rfl)) hv (fun _ => ends_stop hv)
      · rw [if_neg hbudget]
        have hfits : u.rowsBytes + (a.map List.length).sum ≤ spec.maxResultBytes := by omega
        refine ends_bind (ends_appendRowsPage (fun done hdone => hJ done ?_)) (fun _ => ?_)
        · obtain ⟨rest, rfl⟩ := hdone
          rw [List.map_append, List.sum_append] at hfits
          omega
        · refine ends_skip (fixes_setCore (fun _ => rfl)) (fun _ h => h ▸ hJ a hfits) (fun _ => ?_)
          refine ends_weaken (triple_fixes (fixes_extendSample _) (fun _ _ h => h ▸ hJ a hfits)) ?_
          exact fun _ v hv => ⟨a, mapM_lines hlines, hfits, hv⟩

end Pages

/-! ## What was sent -/

/-- The cursor that a page request asks for. -/
def cursorOf (args : Json) : Text :=
  match get args "cursor" with
  | some (.str s) => s
  | _ => FIRST_CURSOR

def requestsOf (tool : Tool) (sent : List Request) : List Request :=
  sent.filter (fun r => decide (r.tool = tool))

/-- **Within the budgets**: the bytes of both files, the number of requests, of
    polls and of pages, and no cursor asked for twice. -/
structure Within (spec : Spec) (v : Trace) : Prop where
  log : v.callsBytes ≤ spec.maxLogBytes
  rows : v.rowsBytes ≤ spec.maxResultBytes
  total : v.sent.length ≤ spec.maxStatusCalls + spec.maxPages + 1
  polls : (requestsOf .getFlowStatus v.sent).length ≤ spec.maxStatusCalls
  pages : (requestsOf .getFlowResults v.sent).length ≤ spec.maxPages
  once : ((requestsOf .getFlowResults v.sent).map (fun r => cursorOf r.args)).Nodup

section Sent

variable (spec : Spec)

def pollRequest : Request := { tool := .getFlowStatus, args := flowArgs spec }

def pageRequest (cursor : Option Text) : Request :=
  { tool := .getFlowResults, args := pageArgs spec cursor }

def filesRequest : Request := { tool := .listFlowFiles, args := flowArgs spec }

/-- The requests of a run, phase by phase. -/
def phaseRequests (polls : Nat) (cursors : List (Option Text)) (files : List Request) : List Request :=
  List.replicate polls (pollRequest spec) ++ (cursors.map (pageRequest spec) ++ files)

theorem cursorOf_pageArgs (cursor : Option Text) : cursorOf (pageArgs spec cursor) = expectedCursor cursor := by
  cases cursor with
  | none => rfl
  | some s => rfl

variable {spec} {polls : Nat} {cursors : List (Option Text)} {files : List Request}

theorem requests_polls (hfiles : files = [] ∨ files = [filesRequest spec]) :
    requestsOf .getFlowStatus (phaseRequests spec polls cursors files)
      = List.replicate polls (pollRequest spec) := by
  have hpages : requestsOf .getFlowStatus (cursors.map (pageRequest spec)) = [] := by
    refine List.filter_eq_nil_iff.mpr ?_
    intro r hr
    obtain ⟨cursor, -, rfl⟩ := List.mem_map.mp hr
    exact (by decide : ¬ decide (Tool.getFlowResults = Tool.getFlowStatus) = true)
  have hpolls : requestsOf .getFlowStatus (List.replicate polls (pollRequest spec))
      = List.replicate polls (pollRequest spec) := by
    refine List.filter_eq_self.mpr ?_
    intro r hr
    rw [List.eq_of_mem_replicate hr]
    rfl
  have hlast : requestsOf .getFlowStatus files = [] := by
    rcases hfiles with rfl | rfl
    · rfl
    · rfl
  unfold requestsOf at hpages hpolls hlast ⊢
  unfold phaseRequests
  rw [List.filter_append, List.filter_append, hpages, hpolls, hlast, List.nil_append, List.append_nil]

theorem requests_pages (hfiles : files = [] ∨ files = [filesRequest spec]) :
    requestsOf .getFlowResults (phaseRequests spec polls cursors files)
      = cursors.map (pageRequest spec) := by
  have hpages : requestsOf .getFlowResults (cursors.map (pageRequest spec))
      = cursors.map (pageRequest spec) := by
    refine List.filter_eq_self.mpr ?_
    intro r hr
    obtain ⟨cursor, -, rfl⟩ := List.mem_map.mp hr
    rfl
  have hpolls : requestsOf .getFlowResults (List.replicate polls (pollRequest spec)) = [] := by
    refine List.filter_eq_nil_iff.mpr ?_
    intro r hr
    rw [List.eq_of_mem_replicate hr]
    exact (by decide : ¬ decide (Tool.getFlowStatus = Tool.getFlowResults) = true)
  have hlast : requestsOf .getFlowResults files = [] := by
    rcases hfiles with rfl | rfl
    · rfl
    · rfl
  unfold requestsOf at hpages hpolls hlast ⊢
  unfold phaseRequests
  rw [List.filter_append, List.filter_append, hpages, hpolls, hlast, List.nil_append, List.append_nil]

theorem within_phase {v : Trace} (hlog : v.callsBytes ≤ spec.maxLogBytes)
    (hrows : v.rowsBytes ≤ spec.maxResultBytes) (hsent : v.sent = phaseRequests spec polls cursors files)
    (hfiles : files = [] ∨ files = [filesRequest spec]) (hpolls : polls ≤ spec.maxStatusCalls)
    (hpages : cursors.length ≤ spec.maxPages) (honce : (cursors.map expectedCursor).Nodup) :
    Within spec v := by
  refine { log := hlog, rows := hrows, total := ?_, polls := ?_, pages := ?_, once := ?_ }
  · have hlast : files.length ≤ 1 := by
      rcases hfiles with rfl | rfl
      · exact Nat.zero_le 1
      · exact Nat.le_refl 1
    rw [hsent]
    unfold phaseRequests
    rw [List.length_append, List.length_append, List.length_replicate, List.length_map]
    omega
  · rw [hsent, requests_polls hfiles, List.length_replicate]
    exact hpolls
  · rw [hsent, requests_pages hfiles, List.length_map]
    exact hpages
  · rw [hsent, requests_pages hfiles, List.map_map]
    have hsame : ((fun r : Request => cursorOf r.args) ∘ pageRequest spec) = expectedCursor := by
      funext cursor
      exact cursorOf_pageArgs spec cursor
    rw [hsame]
    exact honce

theorem phase_poll : phaseRequests spec polls [] [] ++ [pollRequest spec]
    = phaseRequests spec (polls + 1) [] [] := by
  unfold phaseRequests
  rw [List.replicate_succ', List.map_nil, List.append_nil, List.append_nil, List.append_nil]

theorem phase_page (cursor : Option Text) : phaseRequests spec polls cursors [] ++ [pageRequest spec cursor]
    = phaseRequests spec polls (cursors ++ [cursor]) [] := by
  unfold phaseRequests
  rw [List.append_nil, List.append_nil, List.map_append, List.append_assoc]
  rfl

theorem phase_files : phaseRequests spec polls cursors [] ++ [filesRequest spec]
    = phaseRequests spec polls cursors [filesRequest spec] := by
  unfold phaseRequests
  rw [List.append_nil, List.append_assoc]

end Sent

/-! ## The phases -/

/-- The answer says that this flow is finished. -/
structure SaysFinished (spec : Spec) (r : Response) : Prop where
  shape : ∃ payload, Payload .getFlowStatus r payload ∧
    item payload "state" = .ok (.str (ascii "FINISHED")) ∧ item payload "flow_id" = .ok (.str spec.flowId)

/-- The trace after some polls and some pages. -/
structure Stage (spec : Spec) (polls : List Response) (pages : List ReadPage) (v : Trace) : Prop where
  log : v.callsBytes ≤ spec.maxLogBytes
  budget : v.rowsBytes ≤ spec.maxResultBytes
  sent : v.sent = phaseRequests spec polls.length (pages.map ReadPage.asked) []
  received : v.received = polls.map (fun r => (Tool.getFlowStatus, r))
    ++ pages.map (fun p => (Tool.getFlowResults, p.response))
  rows : LinesOf (pages.flatMap (fun p => p.page.rows)) v.rows
  downgrade : v.downgrade = none
  fewPolls : polls.length ≤ spec.maxStatusCalls
  fewPages : pages.length ≤ spec.maxPages
  once : (pages.map (fun p => expectedCursor p.asked)).Nodup

section Phases

variable {spec : Spec} {lib : Library} {polls : List Response} {pages : List ReadPage} {v : Trace}

theorem Stage.asked (h : Stage spec polls pages v) :
    ((pages.map ReadPage.asked).map expectedCursor).Nodup := by
  rw [List.map_map]
  exact h.once

theorem Stage.within (h : Stage spec polls pages v) : Within spec v := by
  refine within_phase h.log h.budget h.sent (Or.inl rfl) h.fewPolls ?_ h.asked
  rw [List.length_map]
  exact h.fewPages

/-- **The polls**: where they return, the last answer said that the flow is finished. -/
theorem ends_waitFinished (left made : Nat) (polls : List Response)
    (hleft : polls.length + left ≤ spec.maxStatusCalls) :
    Ends (Within spec) (Stage spec polls []) (waitFinished spec lib left made)
      (fun _ v => ∃ earlier last, Stage spec (earlier ++ [last]) [] v ∧ SaysFinished spec last) := by
  induction left generalizing made polls with
  | zero => exact ends_stop (fun v hv => hv.within)
  | succ left ih =>
      refine ends_at (fun v hv => ?_)
      have hsent : v.sent ++ [pollRequest spec] = phaseRequests spec (polls.length + 1) [] [] := by
        rw [hv.sent]
        exact phase_poll
      have hwithin : ∀ u : Trace, u.callsBytes ≤ spec.maxLogBytes → u.rowsBytes = v.rowsBytes →
          u.sent = v.sent ++ [pollRequest spec] → Within spec u := by
        intro u hlog hrows hu
        exact within_phase hlog (hrows ▸ hv.budget) (hu.trans hsent) (Or.inl rfl) (by omega)
          (Nat.zero_le _) List.nodup_nil
      refine ends_bind (ends_call (markerFits_flow spec _) (fun _ hu => hu ▸ hv.within)
        (fun received bytes hbytes => hwithin _ hbytes rfl rfl)) (fun payload => ?_)
      refine ends_at (fun u hu => ?_)
      obtain ⟨r, bytes, hpayload, -, hbytes, rfl⟩ := hu
      have hstage : Stage spec (polls ++ [r]) [] (((v.send ⟨.getFlowStatus, flowArgs spec⟩).receive
          .getFlowStatus r).log bytes) := by
        refine { log := hbytes, budget := hv.budget, sent := ?_, received := ?_, rows := hv.rows
                 downgrade := hv.downgrade, fewPolls := ?_, fewPages := Nat.zero_le _
                 once := List.nodup_nil }
        · rw [List.length_append]
          exact hsent
        · show v.received ++ [(Tool.getFlowStatus, r)] = _
          rw [hv.received, List.map_append, List.map_nil, List.append_nil, List.append_nil]
          rfl
        · rw [List.length_append, List.length_singleton]
          omega
      have hdone : ∀ u', u' = ((v.send ⟨.getFlowStatus, flowArgs spec⟩).receive .getFlowStatus r).log bytes →
          Within spec u' := fun _ hu' => hu' ▸ hstage.within
      refine ends_python hdone (fun state hstate => ?_)
      refine ends_skip (fixes_setCore (fun _ => rfl)) hdone (fun _ => ?_)
      refine ends_skip (fixes_addWarnings payload) hdone (fun _ => ?_)
      refine ends_python hdone (fun flowId hflow => ?_)
      refine ends_stopIf hdone (fun hsame => ?_)
      obtain rfl := isText_iff.mp (eq_true_of_ne_false hsame)
      by_cases hfinished : isText (some state) (ascii "FINISHED") = true
      · rw [if_pos hfinished]
        obtain rfl := isText_iff.mp hfinished
        exact ends_pure (fun _ hu' => ⟨polls, r, hu' ▸ hstage, ⟨payload, hpayload, hstate, hflow⟩⟩)
      · rw [if_neg hfinished]
        by_cases herror : isText (some state) (ascii "ERROR") = true
        · rw [if_pos herror]
          exact ends_stop hdone
        · rw [if_neg herror]
          refine ends_skip (fixes_backOff (fun _ _ => rfl) made) hdone (fun _ => ?_)
          refine triple_pre (ih (made + 1) (polls ++ [r]) ?_) (fun _ hu' => hu' ▸ hstage)
          rw [List.length_append, List.length_singleton]
          omega

/-- The pages of a complete run: linked, and the last one says that it is the last. -/
structure Complete (lib : Library) (pages : List ReadPage) : Prop where
  shape : ∃ earlier last, pages = earlier ++ [last] ∧ Linked lib earlier last.asked ∧ PageOf lib last ∧
    last.page.next = none

theorem nextOf_some {truncated next : Json} {rows : List Json} {cursor : Text}
    (h : nextOf lib truncated next rows = some (some cursor)) : next = .str cursor := by
  unfold nextOf at h
  split at h
  · split at h
    · split at h
      · exact absurd h nofun
      · exact congrArg Json.str (Option.some.inj (Option.some.inj h))
    · exact absurd h nofun
  · split at h
    · exact absurd (Option.some.inj h) nofun
    · exact absurd h nofun

/-- One more page. -/
theorem Stage.page (h : Stage spec polls pages v) {asked : Option Text} {page : Page} {r : Response}
    {lines : List Bytes} {bytes : Nat} (hlog : v.callsBytes + bytes ≤ spec.maxLogBytes)
    (hfew : pages.length + 1 ≤ spec.maxPages)
    (hnew : expectedCursor asked ∉ pages.map (fun p => expectedCursor p.asked))
    (hlines : LinesOf page.rows lines)
    (hbudget : v.rowsBytes + (lines.map List.length).sum ≤ spec.maxResultBytes) :
    Stage spec polls (pages ++ [⟨asked, page, r⟩])
      ((((v.send ⟨.getFlowResults, pageArgs spec asked⟩).receive .getFlowResults r).log bytes).addRows lines) := by
  refine { log := hlog, budget := hbudget, sent := ?_, received := ?_, rows := ?_, downgrade := h.downgrade
           fewPolls := h.fewPolls, fewPages := ?_, once := ?_ }
  · show v.sent ++ [pageRequest spec asked] = _
    rw [h.sent, phase_page, List.map_append]
    rfl
  · show v.received ++ [(Tool.getFlowResults, r)] = _
    rw [h.received, List.map_append, List.append_assoc]
    rfl
  · show LinesOf _ (v.rows ++ lines)
    rw [List.flatMap_append, List.flatMap_singleton]
    exact List.rel_append h.rows hlines
  · rw [List.length_append]
    exact hfew
  · rw [List.map_append]
    refine List.nodup_append.mpr ⟨h.once, List.nodup_singleton _, ?_⟩
    intro a ha c hc heq
    rw [heq, List.mem_singleton.mp hc] at ha
    exact hnew ha

/-- One turn of the loop, up to the look at the next cursor. -/
theorem ends_onePage {α : Type} {asked : Option Text} {k : Page → Flow α} {R : α → Trace → Prop}
    (hfew : pages.length + 1 ≤ spec.maxPages)
    (hnew : expectedCursor asked ∉ pages.map (fun p => expectedCursor p.asked))
    (hmarker : MarkerFits .getFlowResults (pageArgs spec asked))
    (hk : ∀ page r, PageOf lib ⟨asked, page, r⟩ →
      (∀ next, page.next = some next → MarkerFits .getFlowResults (pageArgs spec (some next))) →
      Ends (Within spec) (Stage spec polls (pages ++ [⟨asked, page, r⟩])) (k page) R) :
    Ends (Within spec) (Stage spec polls pages) (do
      let payload ← call spec lib .getFlowResults (pageArgs spec asked)
      let page ← checkPage spec lib payload (expectedCursor asked)
      savePage spec payload page (expectedCursor asked)
      k page) R := by
  refine ends_at (fun v hv => ?_)
  have hsent : v.sent ++ [pageRequest spec asked]
      = phaseRequests spec polls.length (pages.map ReadPage.asked ++ [asked]) [] := by
    rw [hv.sent]
    exact phase_page asked
  have honce : ((pages.map ReadPage.asked ++ [asked]).map expectedCursor).Nodup := by
    rw [List.map_append]
    refine List.nodup_append.mpr ⟨hv.asked, List.nodup_singleton _, ?_⟩
    intro a ha c hc heq
    rw [heq, List.mem_singleton.mp hc, List.map_map] at ha
    exact hnew ha
  have hwithin : ∀ u : Trace, u.callsBytes ≤ spec.maxLogBytes → u.rowsBytes ≤ spec.maxResultBytes →
      u.sent = v.sent ++ [pageRequest spec asked] → Within spec u := by
    intro u hlog hrows hu
    refine within_phase hlog hrows (hu.trans hsent) (Or.inl rfl) hv.fewPolls ?_ honce
    rw [List.length_append, List.length_map]
    exact hfew
  refine ends_bind (ends_call hmarker (fun _ hu => hu ▸ hv.within)
    (fun received bytes hbytes => hwithin _ hbytes hv.budget rfl)) (fun payload => ?_)
  refine ends_at (fun u hu => ?_)
  obtain ⟨r, bytes, hpayload, hrecord, hbytes, rfl⟩ := hu
  have hdone : Within spec (((v.send ⟨.getFlowResults, pageArgs spec asked⟩).receive
      .getFlowResults r).log bytes) := hwithin _ hbytes hv.budget rfl
  refine ends_bind (ends_checkPage asked (fun _ hu' => hu' ▸ hdone) hpayload) (fun page => ?_)
  refine ends_at (fun u' hu' => ?_)
  obtain ⟨rfl, hpage⟩ := hu'
  refine ends_bind (ends_savePage (fun done hfits => hwithin _ hbytes hfits rfl) hdone) (fun _ => ?_)
  refine ends_at (fun x hx => ?_)
  obtain ⟨lines, hlines, hbudget, rfl⟩ := hx
  refine triple_pre (hk page r hpage ?_) (fun _ hx => hx ▸ hv.page hbytes hfew hnew hlines hbudget)
  intro next hnext
  obtain ⟨payload', pagination, data, truncated, cursor, hpayload', hpagination, -, -, -, -, hcursor, hnextOf⟩ :=
    hpage.shape
  have hcursor' : cursor = .str next := by
    have hnextOf' : nextOf lib truncated cursor page.rows = some (some next) := hnextOf.trans (congrArg some hnext)
    exact nextOf_some hnextOf'
  subst hcursor'
  exact markerFits_next spec hpayload'.content hpagination hcursor hrecord

/-- **The pages**: where the loop returns, its pages are complete. -/
theorem ends_collectPages (left : Nat) (asked : Option Text) (visited : List Text) (pages : List ReadPage)
    (hleft : pages.length + (left + 1) ≤ spec.maxPages) (hlinked : Linked lib pages asked)
    (hvisited : ∀ c, c ∈ pages.map (fun p => expectedCursor p.asked) → c ∈ visited)
    (hnew : expectedCursor asked ∉ pages.map (fun p => expectedCursor p.asked))
    (hmarker : MarkerFits .getFlowResults (pageArgs spec asked)) :
    Ends (Within spec) (Stage spec polls pages) (collectPages spec lib (left + 1) asked visited)
      (fun _ v => ∃ all, Stage spec polls all v ∧ Complete lib all) := by
  induction left generalizing asked visited pages with
  | zero =>
      refine ends_onePage (by omega) hnew hmarker (fun page r hpage hfits => ?_)
      cases hnext : page.next with
      | none =>
          exact triple_conseq (triple_fixes (fixes_setCore (fun _ => rfl)) (fun _ _ h => h)) (fun _ h => h)
            (fun _ v hv => ⟨_, hv, ⟨pages, _, rfl, hlinked, hpage, hnext⟩⟩) (fun _ v hv => hv.within)
      | some next =>
          refine triple_ite (fun _ => ends_stop (fun _ hv => hv.within)) (fun _ => ?_)
          refine triple_ite (fun _ => ?_) (fun hne => absurd rfl hne)
          exact ends_skip (fixes_setCore (fun _ => rfl)) (fun _ hv => hv.within)
            (fun _ => ends_stop (fun _ hv => hv.within))
  | succ left ih =>
      refine ends_onePage (by omega) hnew hmarker (fun page r hpage hfits => ?_)
      cases hnext : page.next with
      | none =>
          exact triple_conseq (triple_fixes (fixes_setCore (fun _ => rfl)) (fun _ _ h => h)) (fun _ h => h)
            (fun _ v hv => ⟨_, hv, ⟨pages, _, rfl, hlinked, hpage, hnext⟩⟩) (fun _ v hv => hv.within)
      | some next =>
          refine triple_ite (fun _ => ends_stop (fun _ hv => hv.within)) (fun hfresh => ?_)
          refine triple_ite (fun hzero => absurd hzero (Nat.succ_ne_zero left)) (fun _ => ?_)
          -- the next cursor is none of those that were read
          have hall : ∀ c, c ∈ List.map (fun p : ReadPage => expectedCursor p.asked)
              (pages ++ [⟨asked, page, r⟩]) →
              c ∈ expectedCursor asked :: visited := by
            intro c hc
            rw [List.map_append, List.mem_append] at hc
            rcases hc with hc | hc
            · exact List.mem_cons_of_mem _ (hvisited c hc)
            · rw [List.mem_singleton.mp hc]
              exact List.mem_cons_self
          refine ih (some next) _ (pages ++ [⟨asked, page, r⟩]) ?_ (hlinked.step hpage hnext) hall
            (fun hmem => hfresh (hall _ hmem)) (hfits next hnext)
          rw [List.length_append, List.length_singleton]
          omega

/-- What a complete run has read, answer by answer. -/
structure CompleteRun (spec : Spec) (lib : Library) (v : Trace) (polls : List Response) (last : Response)
    (pages : List ReadPage) (files : Response) : Prop where
  received : v.received = (polls ++ [last]).map (fun r => (Tool.getFlowStatus, r))
    ++ (pages.map (fun p => (Tool.getFlowResults, p.response)) ++ [(Tool.listFlowFiles, files)])
  finished : SaysFinished spec last
  chain : Complete lib pages
  once : (pages.map (fun p => expectedCursor p.asked)).Nodup
  rows : LinesOf (pages.flatMap (fun p => p.page.rows)) v.rows
  allFiles : ∃ payload truncated, Payload .listFlowFiles files payload ∧
    item payload "truncated" = .ok truncated ∧ isTrue lib truncated = false

/-- The downgrade that the file list causes. -/
def downgradeOf (truncated : Bool) : Option (Verdict × Text) :=
  if truncated then some (.partially, ascii "filelist_truncated") else none

/-- **The file list**: a run that is not downgraded has all files. -/
theorem ends_listFiles {last : Response} (hfinished : SaysFinished spec last) (hcomplete : Complete lib pages) :
    Ends (Within spec) (Stage spec (polls ++ [last]) pages) (listFiles spec lib)
      (fun _ v => Within spec v ∧ ∃ truncated, v.downgrade = downgradeOf truncated ∧
        (truncated = false → ∃ files, CompleteRun spec lib v polls last pages files)) := by
  refine ends_at (fun v hv => ?_)
  have hwithin : ∀ u : Trace, u.callsBytes ≤ spec.maxLogBytes → u.rowsBytes = v.rowsBytes →
      u.sent = v.sent ++ [filesRequest spec] → Within spec u := by
    intro u hlog hrows hu
    have hphase : u.sent = phaseRequests spec (polls ++ [last]).length (pages.map ReadPage.asked)
        [filesRequest spec] := by
      rw [hu, hv.sent]
      exact phase_files
    refine within_phase hlog (hrows ▸ hv.budget) hphase (Or.inr rfl) hv.fewPolls ?_ hv.asked
    rw [List.length_map]
    exact hv.fewPages
  refine ends_bind (ends_call (markerFits_flow spec _) (fun _ hu => hu ▸ hv.within)
    (fun received bytes hbytes => hwithin _ hbytes rfl rfl)) (fun payload => ?_)
  refine ends_at (fun u hu => ?_)
  obtain ⟨r, bytes, hpayload, -, hbytes, rfl⟩ := hu
  have hdone : ∀ u', u' = ((v.send ⟨.listFlowFiles, flowArgs spec⟩).receive .listFlowFiles r).log bytes →
      Within spec u' := by
    intro u' hu'
    rw [hu']
    exact hwithin _ hbytes rfl rfl
  refine ends_skip (fixes_addWarnings payload) hdone (fun _ => ?_)
  refine ends_python hdone (fun data _ => ?_)
  refine ends_python hdone (fun files _ => ?_)
  refine ends_python hdone (fun truncated htruncated => ?_)
  intro w hw
  have hsame : trace { w with core := Core.files files.length (isTrue lib truncated) w.core }
      = { trace w with downgrade := downgradeOf (isTrue lib truncated) } := by
    have hnone : w.core.downgrade = none := (congrArg Trace.downgrade hw).trans hv.downgrade
    unfold trace Core.files downgradeOf
    rw [hnone]
  have hw' : trace w = ((v.send ⟨.listFlowFiles, flowArgs spec⟩).receive .listFlowFiles r).log bytes := hw
  show Within spec (trace { w with core := Core.files files.length (isTrue lib truncated) w.core }) ∧
    ∃ truncated', (trace { w with core := Core.files files.length (isTrue lib truncated) w.core }).downgrade
      = downgradeOf truncated' ∧ (truncated' = false → ∃ r', CompleteRun spec lib
        (trace { w with core := Core.files files.length (isTrue lib truncated) w.core }) polls last pages r')
  rw [hsame, hw']
  refine ⟨hwithin _ hbytes rfl rfl, isTrue lib truncated, rfl, fun hall => ⟨r, ?_⟩⟩
  refine { received := ?_, finished := hfinished, chain := hcomplete, once := hv.once, rows := hv.rows
           allFiles := ⟨payload, truncated, hpayload, htruncated, hall⟩ }
  show v.received ++ [(Tool.listFlowFiles, r)] = _
  rw [hv.received, List.append_assoc]

/-! ## The run -/

theorem fixes_writeContract (contract : Json) : Fixes trace (writeContract contract) :=
  fixes_bind fixes_read (fun _ => fixes_bind (fixes_raiseIf _ _) (fun _ => fixes_bind (fixes_raiseIf _ _)
    (fun _ => fixes_bind (fixes_write (fun _ _ => rfl)) (fun _ => fixes_update (fun _ => rfl)))))

/-- Nothing is sent to the flow tools while the contract is read. -/
theorem fixes_loadContract : Fixes trace (loadContract spec lib) :=
  fixes_bind (fixes_listTools (fun _ _ _ => rfl) _ _ _) (fun _ => fixes_bind (fixes_raiseIf _ _) (fun _ =>
    fixes_bind (fixes_contractOf _ _) (fun _ => fixes_bind (fixes_contractOf _ _) (fun _ =>
      fixes_bind (fixes_contractOf _ _) (fun _ => fixes_bind (fixes_setCore (fun _ => rfl)) (fun _ =>
        fixes_writeContract _))))))

/-- What holds when a run returns. -/
def Truthful (spec : Spec) (lib : Library) (result : RunResult) (v : Trace) : Prop :=
  Within spec v ∧ (result.complete = true →
    ∃ polls last pages files, CompleteRun spec lib v polls last pages files)

theorem ends_phases : Ends (Within spec) (Stage spec [] []) (phases spec lib) (Truthful spec lib) := by
  have hpages : spec.maxPages = (spec.maxPages - 1) + 1 := (Nat.sub_add_cancel spec.somePages).symm
  refine ends_skip fixes_loadContract (fun _ hv => hv.within) (fun _ => ?_)
  refine ends_bind (ends_waitFinished spec.maxStatusCalls 0 [] (Nat.le_of_eq (Nat.zero_add _))) (fun _ => ?_)
  refine ends_at (fun v hv => ?_)
  obtain ⟨polls, last, hstage, hfinished⟩ := hv
  rw [hpages]
  refine ends_bind (triple_pre (ends_collectPages (spec.maxPages - 1) none [] [] ?_ Linked.start
    (fun _ hc => absurd hc List.not_mem_nil) List.not_mem_nil (markerFits_first spec))
    (fun _ hv => hv ▸ hstage)) (fun _ => ?_)
  · rw [← hpages]
    exact Nat.le_of_eq (Nat.zero_add _)
  refine ends_at (fun v hv => ?_)
  obtain ⟨pages, hstage, hcomplete⟩ := hv
  refine ends_bind (triple_pre (ends_listFiles hfinished hcomplete) (fun _ hv => hv ▸ hstage)) (fun _ => ?_)
  refine ends_read (fun w => ?_)
  refine ends_pure (fun v hv => ?_)
  obtain ⟨⟨hwithin, truncated, hdowngrade, hall⟩, hw⟩ := hv
  refine ⟨hwithin, fun hends => ?_⟩
  have hsame : w.core.downgrade = downgradeOf truncated := (congrArg Trace.downgrade hw).symm.trans hdowngrade
  have hfull : truncated = false := by
    cases truncated with
    | false => rfl
    | true =>
        rw [hsame] at hends
        exact absurd hends (by decide)
  obtain ⟨files, hfiles⟩ := hall hfull
  exact ⟨polls, last, pages, files, hfiles⟩

end Phases

theorem stage_start (spec : Spec) (clock deadline : Nat) (script : List Event) (disk : Disk) :
    Stage spec [] [] (trace (start clock deadline script disk)) :=
  { log := Nat.zero_le _, budget := Nat.zero_le _, sent := rfl, received := rfl, rows := List.Forall₂.nil
    downgrade := rfl, fewPolls := Nat.zero_le _, fewPages := Nat.zero_le _, once := List.nodup_nil }

/-! ## Every run ends -/

/-- A text that can be encoded. -/
def CleanText (s : Text) : Prop := ∀ c ∈ s, Scalar c

/-- A Lean character is no surrogate. -/
theorem clean_ascii (s : String) : CleanText (ascii s) := by
  intro c hc
  obtain ⟨ch, -, rfl⟩ := List.mem_map.mp hc
  have hvalid := ch.valid
  have hval : ch.toNat = ch.val.toNat := rfl
  rcases hvalid with hlow | ⟨hhigh, hlast⟩
  · have hlow' : ch.val.toNat < 0xd800 := hlow
    refine ⟨by omega, ?_⟩
    unfold isSurrogate
    rw [Bool.and_eq_false_iff, decide_eq_false_iff_not]
    exact .inl (by omega)
  · have hhigh' : 0xdfff < ch.val.toNat := hhigh
    have hlast' : ch.val.toNat < 0x110000 := hlast
    refine ⟨by omega, ?_⟩
    unfold isSurrogate
    rw [Bool.and_eq_false_iff, decide_eq_false_iff_not, decide_eq_false_iff_not]
    exact .inr (by omega)

/-- A structured end, with a reason that can be written. -/
def IsStop (e : Failure) : Prop := ∃ outcome reason, e = .stop outcome reason ∧ CleanText reason

theorem isStop {outcome : Verdict} {reason : String} : IsStop (.stop outcome (ascii reason)) :=
  ⟨outcome, ascii reason, rfl, clean_ascii reason⟩

theorem raises_stop {α : Type} {outcome : Verdict} {reason : String} :
    Raises IsStop (stop outcome reason : Flow α) := raises_raise isStop

theorem raises_stopIf {c : Prop} [Decidable c] {outcome : Verdict} {reason : String} :
    Raises IsStop (stopIf c outcome reason) := raises_raiseIf isStop

theorem raises_write : Raises IsStop write := by
  refine raises_bind (fun w => ?_) (fun _ => raises_stopIf)
  unfold diskFails
  cases w.disk.faults with
  | nil => exact trivial
  | cons fails rest => exact trivial

theorem raises_bounded (spec : Spec) (send : World → World) : Raises IsStop (bounded spec send) := by
  have hnext : Raises IsStop nextEvent := by
    intro w
    unfold nextEvent
    cases w.script with
    | nil => exact trivial
    | cons e rest => exact trivial
  refine raises_bind hnext (fun e => raises_bind raises_read (fun w => raises_bind raises_stopIf (fun _ =>
    raises_bind (raises_update _) (fun _ => raises_bind (raises_update _) (fun _ => ?_)))))
  exact raises_ite (raises_pure _) (raises_ite raises_stop raises_stop)

theorem raises_addTools (found ts : List ToolInfo) : Raises IsStop (addTools found ts) := by
  induction ts generalizing found with
  | nil => exact raises_pure _
  | cons t ts ih => exact raises_bind raises_stopIf (fun _ => ih _)

theorem raises_listTools (spec : Spec) (left : Nat) (found : List ToolInfo) (seen : List Text) :
    Raises IsStop (listTools spec left found seen) := by
  induction left generalizing found seen with
  | zero => exact raises_stop
  | succ left ih =>
      refine raises_bind (raises_bounded spec id) (fun e => ?_)
      split
      · exact raises_stop
      · refine raises_bind (raises_addTools _ _) (fun found => ?_)
        split
        · exact raises_pure _
        · exact raises_ite (raises_pure _) (raises_ite raises_stop (ih _ _))

theorem raises_contractOf (lib : Library) (found : List ToolInfo) (tool : Tool) :
    Raises IsStop (contractOf lib found tool) := by
  unfold contractOf
  split
  · exact raises_stop
  · split
    · exact raises_stop
    · exact raises_ite (raises_pure _) raises_stop

theorem raises_backOff (index : Nat) : Raises IsStop (backOff index) :=
  raises_bind raises_read (fun _ => raises_bind raises_stopIf (fun _ => raises_update _))

theorem raises_appendRowsPage (lines : List Bytes) : Raises IsStop (appendRowsPage lines) := by
  induction lines with
  | nil => exact raises_write
  | cons l ls ih => exact raises_bind raises_write (fun _ => raises_bind (raises_update _) (fun _ => ih))

/-- The run comes back from `m`: with a value, or with an exception. -/
def Returns {α : Type} (m : Flow α) : Prop := Raises (fun _ => True) m

section Returns

variable {spec : Spec} {lib : Library}

theorem returns_of_stops {α : Type} {m : Flow α} (h : Raises IsStop m) : Returns m :=
  h.mono (fun _ _ => trivial)

theorem returns_python {α : Type} (x : Except String α) : Returns (python x) := by
  cases x with
  | ok a => exact raises_pure a
  | error name => exact raises_raise trivial

theorem returns_admits (schema v : Json) (reason : String) : Returns (admits lib schema v reason) := by
  unfold admits
  split
  · exact raises_raise trivial
  · exact raises_raiseIf trivial

theorem returns_schemas (tool : Tool) : Returns (schemas tool) := by
  refine raises_bind raises_read (fun w => ?_)
  split
  · exact raises_raise trivial
  · exact raises_pure _

theorem returns_checked (r : Response) (tool : Tool) : Returns (checked lib r tool) := by
  refine raises_ite (raises_bind (returns_python _) (fun _ => raises_raise trivial)) ?_
  split
  · exact raises_bind (raises_raiseIf trivial) (fun _ => raises_bind (returns_schemas tool) (fun _ =>
      raises_bind (returns_admits _ _ _) (fun _ => raises_pure _)))
  · exact raises_raise trivial

theorem returns_appendCall (tool : Tool) (args : Json) (r : Response) : Returns (appendCall tool args r) := by
  refine raises_bind (returns_python _) (fun _ => raises_ite ?_ ?_)
  · exact raises_bind (returns_of_stops raises_write) (fun _ => raises_update _)
  · exact raises_bind (returns_python _) (fun _ => raises_bind (returns_of_stops raises_write) (fun _ =>
      raises_bind (raises_update _) (fun _ => raises_bind (raises_update _) (fun _ => raises_raise trivial))))

theorem returns_call (tool : Tool) (args : Json) : Returns (call spec lib tool args) := by
  refine raises_bind raises_read (fun w => raises_bind (raises_raiseIf trivial) (fun _ =>
    raises_bind (returns_schemas tool) (fun _ => raises_bind (returns_admits _ _ _) (fun _ =>
      raises_bind (raises_update _) (fun _ => raises_bind (returns_of_stops (raises_bounded _ _)) (fun e => ?_))))))
  cases e.result with
  | none => exact raises_raise trivial
  | some r => exact raises_bind (raises_update _) (fun _ => raises_bind (returns_appendCall _ _ _) (fun _ =>
      returns_checked r tool))

theorem returns_addWarnings (payload : Json) : Returns (addWarnings payload) :=
  raises_bind (returns_python _) (fun _ => raises_update _)

theorem returns_loadContract : Returns (loadContract spec lib) := by
  refine raises_bind (returns_of_stops (raises_listTools _ _ _ _)) (fun _ => raises_bind (raises_raiseIf trivial) (fun _ =>
    raises_bind (returns_of_stops (raises_contractOf _ _ _)) (fun _ => raises_bind (returns_of_stops (raises_contractOf _ _ _)) (fun _ =>
      raises_bind (returns_of_stops (raises_contractOf _ _ _)) (fun _ => raises_bind (raises_update _) (fun _ => ?_))))))
  exact raises_bind raises_read (fun _ => raises_bind (raises_raiseIf trivial) (fun _ => raises_bind
    (raises_raiseIf trivial) (fun _ => raises_bind (returns_of_stops raises_write) (fun _ => raises_update _))))

theorem returns_waitFinished (left made : Nat) : Returns (waitFinished spec lib left made) := by
  induction left generalizing made with
  | zero => exact raises_raise trivial
  | succ left ih =>
      refine raises_bind (returns_call _ _) (fun payload => raises_bind (returns_python _) (fun state =>
        raises_bind (raises_update _) (fun _ => raises_bind (returns_addWarnings _) (fun _ => raises_bind
          (returns_python _) (fun flowId => raises_bind (raises_raiseIf trivial) (fun _ => ?_))))))
      exact raises_ite (raises_pure _) (raises_ite (raises_raise trivial)
        (raises_bind (returns_of_stops (raises_backOff made)) (fun _ => ih _)))

theorem returns_checkPage (payload : Json) (expected : Text) : Returns (checkPage spec lib payload expected) := by
  refine raises_bind (returns_python _) (fun pagination => raises_bind (returns_python _) (fun data =>
    raises_bind (returns_python _) (fun echo => raises_bind (raises_raiseIf trivial) (fun _ => raises_bind
      (returns_python _) (fun returned => raises_bind (returns_python _) (fun rows => raises_bind
        (returns_python _) (fun fits => raises_bind (raises_raiseIf trivial) (fun _ => raises_bind
          (returns_python _) (fun truncated => raises_bind (returns_python _) (fun next => ?_))))))))))
  split
  · exact raises_raise trivial
  · exact raises_pure _

theorem returns_extendSample (rows : List Json) : Returns (extendSample spec rows) := by
  induction rows with
  | nil => exact raises_pure _
  | cons row rows ih =>
      refine raises_bind raises_read (fun w => raises_ite (raises_pure _) ?_)
      refine raises_bind (returns_python _) (fun projected => raises_bind ?_ (fun _ => ih))
      refine raises_ite (raises_pure _) ?_
      split
      · exact raises_raise trivial
      · exact raises_ite (raises_pure _) (raises_update _)

theorem returns_savePage (payload : Json) (page : Page) (echo : Text) :
    Returns (savePage spec payload page echo) := by
  refine raises_bind (raises_update _) (fun _ => raises_bind (returns_addWarnings _) (fun _ => raises_bind ?_
    (fun lines => raises_bind raises_read (fun w => raises_ite ?_ ?_))))
  · unfold pageLines
    split
    · exact raises_pure _
    · exact raises_raise trivial
  · exact raises_bind (raises_update _) (fun _ => raises_raise trivial)
  · exact raises_bind (returns_of_stops (raises_appendRowsPage _)) (fun _ => raises_bind (raises_update _) (fun _ =>
      returns_extendSample _))

theorem returns_collectPages (left : Nat) (cursor : Option Text) (visited : List Text) :
    Returns (collectPages spec lib left cursor visited) := by
  induction left generalizing cursor visited with
  | zero => exact raises_pure _
  | succ left ih =>
      refine raises_bind (returns_call _ _) (fun payload => raises_bind (returns_checkPage _ _) (fun page =>
        raises_bind (returns_savePage _ _ _) (fun _ => ?_)))
      split
      · exact raises_update _
      · exact raises_ite (raises_raise trivial) (raises_ite
          (raises_bind (raises_update _) (fun _ => raises_raise trivial)) (ih _ _))

theorem returns_listFiles : Returns (listFiles spec lib) :=
  raises_bind (returns_call _ _) (fun _ => raises_bind (returns_addWarnings _) (fun _ => raises_bind
    (returns_python _) (fun _ => raises_bind (returns_python _) (fun _ => raises_bind (returns_python _) (fun _ =>
      raises_update _)))))

/-- A run returns a result, or an exception that it does not handle. -/
theorem returns_run (spec : Spec) (lib : Library) : Returns (run spec lib) := by
  refine raises_handle (?_ : Returns (phases spec lib)) (fun e _ => ?_)
  · exact raises_bind returns_loadContract (fun _ => raises_bind (returns_waitFinished _ _) (fun _ =>
      raises_bind (returns_collectPages _ _ _) (fun _ => raises_bind returns_listFiles (fun _ =>
        raises_bind raises_read (fun w => raises_pure _)))))
  · cases e with
    | stop outcome reason => exact raises_pure _
    | escaped name => exact raises_raise trivial

end Returns

end FlowHost
