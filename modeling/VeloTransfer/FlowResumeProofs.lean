import VeloTransfer.CursorWalkProofs
import VeloTransfer.FlowReportRunProofs

/-! # Where a run that stopped goes on

    A run that stops while it reads pages says where to go on: at the first page
    that was not saved.  The loop sets this cursor before two of its stops, the
    budget of pages and the budget of rows; every other stop leaves it empty.

    A run is walked turn by turn.  Each turn is one request for a page; the state
    before it and the events to come decide how it ends. -/

namespace FlowHost

open EffectPrograms Program CanonicalJson JsonDict CursorWalk

/-! ## The turns of the loop -/

section Turns

variable (spec : Spec) (lib : Library)

/-- What a page brings, before it is saved: it is counted, and its rows are encoded. -/
def countPage (payload : Json) (page : Page) : Flow (List Bytes) := do
  setCore (Core.fetched page.rows.length)
  addWarnings payload
  pageLines page.rows

theorem savePage_count (payload : Json) (page : Page) (echo : Text) :
    savePage spec payload page echo = (countPage payload page >>= fun lines => do
      let w ← read
      if w.sink.rowsBytes + (lines.map List.length).sum > spec.maxResultBytes then do
        setCore (Core.unread (some echo))
        stop .partially "result_budget"
      else do
        appendRowsPage lines
        setCore (Core.saved page.rows.length)
        extendSample spec page.rows) := by
  unfold savePage countPage
  simp only [program_bind_assoc]

/-- The part of a turn that asks for a page and checks its shape. -/
def fetchPage (cursor : Option Text) : Flow (Json × Page) := do
  let payload ← call spec lib .getFlowResults (pageArgs spec cursor)
  let page ← checkPage spec lib payload (expectedCursor cursor)
  pure (payload, page)

/-- A turn, up to the look at the next cursor. -/
def onePage (cursor : Option Text) : Flow Page := do
  let fetched ← fetchPage spec lib cursor
  savePage spec fetched.1 fetched.2 (expectedCursor cursor)
  pure fetched.2

/-- The states in which a turn of the loop starts, with the pages that are left and
    the cursors that were read. -/
inductive AtTurn (first : World) : Nat → Option Text → List Text → World → Prop
  | start : AtTurn first spec.maxPages none [] first
  | next {left : Nat} {cursor : Option Text} {visited : List Text} {w w' : World} {page : Page} {next : Text}
      (h : AtTurn first (left + 1) cursor visited w) (hpage : Gives (onePage spec lib cursor) w page w')
      (hnext : page.next = some next) (hnew : next ∉ expectedCursor cursor :: visited) (hleft : left ≠ 0) :
      AtTurn first left (some next) (expectedCursor cursor :: visited) w'

/-- The rest of the loop, from the look at the next cursor. -/
def follow (left : Nat) (cursor : Option Text) (visited : List Text) (page : Page) : Flow Unit :=
  match page.next with
  | none => setCore (Core.unread none)
  | some next =>
      if next ∈ expectedCursor cursor :: visited then stop .failed "protocol_error"
      else if left = 0 then do
        setCore (Core.unread (some next))
        stop .partially "page_budget"
      else collectPages spec lib left (some next) (expectedCursor cursor :: visited)

theorem collectPages_turn (left : Nat) (cursor : Option Text) (visited : List Text) :
    collectPages spec lib (left + 1) cursor visited
      = onePage spec lib cursor >>= follow spec lib left cursor visited := by
  unfold onePage fetchPage
  simp only [program_bind_assoc, program_pure_bind]
  rfl

section Follow

variable {spec lib} {left : Nat} {cursor : Option Text} {visited : List Text} {page : Page} {next : Text}

theorem follow_last (hnext : page.next = none) :
    follow spec lib left cursor visited page = setCore (Core.unread none) := by
  unfold follow
  rw [hnext]

theorem follow_seen (hnext : page.next = some next) (hseen : next ∈ expectedCursor cursor :: visited) :
    follow spec lib left cursor visited page = stop .failed "protocol_error" := by
  unfold follow
  rw [hnext]
  exact if_pos hseen

theorem follow_stop (hnext : page.next = some next) (hnew : next ∉ expectedCursor cursor :: visited) :
    follow spec lib 0 cursor visited page = (do
      setCore (Core.unread (some next))
      stop .partially "page_budget") := by
  unfold follow
  rw [hnext]
  exact if_neg hnew

theorem follow_next (hnext : page.next = some next) (hnew : next ∉ expectedCursor cursor :: visited)
    (hleft : left ≠ 0) : follow spec lib left cursor visited page
      = collectPages spec lib left (some next) (expectedCursor cursor :: visited) := by
  unfold follow
  rw [hnext]
  exact (if_neg hnew).trans (if_neg hleft)

end Follow

/-! ## What a turn needs -/

/-- The request is sent and answered: there is room in the log, the answer comes in
    time, its record is written, and it is a success of this tool. -/
structure Answers (tool : Tool) (args : Json) (w : World) (e : Event) (rest : List Event) (r : Response)
    (payload : Json) : Prop where
  room : w.sink.callsBytes + LOG_SLOT_RESERVE ≤ spec.maxLogBytes
  schemas : ∃ f, w.core.validators = some f ∧ lib.isValid (f tool).1 args = some true ∧
    lib.isValid (f tool).2 payload = some true
  event : w.script = e :: rest
  before : w.clock + e.wait < w.deadline
  intime : e.took ≤ min (w.deadline - (w.clock + e.wait)) spec.requestTimeout
  result : e.result = some r
  record : ∃ full, line (record tool args r) = .ok full ∧ full.length ≤ LOG_RECORD_LIMIT
  logged : w.disk.faults.head? ≠ some true
  payload : Payload tool r payload

/-- The answer has the shape of a page at this cursor. -/
structure Shaped (payload : Json) (cursor : Option Text) (page : Page) : Prop where
  shape : ∃ pagination data returned truncated next,
    item payload "pagination" = .ok pagination ∧ item payload "data" = .ok data ∧
    item pagination "cursor" = .ok (.str (expectedCursor cursor)) ∧
    item pagination "returned" = .ok returned ∧ members data = .ok page.rows ∧
    pageFits spec lib pagination returned page.rows = .ok true ∧
    item pagination "truncated" = .ok truncated ∧ item pagination "next_cursor" = .ok next ∧
    nextOf lib truncated next page.rows = some page.next

/-- The next operations on the disk go well. -/
def Disk.works (disk : Disk) (operations : Nat) : Prop := true ∉ disk.faults.take operations

/-- **What a turn needs**: an answer of the right shape whose rows can be encoded, and,
    unless they are more than the budget allows, that they are written and that the
    next cursor is a new one. -/
def Served (cursor : Option Text) (visited : List Text) (w : World) : Prop :=
  ∃ e rest r payload page lines,
    Answers spec lib .getFlowResults (pageArgs spec cursor) w e rest r payload ∧
    Shaped spec lib payload cursor page ∧ page.rows.mapM line = .ok lines ∧
    (spec.maxResultBytes < w.sink.rowsBytes + (lines.map List.length).sum ∨
      (w.disk.works (lines.length + 2) ∧ ∀ next, page.next = some next → next ∉ expectedCursor cursor :: visited))

/-- The pages that were saved are the front of every list of pages they came from, and
    the cursor is where the rest of it starts. -/
def GoesOnAt (pages : List ReadPage) (cursor : Text) : Prop :=
  ∀ (s : Source Text Page Unit), s.next = Page.next →
    (∀ p ∈ pages, s.fetch (expectedCursor p.asked) = .ok p.page) → ∀ all e, Walk s FIRST_CURSOR all e →
      ∃ rest, all = pages.map ReadPage.page ++ rest ∧ Walk s cursor rest e

/-- **The run says where to go on**: its rows are those of the saved pages, and its
    cursor is that of the first page that was not saved. -/
def Resumes (w : World) : Prop :=
  ∃ pages cursor, Linked lib pages cursor ∧ w.core.pagesSaved = pages.length ∧
    LinesOf (pages.flatMap (fun p => p.page.rows)) w.sink.rows ∧
    w.core.nextUnreadCursor = some (expectedCursor cursor) ∧ GoesOnAt pages (expectedCursor cursor)

end Turns

/-! ## Where each step returns -/

section Steps

variable {spec : Spec} {lib : Library} {w w' : World} {u : Unit}

@[simp] theorem gives_python {α : Type} {x : Except String α} {a : α} :
    Gives (python x) w a w' ↔ x = .ok a ∧ w' = w := by
  cases x with
  | ok b => exact gives_pure.trans (and_congr_left (fun _ => ⟨fun h => h ▸ rfl, fun h => (Except.ok.inj h).symm⟩))
  | error name => exact ⟨fun h => absurd h gives_raise, fun h => absurd h.1 nofun⟩

theorem gives_read_bind {α : Type} {k : World → Flow α} {a : α} :
    Gives (read >>= k) w a w' ↔ Gives (k w) w a w' := Iff.rfl

@[simp] theorem gives_stopIf {c : Prop} [Decidable c] {outcome : Verdict} {reason : String} :
    Gives (stopIf c outcome reason) w u w' ↔ ¬ c ∧ w' = w := gives_raiseIf

@[simp] theorem gives_stop {α : Type} {outcome : Verdict} {reason : String} {a : α} :
    ¬ Gives (stop outcome reason : Flow α) w a w' := gives_raise

@[simp] theorem gives_setCore {f : Core → Core} :
    Gives (setCore f) w u w' ↔ w' = { w with core := f w.core } := gives_update

@[simp] theorem gives_setSink {f : Sink → Sink} :
    Gives (setSink f) w u w' ↔ w' = { w with sink := f w.sink } := gives_update

/-- After an operation on the disk. -/
def World.operated (w : World) : World := { w with disk := { w.disk with faults := w.disk.faults.tail } }

theorem gives_diskFails {fails : Bool} :
    Gives diskFails w fails w' ↔ fails = w.disk.faults.headD false ∧ w' = w.operated := by
  unfold Gives diskFails World.operated
  cases hfaults : w.disk.faults with
  | nil =>
      have hsame : ({ w with disk := { w.disk with faults := [] } } : World) = w := by rw [← hfaults]
      simp [hsame, eq_comm]
  | cons fails rest => simp [eq_comm]

@[simp] theorem gives_write : Gives write w u w' ↔ w.disk.faults.head? ≠ some true ∧ w' = w.operated := by
  unfold write
  simp only [gives_bind, gives_diskFails, gives_stopIf]
  constructor
  · rintro ⟨fails, w₁, ⟨rfl, rfl⟩, hfine, rfl⟩
    refine ⟨fun h => hfine ?_, rfl⟩
    rw [List.headD_eq_head?_getD, h]
    rfl
  · rintro ⟨hfine, rfl⟩
    refine ⟨_, _, ⟨rfl, rfl⟩, fun h => hfine ?_, rfl⟩
    cases hfaults : w.disk.faults with
    | nil => cases hfaults ▸ h
    | cons fails rest => exact congrArg some (hfaults ▸ h : (fails :: rest).headD false = true)

@[simp] theorem gives_schemas {tool : Tool} {p : Json × Json} :
    Gives (schemas tool) w p w' ↔ (∃ f, w.core.validators = some f ∧ p = f tool) ∧ w' = w := by
  unfold schemas
  rw [gives_read_bind]
  cases hf : w.core.validators with
  | none => simp
  | some f => simp

@[simp] theorem gives_admits {schema v : Json} {reason : String} :
    Gives (admits lib schema v reason) w u w' ↔ lib.isValid schema v = some true ∧ w' = w := by
  unfold admits
  cases h : lib.isValid schema v with
  | none => simp
  | some valid => simp

theorem gives_nextEvent {e : Event} {r : Response} (hr : e.result = some r) :
    Gives nextEvent w e w' ↔ ∃ rest, w.script = e :: rest ∧
      w' = { w with clock := w.clock + e.wait, script := rest } := by
  unfold Gives nextEvent
  cases hscript : w.script with
  | nil =>
      simp only [Prod.mk.injEq, Outcome.done.injEq, reduceCtorEq, false_and, exists_false, iff_false]
      rintro ⟨rfl, -⟩
      exact nomatch hr
  | cons e' rest =>
      simp only [Prod.mk.injEq, Outcome.done.injEq, List.cons.injEq]
      constructor
      · rintro ⟨rfl, rfl⟩
        exact ⟨rest, ⟨rfl, rfl⟩, rfl⟩
      · rintro ⟨_, ⟨rfl, rfl⟩, rfl⟩
        exact ⟨rfl, rfl⟩

/-- A request that is answered. -/
theorem gives_bounded {send : World → World} {e : Event} {r : Response} (hr : e.result = some r) :
    Gives (bounded spec send) w e w' ↔ ∃ rest, w.script = e :: rest ∧ w.clock + e.wait < w.deadline ∧
      e.took ≤ min (w.deadline - (w.clock + e.wait)) spec.requestTimeout ∧
      w' = { send { w with clock := w.clock + e.wait, script := rest } with
             clock := (send { w with clock := w.clock + e.wait, script := rest }).clock + e.took } := by
  unfold bounded
  rw [gives_bind]
  constructor
  · rintro ⟨e', w₁, hnext, h⟩
    rw [gives_read_bind, gives_bind] at h
    obtain ⟨_, w₂, hremains, h⟩ := h
    obtain ⟨hremains, rfl⟩ := gives_stopIf.mp hremains
    simp only [gives_bind, gives_update, pass] at h
    obtain ⟨_, w₃, rfl, _, w₄, rfl, h⟩ := h
    by_cases htook : e'.took ≤ min w₂.remaining spec.requestTimeout
    · rw [if_pos htook] at h
      obtain ⟨rfl, rfl⟩ := gives_pure.mp h
      obtain ⟨rest, hscript, rfl⟩ := (gives_nextEvent hr).mp hnext
      refine ⟨rest, hscript, Nat.lt_of_sub_ne_zero hremains, htook, ?_⟩
      rw [Nat.min_eq_left htook]
    · rw [if_neg htook] at h
      split at h
      · exact absurd h gives_stop
      · exact absurd h gives_stop
  · rintro ⟨rest, hscript, hbefore, htook, rfl⟩
    refine ⟨e, _, (gives_nextEvent hr).mpr ⟨rest, hscript, rfl⟩, ?_⟩
    rw [gives_read_bind, gives_bind]
    refine ⟨(), _, gives_stopIf.mpr ⟨Nat.sub_ne_zero_of_lt hbefore, rfl⟩, ?_⟩
    simp only [gives_bind, gives_update, pass]
    refine ⟨(), _, rfl, (), _, rfl, ?_⟩
    have htook' : e.took ≤ min (World.remaining { w with clock := w.clock + e.wait, script := rest })
        spec.requestTimeout := htook
    rw [if_pos htook', gives_pure, Nat.min_eq_left htook']
    exact ⟨rfl, rfl⟩

/-- The answer after its record was written. -/
theorem gives_appendCall {tool : Tool} {args : Json} {r : Response} :
    Gives (appendCall tool args r) w u w' ↔ ∃ full, line (record tool args r) = .ok full ∧
      full.length ≤ LOG_RECORD_LIMIT ∧ w.disk.faults.head? ≠ some true ∧
      w' = { w.operated with sink := w.sink.addCall full } := by
  unfold appendCall
  simp only [gives_bind, gives_python]
  constructor
  · rintro ⟨full, w₁, ⟨hfull, rfl⟩, h⟩
    by_cases hshort : full.length ≤ LOG_RECORD_LIMIT
    · rw [if_pos hshort] at h
      simp only [gives_bind, gives_write, gives_setSink] at h
      obtain ⟨_, _, ⟨hfine, rfl⟩, rfl⟩ := h
      exact ⟨full, hfull, hshort, hfine, rfl⟩
    · rw [if_neg hshort] at h
      simp [gives_bind] at h
  · rintro ⟨full, hfull, hshort, hfine, rfl⟩
    refine ⟨full, w, ⟨hfull, rfl⟩, ?_⟩
    rw [if_pos hshort]
    simp only [gives_bind, gives_write, gives_setSink]
    exact ⟨(), _, ⟨hfine, rfl⟩, rfl⟩

theorem gives_checked {tool : Tool} {r : Response} {payload : Json} :
    Gives (checked lib r tool) w payload w' ↔ Payload tool r payload ∧
      (∃ f, w.core.validators = some f ∧ lib.isValid (f tool).2 payload = some true) ∧ w' = w := by
  unfold checked
  by_cases herror : r.isError = true
  · rw [if_pos herror]
    constructor
    · intro h
      simp [gives_bind] at h
    · intro h
      exact absurd (h.1.fine.symm.trans herror) nofun
  · rw [if_neg herror]
    split
    next fs hpayload =>
      simp only [gives_bind, gives_stopIf, gives_schemas, gives_admits, gives_pure]
      constructor
      · rintro ⟨_, _, ⟨hshape, rfl⟩, _, _, ⟨⟨f, hf, rfl⟩, rfl⟩, _, _, ⟨hvalid, rfl⟩, rfl, rfl⟩
        rw [not_or] at hshape
        exact ⟨⟨hpayload, eq_true_of_ne_false hshape.1, eq_true_of_ne_false hshape.2,
          eq_false_of_ne_true herror⟩, ⟨f, hf, hvalid⟩, rfl⟩
      · rintro ⟨h, ⟨f, hf, hvalid⟩, rfl⟩
        obtain rfl := Option.some.inj (hpayload.symm.trans h.content)
        refine ⟨(), _, ⟨?_, rfl⟩, _, _, ⟨⟨f, hf, rfl⟩, rfl⟩, (), _, ⟨hvalid, rfl⟩, rfl, rfl⟩
        rintro (h' | h')
        · exact absurd (h.operation.symm.trans h') nofun
        · exact absurd (h.status.symm.trans h') nofun
    next hobj =>
      constructor
      · intro h
        exact absurd h gives_stop
      · rintro ⟨h, -, -⟩
        have hoperation := h.operation
        cases payload with
        | obj fs => exact absurd h.content (hobj fs)
        | _ => exact absurd hoperation nofun

/-- After a call that returned. -/
def World.called (w : World) (tool : Tool) (args : Json) (e : Event) (rest : List Event) (r : Response)
    (full : Bytes) : World :=
  { w.operated with clock := w.clock + e.wait + e.took, script := rest
                    sent := w.sent ++ [{ tool := tool, args := args }]
                    received := w.received ++ [(tool, r)], sink := w.sink.addCall full
                    core := w.core.count tool }

/-- **Where a call returns.** -/
theorem gives_call {tool : Tool} {args payload : Json} :
    Gives (call spec lib tool args) w payload w' ↔ ∃ e rest r full, Answers spec lib tool args w e rest r payload ∧
      line (record tool args r) = .ok full ∧ w' = w.called tool args e rest r full := by
  unfold call
  rw [gives_read_bind]
  simp only [gives_bind, gives_stopIf, gives_schemas, gives_admits, gives_setCore]
  constructor
  · rintro ⟨_, _, ⟨hroom, rfl⟩, _, _, ⟨⟨f, hf, rfl⟩, rfl⟩, _, _, ⟨hargs, rfl⟩, _, _, rfl, e, w₁, hbounded, h⟩
    cases hresult : e.result with
    | none =>
        rw [hresult] at h
        exact absurd h gives_stop
    | some r =>
        rw [hresult] at h
        obtain ⟨rest, hscript, hbefore, hintime, rfl⟩ := (gives_bounded hresult).mp hbounded
        simp only [answered, gives_bind, gives_update, gives_appendCall, gives_checked] at h
        obtain ⟨_, _, rfl, _, _, ⟨full, hfull, hshort, hfine, rfl⟩, hpayload, ⟨f', hf', hvalid⟩, rfl⟩ := h
        obtain rfl := Option.some.inj (hf.symm.trans hf')
        refine ⟨e, rest, r, full, ?_, hfull, rfl⟩
        exact { room := Nat.le_of_not_lt hroom, schemas := ⟨f, hf, hargs, hvalid⟩, event := hscript
                before := hbefore, intime := hintime, result := hresult, record := ⟨full, hfull, hshort⟩
                logged := hfine, payload := hpayload }
  · rintro ⟨e, rest, r, full, h, hfull, rfl⟩
    obtain ⟨f, hf, hargs, hvalid⟩ := h.schemas
    obtain ⟨full', hfull', hshort⟩ := h.record
    obtain rfl := Except.ok.inj (hfull.symm.trans hfull')
    refine ⟨(), _, ⟨Nat.not_lt.mpr h.room, rfl⟩, _, _, ⟨⟨f, hf, rfl⟩, rfl⟩, (), _, ⟨hargs, rfl⟩, (), _, rfl,
      e, _, (gives_bounded h.result).mpr ⟨rest, h.event, h.before, h.intime, rfl⟩, ?_⟩
    rw [h.result]
    simp only [answered, gives_bind, gives_update, gives_appendCall, gives_checked]
    exact ⟨(), _, rfl, (), _, ⟨full, hfull, hshort, h.logged, rfl⟩, h.payload, ⟨f, hf, hvalid⟩, rfl⟩

/-- **Where the checks on a page let it through.** -/
theorem gives_checkPage {payload : Json} {cursor : Option Text} {page : Page} :
    Gives (checkPage spec lib payload (expectedCursor cursor)) w page w' ↔
      Shaped spec lib payload cursor page ∧ w' = w := by
  unfold checkPage
  simp only [gives_bind, gives_python, gives_stopIf]
  constructor
  · rintro ⟨pagination, _, ⟨hpagination, rfl⟩, data, _, ⟨hdata, rfl⟩, echo, _, ⟨hecho, rfl⟩, _, _, ⟨hsame, rfl⟩,
      returned, _, ⟨hreturned, rfl⟩, rows, _, ⟨hrows, rfl⟩, fits, _, ⟨hfits, rfl⟩, _, _, ⟨hfine, rfl⟩,
      truncated, _, ⟨htruncated, rfl⟩, next, _, ⟨hnext, rfl⟩, h⟩
    obtain rfl := isText_iff.mp (eq_true_of_ne_false hsame)
    obtain rfl := eq_true_of_ne_false hfine
    cases hcursor : nextOf lib truncated next rows with
    | none =>
        rw [hcursor] at h
        exact absurd h gives_stop
    | some c =>
        rw [hcursor] at h
        obtain ⟨rfl, rfl⟩ := gives_pure.mp h
        exact ⟨⟨pagination, data, returned, truncated, next, hpagination, hdata, hecho, hreturned, hrows, hfits,
          htruncated, hnext, hcursor⟩, rfl⟩
  · rintro ⟨⟨pagination, data, returned, truncated, next, hpagination, hdata, hecho, hreturned, hrows, hfits,
      htruncated, hnext, hcursor⟩, rfl⟩
    refine ⟨pagination, _, ⟨hpagination, rfl⟩, data, _, ⟨hdata, rfl⟩, _, _, ⟨hecho, rfl⟩, (), _, ⟨?_, rfl⟩,
      returned, _, ⟨hreturned, rfl⟩, page.rows, _, ⟨hrows, rfl⟩, true, _, ⟨hfits, rfl⟩, (), _, ⟨Bool.false_ne_true.symm, rfl⟩,
      truncated, _, ⟨htruncated, rfl⟩, next, _, ⟨hnext, rfl⟩, ?_⟩
    · rw [isText_iff.mpr rfl]
      exact Bool.false_ne_true.symm
    · rw [hcursor]
      exact gives_pure.mpr ⟨rfl, rfl⟩

theorem gives_fetchPage {cursor : Option Text} {payload : Json} {page : Page} :
    Gives (fetchPage spec lib cursor) w (payload, page) w' ↔ ∃ e rest r full,
      Answers spec lib .getFlowResults (pageArgs spec cursor) w e rest r payload ∧
      Shaped spec lib payload cursor page ∧ line (record .getFlowResults (pageArgs spec cursor) r) = .ok full ∧
      w' = w.called .getFlowResults (pageArgs spec cursor) e rest r full := by
  unfold fetchPage
  simp only [gives_bind, gives_call, gives_checkPage, gives_pure, Prod.mk.injEq]
  constructor
  · rintro ⟨_, _, ⟨e, rest, r, full, h, hfull, rfl⟩, _, _, ⟨hshape, rfl⟩, ⟨rfl, rfl⟩, rfl⟩
    exact ⟨e, rest, r, full, h, hshape, hfull, rfl⟩
  · rintro ⟨e, rest, r, full, h, hshape, hfull, rfl⟩
    exact ⟨payload, _, ⟨e, rest, r, full, h, hfull, rfl⟩, page, _, ⟨hshape, rfl⟩, ⟨rfl, rfl⟩, rfl⟩

/-- After the lines of a page were written. -/
def World.wrote (w : World) (lines : List Bytes) : World :=
  { w with disk := { w.disk with faults := w.disk.faults.drop (lines.length + 1) }
           sink := { w.sink with rows := w.sink.rows ++ lines
                                 rowsBytes := w.sink.rowsBytes + (lines.map List.length).sum } }

theorem works_succ {disk : Disk} {n : Nat} : disk.works (n + 1) ↔
    disk.faults.head? ≠ some true ∧ Disk.works { disk with faults := disk.faults.tail } n := by
  unfold Disk.works
  cases disk.faults with
  | nil => simp
  | cons fails rest => simp [eq_comm]

/-- The lines are written where the disk works for each of them and once more. -/
theorem gives_appendRowsPage {lines : List Bytes} :
    Gives (appendRowsPage lines) w u w' ↔ w.disk.works (lines.length + 1) ∧ w' = w.wrote lines := by
  induction lines generalizing w with
  | nil =>
      have hworks : w.disk.works (0 + 1) ↔ w.disk.faults.head? ≠ some true := by
        rw [works_succ]
        exact and_iff_left (by simp [Disk.works])
      have hwrote : w.wrote [] = w.operated := by simp [World.wrote, World.operated]
      exact gives_write.trans (and_congr hworks.symm (by rw [hwrote]))
  | cons l ls ih =>
      unfold appendRowsPage
      simp only [gives_bind, gives_write, gives_setSink]
      have hwrote : ({ w.operated with sink := Sink.addRow l w.operated.sink } : World).wrote ls = w.wrote (l :: ls) := by
        simp [World.wrote, World.operated, Sink.addRow, Nat.add_assoc, List.drop_tail]
      rw [List.length_cons, works_succ, and_assoc]
      constructor
      · rintro ⟨_, _, ⟨hfine, rfl⟩, _, _, rfl, h⟩
        obtain ⟨hrest, rfl⟩ := ih.mp h
        exact ⟨hfine, hrest, hwrote⟩
      · rintro ⟨hfine, hrest, rfl⟩
        exact ⟨(), _, ⟨hfine, rfl⟩, (), _, rfl, ih.mpr ⟨hrest, hwrote.symm⟩⟩

end Steps

/-! ## What a turn leaves alone -/

/-- What a run says about its pages. -/
structure Spot where
  saved : Nat
  rows : List Bytes
  unread : Option Text

def spot (w : World) : Spot :=
  { saved := w.core.pagesSaved, rows := w.sink.rows, unread := w.core.nextUnreadCursor }

/-- The same, with what decides whether a page is saved. -/
structure Reading extends Spot where
  rowsBytes : Nat
  faults : List Bool

def reading (w : World) : Reading :=
  { spot w with rowsBytes := w.sink.rowsBytes, faults := w.disk.faults }

def unread (w : World) : Option Text := w.core.nextUnreadCursor

section Fixed

variable {spec : Spec} {lib : Library}

theorem reading_addWarnings (payload : Json) : Fixes reading (addWarnings payload) :=
  fixes_bind (fixes_python _) (fun _ _ => rfl)

theorem reading_extendSample (rows : List Json) : Fixes reading (extendSample spec rows) := by
  induction rows with
  | nil => exact fixes_pure _
  | cons row rows ih =>
      refine fixes_bind fixes_read (fun w => fixes_ite (fixes_pure _) ?_)
      refine fixes_bind (fixes_python _) (fun projected => fixes_bind ?_ (fun _ => ih))
      unfold sampleRow
      refine fixes_ite (fixes_pure _) ?_
      cases encodeUtf8 (render projected) with
      | none => exact fixes_raise _
      | some raw => exact fixes_ite (fixes_pure _) (fun _ => rfl)

/-- A program that leaves the pages alone leaves the cursor alone. -/
theorem unread_of_reading {α : Type} {m : Flow α} (h : Fixes reading m) : Fixes unread m :=
  fun w => congrArg (fun v => v.unread) (h w)

theorem unread_of_spot {α : Type} {m : Flow α} (h : Fixes spot m) : Fixes unread m :=
  fun w => congrArg Spot.unread (h w)

theorem spot_write : Fixes spot write := fixes_write (fun _ _ => rfl)

theorem spot_appendCall (tool : Tool) (args : Json) (r : Response) : Fixes spot (appendCall tool args r) := by
  refine fixes_bind (fixes_python _) (fun full => fixes_ite ?_ ?_)
  · exact fixes_bind spot_write (fun _ _ => rfl)
  · refine fixes_bind (fixes_python _) (fun short => fixes_bind spot_write (fun _ => ?_))
    exact fixes_bind (fun _ => rfl) (fun _ => fixes_bind (fun _ => rfl) (fun _ => fixes_raise _))

theorem spot_call (tool : Tool) (args : Json) : Fixes spot (call spec lib tool args) := by
  refine fixes_bind fixes_read (fun w => fixes_bind (fixes_raiseIf _ _) (fun _ => ?_))
  refine fixes_bind (fixes_schemas tool) (fun _ => fixes_bind (fixes_admits lib _ _ _) (fun _ => ?_))
  refine fixes_bind (fun _ => rfl) (fun _ => fixes_bind (fixes_bounded (fun _ _ _ => rfl) (fun _ => rfl)) (fun e => ?_))
  cases e.result with
  | none => exact fixes_raise _
  | some r => exact fixes_bind (fun _ => rfl) (fun _ => fixes_bind (spot_appendCall tool args r)
      (fun _ => fixes_checked lib r tool))

theorem unread_checkPage (payload : Json) (expected : Text) : Fixes unread (checkPage spec lib payload expected) := by
  refine fixes_bind (fixes_python _) (fun _ => fixes_bind (fixes_python _) (fun _ => ?_))
  refine fixes_bind (fixes_python _) (fun _ => fixes_bind (fixes_raiseIf _ _) (fun _ => ?_))
  refine fixes_bind (fixes_python _) (fun _ => fixes_bind (fixes_python _) (fun rows => ?_))
  refine fixes_bind (fixes_python _) (fun _ => fixes_bind (fixes_raiseIf _ _) (fun _ => ?_))
  refine fixes_bind (fixes_python _) (fun truncated => fixes_bind (fixes_python _) (fun next => ?_))
  cases nextOf lib truncated next rows with
  | none => exact fixes_raise _
  | some cursor => exact fixes_pure _

theorem unread_fetchPage (cursor : Option Text) : Fixes unread (fetchPage spec lib cursor) :=
  fixes_bind (unread_of_spot (spot_call _ _)) (fun _ => fixes_bind (unread_checkPage _ _) (fun _ => fixes_pure _))

theorem reading_countPage (payload : Json) (page : Page) : Fixes reading (countPage payload page) := by
  refine fixes_bind (fun _ => rfl) (fun _ => fixes_bind (reading_addWarnings payload) (fun _ => ?_))
  unfold pageLines
  cases page.rows.mapM line with
  | ok lines => exact fixes_pure _
  | error e => exact fixes_raise _

theorem unread_appendRowsPage (lines : List Bytes) : Fixes unread (appendRowsPage lines) := by
  induction lines with
  | nil => exact unread_of_spot spot_write
  | cons l ls ih => exact fixes_bind (unread_of_spot spot_write) (fun _ => fixes_bind (fun _ => rfl) (fun _ => ih))

/-! ## What a cursor says about its turn -/

/-- The run returns, or says where to go on. -/
def Says {α : Type} (end_ : Outcome Failure α × World) : Prop :=
  (∃ a, end_.1 = .done a) ∨ unread end_.2 ≠ none

/-- Where a run says more than its first part, the first part returns. -/
theorem says_bind {α β : Type} {m : Flow α} {k : α → Flow β} {w : World} (hm : Fixes unread m) (hw : unread w = none)
    (h : Says ((m >>= k) w)) : ∃ a w₁, Gives m w a w₁ ∧ unread w₁ = none ∧ Says (k a w₁) := by
  have hsame : unread (m w).2 = none := (hm w).trans hw
  have h : Says (Program.andThen m k w) := h
  unfold Program.andThen at h
  rcases hmw : m w with ⟨o, w₁⟩
  rw [hmw] at h hsame
  cases o with
  | done a => exact ⟨a, w₁, hmw, hsame, h⟩
  | raised e =>
      rcases h with ⟨a, ha⟩ | hunread
      · exact absurd ha nofun
      · exact absurd hsame hunread
  | crashed =>
      rcases h with ⟨a, ha⟩ | hunread
      · exact absurd ha nofun
      · exact absurd hsame hunread

theorem says_read {α : Type} {k : World → Flow α} {w : World} (h : Says ((Program.read >>= k) w)) : Says (k w w) := h

theorem says_stop {α : Type} {outcome : Verdict} {reason : String} {w : World} (hw : unread w = none) :
    ¬ Says ((stop outcome reason : Flow α) w) := by
  rintro (⟨a, ha⟩ | hunread)
  · exact absurd ha nofun
  · exact hunread hw

theorem gives_countPage {payload : Json} {page : Page} {lines : List Bytes} {w w' : World}
    (h : Gives (countPage payload page) w lines w') : page.rows.mapM line = .ok lines ∧ reading w' = reading w := by
  have hreading := reading_countPage payload page w
  rw [show countPage payload page w = (.done lines, w') from h] at hreading
  refine ⟨?_, hreading⟩
  obtain ⟨_, w₁, -, h⟩ := gives_bind.mp h
  obtain ⟨_, w₂, -, h⟩ := gives_bind.mp h
  unfold pageLines at h
  cases hlines : page.rows.mapM line with
  | ok lines' =>
      rw [hlines] at h
      rw [(gives_pure.mp h).1]
  | error e =>
      rw [hlines] at h
      exact absurd h gives_stop

/-- What is read and saved after a fetch. -/
theorem reading_called (w : World) (tool : Tool) (args : Json) (e : Event) (rest : List Event) (r : Response)
    (full : Bytes) :
    reading (w.called tool args e rest r full) = { reading w with faults := w.disk.faults.tail } := rfl

/-- **A turn that returns, or says where to go on, had what it needs.** -/
theorem says_served {left : Nat} {cursor : Option Text} {visited : List Text} {w : World} (hw : unread w = none)
    (h : Says (collectPages spec lib (left + 1) cursor visited w)) : Served spec lib cursor visited w := by
  rw [collectPages_turn] at h
  unfold onePage at h
  rw [program_bind_assoc] at h
  obtain ⟨⟨payload, page⟩, w₁, hfetch, hw₁, h⟩ := says_bind (unread_fetchPage cursor) hw h
  obtain ⟨e, rest, r, full, hanswers, hshape, -, hw₁eq⟩ := gives_fetchPage.mp hfetch
  have hread₁ : reading w₁ = { reading w with faults := w.disk.faults.tail } := hw₁eq ▸ reading_called ..
  rw [savePage_count] at h
  simp only [program_bind_assoc] at h
  obtain ⟨lines, w₂, hcount, hw₂, h⟩ := says_bind (unread_of_reading (reading_countPage payload page)) hw₁ h
  obtain ⟨hlines, hread₂⟩ := gives_countPage hcount
  rw [hread₁] at hread₂
  refine ⟨e, rest, r, payload, page, lines, hanswers, hshape, hlines, ?_⟩
  have hbytes : w₂.sink.rowsBytes = w.sink.rowsBytes := congrArg Reading.rowsBytes hread₂
  have hfaults : w₂.disk.faults = w.disk.faults.tail := congrArg Reading.faults hread₂
  have h := says_read h
  by_cases hbudget : w₂.sink.rowsBytes + (lines.map List.length).sum > spec.maxResultBytes
  · exact Or.inl (hbytes ▸ hbudget)
  rw [if_neg hbudget] at h
  simp only [program_bind_assoc] at h
  obtain ⟨_, w₄, hrows, hw₄, h⟩ := says_bind (unread_appendRowsPage lines) hw₂ h
  obtain ⟨hworks, -⟩ := gives_appendRowsPage.mp hrows
  obtain ⟨_, w₅, -, hw₅, h⟩ := says_bind (m := setCore _) (fun _ => rfl) hw₄ h
  obtain ⟨_, w₆, -, hw₆, h⟩ := says_bind (unread_of_reading (reading_extendSample page.rows)) hw₅ h
  refine Or.inr ⟨works_succ.mpr ⟨hanswers.logged, hfaults ▸ hworks⟩, fun next hnext hseen => ?_⟩
  rw [program_pure_bind, follow_seen hnext hseen] at h
  exact says_stop hw₆ h

theorem gives_unique {α : Type} {m : Flow α} {a b : α} {w w₁ w₂ : World} (h₁ : Gives m w a w₁)
    (h₂ : Gives m w b w₂) : a = b ∧ w₁ = w₂ := by
  obtain ⟨ha, hw⟩ := Prod.mk.inj (h₁.symm.trans h₂)
  exact ⟨Outcome.done.inj ha, hw⟩

/-- The rows of a page, written. -/
def Reading.saving (v : Reading) (lines : List Bytes) : Reading :=
  { saved := v.saved + 1, rows := v.rows ++ lines, rowsBytes := v.rowsBytes + (lines.map List.length).sum
    faults := v.faults.drop (lines.length + 2), unread := v.unread }

theorem reading_saved (w : World) (lines : List Bytes) (rows : Nat) :
    reading { w.wrote lines with core := Core.saved rows (w.wrote lines).core } =
      { saved := (reading w).saved + 1, rows := (reading w).rows ++ lines
        rowsBytes := (reading w).rowsBytes + (lines.map List.length).sum
        faults := (reading w).faults.drop (lines.length + 1), unread := (reading w).unread } := rfl

/-- What was fetched, in its parts. -/
theorem gives_fetched {cursor : Option Text} {payload : Json} {page : Page} {w w' : World}
    (h : Gives (fetchPage spec lib cursor) w (payload, page) w') :
    (∃ e rest r, Answers spec lib .getFlowResults (pageArgs spec cursor) w e rest r payload) ∧
      Shaped spec lib payload cursor page ∧ reading w' = { reading w with faults := w.disk.faults.tail } := by
  obtain ⟨e, rest, r, full, hanswers, hshape, -, rfl⟩ := gives_fetchPage.mp h
  exact ⟨⟨e, rest, r, hanswers⟩, hshape, reading_called ..⟩

/-- **What a turn that returns a page has saved.** -/
theorem gives_onePage {cursor : Option Text} {page : Page} {w w' : World}
    (h : Gives (onePage spec lib cursor) w page w') : ∃ payload w₁ lines,
      Gives (fetchPage spec lib cursor) w (payload, page) w₁ ∧ page.rows.mapM line = .ok lines ∧
      w.sink.rowsBytes + (lines.map List.length).sum ≤ spec.maxResultBytes ∧
      reading w' = (reading w).saving lines := by
  obtain ⟨⟨payload, page'⟩, w₁, hfetch, h⟩ := gives_bind.mp h
  obtain ⟨-, -, hread₁⟩ := gives_fetched hfetch
  rw [savePage_count, program_bind_assoc] at h
  obtain ⟨lines, w₂, hcount, h⟩ := gives_bind.mp h
  obtain ⟨hlines, hread₂⟩ := gives_countPage hcount
  rw [hread₁] at hread₂
  have hbytes : w₂.sink.rowsBytes = w.sink.rowsBytes := congrArg Reading.rowsBytes hread₂
  rw [program_bind_assoc, gives_read_bind] at h
  by_cases hbudget : w₂.sink.rowsBytes + (lines.map List.length).sum > spec.maxResultBytes
  · rw [if_pos hbudget] at h
    simp [gives_bind] at h
  · rw [if_neg hbudget] at h
    simp only [gives_bind, gives_appendRowsPage, gives_setCore, gives_pure] at h
    obtain ⟨_, w₅, ⟨_, w₃, ⟨-, rfl⟩, _, w₄, hw₄, hsample⟩, rfl, rfl⟩ := h
    have hread₅ : reading (extendSample spec page.rows w₄).2 = reading w₄ := reading_extendSample page.rows w₄
    rw [show extendSample spec page.rows w₄ = (.done _, w') from hsample, hw₄, reading_saved, hread₂] at hread₅
    refine ⟨payload, w₁, lines, hfetch, hlines, hbytes ▸ Nat.le_of_not_lt hbudget, hread₅.trans ?_⟩
    simp [Reading.saving, reading, List.drop_tail]

/-- A turn that returns a page leaves the cursor empty. -/
theorem onePage_unread {cursor : Option Text} {page : Page} {w w' : World} (hw : unread w = none)
    (h : Gives (onePage spec lib cursor) w page w') : unread w' = none := by
  obtain ⟨payload, w₁, lines, -, -, -, hread⟩ := gives_onePage h
  exact (congrArg (fun v : Reading => v.unread) hread).trans hw

/-- **A run that says where to go on had what it needed at every turn.** -/
theorem says_turns {w₁ : World} (hw₁ : unread w₁ = none)
    (hrun : Says (collectPages spec lib spec.maxPages none [] w₁)) {left : Nat} {cursor : Option Text}
    {visited : List Text} {w : World} (h : AtTurn spec lib w₁ left cursor visited w) :
    left ≠ 0 ∧ unread w = none ∧ Says (collectPages spec lib left cursor visited w) := by
  induction h with
  | start => exact ⟨Nat.ne_of_gt spec.somePages, hw₁, hrun⟩
  | @next left cursor visited w w' page next _ hpage hnext hnew hleft ih =>
      obtain ⟨-, hw, hsays⟩ := ih
      rw [collectPages_turn] at hsays
      have heq : (onePage spec lib cursor >>= follow spec lib left cursor visited) w
          = follow spec lib left cursor visited page w' := hpage.bind_eq
      rw [heq, follow_next hnext hnew hleft] at hsays
      exact ⟨hleft, onePage_unread hw hpage, hsays⟩

/-! ## What a turn that has what it needs says -/

/-- Following the cursors from the first page comes past the saved pages. -/
theorem goesOn_linked {pages : List ReadPage} {cursor : Option Text} (h : Linked lib pages cursor) :
    GoesOnAt pages (expectedCursor cursor) := by
  induction h with
  | start => exact fun s _ _ all e hwalk => ⟨all, rfl, hwalk⟩
  | @step pages p cursor _ _ hnext ih =>
      intro s hs hfetch all e hwalk
      obtain ⟨rest, rfl, hrest⟩ := ih s hs (fun q hq => hfetch q (List.mem_append_left _ hq)) all e hwalk
      have hp := hfetch p (List.mem_append_right _ (List.mem_singleton_self p))
      have hmore : s.next p.page = some cursor := by rw [hs, hnext]
      cases hrest with
      | last h hlast =>
          obtain rfl := Except.ok.inj (hp.symm.trans h)
          exact absurd (hmore.symm.trans hlast) nofun
      | @step _ c' q ps _ h hnext' hwalk' =>
          obtain rfl := Except.ok.inj (hp.symm.trans h)
          obtain rfl := Option.some.inj (hmore.symm.trans hnext')
          exact ⟨ps, by simp, hwalk'⟩
      | stop h => exact absurd (hp.symm.trans h) nofun

/-- What ends the run without a result. -/
def Escapes (e : Failure) : Prop := ∃ name, e = .escaped name

theorem raises_python {α : Type} (x : Except String α) : Raises Escapes (python x) := by
  cases x with
  | ok a => exact raises_pure a
  | error name => exact raises_raise ⟨name, rfl⟩

theorem raises_addWarnings (payload : Json) : Raises Escapes (addWarnings payload) :=
  raises_bind (raises_python _) (fun _ => raises_update _)

theorem raises_extendSample (rows : List Json) : Raises Escapes (extendSample spec rows) := by
  induction rows with
  | nil => exact raises_pure _
  | cons row rows ih =>
      refine raises_bind raises_read (fun w => raises_ite (raises_pure _) ?_)
      refine raises_bind (raises_python _) (fun projected => raises_bind ?_ (fun _ => ih))
      unfold sampleRow
      refine raises_ite (raises_pure _) ?_
      cases encodeUtf8 (render projected) with
      | none => exact raises_raise ⟨_, rfl⟩
      | some raw => exact raises_ite (raises_pure _) (raises_update _)

theorem not_stopped {α : Type} {m : Flow α} (hm : Raises Escapes m) {w w' : World} {outcome : Verdict} {reason : Text} :
    m w ≠ (.raised (.stop outcome reason), w') := by
  intro h
  have hend := hm w
  rw [h] at hend
  obtain ⟨name, hname⟩ := hend
  exact absurd hname nofun

theorem raises_countPage {payload : Json} {page : Page} {lines : List Bytes} (h : page.rows.mapM line = .ok lines) :
    Raises Escapes (countPage payload page) := by
  refine raises_bind (raises_update _) (fun _ => raises_bind (raises_addWarnings payload) (fun _ => ?_))
  unfold pageLines
  rw [h]
  exact raises_pure _

theorem raised_read {α : Type} {k : World → Flow α} {w w' : World} {e : Failure}
    (h : (Program.read >>= k) w = (.raised e, w')) : k w w = (.raised e, w') := h

/-- **A turn that has what it needs stops only at the budget of rows**, and says that
    its own page comes next. -/
theorem stopped_onePage {cursor : Option Text} {visited : List Text} {w w' : World} {outcome : Verdict} {reason : Text}
    (hserved : Served spec lib cursor visited w)
    (h : onePage spec lib cursor w = (.raised (.stop outcome reason), w')) :
    w'.core.pagesSaved = w.core.pagesSaved ∧ w'.sink.rows = w.sink.rows ∧
      unread w' = some (expectedCursor cursor) := by
  obtain ⟨e, rest, r, payload, page, lines, hanswers, hshape, hlines, hfits⟩ := hserved
  obtain ⟨full, hfull, -⟩ := hanswers.record
  have hfetch : Gives (fetchPage spec lib cursor) w (payload, page) _ :=
    gives_fetchPage.mpr ⟨e, rest, r, full, hanswers, hshape, hfull, rfl⟩
  obtain ⟨-, -, hread₁⟩ := gives_fetched hfetch
  have h := hfetch.bind_eq.symm.trans h
  rw [savePage_count, program_bind_assoc] at h
  rcases raised_bind h with hraised | ⟨lines', w₂, hcount, h⟩
  · exact absurd hraised (not_stopped (raises_countPage hlines))
  obtain ⟨hlines', hread₂⟩ := gives_countPage hcount
  obtain rfl := Except.ok.inj (hlines.symm.trans hlines')
  rw [hread₁] at hread₂
  have hbytes : w₂.sink.rowsBytes = w.sink.rowsBytes := congrArg Reading.rowsBytes hread₂
  have hfaults : w₂.disk.faults = w.disk.faults.tail := congrArg Reading.faults hread₂
  rw [program_bind_assoc] at h
  have h := raised_read h
  by_cases hbudget : w₂.sink.rowsBytes + (lines.map List.length).sum > spec.maxResultBytes
  · rw [if_pos hbudget] at h
    obtain rfl := (Prod.mk.inj h).2
    exact ⟨congrArg (fun v : Reading => v.saved) hread₂, congrArg (fun v : Reading => v.rows) hread₂, rfl⟩
  · rw [if_neg hbudget] at h
    rcases hfits with hover | ⟨hworks, -⟩
    · exact absurd (hbytes ▸ hover) hbudget
    · have hworks₂ : w₂.disk.works (lines.length + 1) := by
        unfold Disk.works
        rw [hfaults]
        exact (works_succ.mp hworks).2
      simp only [program_bind_assoc] at h
      have h := (gives_appendRowsPage.mpr ⟨hworks₂, rfl⟩ : Gives _ _ () _).bind_eq.symm.trans h
      have h := (gives_setCore.mpr rfl : Gives _ _ () _).bind_eq.symm.trans h
      rcases raised_bind h with hraised | ⟨_, _, -, h⟩
      · exact absurd hraised (not_stopped (raises_extendSample _))
      · exact absurd (Prod.mk.inj h).1 nofun

/-- The pages were saved, and the cursor is where they end. -/
structure Saved (lib : Library) (pages : List ReadPage) (cursor : Option Text) (w : World) : Prop where
  linked : Linked lib pages cursor
  count : w.core.pagesSaved = pages.length
  rows : LinesOf (pages.flatMap (fun p => p.page.rows)) w.sink.rows

theorem Saved.resumes {pages : List ReadPage} {cursor : Option Text} {w : World} (h : Saved lib pages cursor w)
    (hunread : unread w = some (expectedCursor cursor)) : Resumes lib w :=
  ⟨pages, cursor, h.linked, h.count, h.rows, hunread, goesOn_linked h.linked⟩

theorem pageOf_shaped {cursor : Option Text} {payload : Json} {page : Page} {r : Response}
    (hpayload : Payload .getFlowResults r payload) (h : Shaped spec lib payload cursor page) :
    PageOf lib { asked := cursor, page := page, response := r } := by
  obtain ⟨pagination, data, returned, truncated, next, hpagination, hdata, hecho, -, hrows, -, htruncated, hnext,
    hcursor⟩ := h.shape
  exact ⟨payload, pagination, data, truncated, next, hpayload, hpagination, hdata, hecho, hrows, htruncated, hnext,
    hcursor⟩

/-- One more page. -/
theorem Saved.page {pages : List ReadPage} {cursor : Option Text} {page : Page} {next : Text} {w w' : World}
    (hsaved : Saved lib pages cursor w) (h : Gives (onePage spec lib cursor) w page w') (hnext : page.next = some next) :
    ∃ p, Saved lib (pages ++ [p]) (some next) w' := by
  obtain ⟨payload, w₁, lines, hfetch, hlines, -, hread⟩ := gives_onePage h
  obtain ⟨⟨e, rest, r, hanswers⟩, hshape, -⟩ := gives_fetched hfetch
  refine ⟨{ asked := cursor, page := page, response := r }, ?_, ?_, ?_⟩
  · exact .step hsaved.linked (pageOf_shaped hanswers.payload hshape) hnext
  · have hcount : w'.core.pagesSaved = w.core.pagesSaved + 1 := congrArg (fun v : Reading => v.saved) hread
    rw [hcount, hsaved.count, List.length_append, List.length_singleton]
  · have hrows : w'.sink.rows = w.sink.rows ++ lines := congrArg (fun v : Reading => v.rows) hread
    rw [hrows, List.flatMap_append, List.flatMap_singleton]
    exact List.rel_append hsaved.rows (mapM_lines hlines)

/-- What a turn needs is about the page it returns. -/
theorem Served.fresh {cursor : Option Text} {visited : List Text} {page : Page} {next : Text} {w w' : World}
    (hserved : Served spec lib cursor visited w) (h : Gives (onePage spec lib cursor) w page w')
    (hnext : page.next = some next) : next ∉ expectedCursor cursor :: visited := by
  obtain ⟨payload, w₁, lines, hfetch, hlines, hbudget, -⟩ := gives_onePage h
  obtain ⟨e, rest, r, payload', page', lines', hanswers, hshape, hlines', hfits⟩ := hserved
  obtain ⟨full, hfull, -⟩ := hanswers.record
  have hfetch' := gives_fetchPage.mpr ⟨e, rest, r, full, hanswers, hshape, hfull, rfl⟩
  obtain ⟨rfl, rfl⟩ := Prod.mk.inj (gives_unique hfetch hfetch').1
  obtain rfl := Except.ok.inj (hlines.symm.trans hlines')
  rcases hfits with hover | ⟨-, hnew⟩
  · exact absurd hbudget (Nat.not_le.mpr hover)
  · exact hnew next hnext

/-- One turn of a run that stops: it says where to go on, or hands over to the next. -/
theorem stopped_turn {left : Nat} {cursor : Option Text} {visited : List Text} {pages : List ReadPage} {w w' : World}
    {outcome : Verdict} {reason : Text} (hserved : Served spec lib cursor visited w) (hsaved : Saved lib pages cursor w)
    (h : collectPages spec lib (left + 1) cursor visited w = (.raised (.stop outcome reason), w')) :
    Resumes lib w' ∨ (left ≠ 0 ∧ ∃ page next p w₂, Gives (onePage spec lib cursor) w page w₂ ∧
      page.next = some next ∧ next ∉ expectedCursor cursor :: visited ∧ Saved lib (pages ++ [p]) (some next) w₂ ∧
      collectPages spec lib left (some next) (expectedCursor cursor :: visited) w₂
        = (.raised (.stop outcome reason), w')) := by
  rw [collectPages_turn] at h
  rcases raised_bind h with hstop | ⟨page, w₂, hpage, hfollow⟩
  · obtain ⟨hcount, hrows, hunread⟩ := stopped_onePage hserved hstop
    exact Or.inl (Saved.resumes ⟨hsaved.linked, hcount.trans hsaved.count, hrows ▸ hsaved.rows⟩ hunread)
  cases hnext : page.next with
  | none =>
      rw [follow_last hnext] at hfollow
      exact absurd (Prod.mk.inj hfollow).1 nofun
  | some next =>
      have hnew := hserved.fresh hpage hnext
      obtain ⟨p, hsaved₂⟩ := hsaved.page hpage hnext
      by_cases hleft : left = 0
      · subst hleft
        rw [follow_stop hnext hnew] at hfollow
        obtain rfl := (Prod.mk.inj hfollow).2
        exact Or.inl (Saved.resumes ⟨hsaved₂.linked, hsaved₂.count, hsaved₂.rows⟩ rfl)
      · rw [follow_next hnext hnew hleft] at hfollow
        exact Or.inr ⟨hleft, page, next, p, w₂, hpage, hnext, hnew, hsaved₂, hfollow⟩

/-- **A run that has what it needs at every turn says where to go on.** -/
theorem served_resumes {first w' : World} {outcome : Verdict} {reason : Text}
    (hserved : ∀ left cursor visited w, AtTurn spec lib first left cursor visited w → Served spec lib cursor visited w)
    {left : Nat} {cursor : Option Text} {visited : List Text} {w : World} {pages : List ReadPage}
    (hturn : AtTurn spec lib first left cursor visited w) (hsaved : Saved lib pages cursor w)
    (h : collectPages spec lib left cursor visited w = (.raised (.stop outcome reason), w')) :
    Resumes lib w' := by
  induction left generalizing cursor visited w pages with
  | zero => exact absurd (Prod.mk.inj h).1 nofun
  | succ left ih =>
      rcases stopped_turn (hserved _ _ _ _ hturn) hsaved h with hdone | ⟨hleft, page, next, p, w₂, hpage, hnext, hnew,
        hsaved₂, hrest⟩
      · exact hdone
      · exact ih (hturn.next hpage hnext hnew hleft) hsaved₂ hrest

/-- **The cursor of a run that stops while it reads pages**: it is that of the first page
    that was not saved exactly where every turn had what it needs. -/
theorem resumes_iff {first w' : World} {outcome : Verdict} {reason : Text} (hfirst : Saved lib [] none first)
    (hempty : unread first = none)
    (h : collectPages spec lib spec.maxPages none [] first = (.raised (.stop outcome reason), w')) :
    Resumes lib w' ↔ ∀ left cursor visited w, AtTurn spec lib first left cursor visited w →
      Served spec lib cursor visited w := by
  constructor
  · rintro ⟨pages, cursor, -, -, -, hunread, -⟩ left c visited w hturn
    have hsays : Says (collectPages spec lib spec.maxPages none [] first) := by
      rw [h]
      exact Or.inr (fun hnone => nomatch hunread.symm.trans hnone)
    obtain ⟨hleft, hw, hsays⟩ := says_turns hempty hsays hturn
    obtain ⟨left, rfl⟩ := Nat.exists_eq_succ_of_ne_zero hleft
    exact says_served hw hsays
  · intro hserved
    exact served_resumes hserved .start hfirst h

/-! ## The run -/

variable (spec lib) in
/-- The phases before the pages. -/
def beforePages : Flow Unit := do
  loadContract spec lib
  waitFinished spec lib spec.maxStatusCalls 0

theorem spot_loadContract : Fixes spot (loadContract spec lib) := by
  refine fixes_bind (fixes_listTools (fun _ _ _ => rfl) _ _ _) (fun found => fixes_bind (fixes_raiseIf _ _) (fun _ => ?_))
  refine fixes_bind (fixes_contractOf _ _) (fun _ => fixes_bind (fixes_contractOf _ _) (fun _ => ?_))
  refine fixes_bind (fixes_contractOf _ _) (fun _ => fixes_bind (fun _ => rfl) (fun _ => ?_))
  refine fixes_bind fixes_read (fun _ => fixes_bind (fixes_raiseIf _ _) (fun _ => ?_))
  exact fixes_bind (fixes_raiseIf _ _) (fun _ => fixes_bind spot_write (fun _ _ => rfl))

theorem spot_waitFinished (left made : Nat) : Fixes spot (waitFinished spec lib left made) := by
  induction left generalizing made with
  | zero => exact fixes_raise _
  | succ left ih =>
      refine fixes_bind (spot_call _ _) (fun payload => fixes_bind (fixes_python _) (fun state => ?_))
      refine fixes_bind (fun _ => rfl) (fun _ => fixes_bind (fixes_bind (fixes_python _) (fun _ _ => rfl)) (fun _ => ?_))
      refine fixes_bind (fixes_python _) (fun flowId => fixes_bind (fixes_raiseIf _ _) (fun _ => ?_))
      refine fixes_ite (fixes_pure _) (fixes_ite (fixes_raise _) ?_)
      exact fixes_bind (fixes_backOff (fun _ _ => rfl) made) (fun _ => ih _)

theorem spot_beforePages : Fixes spot (beforePages spec lib) :=
  fixes_bind spot_loadContract (fun _ => spot_waitFinished _ _)

/-- The result of a run that a stop ended. -/
def stopped (outcome : Verdict) (reason : Text) : RunResult :=
  { outcome := outcome, reason := reason, complete := false, errorCode := some reason, secondaryCode := none }

/-- A stop of the pages is the end of the run. -/
theorem run_stopped {w w₁ w' : World} {outcome : Verdict} {reason : Text} (hbefore : Gives (beforePages spec lib) w () w₁)
    (hstop : collectPages spec lib spec.maxPages none [] w₁ = (.raised (.stop outcome reason), w')) :
    run spec lib w = (.done (stopped outcome reason), w') := by
  have hphases : phases spec lib w = (.raised (.stop outcome reason), w') := by
    obtain ⟨_, w₀, hload, hwait⟩ := gives_bind.mp hbefore
    have hrest : ∀ k : Unit → Flow RunResult, (collectPages spec lib spec.maxPages none [] >>= k) w₁
        = (.raised (.stop outcome reason), w') := by
      intro k
      show Program.andThen _ k w₁ = _
      unfold Program.andThen
      rw [hstop]
    exact hload.bind_eq.trans (hwait.bind_eq.trans (hrest _))
  unfold run handle
  rw [hphases]
  rfl

end Fixed

/-! ## A run that does not say where to go on -/

/-- A log that has room for the answers before the first page, and not after it. -/
def shortLog : Spec :=
  { sampleSpec with pageSize := 1, maxPages := 2, maxLogBytes := 1048976, pageSizeSmall := by decide
                    logBytesSmall := by decide, somePages := by decide }

/-- The flow is finished, and its first page has one row of more. -/
def longFlow : List Event :=
  [openTools, poll [(ascii "flow_id", .str (ascii "F.1")), (ascii "state", .str (ascii "FINISHED"))],
    { wait := 0, took := 0, page := none
      result := some
        { isError := false
          structuredContent := some (.obj [(ascii "operation", .str (ascii "get_flow_results")),
            (ascii "status", .str (ascii "success")), (ascii "data", .arr [.obj []]),
            (ascii "pagination", .obj [(ascii "cursor", .str (ascii "v1:0")), (ascii "returned", .int 1),
              (ascii "page_size", .int 1), (ascii "truncated", .bool true), (ascii "next_cursor", .str (ascii "v1:1"))])])
          content := .arr [], metadata := .null, others := [] } }]

/-- The run up to its first page, and to its stop. -/
def longStart : World := (beforePages shortLog openLibrary (start 0 (60 * second) longFlow workingDisk)).2

def longEnd : World := (collectPages shortLog openLibrary shortLog.maxPages none [] longStart).2

theorem end_eq {α : Type} {end_ : Outcome Failure α × World} {o : Outcome Failure α} (h : end_.1 = o) :
    end_ = (o, end_.2) := by
  rw [← h]

theorem longFlow_before :
    Gives (beforePages shortLog openLibrary) (start 0 (60 * second) longFlow workingDisk) () longStart := by
  have hend : (beforePages shortLog openLibrary (start 0 (60 * second) longFlow workingDisk)).1 = .done () := by
    decide +kernel
  exact end_eq hend

theorem longFlow_stops : collectPages shortLog openLibrary shortLog.maxPages none [] longStart
    = (.raised (.stop .partially (ascii "log_budget")), longEnd) := by
  have hend : (collectPages shortLog openLibrary shortLog.maxPages none [] longStart).1
      = .raised (.stop .partially (ascii "log_budget")) := by decide +kernel
  exact end_eq hend

end FlowHost
