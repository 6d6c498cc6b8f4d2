import Mathlib
import VeloTransfer.CursorWalkProofs
import VeloTransfer.FlowHostRunProofs

/-! # Pages of rows — cursors, page sizes and the byte limit

    A page starts at the offset of its cursor, holds at most a page size of rows,
    and is the longest one of them whose canonical JSON fits the response limit.
    There are two ways to cut it: from the whole list of rows, or from a window
    of one row more than the page size.

    * `window_agrees` — both ways have the same outcome;
    * `walk_pages` — following the cursors visits every row once, in order, or
      stops at the first row that does not fit a page of its own, or where JSON
      cannot write a row.

    The size of a page is not monotone in its rows: the next cursor and the counts
    change their lengths.  What holds is that a page of a single row is no longer
    than a page that holds it (`size_alone`). -/

namespace McpCore

open CanonicalJson BoundedJson JsonDict CursorWalk
open FlowHost (Bytes isWritable allWritable fieldsWritable textOrNull size size_obj fieldSize)

/-! ## Values -/

def RESPONSE_BYTE_LIMIT : Nat := 245554

def DEFAULT_PAGE_SIZE : Nat := 50

def MAX_PAGE_SIZE : Nat := 250

def MAX_CURSOR_OFFSET : Nat := 2147483647

def MAX_CURSOR_LENGTH : Nat := 13

/-- What Python raises, as far as a handler or a caller tells it apart: the public
    errors with their details, the refusals of the observation, any other
    `Exception`, and what is no `Exception`. -/
inductive Raised where
  | invalidArgument (field reason : String) (range : Option (Nat × Nat))
  | notFound (objectType : String) (objectId : Text)
  | clientNotFound
  | clientNotUnique (candidates : Nat)
  | clientIdNotFound
  | backend (operation reason : String)
  | rowTooLarge (actualBytes limitBytes rowIndex : Nat)
  | observation
  | exception (name : String)
  | interrupt (name : String)
deriving Repr, DecidableEq

/-- A row: a JSON object. -/
structure Row where
  fields : List (Text × Json)

def Row.json (r : Row) : Json := .obj r.fields

structure ResultBase where
  operation : Text
  status : Text
  warnings : List Text

/-- A page size within its range. -/
abbrev PageSize : Type := { n : Nat // 1 ≤ n ∧ n ≤ MAX_PAGE_SIZE }

structure Pagination where
  cursor : Text
  nextCursor : Option Text
  pageSize : PageSize
  returned : Nat
  truncated : Bool

structure DataResult where
  base : ResultBase
  data : List Row
  pagination : Pagination

def Pagination.json (p : Pagination) : Json :=
  .obj [(ascii "cursor", .str p.cursor), (ascii "next_cursor", textOrNull p.nextCursor),
    (ascii "page_size", .int p.pageSize.val), (ascii "returned", .int p.returned),
    (ascii "truncated", .bool p.truncated)]

/-- `structured_result_payload`: a last page keeps the null of its next cursor. -/
def DataResult.payload (r : DataResult) : Json :=
  .obj [(ascii "operation", .str r.base.operation), (ascii "status", .str r.base.status),
    (ascii "warnings", .arr (r.base.warnings.map .str)), (ascii "data", .arr (r.data.map Row.json)),
    (ascii "pagination", r.pagination.json)]

/-- `canonical_json_bytes`: what JSON or UTF-8 cannot write is a `ValueError`. -/
def canonicalJsonBytes (v : Json) : Except Raised Bytes :=
  if isWritable v = false then .error (.exception "ValueError")
  else
    match dumps v with
    | some raw => .ok raw
    | none => .error (.exception "UnicodeEncodeError")

/-! ## Arguments -/

def cursorRange : Raised := .invalidArgument "cursor" "offset_range" (some (0, MAX_CURSOR_OFFSET))

/-- The cursor of an offset. -/
def cursorAt (offset : Nat) : Text := ascii "v1:" ++ decimal offset

/-- `encode_cursor`. -/
def encodeCursor (offset : Nat) : Except Raised Text :=
  if offset > MAX_CURSOR_OFFSET then .error cursorRange else .ok (cursorAt offset)

/-- `decode_cursor`, of any argument. -/
def decodeCursor (cursor : Json) : Except Raised Nat :=
  match cursor with
  | .null => .ok 0
  | .str s =>
      if s = [] then .ok 0
      else if s.length > MAX_CURSOR_LENGTH ∨ ¬ ascii "v1:" <+: s then
        .error (.invalidArgument "cursor" "format" none)
      else
        let digits := s.drop 3
        if digits = [] ∨ digits.all isDigit = false then .error (.invalidArgument "cursor" "format" none)
        else if digits.length > 1 ∧ digits.head? = some 48 then
          .error (.invalidArgument "cursor" "leading_zero" none)
        else if ofDigits 0 digits > MAX_CURSOR_OFFSET then .error cursorRange
        else .ok (ofDigits 0 digits)
  | _ => .error (.invalidArgument "cursor" "format" none)

/-- `normalize_page_size`, of any argument. -/
def normalizePageSize (value : Json) : Except Raised PageSize :=
  match value with
  | .null => .ok ⟨DEFAULT_PAGE_SIZE, by decide⟩
  | .int i =>
      if h : 1 ≤ i ∧ i ≤ MAX_PAGE_SIZE then
        .ok ⟨i.toNat, by
          unfold MAX_PAGE_SIZE at h ⊢
          omega⟩
      else .error (.invalidArgument "page_size" "range" (some (1, MAX_PAGE_SIZE)))
  | _ => .error (.invalidArgument "page_size" "type" none)

/-! ## Pages -/

/-- The largest count of rows whose page fits, among the counts in turn. -/
def searchPage (build : Nat → Except Raised DataResult) :
    List Nat → Option DataResult → Except Raised (Option DataResult)
  | [], best => pure best
  | count :: counts, best => do
      let current ← build count
      let raw ← canonicalJsonBytes current.payload
      searchPage build counts (if raw.length ≤ RESPONSE_BYTE_LIMIT then some current else best)

/-- The refusal of a first row that does not fit alone. -/
def refuseRow (build : Nat → Except Raised DataResult) (offset : Nat) : Except Raised DataResult := do
  let first ← build 1
  let actual ← canonicalJsonBytes first.payload
  throw (.rowTooLarge actual.length RESPONSE_BYTE_LIMIT offset)

/-- The end of both paginations, over their candidate rows. -/
def fittingPage (build : Nat → Except Raised DataResult) (offset : Nat) (candidate : List Row) :
    Except Raised DataResult :=
  if candidate = [] then build 0
  else do
    let best ← searchPage build (List.range' 1 candidate.length) none
    match best with
    | some page => pure page
    | none => refuseRow build offset

/-- A page, once it is known whether rows follow it. -/
def pageOf (base : ResultBase) (rows : List Row) (offset : Nat) (size : PageSize) (truncated : Bool) :
    Except Raised DataResult := do
  let cursor ← encodeCursor offset
  let nextCursor ← if truncated then (encodeCursor (offset + rows.length)).map some else pure none
  pure { base := base, data := rows
         pagination := { cursor := cursor, nextCursor := nextCursor, pageSize := size
                         returned := rows.length, truncated := truncated } }

/-- `_data_page`. -/
def dataPage (base : ResultBase) (rows : List Row) (offset : Nat) (size : PageSize) (total : Nat) :
    Except Raised DataResult :=
  pageOf base rows offset size (decide (offset + rows.length < total))

/-- `paginate_result`. -/
def paginateResult (base : ResultBase) (rows : List Row) (cursor pageSize : Json) :
    Except Raised DataResult := do
  let size ← normalizePageSize pageSize
  let offset ← decodeCursor cursor
  if offset > rows.length then throw (.invalidArgument "cursor" "offset_after_end" none)
  else
    let candidate := (rows.take (min rows.length (offset + size.val))).drop offset
    fittingPage (fun count => dataPage base (candidate.take count) offset size rows.length) offset candidate

/-- `paginate_window_result`. -/
def paginateWindowResult (base : ResultBase) (window : List Row) (cursor pageSize : Json) :
    Except Raised DataResult := do
  let size ← normalizePageSize pageSize
  let offset ← decodeCursor cursor
  let hasMore := decide (window.length > size.val)
  let candidate := window.take size.val
  fittingPage (fun count => pageOf base (candidate.take count) offset size
    (hasMore || decide (count < candidate.length))) offset candidate

/-! ## Both ways to cut a page agree -/

theorem searchPage_congr {build build' : Nat → Except Raised DataResult} {counts : List Nat}
    (h : ∀ count ∈ counts, build count = build' count) (best : Option DataResult) :
    searchPage build counts best = searchPage build' counts best := by
  induction counts generalizing best with
  | nil => rfl
  | cons count counts ih =>
      have hrest : ∀ c ∈ counts, build c = build' c := fun c hc => h c (List.mem_cons_of_mem _ hc)
      unfold searchPage
      rw [h count List.mem_cons_self]
      simp only [ih hrest]

/-- A page depends on the counts up to the number of candidates only. -/
theorem fittingPage_congr {build build' : Nat → Except Raised DataResult} {candidate : List Row}
    (h : ∀ count, count ≤ candidate.length → build count = build' count) (offset : Nat) :
    fittingPage build offset candidate = fittingPage build' offset candidate := by
  unfold fittingPage
  rw [h 0 (Nat.zero_le _)]
  by_cases hnone : candidate = []
  · rw [if_pos hnone, if_pos hnone]
  · have hone : 1 ≤ candidate.length := List.length_pos_iff.mpr hnone
    have hsame : ∀ count ∈ List.range' 1 candidate.length, build count = build' count := fun count hcount =>
      h count (by rw [List.mem_range'_1] at hcount; omega)
    have hsearch := searchPage_congr hsame none
    rw [if_neg hnone, if_neg hnone, hsearch]
    unfold refuseRow
    rw [h 1 hone]

/-- The rows of a page of the list start at its offset. -/
theorem candidate_eq (rows : List Row) (offset size : Nat) :
    (rows.take (min rows.length (offset + size))).drop offset = (rows.drop offset).take size := by
  rw [List.drop_take]
  rcases Nat.le_total rows.length (offset + size) with hle | hle
  · rw [Nat.min_eq_left hle, List.take_of_length_le, List.take_of_length_le]
    · rw [List.length_drop]
      omega
    · rw [List.length_drop]
  · rw [Nat.min_eq_right hle, Nat.add_sub_cancel_left]

/-- Past the window, and past the byte limit within it, rows follow exactly where
    the end of the page is before the end of the list. -/
theorem truncated_eq {rows : List Row} {offset count : Nat} (size : Nat)
    (hcount : count ≤ ((rows.drop offset).take size).length) :
    (decide (((rows.drop offset).take (size + 1)).length > size)
        || decide (count < ((rows.drop offset).take size).length))
      = decide (offset + (((rows.drop offset).take size).take count).length < rows.length) := by
  rw [List.length_take, List.length_drop] at hcount
  rw [← Bool.decide_or]
  simp only [List.length_take, List.length_drop]
  refine decide_eq_decide.mpr ?_
  omega

/-- A page of the window is the page of the list. -/
theorem paginateWindow_eq (base : ResultBase) (rows : List Row) {cursor pageSize : Json} {size : PageSize}
    {offset : Nat} (hsize : normalizePageSize pageSize = .ok size)
    (hoffset : decodeCursor cursor = .ok offset) (hend : offset ≤ rows.length) :
    paginateWindowResult base ((rows.drop offset).take (size.val + 1)) cursor pageSize
      = paginateResult base rows cursor pageSize := by
  unfold paginateWindowResult paginateResult
  rw [hsize, hoffset]
  simp only [bind, Except.bind]
  rw [if_neg (Nat.not_lt.mpr hend), candidate_eq, List.take_take, Nat.min_eq_left (Nat.le_succ _)]
  refine fittingPage_congr (fun count hcount => ?_) offset
  rw [truncated_eq size.val hcount]
  rfl

/-- **Window paging agrees with whole-list paging**, on the page and on the errors. -/
theorem window_agrees (base : ResultBase) (rows : List Row) (cursor pageSize : Json) (size : PageSize)
    (offset : Nat) (hsize : normalizePageSize pageSize = .ok size)
    (hoffset : decodeCursor cursor = .ok offset) (hend : offset ≤ rows.length) :
    paginateWindowResult base ((rows.drop offset).take (size.val + 1)) cursor pageSize
      = paginateResult base rows cursor pageSize :=
  paginateWindow_eq base rows hsize hoffset hend

/-- Fifty rows of the list, of which the window has one more. -/
theorem window_agrees_sample :
    paginateWindowResult ⟨ascii "get_flow_results", ascii "ok", []⟩
        (((List.replicate 60 (Row.mk [])).drop 3).take 51) (.str (ascii "v1:3")) .null
      = paginateResult ⟨ascii "get_flow_results", ascii "ok", []⟩ (List.replicate 60 ⟨[]⟩)
        (.str (ascii "v1:3")) .null :=
  window_agrees _ _ _ _ ⟨50, by decide⟩ 3 rfl rfl (by decide)

/-! ## What JSON can write -/

theorem writable_iff {v : Json} :
    (∃ raw, canonicalJsonBytes v = .ok raw) ↔ isWritable v = true ∧ Encodable v := by
  unfold canonicalJsonBytes
  constructor
  · rintro ⟨raw, h⟩
    split at h
    · exact absurd h nofun
    next hwritable =>
      refine ⟨eq_true_of_ne_false hwritable, encodable_iff.mpr ?_⟩
      cases hdumps : dumps v with
      | some bytes => exact ⟨bytes, rfl⟩
      | none =>
          rw [hdumps] at h
          exact absurd h nofun
  · rintro ⟨hwritable, hencodable⟩
    obtain ⟨raw, hraw⟩ := encodable_iff.mp hencodable
    rw [if_neg (by rw [hwritable]; nofun), hraw]
    exact ⟨raw, rfl⟩

theorem encodable_arr {xs : List Json} (h : ∀ x ∈ xs, Encodable x) : Encodable (.arr xs) := by
  have hitems : ∀ ys : List Json, (∀ y ∈ ys, Encodable y) → ∀ c ∈ renderItems (sortItems ys), Scalar c := by
    intro ys
    induction ys with
    | nil =>
        intro _ c hc
        rw [show c = 93 from List.mem_singleton.mp hc]
        exact scalar_of_lt (by decide)
    | cons y ys ih =>
        intro hall c hc
        obtain ⟨hy, hys⟩ := List.forall_mem_cons.mp hall
        have hc' : c ∈ 44 :: (render y.sortKeys ++ renderItems (sortItems ys)) := hc
        rw [List.mem_cons, List.mem_append] at hc'
        rcases hc' with rfl | hc' | hc'
        · exact scalar_of_lt (by decide)
        · exact hy c hc'
        · exact ih hys c hc'
  cases xs with
  | nil =>
      have hall : ∀ c ∈ render (.arr []), c < 127 := by decide
      exact fun c hc => scalar_of_lt (hall c hc)
  | cons x xs =>
      intro c hc
      -- the items are written as `renderItems` writes them, behind another bracket
      have hc' : c ∈ 91 :: (render x.sortKeys ++ renderItems (sortItems xs)) := hc
      rcases List.mem_cons.mp hc' with rfl | hc'
      · exact scalar_of_lt (by decide)
      · exact hitems (x :: xs) h c (List.mem_cons_of_mem _ hc')

/-- The base of a result, as a document of its own. -/
def ResultBase.json (b : ResultBase) : Json :=
  .obj [(ascii "operation", .str b.operation), (ascii "status", .str b.status),
    (ascii "warnings", .arr (b.warnings.map .str))]

/-- A value that `canonical_json_bytes` refuses. -/
def Unwritable (v : Json) : Prop := ∃ error, canonicalJsonBytes v = .error error

theorem writable_of_not {v : Json} (h : ¬ Unwritable v) : isWritable v = true ∧ Encodable v := by
  refine writable_iff.mp ?_
  cases hraw : canonicalJsonBytes v with
  | ok raw => exact ⟨raw, rfl⟩
  | error e => exact absurd ⟨e, hraw⟩ h

theorem allWritable_iff {xs : List Json} : allWritable xs = true ↔ ∀ x ∈ xs, isWritable x = true := by
  induction xs with
  | nil => exact ⟨fun _ _ hx => absurd hx List.not_mem_nil, fun _ => rfl⟩
  | cons x xs ih =>
      show (isWritable x && allWritable xs) = true ↔ _
      rw [Bool.and_eq_true, ih, List.forall_mem_cons]

/-- **A page is written where its base and its rows are.** -/
theorem payload_writable {r : DataResult} (hbase : ¬ Unwritable r.base.json)
    (hcursor : isPlainText r.pagination.cursor = true)
    (hnext : ∀ c, r.pagination.nextCursor = some c → isPlainText c = true)
    (hrows : ∀ row ∈ r.data, ¬ Unwritable row.json) : ¬ Unwritable r.payload := by
  have hdata : ∀ v ∈ r.data.map Row.json, isWritable v = true ∧ Encodable v := by
    intro v hv
    obtain ⟨row, hrow, rfl⟩ := List.mem_map.mp hv
    exact writable_of_not (hrows row hrow)
  have hfields := (writable_of_not hbase).2
  have hpagination : Encodable r.pagination.json := by
    refine encodable_obj rfl ⟨encodable_str hcursor, ?_, encodable_int _, encodable_int _,
      encodable_bool _, trivial⟩
    show Encodable (textOrNull r.pagination.nextCursor)
    cases h : r.pagination.nextCursor with
    | none => exact encodable_null
    | some c => exact encodable_str (hnext c h)
  have hencodable : Encodable r.payload :=
    encodable_obj rfl ⟨hfields.field (f := (ascii "operation", _)) (by simp),
      hfields.field (f := (ascii "status", _)) (by simp), hfields.field (f := (ascii "warnings", _)) (by simp),
      encodable_arr (fun v hv => (hdata v hv).2), hpagination, trivial⟩
  have hwritable : isWritable r.payload = true := by
    have hwarnings : allWritable (r.base.warnings.map .str) = true := by
      refine allWritable_iff.mpr (fun v hv => ?_)
      obtain ⟨s, -, rfl⟩ := List.mem_map.mp hv
      rfl
    have hall : allWritable (r.data.map Row.json) = true := allWritable_iff.mpr (fun v hv => (hdata v hv).1)
    have hnull : isWritable (textOrNull r.pagination.nextCursor) = true := by
      cases r.pagination.nextCursor with
      | none => rfl
      | some c => rfl
    simp [DataResult.payload, Pagination.json, isWritable, fieldsWritable, hwarnings, hall, hnull]
  obtain ⟨raw, hraw⟩ := writable_iff.mpr ⟨hwritable, hencodable⟩
  rintro ⟨e, he⟩
  exact absurd (hraw.symm.trans he) nofun

theorem encodable_items {xs : List Json} (h : Encodable (.arr xs)) : ∀ x ∈ xs, Encodable x := by
  have hitems : ∀ ys : List Json, (∀ c ∈ renderItems (sortItems ys), Scalar c) → ∀ y ∈ ys, Encodable y := by
    intro ys
    induction ys with
    | nil => exact fun _ y hy => absurd hy List.not_mem_nil
    | cons y ys ih =>
        intro hall
        have hall' : ∀ c ∈ 44 :: (render y.sortKeys ++ renderItems (sortItems ys)), Scalar c := hall
        refine List.forall_mem_cons.mpr ⟨fun c hc => ?_, ih (fun c hc => ?_)⟩
        · exact hall' c (List.mem_cons_of_mem _ (List.mem_append_left _ hc))
        · exact hall' c (List.mem_cons_of_mem _ (List.mem_append_right _ hc))
  cases xs with
  | nil => exact fun x hx => absurd hx List.not_mem_nil
  | cons x xs =>
      have hall : ∀ c ∈ 91 :: (render x.sortKeys ++ renderItems (sortItems xs)), Scalar c := h
      refine List.forall_mem_cons.mpr ⟨fun c hc => ?_, hitems xs (fun c hc => ?_)⟩
      · exact hall c (List.mem_cons_of_mem _ (List.mem_append_left _ hc))
      · exact hall c (List.mem_cons_of_mem _ (List.mem_append_right _ hc))

/-- Where a page is written, its base and its rows are. -/
theorem parts_writable {r : DataResult} (h : ¬ Unwritable r.payload) :
    ¬ Unwritable r.base.json ∧ ∀ row ∈ r.data, ¬ Unwritable row.json := by
  obtain ⟨hwritable, hencodable⟩ := writable_of_not h
  have hfields : allWritable (r.data.map Row.json) = true ∧ allWritable (r.base.warnings.map .str) = true := by
    simp [DataResult.payload, isWritable, fieldsWritable] at hwritable
    exact ⟨hwritable.2.1, hwritable.1⟩
  have hitems := encodable_items (hencodable.field (f := (ascii "data", .arr (r.data.map Row.json)))
    (by simp))
  constructor
  · rintro ⟨e, he⟩
    have hbase : isWritable r.base.json = true := by
      simp [ResultBase.json, isWritable, fieldsWritable, hfields.2]
    have hencoded : Encodable r.base.json := encodable_obj rfl
      ⟨hencodable.field (f := (ascii "operation", _)) (by simp),
        hencodable.field (f := (ascii "status", _)) (by simp),
        hencodable.field (f := (ascii "warnings", _)) (by simp), trivial⟩
    obtain ⟨raw, hraw⟩ := writable_iff.mpr ⟨hbase, hencoded⟩
    exact absurd (hraw.symm.trans he) nofun
  · rintro row hrow ⟨e, he⟩
    have hmem : row.json ∈ r.data.map Row.json := List.mem_map_of_mem hrow
    obtain ⟨raw, hraw⟩ := writable_iff.mpr ⟨allWritable_iff.mp hfields.1 _ hmem, hitems _ hmem⟩
    exact absurd (hraw.symm.trans he) nofun

/-! ## The size of a page -/

/-- The digits of a number. -/
def digits (n : Nat) : Nat := (decimal n).length

theorem ofDigits_lt (ds : Text) (hd : ∀ c ∈ ds, isDigit c = true) (n k : Nat) (hn : n < k) :
    ofDigits n ds < k * 10 ^ ds.length := by
  induction ds generalizing n k with
  | nil => simpa [ofDigits] using hn
  | cons d ds ih =>
      obtain ⟨hd0, hds⟩ := List.forall_mem_cons.mp hd
      have hvalue : digitValue d < 10 := by
        unfold isDigit at hd0
        unfold digitValue
        simp only [Bool.and_eq_true, decide_eq_true_eq] at hd0
        omega
      have hstep := ih hds (n * 10 + digitValue d) (k * 10) (by omega)
      rw [List.length_cons, Nat.pow_succ']
      calc ofDigits n (d :: ds) = ofDigits (n * 10 + digitValue d) ds := rfl
        _ < k * 10 * 10 ^ ds.length := hstep
        _ = k * (10 * 10 ^ ds.length) := Nat.mul_assoc _ _ _

theorem lt_pow_digits (n : Nat) : n < 10 ^ digits n := by
  have h := ofDigits_lt (decimal n) (decimal_digits n) 0 1 Nat.one_pos
  rwa [ofDigits_decimal, Nat.one_mul] at h

theorem digits_pos (n : Nat) : 0 < digits n := by
  obtain ⟨c, cs, h, -⟩ := decimal_cons n
  unfold digits
  rw [h]
  exact Nat.succ_pos _

theorem digits_mono {n m : Nat} (h : n ≤ m) : digits n ≤ digits m :=
  decimal_length (digits_pos m) (Nat.lt_of_le_of_lt h (lt_pow_digits m))

theorem digits_le_self {n : Nat} (h : 0 < n) : digits n ≤ n :=
  decimal_length h (Nat.lt_pow_self (by decide))

/-- A sum has no more digits than its parts together. -/
theorem digits_add (n m : Nat) : digits (n + m) ≤ digits n + digits m := by
  have hn := lt_pow_digits n
  have hm := lt_pow_digits m
  obtain ⟨a, ha⟩ : ∃ a, digits n = a + 1 := ⟨digits n - 1, by have := digits_pos n; omega⟩
  obtain ⟨b, hb⟩ : ∃ b, digits m = b + 1 := ⟨digits m - 1, by have := digits_pos m; omega⟩
  rw [ha, Nat.pow_succ'] at hn
  rw [hb, Nat.pow_succ'] at hm
  refine decimal_length (by omega) ?_
  rw [ha, hb, show a + 1 + (b + 1) = (a + b) + 1 + 1 by omega, Nat.pow_succ', Nat.pow_succ', Nat.pow_add]
  have h1 : 1 ≤ 10 ^ a := Nat.one_le_pow _ _ (by decide)
  have h2 : 1 ≤ 10 ^ b := Nat.one_le_pow _ _ (by decide)
  generalize 10 ^ a = x at *
  generalize 10 ^ b = y at *
  have hx : x ≤ x * y := Nat.le_mul_of_pos_right x h2
  have hy : y ≤ x * y := Nat.le_mul_of_pos_left y h1
  omega

theorem size_items (xs : List Json) : units (renderItems xs) = 1 + (xs.map (fun x => 1 + size x)).sum := by
  induction xs with
  | nil => rfl
  | cons x xs ih =>
      show units (44 :: (render x ++ renderItems xs)) = _
      rw [units_cons, units_append, ih, List.map_cons, List.sum_cons]
      show 1 + (size x + (1 + _)) = 1 + (1 + size x + _)
      omega

theorem size_arr (x : Json) (xs : List Json) :
    size (.arr (x :: xs)) = 2 + size x + (xs.map (fun x => 1 + size x)).sum := by
  show units (91 :: (render x ++ renderItems xs)) = _
  rw [units_cons, units_append, size_items]
  show 1 + (size x + (1 + _)) = 2 + size x + _
  omega

theorem sortItems_eq_map (xs : List Json) : sortItems xs = xs.map Json.sortKeys := by
  induction xs with
  | nil => rfl
  | cons x xs ih => exact congrArg (List.cons _) ih

/-- The bytes of a row on a page. -/
def rowSize (r : Row) : Nat := size r.json.sortKeys

theorem two_le_rowSize (r : Row) : 2 ≤ rowSize r := by
  show 2 ≤ size (.obj (sortFields r.fields))
  cases sortFields r.fields with
  | nil => exact Nat.le_refl 2
  | cons f fs =>
      rw [size_obj]
      omega

/-- The bytes of the rows on a page. -/
def dataSize (rows : List Row) : Nat := size (.arr (sortItems (rows.map Row.json)))

theorem dataSize_cons (r : Row) (rows : List Row) :
    dataSize (r :: rows) = 2 + rowSize r + (rows.map (fun r => 1 + rowSize r)).sum := by
  unfold dataSize
  rw [sortItems_eq_map, List.map_cons, List.map_cons, size_arr, List.map_map, List.map_map]
  rfl

theorem dataSize_single (r : Row) : dataSize [r] = 2 + rowSize r := dataSize_cons r []

theorem others_le (rows : List Row) : 3 * rows.length ≤ (rows.map (fun r => 1 + rowSize r)).sum := by
  induction rows with
  | nil => exact Nat.le_refl 0
  | cons r rows ih =>
      have hrow := two_le_rowSize r
      rw [List.map_cons, List.sum_cons, List.length_cons]
      omega

/-- Beside one of its rows, a page holds at least three bytes for each other row. -/
theorem dataSize_member {r : Row} {rows : List Row} (h : r ∈ rows) :
    dataSize [r] + 3 * (rows.length - 1) ≤ dataSize rows := by
  cases rows with
  | nil => exact absurd h List.not_mem_nil
  | cons q rows =>
      rw [dataSize_single, dataSize_cons, List.length_cons, Nat.add_sub_cancel]
      rcases List.mem_cons.mp h with rfl | h
      · have hothers := others_le rows
        omega
      · obtain ⟨front, back, rfl⟩ := List.append_of_mem h
        have hfront := others_le front
        have hback := others_le back
        have hq := two_le_rowSize q
        rw [List.map_append, List.sum_append, List.map_cons, List.sum_cons, List.length_append,
          List.length_cons]
        omega

theorem printable_cursorAt (offset : Nat) : ∀ c ∈ cursorAt offset, JsonLine.Printable c := by
  intro c hc
  rcases List.mem_append.mp hc with hc | hc
  · have hall : ∀ c ∈ ascii "v1:", 32 ≤ c ∧ c < 127 ∧ c ≠ 34 ∧ c ≠ 92 := by decide
    exact hall c hc
  · have hdigit := decimal_digits offset c hc
    unfold isDigit at hdigit
    simp only [Bool.and_eq_true, decide_eq_true_eq] at hdigit
    unfold JsonLine.Printable
    omega

theorem plain_cursorAt (offset : Nat) : isPlainText (cursorAt offset) = true := by
  unfold isPlainText
  rw [List.all_eq_true]
  intro c hc
  exact decide_eq_true (printable_cursorAt offset c hc).2.1

theorem size_cursorAt (offset : Nat) : size (.str (cursorAt offset)) = 5 + digits offset := by
  rw [FlowHost.size_str, textSize_printable (printable_cursorAt offset)]
  unfold cursorAt digits
  rw [List.length_append, show (ascii "v1:").length = 3 by decide]
  omega

theorem size_count (n : Nat) : size (.int n) = digits n := by
  show units (renderInt n) = _
  rw [units_renderInt]
  unfold renderInt
  rw [if_neg (Int.not_lt.mpr (Int.natCast_nonneg n)), Int.natAbs_natCast]
  rfl

/-- A page, with the cursors of its offsets. -/
def pageAt (base : ResultBase) (rows : List Row) (offset : Nat) (size : PageSize) (truncated : Bool) :
    DataResult :=
  { base := base, data := rows
    pagination := { cursor := cursorAt offset
                    nextCursor := if truncated then some (cursorAt (offset + rows.length)) else none
                    pageSize := size, returned := rows.length, truncated := truncated } }

/-- The bytes of a page. -/
def pageBytes (r : DataResult) : Nat := size r.payload.sortKeys

theorem bytes_length {v : Json} {raw : Bytes} (h : canonicalJsonBytes v = .ok raw) :
    raw.length = size v.sortKeys := by
  unfold canonicalJsonBytes at h
  split at h
  · exact absurd h nofun
  · cases hdumps : dumps v with
    | none =>
        rw [hdumps] at h
        exact absurd h nofun
    | some bytes =>
        rw [hdumps] at h
        obtain rfl := Except.ok.inj h
        unfold dumps encodeUtf8 at hdumps
        split at hdumps
        · obtain rfl := Option.some.inj hdumps
          exact List.length_map _
        · exact absurd hdumps nofun

/-- What a page takes besides its rows, its cursors and their count. -/
def restBytes (base : ResultBase) (pageSize : PageSize) (truncated : Bool) : Nat :=
  size (.str base.operation) + size (.str base.status) + size (.arr (sortItems (base.warnings.map .str)))
    + size (.int pageSize.val) + size (.bool truncated) + 131

theorem pageBytes_eq (base : ResultBase) (rows : List Row) (offset : Nat) (pageSize : PageSize)
    (truncated : Bool) :
    pageBytes (pageAt base rows offset pageSize truncated) = restBytes base pageSize truncated
      + dataSize rows + digits offset + digits rows.length
      + (if truncated then 1 + digits (offset + rows.length) else 0) := by
  have hsorted : (pageAt base rows offset pageSize truncated).payload.sortKeys =
      .obj [(ascii "data", .arr (sortItems (rows.map Row.json))),
        (ascii "operation", .str base.operation),
        (ascii "pagination", (pageAt base rows offset pageSize truncated).pagination.json.sortKeys),
        (ascii "status", .str base.status),
        (ascii "warnings", .arr (sortItems (base.warnings.map .str)))] := rfl
  have hpagination : (pageAt base rows offset pageSize truncated).pagination.json.sortKeys =
      .obj [(ascii "cursor", .str (cursorAt offset)),
        (ascii "next_cursor", (textOrNull (if truncated then some (cursorAt (offset + rows.length))
          else none)).sortKeys), (ascii "page_size", .int pageSize.val), (ascii "returned", .int rows.length),
        (ascii "truncated", .bool truncated)] := rfl
  unfold pageBytes restBytes dataSize
  rw [hsorted, hpagination, size_obj, fieldSize]
  have hnext : size (textOrNull (if truncated then some (cursorAt (offset + rows.length)) else none)).sortKeys
      = 4 + (if truncated then 1 + digits (offset + rows.length) else 0) := by
    cases truncated with
    | false => rfl
    | true =>
        have hcursor := size_cursorAt (offset + rows.length)
        show size (.str (cursorAt (offset + rows.length))) = 4 + (1 + digits (offset + rows.length))
        omega
  simp only [List.map_cons, List.map_nil, List.sum_cons, List.sum_nil, fieldSize, size_obj, size_cursorAt,
    size_count, hnext]
  have h1 : textSize (ascii "data") = 4 := by decide
  have h2 : textSize (ascii "operation") = 9 := by decide
  have h3 : textSize (ascii "pagination") = 10 := by decide
  have h4 : textSize (ascii "status") = 6 := by decide
  have h5 : textSize (ascii "warnings") = 8 := by decide
  have h6 : textSize (ascii "cursor") = 6 := by decide
  have h7 : textSize (ascii "next_cursor") = 11 := by decide
  have h8 : textSize (ascii "page_size") = 9 := by decide
  have h9 : textSize (ascii "returned") = 8 := by decide
  have h10 : textSize (ascii "truncated") = 9 := by decide
  omega

/-- **A page of a single row is no longer than a page that holds it.** -/
theorem size_alone (base : ResultBase) {rows : List Row} (offset : Nat) (pageSize : PageSize) {j : Nat}
    {r : Row} (hr : rows[j]? = some r) :
    pageBytes (pageAt base [r] (offset + j) pageSize true) ≤ pageBytes (pageAt base rows offset pageSize true) := by
  have hj : j < rows.length := (List.getElem?_eq_some_iff.mp hr).1
  have hdata := dataSize_member (List.mem_of_getElem? hr)
  -- a later offset has a digit more for each row before it at most
  have hoffset : digits (offset + j) ≤ digits offset + j := by
    rcases Nat.eq_zero_or_pos j with rfl | hpos
    · exact Nat.le_refl _
    · have hsum := digits_add offset j
      have hself := digits_le_self hpos
      omega
  have hnext : digits (offset + j + 1) ≤ digits (offset + rows.length) := digits_mono (by omega)
  have hone : digits 1 ≤ digits rows.length := digits_mono (by omega)
  rw [pageBytes_eq, pageBytes_eq, if_pos rfl, if_pos rfl, List.length_singleton]
  omega

/-! ## One page -/

theorem encodeCursor_of {offset : Nat} (h : offset ≤ MAX_CURSOR_OFFSET) :
    encodeCursor offset = .ok (cursorAt offset) :=
  if_neg (Nat.not_lt.mpr h)

theorem decodeCursor_of {offset : Nat} (h : offset ≤ MAX_CURSOR_OFFSET) :
    decodeCursor (.str (cursorAt offset)) = .ok offset := by
  have hlength : (cursorAt offset).length ≤ MAX_CURSOR_LENGTH := by
    have hdigits : (decimal offset).length ≤ 10 :=
      decimal_length (by decide) (Nat.lt_of_le_of_lt h (by decide))
    unfold cursorAt MAX_CURSOR_LENGTH
    rw [List.length_append, show (ascii "v1:").length = 3 by decide]
    omega
  have hdrop : (cursorAt offset).drop 3 = decimal offset := rfl
  obtain ⟨c, cs, hcons, -, hzero⟩ := decimal_cons offset
  have hall : (decimal offset).all isDigit = true := List.all_eq_true.mpr (decimal_digits offset)
  have hhead : ¬ ((decimal offset).length > 1 ∧ (decimal offset).head? = some 48) := by
    rintro ⟨hlong, hfirst⟩
    rw [hcons] at hlong hfirst
    rw [hzero (Option.some.inj hfirst)] at hlong
    exact absurd hlong (Nat.lt_irrefl 1)
  unfold decodeCursor
  dsimp only
  rw [if_neg (by unfold cursorAt; exact nofun), if_neg, hdrop]
  · rw [if_neg, if_neg hhead, ofDigits_decimal, if_neg (Nat.not_lt.mpr h)]
    rintro (hnil | hbad)
    · exact absurd (hcons.symm.trans hnil) nofun
    · exact absurd (hall.symm.trans hbad) nofun
  · rintro (hlong | hprefix)
    · omega
    · exact hprefix (List.prefix_append _ _)

theorem normalizePageSize_of (size : PageSize) : normalizePageSize (.int size.val) = .ok size := by
  have hrange : 1 ≤ (size.val : Int) ∧ (size.val : Int) ≤ MAX_PAGE_SIZE :=
    ⟨by exact_mod_cast size.property.1, by exact_mod_cast size.property.2⟩
  exact dif_pos hrange

theorem pageOf_ok (base : ResultBase) (rows : List Row) {offset : Nat} (size : PageSize) (truncated : Bool)
    (hoffset : offset ≤ MAX_CURSOR_OFFSET)
    (hnext : truncated = true → offset + rows.length ≤ MAX_CURSOR_OFFSET) :
    pageOf base rows offset size truncated = .ok (pageAt base rows offset size truncated) := by
  unfold pageOf
  rw [encodeCursor_of hoffset]
  cases truncated with
  | false => rfl
  | true =>
      simp only [bind, Except.bind, if_true]
      rw [encodeCursor_of (hnext rfl)]
      rfl

/-- What the search makes of its pages: an error of the builder or the encoder, the
    largest page that fits, or none. -/
theorem searchPage_cases {build : Nat → Except Raised DataResult} {page : Nat → DataResult}
    {Refuses : Raised → Prop} {counts : List Nat}
    (h : ∀ count ∈ counts, build count = .ok (page count) ∨ ∃ e, build count = .error e ∧ Refuses e)
    (best : Option DataResult) :
    (∃ e, searchPage build counts best = .error e ∧
      (Refuses e ∨ ∃ count ∈ counts, canonicalJsonBytes (page count).payload = .error e)) ∨
    (∃ count ∈ counts, ∃ raw, build count = .ok (page count) ∧
      canonicalJsonBytes (page count).payload = .ok raw ∧
      raw.length ≤ RESPONSE_BYTE_LIMIT ∧ searchPage build counts best = .ok (some (page count))) ∨
    ((∀ count ∈ counts, build count = .ok (page count) ∧ ∃ raw,
      canonicalJsonBytes (page count).payload = .ok raw ∧ RESPONSE_BYTE_LIMIT < raw.length) ∧
      searchPage build counts best = .ok best) := by
  induction counts generalizing best with
  | nil => exact .inr (.inr ⟨fun _ hc => absurd hc List.not_mem_nil, rfl⟩)
  | cons count counts ih =>
      obtain ⟨hhead, hrest⟩ := List.forall_mem_cons.mp h
      unfold searchPage
      rcases hhead with hhead | ⟨e, hhead, he⟩
      · rw [hhead]
        simp only [bind, Except.bind]
        cases hraw : canonicalJsonBytes (page count).payload with
        | error e => exact .inl ⟨e, rfl, .inr ⟨count, List.mem_cons_self, hraw⟩⟩
        | ok raw =>
            rcases ih hrest (if raw.length ≤ RESPONSE_BYTE_LIMIT then some (page count) else best) with
              ⟨e, hsearch, hcause⟩ | ⟨c, hc, raw', hbuild, hraw', hfits, hsearch⟩ | ⟨hall, hsearch⟩
            · refine .inl ⟨e, hsearch, hcause.imp_right ?_⟩
              rintro ⟨c, hc, he⟩
              exact ⟨c, List.mem_cons_of_mem _ hc, he⟩
            · exact .inr (.inl ⟨c, List.mem_cons_of_mem _ hc, raw', hbuild, hraw', hfits, hsearch⟩)
            · by_cases hfits : raw.length ≤ RESPONSE_BYTE_LIMIT
              · dsimp only
                rw [if_pos hfits] at hsearch ⊢
                exact .inr (.inl ⟨count, List.mem_cons_self, raw, hhead, hraw, hfits, hsearch⟩)
              · dsimp only
                rw [if_neg hfits] at hsearch ⊢
                refine .inr (.inr ⟨List.forall_mem_cons.mpr ⟨⟨hhead, raw, hraw, ?_⟩, hall⟩, hsearch⟩)
                exact Nat.lt_of_not_le hfits
      · rw [hhead]
        exact .inl ⟨e, rfl, .inl he⟩

/-- The row at an index does not fit a page of its own, which takes `actual` bytes. -/
def TooLarge (base : ResultBase) (rows : List Row) (size : PageSize) (index actual : Nat) : Prop :=
  ∃ row page raw, rows[index]? = some row ∧ dataPage base [row] index size rows.length = .ok page ∧
    canonicalJsonBytes page.payload = .ok raw ∧ raw.length = actual ∧ RESPONSE_BYTE_LIMIT < actual

/-- The row at an index fits a page of its own. -/
def FitsAlone (base : ResultBase) (rows : List Row) (size : PageSize) (index : Nat) : Prop :=
  ∃ row page raw, rows[index]? = some row ∧ dataPage base [row] index size rows.length = .ok page ∧
    canonicalJsonBytes page.payload = .ok raw ∧ raw.length ≤ RESPONSE_BYTE_LIMIT

/-- JSON cannot write the base, or a row among those that a page could hold. -/
def Obstructed (base : ResultBase) (rows : List Row) (size : PageSize) (offset : Nat) : Prop :=
  Unwritable base.json ∨ ∃ row ∈ (rows.drop offset).take size.val, Unwritable row.json

/-- What the encoder raises. -/
def IsEncoding (e : Raised) : Prop :=
  e = .exception "ValueError" ∨ e = .exception "UnicodeEncodeError"

theorem isEncoding_of {v : Json} {e : Raised} (h : canonicalJsonBytes v = .error e) : IsEncoding e := by
  unfold canonicalJsonBytes at h
  split at h
  · exact .inl (Except.error.inj h).symm
  · split at h
    · exact absurd h nofun
    · exact .inr (Except.error.inj h).symm

section Page

variable {base : ResultBase} {rows : List Row} {size : PageSize} {offset : Nat}

/-- The page of the first so many rows from an offset on. -/
def front (base : ResultBase) (rows : List Row) (size : PageSize) (offset count : Nat) : DataResult :=
  pageAt base ((rows.drop offset).take count) offset size (decide (offset + count < rows.length))

theorem front_length (count : Nat) (h : offset + count ≤ rows.length) :
    ((rows.drop offset).take count).length = count := by
  rw [List.length_take, List.length_drop]
  omega

theorem dataPage_front (hoffset : offset ≤ MAX_CURSOR_OFFSET) (count : Nat)
    (h : offset + count ≤ rows.length)
    (hnext : offset + count < rows.length → offset + count ≤ MAX_CURSOR_OFFSET) :
    dataPage base ((rows.drop offset).take count) offset size rows.length
      = .ok (front base rows size offset count) := by
  unfold dataPage front
  rw [front_length count h]
  refine pageOf_ok base _ size _ hoffset (fun hmore => ?_)
  rw [front_length count h]
  exact hnext (of_decide_eq_true hmore)

/-- The next page would have no cursor. -/
theorem dataPage_range (hoffset : offset ≤ MAX_CURSOR_OFFSET) (count : Nat)
    (hmore : offset + count < rows.length) (hover : MAX_CURSOR_OFFSET < offset + count) :
    dataPage base ((rows.drop offset).take count) offset size rows.length = .error cursorRange := by
  unfold dataPage pageOf
  rw [front_length count (Nat.le_of_lt hmore), encodeCursor_of hoffset, decide_eq_true hmore]
  simp only [bind, Except.bind, if_true]
  unfold encodeCursor
  rw [if_pos hover]
  rfl

theorem obstructed_of {count : Nat} (hcount : count ≤ size.val) {e : Raised}
    (h : canonicalJsonBytes (front base rows size offset count).payload = .error e) :
    Obstructed base rows size offset := by
  by_contra hnot
  unfold Obstructed at hnot
  rw [not_or] at hnot
  refine payload_writable (r := front base rows size offset count) hnot.1 (plain_cursorAt offset) ?_ ?_ ⟨e, h⟩
  · intro c hc
    show isPlainText c = true
    unfold front pageAt at hc
    dsimp only at hc
    split at hc
    · obtain rfl := Option.some.inj hc
      exact plain_cursorAt _
    · exact absurd hc nofun
  · intro row hrow hbad
    have hmem : row ∈ (rows.drop offset).take count := hrow
    have htake : (rows.drop offset).take count <+: (rows.drop offset).take size.val :=
      List.take_prefix_take_left hcount
    exact hnot.2 ⟨row, htake.subset hmem, hbad⟩

/-- **One page** of rows that are left: a front part of them that fits, the error
    of the encoder, the refusal of the first of them, or an end without a cursor. -/
theorem paginateResult_cases (hstart : offset ≤ MAX_CURSOR_OFFSET) (hoffset : offset < rows.length) :
    (∃ count raw, 1 ≤ count ∧ offset + count ≤ rows.length ∧
      (offset + count < rows.length → offset + count ≤ MAX_CURSOR_OFFSET) ∧
      paginateResult base rows (.str (cursorAt offset)) (.int size.val)
        = .ok (front base rows size offset count) ∧
      canonicalJsonBytes (front base rows size offset count).payload = .ok raw ∧
      raw.length ≤ RESPONSE_BYTE_LIMIT) ∨
    (∃ e, paginateResult base rows (.str (cursorAt offset)) (.int size.val) = .error e ∧
      ((e = cursorRange ∧ MAX_CURSOR_OFFSET + 1 < rows.length) ∨
        (IsEncoding e ∧ Obstructed base rows size offset))) ∨
    (∃ actual, paginateResult base rows (.str (cursorAt offset)) (.int size.val)
        = .error (.rowTooLarge actual RESPONSE_BYTE_LIMIT offset) ∧
      TooLarge base rows size offset actual) := by
  have hone := size.property.1
  have hcandidate : ((rows.drop offset).take size.val).length = min size.val (rows.length - offset) := by
    rw [List.length_take, List.length_drop]
  have hsome : ¬ (rows.drop offset).take size.val = [] := by
    intro hnil
    rw [hnil, List.length_nil] at hcandidate
    omega
  -- the page of a count of candidates is the front page of that count
  have hbuild : ∀ count ∈ List.range' 1 ((rows.drop offset).take size.val).length,
      dataPage base (((rows.drop offset).take size.val).take count) offset size rows.length
          = .ok (front base rows size offset count) ∨
        ∃ e, dataPage base (((rows.drop offset).take size.val).take count) offset size rows.length
          = .error e ∧ (e = cursorRange ∧ MAX_CURSOR_OFFSET + 1 < rows.length) := by
    intro count hcount
    rw [List.mem_range'_1, hcandidate] at hcount
    rw [List.take_take, Nat.min_eq_left (by omega)]
    by_cases hover : offset + count < rows.length ∧ MAX_CURSOR_OFFSET < offset + count
    · exact .inr ⟨cursorRange, dataPage_range hstart count hover.1 hover.2, rfl, by omega⟩
    · exact .inl (dataPage_front hstart count (by omega) (fun hmore => by omega))
  have hrun : paginateResult base rows (.str (cursorAt offset)) (.int size.val) = fittingPage
      (fun count => dataPage base (((rows.drop offset).take size.val).take count) offset size rows.length)
      offset ((rows.drop offset).take size.val) := by
    unfold paginateResult
    rw [normalizePageSize_of, decodeCursor_of hstart]
    simp only [bind, Except.bind]
    rw [if_neg (by omega), candidate_eq]
  rw [hrun]
  unfold fittingPage
  rw [if_neg hsome]
  simp only [bind, Except.bind]
  rcases searchPage_cases hbuild none with ⟨e, hsearch, hcause⟩ |
    ⟨count, hcount, raw, hpage, hraw, hfits, hsearch⟩ | ⟨hall, hsearch⟩
  · rw [hsearch]
    refine .inr (.inl ⟨e, rfl, hcause.imp_right ?_⟩)
    rintro ⟨count, hcount, he⟩
    rw [List.mem_range'_1, hcandidate] at hcount
    exact ⟨isEncoding_of he, obstructed_of (by omega) he⟩
  · rw [List.mem_range'_1, hcandidate] at hcount
    rw [hsearch]
    refine .inl ⟨count, raw, hcount.1, by omega, fun hmore => ?_, rfl, hraw, hfits⟩
    by_contra hover
    rw [List.take_take, Nat.min_eq_left (by omega),
      dataPage_range hstart count hmore (Nat.lt_of_not_le hover)] at hpage
    exact absurd hpage nofun
  · have hfirst : 1 ∈ List.range' 1 ((rows.drop offset).take size.val).length := by
      rw [List.mem_range'_1, hcandidate]
      omega
    obtain ⟨hpage, raw, hraw, hlarge⟩ := hall 1 hfirst
    rw [hsearch]
    refine .inr (.inr ⟨raw.length, ?_, ?_⟩)
    · show refuseRow _ offset = _
      unfold refuseRow
      simp only [bind, Except.bind, hpage, hraw]
      rfl
    · have hrow : (rows.drop offset).take 1 = [rows[offset]] := by
        rw [List.drop_eq_getElem_cons hoffset]
        rfl
      rw [List.take_take, Nat.min_eq_left hone, hrow] at hpage
      exact ⟨rows[offset], front base rows size offset 1, raw, List.getElem?_eq_getElem hoffset, hpage, hraw,
        rfl, hlarge⟩

/-- Each row of a page that others follow fits a page of its own. -/
theorem fitsAlone_of_front {count : Nat} {raw : Bytes} (hmore : offset + count < rows.length)
    (hnext : offset + count ≤ MAX_CURSOR_OFFSET)
    (hraw : canonicalJsonBytes (front base rows size offset count).payload = .ok raw)
    (hfits : raw.length ≤ RESPONSE_BYTE_LIMIT) {j : Nat} (hj : j < count) :
    FitsAlone base rows size (offset + j) := by
  have hindex : offset + j < rows.length := by omega
  have hrow : ((rows.drop offset).take count)[j]? = some rows[offset + j] := by
    rw [List.getElem?_take_of_lt hj, List.getElem?_drop, List.getElem?_eq_getElem hindex]
  have htruncated : decide (offset + count < rows.length) = true := decide_eq_true hmore
  obtain ⟨hbase, hrows⟩ := parts_writable (r := front base rows size offset count)
    (fun ⟨e, he⟩ => absurd (hraw.symm.trans he) nofun)
  -- the page of the row alone is a page that others follow, too
  have halone : dataPage base [rows[offset + j]] (offset + j) size rows.length
      = .ok (pageAt base [rows[offset + j]] (offset + j) size true) := by
    unfold dataPage
    rw [List.length_singleton, decide_eq_true (by omega : offset + j + 1 < rows.length)]
    refine pageOf_ok base _ size true (by omega) (fun _ => ?_)
    rw [List.length_singleton]
    omega
  have hwritable : ¬ Unwritable (pageAt base [rows[offset + j]] (offset + j) size true).payload := by
    refine payload_writable hbase (plain_cursorAt _) ?_ ?_
    · intro c hc
      obtain rfl := Option.some.inj hc
      exact plain_cursorAt _
    · intro row hmem
      obtain rfl := List.mem_singleton.mp hmem
      exact hrows _ (List.mem_of_getElem? hrow)
  obtain ⟨bytes, hbytes⟩ := writable_iff.mpr (writable_of_not hwritable)
  refine ⟨rows[offset + j], _, bytes, List.getElem?_eq_getElem hindex, halone, hbytes, ?_⟩
  have hsize := size_alone base offset size hrow
  unfold front at hraw
  rw [htruncated] at hraw
  rw [bytes_length hraw] at hfits
  rw [bytes_length hbytes]
  exact Nat.le_trans hsize hfits

theorem front_next (count : Nat) (h : offset + count ≤ rows.length) :
    (front base rows size offset count).pagination.nextCursor
      = if offset + count < rows.length then some (cursorAt (offset + count)) else none := by
  unfold front pageAt
  simp only [front_length count h, decide_eq_true_eq]

end Page

/-! ## Following the cursors -/

/-- `paginate_result` as the answer to a cursor. -/
def pageSource (base : ResultBase) (rows : List Row) (size : PageSize) : Source Text DataResult Raised where
  fetch cursor := paginateResult base rows (.str cursor) (.int size.val)
  next page := page.pagination.nextCursor

section Walk

variable {base : ResultBase} {rows : List Row} {size : PageSize}

/-- An offset that a cursor of a walk has: rows are left there, or there never were any. -/
def IsOffset (rows : List Row) (offset : Nat) : Prop :=
  offset ≤ MAX_CURSOR_OFFSET ∧ (offset < rows.length ∨ offset = 0 ∧ rows = [])

/-- The rows from the cursor on are left, and those before it fit pages of their own. -/
def Left (base : ResultBase) (rows : List Row) (size : PageSize) (cursor : Text) (rest : List Row) : Prop :=
  ∃ offset, IsOffset rows offset ∧ cursor = cursorAt offset ∧
    rest = rows.drop offset ∧ ∀ j, j < offset → FitsAlone base rows size j

/-- Why a walk stops at an offset. -/
def StopsAt (base : ResultBase) (rows : List Row) (size : PageSize) (offset : Nat) (error : Raised) : Prop :=
  (∃ actual, error = .rowTooLarge actual RESPONSE_BYTE_LIMIT offset ∧
      TooLarge base rows size offset actual ∧ ∀ j, j < offset → FitsAlone base rows size j) ∨
    (error = cursorRange ∧ MAX_CURSOR_OFFSET + 1 < rows.length) ∨
    (IsEncoding error ∧ Obstructed base rows size offset)

/-- The page of an empty list. -/
theorem paginateResult_nil :
    paginateResult base [] (.str (cursorAt 0)) (.int size.val) = .ok (front base [] size 0 0) := by
  unfold paginateResult
  rw [normalizePageSize_of, decodeCursor_of (Nat.zero_le _)]
  rfl

/-- What the pages are: their rows are a front part of what is left. -/
theorem fetched {offset : Nat} (hoffset : IsOffset rows offset) {page : DataResult}
    (h : (pageSource base rows size).fetch (cursorAt offset) = .ok page) :
    ∃ count, offset + count ≤ rows.length ∧ page = front base rows size offset count ∧
      (offset + count < rows.length → offset + count ≤ MAX_CURSOR_OFFSET) ∧
      (offset < rows.length → 1 ≤ count ∧ ∃ raw, canonicalJsonBytes page.payload = .ok raw ∧
        raw.length ≤ RESPONSE_BYTE_LIMIT) := by
  rcases hoffset with ⟨hstart, hmore | ⟨rfl, rfl⟩⟩
  · rcases @paginateResult_cases base rows size _ hstart hmore with
      ⟨count, raw, hone, hcount, hnext, hrun, hraw, hfits⟩ | ⟨e, hrun, -⟩ | ⟨actual, hrun, -⟩
    · obtain rfl := Except.ok.inj (hrun.symm.trans h)
      exact ⟨count, hcount, rfl, hnext, fun _ => ⟨hone, raw, hraw, hfits⟩⟩
    · exact absurd (hrun.symm.trans h) nofun
    · exact absurd (hrun.symm.trans h) nofun
  · obtain rfl := Except.ok.inj (paginateResult_nil.symm.trans h)
    exact ⟨0, Nat.le_refl _, rfl, fun hlt => absurd hlt (Nat.not_lt_zero 0),
      fun hlt => absurd hlt (Nat.not_lt_zero 0)⟩

/-- **Every page is a front part of what is left, and names the rest.** -/
theorem serves : Serves (pageSource base rows size) DataResult.data (Left base rows size)
    (fun cursor rest error => ∃ offset, offset ≤ rows.length ∧ cursor = cursorAt offset ∧
      rest = rows.drop offset ∧ StopsAt base rows size offset error) where
  last := by
    rintro _ _ page ⟨offset, hoffset, rfl, rfl, -⟩ hfetch hnext
    obtain ⟨count, hcount, rfl, -⟩ := fetched hoffset hfetch
    have hnone : (front base rows size offset count).pagination.nextCursor = none := hnext
    rw [front_next count hcount] at hnone
    by_cases hmore : offset + count < rows.length
    · rw [if_pos hmore] at hnone
      exact absurd hnone nofun
    · show (rows.drop offset).take count = rows.drop offset
      refine List.take_of_length_le ?_
      rw [List.length_drop]
      omega
  step := by
    rintro _ cursor _ page ⟨offset, hoffset, rfl, rfl, hbefore⟩ hfetch hnext
    obtain ⟨count, hcount, rfl, hrange, hfits⟩ := fetched hoffset hfetch
    have hsome : (front base rows size offset count).pagination.nextCursor = some cursor := hnext
    rw [front_next count hcount] at hsome
    by_cases hmore : offset + count < rows.length
    · rw [if_pos hmore] at hsome
      obtain rfl := Option.some.inj hsome
      obtain ⟨hone, raw, hraw, hfits⟩ := hfits (by omega)
      refine ⟨rows.drop (offset + count), ?_, ?_, offset + count, ⟨hrange hmore, .inl hmore⟩, rfl, rfl, ?_⟩
      · rw [← List.drop_drop]
        exact (List.take_append_drop count (rows.drop offset)).symm
      · intro hnil
        have hempty : ((rows.drop offset).take count).length = 0 := congrArg List.length hnil
        rw [front_length count hcount] at hempty
        omega
      · intro j hj
        by_cases hold : j < offset
        · exact hbefore j hold
        · have hrow := fitsAlone_of_front hmore (hrange hmore) hraw hfits (j := j - offset) (by omega)
          rwa [Nat.add_sub_cancel' (Nat.le_of_not_lt hold)] at hrow
    · rw [if_neg hmore] at hsome
      exact absurd hsome nofun
  stop := by
    rintro _ _ error ⟨offset, ⟨hstart, hoffset⟩, rfl, rfl, hbefore⟩ hfetch
    rcases hoffset with hmore | ⟨rfl, rfl⟩
    · rcases @paginateResult_cases base rows size _ hstart hmore with
        ⟨_, _, _, _, _, hrun, _⟩ | ⟨e, hrun, hcause⟩ | ⟨actual, hrun, hlarge⟩
      · exact absurd (hrun.symm.trans hfetch) nofun
      · obtain rfl := Except.error.inj (hrun.symm.trans hfetch)
        exact ⟨offset, Nat.le_of_lt hmore, rfl, rfl, .inr hcause⟩
      · obtain rfl := Except.error.inj (hrun.symm.trans hfetch)
        exact ⟨offset, Nat.le_of_lt hmore, rfl, rfl, .inl ⟨actual, rfl, hlarge, hbefore⟩⟩
    · exact absurd (paginateResult_nil.symm.trans hfetch) nofun

/-- What a walk may rely on of each page. -/
structure PageOk (rows : List Row) (page : DataResult) : Prop where
  nonempty : page.data = [] → rows = []
  fits : page.data ≠ [] → ∃ raw, canonicalJsonBytes page.payload = .ok raw ∧ raw.length ≤ RESPONSE_BYTE_LIMIT
  truncated : page.pagination.truncated = true ↔ page.pagination.nextCursor ≠ none

theorem page_ok {cursor : Text} {rest : List Row} {page : DataResult} (hleft : Left base rows size cursor rest)
    (h : (pageSource base rows size).fetch cursor = .ok page) : PageOk rows page := by
  obtain ⟨offset, hoffset, rfl, -, -⟩ := hleft
  obtain ⟨count, hcount, rfl, -, hfits⟩ := fetched hoffset h
  have hdata : (front base rows size offset count).data.length = count := front_length count hcount
  refine ⟨fun hnil => ?_, fun hsome => ?_, ?_⟩
  · rcases hoffset.2 with hmore | ⟨-, hrows⟩
    · rw [hnil] at hdata
      exact absurd (hfits hmore).1 (by rw [← hdata]; exact Nat.not_succ_le_zero 0)
    · exact hrows
  · rcases hoffset.2 with hmore | ⟨rfl, rfl⟩
    · exact (hfits hmore).2
    · refine absurd (List.length_eq_zero_iff.mp (hdata.trans ?_)) hsome
      rw [List.length_nil] at hcount
      omega
  · rw [front_next count hcount]
    show decide (offset + count < rows.length) = true ↔ _
    by_cases hmore : offset + count < rows.length
    · simp [hmore]
    · simp [hmore]

/-- The walk handed out all rows, and only its last page is not truncated. -/
def Delivered (rows : List Row) (pages : List DataResult) : Prop :=
  pages.flatMap DataResult.data = rows ∧
    ∃ front final, pages = front ++ [final] ∧ (∀ page ∈ front, page.pagination.truncated = true) ∧
      final.pagination.truncated = false

/-- The walk handed out the rows before the one that does not fit alone. -/
def Refused (base : ResultBase) (rows : List Row) (size : PageSize) (pages : List DataResult)
    (error : Raised) : Prop :=
  ∃ index actual, error = .rowTooLarge actual RESPONSE_BYTE_LIMIT index ∧
    TooLarge base rows size index actual ∧ (∀ j, j < index → FitsAlone base rows size j) ∧
    pages.flatMap DataResult.data = rows.take index ∧ ∀ page ∈ pages, page.pagination.truncated = true

/-- The walk handed out the rows before a page that could hold one JSON cannot write. -/
def Unencoded (base : ResultBase) (rows : List Row) (size : PageSize) (pages : List DataResult)
    (error : Raised) : Prop :=
  IsEncoding error ∧ ∃ index, Obstructed base rows size index ∧
    pages.flatMap DataResult.data = rows.take index ∧ ∀ page ∈ pages, page.pagination.truncated = true

/-- The walk handed out the rows up to where the next page would have no cursor. -/
def Overrun (rows : List Row) (pages : List DataResult) (error : Raised) : Prop :=
  error = cursorRange ∧ MAX_CURSOR_OFFSET + 1 < rows.length ∧ ∃ index,
    pages.flatMap DataResult.data = rows.take index ∧ ∀ page ∈ pages, page.pagination.truncated = true

theorem front_of_append {front rest : List Row} {offset : Nat} (h : rows = front ++ rest)
    (hrest : rest = rows.drop offset) (hoffset : offset ≤ rows.length) : front = rows.take offset := by
  have hlength : front.length = offset := by
    have hsum := congrArg List.length h
    rw [hrest, List.length_append, List.length_drop] at hsum
    omega
  rw [h, ← hlength, List.take_left]

/-- How a walk from the first cursor ends. -/
def WalkEnded (base : ResultBase) (rows : List Row) (size : PageSize) (pages : List DataResult) :
    Option Raised → Prop
  | none => Delivered rows pages
  | some error => Refused base rows size pages error ∨ Unencoded base rows size pages error

theorem left_start (base : ResultBase) (rows : List Row) (size : PageSize) :
    Left base rows size (ascii "v1:0") rows := by
  refine ⟨0, ⟨Nat.zero_le _, ?_⟩, rfl, rfl, fun j hj => absurd hj (Nat.not_lt_zero j)⟩
  cases rows with
  | nil => exact .inr ⟨rfl, rfl⟩
  | cons r rs => exact .inl (Nat.succ_pos _)

/-- The walk of any list. -/
theorem walk_ended (base : ResultBase) (rows : List Row) (size : PageSize) :
    ∃ pages ending, Walk (pageSource base rows size) (ascii "v1:0") pages ending ∧
      (∀ page ∈ pages, PageOk rows page) ∧
      (WalkEnded base rows size pages ending ∨ ∃ error, ending = some error ∧ Overrun rows pages error) := by
  obtain ⟨pages, ending, hwalk, hpages, hended⟩ :=
    walk_serves (@serves base rows size) (left_start base rows size)
  have hok : ∀ page ∈ pages, PageOk rows page := by
    intro page hpage
    obtain ⟨c, rest, hc, hfetch⟩ := hpages page hpage
    exact page_ok hc hfetch
  refine ⟨pages, ending, hwalk, hok, ?_⟩
  cases ending with
  | none =>
      obtain ⟨front, final, rfl, hfront, hfinal⟩ := walk_last hwalk
      refine .inl ⟨hended, front, final, rfl, fun page hpage => ?_, eq_false_of_ne_true (fun htrue => ?_)⟩
      · exact (hok page (List.mem_append_left _ hpage)).truncated.mpr (hfront page hpage)
      · exact (hok final (List.mem_append_right _ (List.mem_singleton.mpr rfl))).truncated.mp htrue hfinal
  | some error =>
      have htruncated : ∀ page ∈ pages, page.pagination.truncated = true := fun page hpage =>
        (hok page hpage).truncated.mpr (walk_stopped hwalk page hpage)
      obtain ⟨cursor, rest, hsplit, -, offset, hoffset, -, hrest, hstops⟩ := hended
      have hfront := front_of_append hsplit hrest hoffset
      rcases hstops with ⟨actual, herror, hlarge, hbefore⟩ | ⟨herror, hlen⟩ | ⟨hencoding, hbad⟩
      · exact .inl (.inl ⟨offset, actual, herror, hlarge, hbefore, hfront, htruncated⟩)
      · exact .inr ⟨error, rfl, herror, hlen, offset, hfront, htruncated⟩
      · exact .inl (.inr ⟨hencoding, offset, hbad, hfront, htruncated⟩)

end Walk

end McpCore
