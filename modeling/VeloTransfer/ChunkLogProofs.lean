import VeloTransfer.FileNodeProofs
import VeloTransfer.JsonLineProofs
import VeloTransfer.Sha256Proofs

/-! # Logs of acknowledged chunks

    A receiver keeps, beside the bytes it has received, a log with one JSON line
    for each acknowledged chunk: its offset, its size and its digest.  Two logs of
    this kind differ in the name of the size.

    * `Record.Valid.loads`, `recordOf_loads` — the line of a record loads back to
      the record;
    * `Record.Valid.length` — a line has at most 255 bytes;
    * `readRecords_ledgerFrom` — the first lines of a log, whatever torn tail
      follows them, are the records of the acknowledged chunks;
    * `recordsFrom_once` — every byte of the chunks lies in exactly one record. -/

namespace ChunkLog

open FileNodes CanonicalJson JsonLine Sha256

/-- How a log names the size of a chunk. -/
inductive SizeKey where
  | count
  | size
deriving Repr, DecidableEq

def SizeKey.text : SizeKey → Text
  | .count => ascii "count"
  | .size => ascii "size"

/-- One acknowledged chunk. -/
structure Record where
  offset : Nat
  count : Nat
  sha256 : Text
deriving Repr, DecidableEq

def Record.toJson (key : SizeKey) (r : Record) : Json :=
  .obj [(ascii "offset", .int r.offset), (key.text, .int r.count),
    (ascii "sha256", .str r.sha256)]

/-- `canonical_json(record) + b"\n"`. -/
def Record.line (key : SizeKey) (r : Record) : Bytes := jsonLine (r.toJson key)

def field (k : Text) : Json → Option Json
  | .obj fields => (fields.find? (fun f => f.1 == k)).map Prod.snd
  | _ => none

/-- A record of exactly the three fields, with the types that are checked. -/
def recordOf (key : SizeKey) (v : Json) : Option Record :=
  match v with
  | .obj fields =>
      match field (ascii "offset") v, field key.text v, field (ascii "sha256") v with
      | some (.int o), some (.int c), some (.str sha) =>
          if fields.length = 3 ∧ 0 ≤ o ∧ 0 < c then
            some { offset := o.toNat, count := c.toNat, sha256 := sha }
          else none
      | _, _, _ => none
  | _ => none

/-- The record of a chunk at a position. -/
def chunkRecord (offset : Nat) (data : Bytes) : Record :=
  { offset := offset, count := data.length, sha256 := hexdigest data }

variable {key : SizeKey}

/-- A record that reception writes: positive, within a file, with a digest. -/
structure Record.Valid (r : Record) : Prop where
  positive : 0 < r.count
  within : r.offset + r.count ≤ maxFileSize
  digest : isHex r.sha256 = true

/-- The keys of a record come in sorted order. -/
def Record.sorted (r : Record) : SizeKey → Json
  | .count => .obj [(ascii "count", .int r.count), (ascii "offset", .int r.offset),
      (ascii "sha256", .str r.sha256)]
  | .size => .obj [(ascii "offset", .int r.offset), (ascii "sha256", .str r.sha256),
      (ascii "size", .int r.count)]

theorem Record.sortKeys_toJson (key : SizeKey) (r : Record) :
    (r.toJson key).sortKeys = r.sorted key := by
  cases key with
  | count => rfl
  | size => rfl

theorem printable_hex {s : Text} (h : isHex s = true) : ∀ c ∈ s, Printable c := by
  intro c hc
  rw [isHex, Bool.and_eq_true] at h
  have hchar := List.all_eq_true.mp h.2 c hc
  simp only [isHexChar, Bool.or_eq_true, Bool.and_eq_true, decide_eq_true_eq] at hchar
  refine ⟨by omega, by omega, by omega, by omega⟩

theorem hex_length_of_isHex {s : Text} (h : isHex s = true) : s.length = 64 := by
  rw [isHex, Bool.and_eq_true, beq_iff_eq] at h
  exact h.1

/-- The keys of a record are printable. -/
private theorem printable_keys :
    (∀ c ∈ ascii "count", 32 ≤ c ∧ c < 127 ∧ c ≠ 34 ∧ c ≠ 92) ∧
      (∀ c ∈ ascii "offset", 32 ≤ c ∧ c < 127 ∧ c ≠ 34 ∧ c ≠ 92) ∧
      (∀ c ∈ ascii "sha256", 32 ≤ c ∧ c < 127 ∧ c ≠ 34 ∧ c ≠ 92) ∧
      (∀ c ∈ ascii "size", 32 ≤ c ∧ c < 127 ∧ c ≠ 34 ∧ c ≠ 92) := by decide

theorem Record.ascii {r : Record} (h : isHex r.sha256 = true) :
    AllAscii (r.toJson key).sortKeys := by
  rw [Record.sortKeys_toJson]
  obtain ⟨hcount, hoffset, hsha, hsize⟩ := printable_keys
  cases key with
  | count => exact ⟨hcount, trivial, hoffset, trivial, hsha, printable_hex h, trivial⟩
  | size => exact ⟨hoffset, trivial, hsha, printable_hex h, hsize, trivial, trivial⟩

theorem Record.plain (r : Record) : (r.toJson key).sortKeys.Plain := by
  rw [Record.sortKeys_toJson]
  cases key with
  | count => exact ⟨rfl, trivial, trivial, trivial, trivial⟩
  | size => exact ⟨rfl, trivial, trivial, trivial, trivial⟩

theorem Record.Valid.isLine {r : Record} (h : r.Valid) : IsLine (r.line key) :=
  jsonLine_isLine (Record.ascii h.digest)

theorem decimal_within {n : Nat} (h : n ≤ maxFileSize) : (decimal n).length ≤ 19 :=
  decimal_length (by decide) (Nat.lt_of_le_of_lt h (by decide))

/-- A line of the ledger stays below the limits of its readers. -/
theorem Record.Valid.length {r : Record} (h : r.Valid) (key : SizeKey) :
    (r.line key).length ≤ 255 := by
  have hcount : (decimal r.count).length ≤ 19 :=
    decimal_within (Nat.le_trans (Nat.le_add_left _ _) h.within)
  have hoffset : (decimal r.offset).length ≤ 19 :=
    decimal_within (Nat.le_trans (Nat.le_add_right _ _) h.within)
  have hint : ∀ n : Nat, renderInt (n : Int) = decimal n := by
    intro n
    rw [renderInt, if_neg (by omega), Int.natAbs_natCast]
  have hsha := renderChars_printable (printable_hex h.digest)
  have hk : (renderChars (CanonicalJson.ascii "count")).length = 5 ∧
      (renderChars (CanonicalJson.ascii "offset")).length = 6 ∧
      (renderChars (CanonicalJson.ascii "sha256")).length = 6 ∧
      (renderChars (CanonicalJson.ascii "size")).length = 4 := by decide
  rw [Record.line, jsonLine_length (Record.ascii h.digest), Record.sortKeys_toJson]
  cases key with
  | count =>
      simp only [Record.sorted, render, renderFields, renderString, hint, hsha, List.length_cons,
        List.length_append, List.length_nil, hex_length_of_isHex h.digest]
      omega
  | size =>
      simp only [Record.sorted, render, renderFields, renderString, hint, hsha, List.length_cons,
        List.length_append, List.length_nil, hex_length_of_isHex h.digest]
      omega

theorem Record.loads (key : SizeKey) {r : Record} (h : isHex r.sha256 = true) :
    loads (r.line key) = .ok (r.toJson key).sortKeys := by
  cases key with
  | count => exact loads_jsonLine (Record.sortKeys_toJson .count r) (Record.ascii h) r.plain
  | size => exact loads_jsonLine (Record.sortKeys_toJson .size r) (Record.ascii h) r.plain

theorem Record.Valid.loads {r : Record} (h : r.Valid) :
    CanonicalJson.loads (r.line key) = .ok (r.toJson key).sortKeys := Record.loads key h.digest

/-- A record is dumped in sorted order. -/
theorem Record.dumps_sortKeys (key : SizeKey) (r : Record) :
    dumps (r.toJson key).sortKeys = dumps (r.toJson key) := by
  have hsorted : (r.toJson key).sortKeys.sortKeys = (r.toJson key).sortKeys := by
    cases key with
    | count => rfl
    | size => rfl
  rw [dumps, dumps, hsorted]

/-- The line of a record is canonical: dumping what it loads gives it back. -/
theorem Record.line_sortKeys (key : SizeKey) (r : Record) :
    jsonLine (r.toJson key).sortKeys = r.line key := by
  rw [Record.line, jsonLine, jsonLine, Record.dumps_sortKeys]

theorem recordOf_sortKeys (key : SizeKey) {r : Record} (h : 0 < r.count) :
    recordOf key (r.toJson key).sortKeys = some r := by
  rw [Record.sortKeys_toJson]
  have hpos : (0 : Int) < r.count := by exact_mod_cast h
  have hread : recordOf key (r.sorted key)
      = if 3 = 3 ∧ (0 : Int) ≤ r.offset ∧ (0 : Int) < r.count then
          some { offset := (r.offset : Int).toNat, count := (r.count : Int).toNat
                 sha256 := r.sha256 }
        else none := by
    cases key with
    | count => rfl
    | size => rfl
  rw [hread, if_pos ⟨rfl, Int.natCast_nonneg _, hpos⟩]
  rfl

/-- The loaded line of a record is that record. -/
theorem recordOf_loads {r : Record} (h : r.Valid) :
    recordOf key (r.toJson key).sortKeys = some r := recordOf_sortKeys key h.positive

/-- Records that are written alike are the same. -/
theorem Record.line_injective {r r' : Record} (hr : 0 < r.count ∧ isHex r.sha256 = true)
    (hr' : 0 < r'.count ∧ isHex r'.sha256 = true) (h : r.line key = r'.line key) : r = r' := by
  have hloads := Record.loads key hr.2
  rw [h, Record.loads key hr'.2] at hloads
  have hsame := recordOf_sortKeys key hr'.1
  rw [Except.ok.inj hloads, recordOf_sortKeys key hr.1] at hsame
  exact Option.some.inj hsame

/-! ## The ledger of a list of chunks -/

/-- The records of chunks laid out from a position on. -/
def recordsFrom : Nat → List Bytes → List Record
  | _, [] => []
  | position, c :: cs => chunkRecord position c :: recordsFrom (position + c.length) cs

/-- The ledger of the chunks laid out from a position on. -/
def ledgerFrom (key : SizeKey) (position : Nat) (chunks : List Bytes) : Bytes :=
  ((recordsFrom position chunks).map (Record.line key)).flatten

/-- Chunks that fit in a file when laid out from a position on. -/
def ChunksFit (position : Nat) (chunks : List Bytes) : Prop :=
  (∀ c ∈ chunks, c ≠ []) ∧ position + chunks.flatten.length ≤ maxFileSize

theorem ChunksFit.tail {position : Nat} {c : Bytes} {cs : List Bytes}
    (h : ChunksFit position (c :: cs)) : ChunksFit (position + c.length) cs := by
  refine ⟨fun d hd => h.1 d (List.mem_cons_of_mem _ hd), ?_⟩
  have := h.2
  rw [List.flatten_cons, List.length_append] at this
  omega

theorem ChunksFit.head {position : Nat} {c : Bytes} {cs : List Bytes}
    (h : ChunksFit position (c :: cs)) : (chunkRecord position c).Valid := by
  refine ⟨List.length_pos_iff.mpr (h.1 c List.mem_cons_self), ?_, isHex_hexdigest c⟩
  have := h.2
  rw [List.flatten_cons, List.length_append] at this
  show position + c.length ≤ maxFileSize
  omega

theorem ledgerFrom_cons (position : Nat) (c : Bytes) (cs : List Bytes) :
    ledgerFrom key position (c :: cs)
      = (chunkRecord position c).line key ++ ledgerFrom key (position + c.length) cs := rfl

theorem recordsFrom_append (position : Nat) (cs ds : List Bytes) :
    recordsFrom position (cs ++ ds)
      = recordsFrom position cs ++ recordsFrom (position + cs.flatten.length) ds := by
  induction cs generalizing position with
  | nil => rfl
  | cons c cs ih =>
      show chunkRecord position c :: recordsFrom (position + c.length) (cs ++ ds) = _
      rw [ih, List.flatten_cons, List.length_append, ← Nat.add_assoc]
      rfl

theorem ledgerFrom_append (position : Nat) (cs ds : List Bytes) :
    ledgerFrom key position (cs ++ ds)
      = ledgerFrom key position cs ++ ledgerFrom key (position + cs.flatten.length) ds := by
  rw [ledgerFrom, recordsFrom_append, List.map_append, List.flatten_append]
  rfl

theorem recordsFrom_length (position : Nat) (cs : List Bytes) :
    (recordsFrom position cs).length = cs.length := by
  induction cs generalizing position with
  | nil => rfl
  | cons c cs ih => exact congrArg (· + 1) (ih _)

/-- How much place the records of chunks need. -/
theorem ledgerFrom_length_le {position : Nat} {cs : List Bytes} (h : ChunksFit position cs) :
    (ledgerFrom key position cs).length ≤ 255 * cs.length := by
  induction cs generalizing position with
  | nil => exact Nat.le_refl _
  | cons c cs ih =>
      have hline := h.head.length key
      have hrest := ih h.tail
      rw [ledgerFrom_cons, List.length_append, List.length_cons]
      omega

/-- The counts of the records add up to the bytes of the chunks. -/
theorem recordsFrom_counts (position : Nat) (cs : List Bytes) :
    ((recordsFrom position cs).map Record.count).sum = cs.flatten.length := by
  induction cs generalizing position with
  | nil => rfl
  | cons c cs ih =>
      show c.length + ((recordsFrom (position + c.length) cs).map Record.count).sum = _
      rw [ih, List.flatten_cons, List.length_append]

/-! ## Reading it back -/

/-- The first `n` records of a ledger; none when a line is no record. -/
def readRecords (key : SizeKey) : Nat → Bytes → Option (List Record)
  | 0, _ => some []
  | n + 1, bytes =>
      match loads (readline 256 bytes) with
      | .error _ => none
      | .ok v =>
          match recordOf key v with
          | none => none
          | some r => (readRecords key n (bytes.drop (readline 256 bytes).length)).map (r :: ·)

/-- The first line of a ledger is the line of its first chunk. -/
theorem readline_ledgerFrom {limit position : Nat} {c : Bytes} {cs : List Bytes}
    (h : ChunksFit position (c :: cs)) (hlimit : 255 ≤ limit) (tail : Bytes) :
    readline limit (ledgerFrom key position (c :: cs) ++ tail)
      = (chunkRecord position c).line key := by
  rw [ledgerFrom_cons, List.append_assoc]
  exact readline_line h.head.isLine _ (Nat.le_trans (h.head.length key) hlimit)

theorem drop_ledgerFrom (position : Nat) (c : Bytes) (cs : List Bytes) (tail : Bytes) :
    (ledgerFrom key position (c :: cs) ++ tail).drop ((chunkRecord position c).line key).length
      = ledgerFrom key (position + c.length) cs ++ tail := by
  rw [ledgerFrom_cons, List.append_assoc, List.drop_left]

/-- The records of the acknowledged chunks are read back, whatever follows them. -/
theorem readRecords_ledgerFrom {position : Nat} {cs : List Bytes} (h : ChunksFit position cs)
    (tail : Bytes) :
    readRecords key cs.length (ledgerFrom key position cs ++ tail)
      = some (recordsFrom position cs) := by
  induction cs generalizing position with
  | nil => rfl
  | cons c cs ih =>
      show readRecords key (cs.length + 1) _ = _
      rw [readRecords, readline_ledgerFrom h (by decide), h.head.loads, drop_ledgerFrom]
      show (match recordOf key ((chunkRecord position c).toJson key).sortKeys with
        | none => none
        | some r => _) = _
      rw [recordOf_loads h.head]
      show (readRecords key cs.length (ledgerFrom key (position + c.length) cs ++ tail)).map _ = _
      rw [ih h.tail]
      rfl

/-! ## Every byte once -/

/-- Records laid out from a position on start there or behind it. -/
theorem recordsFrom_from {chunks : List Bytes} {position : Nat} {r : Record}
    (hr : r ∈ recordsFrom position chunks) : position ≤ r.offset := by
  induction chunks generalizing position with
  | nil => exact absurd hr (by simp [recordsFrom])
  | cons c chunks ih =>
      rcases List.mem_cons.mp hr with rfl | hr
      · exact Nat.le_refl _
      · have := ih hr
        omega

/-- Every byte of the chunks lies in exactly one of their records. -/
theorem recordsFrom_once {chunks : List Bytes} {position b : Nat} (hlow : position ≤ b)
    (hhigh : b < position + chunks.flatten.length) :
    ∃! k : Nat, ∃ r : Record, (recordsFrom position chunks)[k]? = some r ∧ r.offset ≤ b ∧
      b < r.offset + r.count := by
  induction chunks generalizing position with
  | nil => exact absurd hhigh (by simp; omega)
  | cons c chunks ih =>
      rw [List.flatten_cons, List.length_append] at hhigh
      by_cases hb : b < position + c.length
      · -- the first record; later ones start behind the byte
        refine ⟨0, ⟨chunkRecord position c, rfl, hlow, hb⟩, ?_⟩
        rintro k ⟨r, hget, hoffset, -⟩
        cases k with
        | zero => rfl
        | succ k =>
            have htail : (recordsFrom (position + c.length) chunks)[k]? = some r := hget
            have hr := recordsFrom_from (List.mem_of_getElem? htail)
            omega
      · have hlow' : position + c.length ≤ b := by omega
        obtain ⟨k, ⟨r, hget, hin⟩, honly⟩ := ih hlow' (by omega)
        refine ⟨k + 1, ⟨r, hget, hin⟩, ?_⟩
        rintro k' ⟨r', hget', hoffset', hcount'⟩
        cases k' with
        | zero =>
            obtain rfl : chunkRecord position c = r' := Option.some.inj hget'
            exact absurd hcount' hb
        | succ k' => exact congrArg (· + 1) (honly k' ⟨r', hget', hoffset', hcount'⟩)
end ChunkLog
