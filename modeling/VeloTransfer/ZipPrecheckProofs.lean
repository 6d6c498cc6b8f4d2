import VeloTransfer.ManifestProofs

/-! # The precheck of a ZIP directory

    `_zip_directory_precheck` reads the end records of an untrusted package and
    walks its central directory before the library parses it.

    * `rfind_some` — the end record is at the last signature of the file;
    * `directory_of_precheck` — what was accepted is a directory of exactly the
      declared headers, directly before the end records;
    * `headersRead_bounds` — the walk reads no more headers than the budget has
      files and metadata for;
    * `library_reads` — the library finds the same directory. -/

namespace ZipPrecheck

open JsonLine Manifest ExceptRules

/-! ## Reading bytes -/

/-- `stream.seek(offset)` and `stream.read(count)`. -/
def readAt (raw : Bytes) (offset count : Nat) : Bytes := (raw.drop offset).take count

/-- A number as `struct.unpack("<…")` reads it. -/
def little : Bytes → Nat
  | [] => 0
  | b :: bs => b.toNat + 256 * little bs

/-- The field of a record at an offset. -/
def field (record : Bytes) (offset width : Nat) : Nat := little (readAt record offset width)

/-- The signatures `PK\x05\x06`, `PK\x06\x07`, `PK\x06\x06` and `PK\x01\x02`. -/
def END_RECORD : Bytes := [80, 75, 5, 6]
def LOCATOR : Bytes := [80, 75, 6, 7]
def END_RECORD_64 : Bytes := [80, 75, 6, 6]
def HEADER : Bytes := [80, 75, 1, 2]

/-- `bytes.rfind`, for a pattern that is not empty. -/
def rfind (pattern : Bytes) : Bytes → Option Nat
  | [] => none
  | b :: bs =>
      match rfind pattern bs with
      | some i => some (i + 1)
      | none => if pattern.isPrefixOf (b :: bs) then some 0 else none

def raiseIf (c : Prop) [Decidable c] (code : String) : Except String Unit :=
  if c then .error code else .ok ()

/-! ## The precheck -/

/-- What the end records say of the central directory, and where they start. -/
structure Located where
  entries : Nat
  centralSize : Nat
  centralOffset : Nat
  centralEnd : Nat
deriving Repr, DecidableEq

/-- The ZIP64 records, of which the locator is at `locatorOffset`; `plain` is what
    the end record says. -/
def readZip64 (raw : Bytes) (locatorOffset : Nat) (plain : Located) : Except String Located := do
  let locator := readAt raw locatorOffset 20
  raiseIf (locator.length ≠ 20) "invalid_package"
  let recordOffset := field locator 8 8
  raiseIf (field locator 4 4 ≠ 0 ∨ field locator 16 4 ≠ 1 ∨ recordOffset + 56 ≠ locatorOffset)
    "invalid_package"
  let record := readAt raw recordOffset 56
  raiseIf (record.length ≠ 56 ∨ record.take 4 ≠ END_RECORD_64) "invalid_package"
  raiseIf (field record 4 8 ≠ 44 ∨ field record 14 2 < 45 ∨ field record 16 4 ≠ 0 ∨
    field record 20 4 ≠ 0 ∨ field record 24 8 ≠ field record 32 8) "invalid_package"
  raiseIf ((plain.entries ≠ 0xFFFF ∧ plain.entries ≠ field record 32 8) ∨
    (plain.centralSize ≠ 0xFFFFFFFF ∧ plain.centralSize ≠ field record 40 8) ∨
    (plain.centralOffset ≠ 0xFFFFFFFF ∧ plain.centralOffset ≠ field record 48 8)) "invalid_package"
  .ok { entries := field record 32 8, centralSize := field record 40 8,
        centralOffset := field record 48 8, centralEnd := recordOffset }

/-- The end records of the package. -/
def readEnds (raw : Bytes) : Except String Located := do
  let tailSize := min raw.length 65557
  let tail := readAt raw (raw.length - tailSize) tailSize
  match rfind END_RECORD tail with
  | none => .error "invalid_package"
  | some index => do
      raiseIf (index + 22 > tail.length) "invalid_package"
      let endOffset := raw.length - tailSize + index
      raiseIf (index + 22 + field tail (index + 20) 2 ≠ tail.length ∨ field tail (index + 4) 2 ≠ 0 ∨
        field tail (index + 6) 2 ≠ 0 ∨ field tail (index + 8) 2 ≠ field tail (index + 10) 2)
        "invalid_package"
      let plain : Located :=
        { entries := field tail (index + 10) 2, centralSize := field tail (index + 12) 4,
          centralOffset := field tail (index + 16) 4, centralEnd := endOffset }
      let locator := if 20 ≤ endOffset then readAt raw (endOffset - 20) 20 else []
      if LOCATOR.isPrefixOf locator then readZip64 raw (endOffset - 20) plain
      else do
        raiseIf (plain.entries = 0xFFFF ∨ plain.centralSize = 0xFFFFFFFF ∨
          plain.centralOffset = 0xFFFFFFFF) "invalid_package"
        .ok plain

/-- The limits, before the directory is read. -/
def Budget.admit (b : Budget) (d : Located) : Except String Unit := do
  raiseIf (d.centralOffset + d.centralSize ≠ d.centralEnd) "invalid_package"
  raiseIf (d.entries > b.maxFiles + 1) "file_count_exceeded"
  raiseIf (d.centralSize > b.maxMetadataBytes) "metadata_budget_exceeded"

/-- The bytes of a header, with its variable fields. -/
def headerSize (header : Bytes) : Nat := 46 + field header 28 2 + field header 30 2 + field header 32 2

/-- A walk: the positions at which it read a header, and how it ended. -/
structure Walk where
  headers : List Nat
  result : Except String Nat

/-- The loop over the headers.  `left` is how many more of them may be seen under
    the budget, and `check` is the outcome of `budget.check()` before the next. -/
def walk (raw : Bytes) (check : Nat → Except String Unit) (centralEnd : Nat) : Nat → Nat → Nat → Walk
  | left, position, seen =>
      if position < centralEnd then
        match check seen with
        | .error code => ⟨[], .error code⟩
        | .ok _ =>
            if centralEnd - position < 46 then ⟨[], .error "invalid_package"⟩
            else
              let header := readAt raw position 46
              if header.length ≠ 46 ∨ header.take 4 ≠ HEADER then
                ⟨[position], .error "invalid_package"⟩
              else if field header 34 2 ≠ 0 ∧ field header 34 2 ≠ 0xFFFF then
                ⟨[position], .error "invalid_package"⟩
              else
                match left with
                | 0 => ⟨[position], .error "file_count_exceeded"⟩
                | left + 1 =>
                    if position + headerSize header > centralEnd then
                      ⟨[position], .error "invalid_package"⟩
                    else
                      let rest := walk raw check centralEnd left (position + headerSize header) (seen + 1)
                      ⟨position :: rest.headers, rest.result⟩
      else ⟨[], .ok seen⟩

/-- The walk over a located directory. -/
def directoryWalk (raw : Bytes) (b : Budget) (check : Nat → Except String Unit) (d : Located) : Walk :=
  walk raw check d.centralEnd (b.maxFiles + 1) d.centralOffset 0

/-- `_zip_directory_precheck`. -/
def precheck (raw : Bytes) (b : Budget) (check : Nat → Except String Unit) : Except String Unit := do
  let d ← readEnds raw
  Budget.admit b d
  let seen ← (directoryWalk raw b check d).result
  raiseIf (seen ≠ d.entries) "invalid_package"

/-- The headers that the precheck reads, whether it accepts or not. -/
def headersRead (raw : Bytes) (b : Budget) (check : Nat → Except String Unit) : List Nat :=
  match (do let d ← readEnds raw; Budget.admit b d; pure d) with
  | .error _ => []
  | .ok d => (directoryWalk raw b check d).headers

/-- The bytes that the precheck reads at most: the tail, the ZIP64 records and the
    fixed part of each header. -/
def work (raw : Bytes) (b : Budget) (check : Nat → Except String Unit) : Nat :=
  min raw.length 65557 + 20 + 56 + 46 * (headersRead raw b check).length

/-! ## Positions -/

theorem readAt_length {raw : Bytes} {offset count : Nat} (h : offset + count ≤ raw.length) :
    (readAt raw offset count).length = count := by
  rw [readAt, List.length_take, List.length_drop]
  omega

theorem readAt_readAt {raw : Bytes} {p count o n : Nat} (h : o + n ≤ count) :
    readAt (readAt raw p count) o n = readAt raw (p + o) n := by
  rw [readAt, readAt, readAt, List.drop_take, List.take_take, List.drop_drop, Nat.min_eq_left (by omega)]

theorem field_readAt {raw : Bytes} {p count o n : Nat} (h : o + n ≤ count) :
    field (readAt raw p count) o n = field raw (p + o) n := by
  rw [field, field, readAt_readAt h]

/-- What is read at the end of the file is the rest of it. -/
theorem readAt_tail {raw : Bytes} {n : Nat} (h : n ≤ raw.length) :
    readAt raw (raw.length - n) n = raw.drop (raw.length - n) := by
  rw [readAt, List.take_of_length_le]
  rw [List.length_drop]
  omega

theorem readAt_drop {raw : Bytes} {base o n : Nat} : readAt (raw.drop base) o n = readAt raw (base + o) n := by
  rw [readAt, readAt, List.drop_drop]

theorem field_drop {raw : Bytes} {base o n : Nat} : field (raw.drop base) o n = field raw (base + o) n := by
  rw [field, field, readAt_drop]

theorem isPrefixOf_iff {pattern raw : Bytes} :
    pattern.isPrefixOf raw = true ↔ readAt raw 0 pattern.length = pattern := by
  rw [List.isPrefixOf_iff_prefix, List.prefix_iff_eq_take, readAt, List.drop_zero, eq_comm]

theorem raiseIf_ok {c : Prop} [Decidable c] {code : String} {x : Unit} (h : raiseIf c code = .ok x) : ¬ c := by
  unfold raiseIf at h
  split at h
  · exact absurd h nofun
  next hc => exact hc

theorem raiseIf_of {c : Prop} [Decidable c] {code : String} (h : ¬ c) : raiseIf c code = .ok () := if_neg h

theorem rfind_none {pattern : Bytes} (hne : pattern ≠ []) {raw : Bytes} :
    rfind pattern raw = none ↔ ∀ j, readAt raw j pattern.length ≠ pattern := by
  induction raw with
  | nil =>
      refine ⟨fun _ j h => hne ?_, fun _ => rfl⟩
      rw [← h, readAt, List.drop_nil, List.take_nil]
  | cons b bs ih =>
      unfold rfind
      cases hrest : rfind pattern bs with
      | some k =>
          refine ⟨nofun, fun hall => ?_⟩
          have hnone := ih.mpr fun j => hall (j + 1)
          rw [hrest] at hnone
          exact absurd hnone nofun
      | none =>
          have hbs := ih.mp hrest
          dsimp only
          by_cases hpre : pattern.isPrefixOf (b :: bs) = true
          · rw [if_pos hpre]
            exact ⟨nofun, fun hall => absurd (isPrefixOf_iff.mp hpre) (hall 0)⟩
          · rw [if_neg hpre]
            refine ⟨fun _ j => ?_, fun _ => rfl⟩
            cases j with
            | zero => exact fun h => hpre (isPrefixOf_iff.mpr h)
            | succ j => exact hbs j

/-- **`rfind` finds the last place** of a pattern, and only that. -/
theorem rfind_some {pattern : Bytes} (hne : pattern ≠ []) {raw : Bytes} {i : Nat} :
    rfind pattern raw = some i ↔
      readAt raw i pattern.length = pattern ∧ ∀ j, i < j → readAt raw j pattern.length ≠ pattern := by
  induction raw generalizing i with
  | nil =>
      refine ⟨nofun, fun h => absurd ?_ hne⟩
      rw [← h.1, readAt, List.drop_nil, List.take_nil]
  | cons b bs ih =>
      unfold rfind
      cases hrest : rfind pattern bs with
      | some k =>
          obtain ⟨hk, hlast⟩ := ih.mp hrest
          constructor
          · intro h
            obtain rfl := Option.some.inj h
            refine ⟨hk, fun j hj => ?_⟩
            cases j with
            | zero => exact absurd hj (Nat.not_lt_zero _)
            | succ j => exact hlast j (Nat.lt_of_succ_lt_succ hj)
          · rintro ⟨hi, hlast'⟩
            cases i with
            | zero => exact absurd hk (hlast' (k + 1) (Nat.succ_pos k))
            | succ i =>
                rcases Nat.lt_trichotomy k i with hlt | rfl | hgt
                · exact absurd hi (hlast i hlt)
                · rfl
                · exact absurd hk (hlast' (k + 1) (Nat.succ_lt_succ hgt))
      | none =>
          have hbs := (rfind_none hne).mp hrest
          dsimp only
          by_cases hpre : pattern.isPrefixOf (b :: bs) = true
          · rw [if_pos hpre]
            constructor
            · intro h
              obtain rfl := Option.some.inj h
              refine ⟨isPrefixOf_iff.mp hpre, fun j hj => ?_⟩
              cases j with
              | zero => exact absurd hj (Nat.not_lt_zero _)
              | succ j => exact hbs j
            · rintro ⟨hi, -⟩
              cases i with
              | zero => rfl
              | succ i => exact absurd hi (hbs i)
          · rw [if_neg hpre]
            refine ⟨nofun, fun h => ?_⟩
            cases i with
            | zero => exact absurd (isPrefixOf_iff.mpr h.1) hpre
            | succ i => exact absurd h.1 (hbs i)

/-! ## What was accepted -/

/-- A well-formed header at a position: its fixed part is in the file, with the
    signature and on the first disk. -/
structure HeaderAt (raw : Bytes) (p : Nat) : Prop where
  signature : readAt raw p 4 = HEADER
  inside : p + 46 ≤ raw.length
  disk : field raw (p + 34) 2 = 0 ∨ field raw (p + 34) 2 = 0xFFFF

/-- Where the header at a position ends, with its variable fields. -/
def headerEnd (raw : Bytes) (p : Nat) : Nat :=
  p + (46 + field raw (p + 28) 2 + field raw (p + 30) 2 + field raw (p + 32) 2)

/-- Well-formed headers that fill a range of the file, one directly after the other. -/
inductive Tiles (raw : Bytes) (stop : Nat) : Nat → List Nat → Prop
  | done : Tiles raw stop stop []
  | header {p : Nat} {ps : List Nat} : HeaderAt raw p → headerEnd raw p ≤ stop →
      Tiles raw stop (headerEnd raw p) ps → Tiles raw stop p (p :: ps)

theorem Tiles.le {raw : Bytes} {stop p : Nat} {ps : List Nat} (h : Tiles raw stop p ps) : p ≤ stop := by
  cases h with
  | done => exact Nat.le_refl _
  | header _ hend _ =>
      unfold headerEnd at hend
      omega

theorem headerSize_readAt (raw : Bytes) (p : Nat) : p + headerSize (readAt raw p 46) = headerEnd raw p := by
  rw [headerSize, field_readAt (by decide), field_readAt (by decide), field_readAt (by decide)]
  rfl

/-- What one turn of the walk can do. -/
theorem walk_cases (raw : Bytes) (check : Nat → Except String Unit) (stop left position seen : Nat)
    {w : Walk} (hw : walk raw check stop left position seen = w) :
    (stop ≤ position ∧ w = ⟨[], .ok seen⟩) ∨
    (∃ code, w = ⟨[], .error code⟩) ∨
    (position + 46 ≤ stop ∧ ∃ code, w = ⟨[position], .error code⟩) ∨
    ∃ more, left = more + 1 ∧ HeaderAt raw position ∧ headerEnd raw position ≤ stop ∧
      w = ⟨position :: (walk raw check stop more (headerEnd raw position) (seen + 1)).headers,
        (walk raw check stop more (headerEnd raw position) (seen + 1)).result⟩ := by
  unfold walk at hw
  by_cases hlt : position < stop
  · rw [if_pos hlt] at hw
    cases hcheck : check seen with
    | error code =>
        rw [hcheck] at hw
        exact Or.inr (Or.inl ⟨code, hw.symm⟩)
    | ok _ =>
        rw [hcheck] at hw
        dsimp only at hw
        by_cases hroom : stop - position < 46
        · rw [if_pos hroom] at hw
          exact Or.inr (Or.inl ⟨_, hw.symm⟩)
        rw [if_neg hroom] at hw
        have hfits : position + 46 ≤ stop := by omega
        refine Or.inr (Or.inr ?_)
        by_cases hheader : (readAt raw position 46).length ≠ 46 ∨ (readAt raw position 46).take 4 ≠ HEADER
        · rw [if_pos hheader] at hw
          exact Or.inl ⟨hfits, _, hw.symm⟩
        rw [if_neg hheader] at hw
        by_cases hdisk : field (readAt raw position 46) 34 2 ≠ 0 ∧
            field (readAt raw position 46) 34 2 ≠ 0xFFFF
        · rw [if_pos hdisk] at hw
          exact Or.inl ⟨hfits, _, hw.symm⟩
        rw [if_neg hdisk] at hw
        cases left with
        | zero => exact Or.inl ⟨hfits, _, hw.symm⟩
        | succ more =>
            dsimp only at hw
            rw [headerSize_readAt] at hw
            by_cases hbeyond : headerEnd raw position > stop
            · rw [if_pos hbeyond] at hw
              exact Or.inl ⟨hfits, _, hw.symm⟩
            rw [if_neg hbeyond] at hw
            rw [not_or, not_not, not_not] at hheader
            have hlen := hheader.1
            rw [readAt, List.length_take, List.length_drop] at hlen
            have hsig := hheader.2
            rw [readAt, List.take_take] at hsig
            rw [field_readAt (by decide)] at hdisk
            exact Or.inr ⟨more, rfl, ⟨hsig, by omega, by omega⟩, Nat.not_lt.mp hbeyond, hw.symm⟩
  · rw [if_neg hlt] at hw
    exact Or.inl ⟨Nat.not_lt.mp hlt, hw.symm⟩

/-- **A walk that ends has gone over a tiling**: the headers that it read fill the
    range. -/
theorem tiles_of_walk {raw : Bytes} {check : Nat → Except String Unit} {stop left position seen n : Nat}
    (hposition : position ≤ stop) (h : (walk raw check stop left position seen).result = .ok n) :
    Tiles raw stop position (walk raw check stop left position seen).headers ∧
      n = seen + (walk raw check stop left position seen).headers.length := by
  induction left generalizing position seen with
  | zero =>
      rcases walk_cases raw check stop 0 position seen rfl with
        ⟨hend, hwalk⟩ | ⟨code, hwalk⟩ | ⟨-, code, hwalk⟩ | ⟨more, hmore, -⟩
      · obtain rfl := Nat.le_antisymm hposition hend
        rw [hwalk] at h ⊢
        exact ⟨.done, (Except.ok.inj h).symm⟩
      · rw [hwalk] at h
        exact absurd h nofun
      · rw [hwalk] at h
        exact absurd h nofun
      · exact absurd hmore nofun
  | succ left ih =>
      rcases walk_cases raw check stop (left + 1) position seen rfl with
        ⟨hend, hwalk⟩ | ⟨code, hwalk⟩ | ⟨-, code, hwalk⟩ | ⟨more, hmore, hat, hle, hwalk⟩
      · obtain rfl := Nat.le_antisymm hposition hend
        rw [hwalk] at h ⊢
        exact ⟨.done, (Except.ok.inj h).symm⟩
      · rw [hwalk] at h
        exact absurd h nofun
      · rw [hwalk] at h
        exact absurd h nofun
      · obtain rfl := Nat.succ.inj hmore
        rw [hwalk] at h ⊢
        obtain ⟨htiles, hn⟩ := ih hle h
        refine ⟨.header hat hle htiles, ?_⟩
        rw [hn, List.length_cons]
        omega

/-- **A walk is short**, however it ends: the headers that it reads are no more
    than it may see, and their fixed parts fit into the range. -/
theorem walk_short (raw : Bytes) (check : Nat → Except String Unit) (stop left position seen : Nat) :
    (walk raw check stop left position seen).headers.length ≤ left + 1 ∧
      46 * (walk raw check stop left position seen).headers.length ≤ stop - position := by
  induction left generalizing position seen with
  | zero =>
      rcases walk_cases raw check stop 0 position seen rfl with
        ⟨-, hwalk⟩ | ⟨code, hwalk⟩ | ⟨hfits, code, hwalk⟩ | ⟨more, hmore, -⟩
      · rw [hwalk]
        exact ⟨Nat.zero_le _, Nat.zero_le _⟩
      · rw [hwalk]
        exact ⟨Nat.zero_le _, Nat.zero_le _⟩
      · rw [hwalk]
        exact ⟨Nat.le_refl _, by show 46 ≤ _; omega⟩
      · exact absurd hmore nofun
  | succ left ih =>
      rcases walk_cases raw check stop (left + 1) position seen rfl with
        ⟨-, hwalk⟩ | ⟨code, hwalk⟩ | ⟨hfits, code, hwalk⟩ | ⟨more, hmore, -, hle, hwalk⟩
      · rw [hwalk]
        exact ⟨Nat.zero_le _, Nat.zero_le _⟩
      · rw [hwalk]
        exact ⟨Nat.zero_le _, Nat.zero_le _⟩
      · rw [hwalk]
        exact ⟨Nat.succ_le_succ (Nat.zero_le _), by show 46 ≤ _; omega⟩
      · obtain rfl := Nat.succ.inj hmore
        obtain ⟨hcount, hbytes⟩ := ih (headerEnd raw position) (seen + 1)
        rw [hwalk]
        dsimp only
        rw [List.length_cons]
        have hstep : position + 46 ≤ headerEnd raw position := by
          unfold headerEnd
          omega
        exact ⟨Nat.succ_le_succ hcount, by omega⟩

/-- The end record of a file: at the last signature, and with its comment up to the
    end of the file. -/
structure EndRecord (raw : Bytes) (e : Nat) : Prop where
  signature : readAt raw e 4 = END_RECORD
  last : ∀ j, e < j → readAt raw j 4 ≠ END_RECORD
  ends : e + 22 + field raw (e + 20) 2 = raw.length
  disks : field raw (e + 4) 2 = 0 ∧ field raw (e + 6) 2 = 0

/-- What the end record itself says. -/
def plainAt (raw : Bytes) (e : Nat) : Located where
  entries := field raw (e + 10) 2
  centralSize := field raw (e + 12) 4
  centralOffset := field raw (e + 16) 4
  centralEnd := e

/-- What the ZIP64 record at a position says. -/
def zip64At (raw : Bytes) (r : Nat) : Located where
  entries := field raw (r + 32) 8
  centralSize := field raw (r + 40) 8
  centralOffset := field raw (r + 48) 8
  centralEnd := r

/-- The end records of a file, as they describe the directory: the end record alone,
    or behind a ZIP64 record and its locator. -/
inductive Described (raw : Bytes) (e : Nat) : Located → Prop
  | plain : ¬ (20 ≤ e ∧ readAt raw (e - 20) 4 = LOCATOR) → Described raw e (plainAt raw e)
  | zip64 : 76 ≤ e → readAt raw (e - 20) 4 = LOCATOR → readAt raw (e - 76) 4 = END_RECORD_64 →
      field raw (e - 20 + 4) 4 = 0 → field raw (e - 20 + 8) 8 = e - 76 →
      field raw (e - 20 + 16) 4 = 1 → Described raw e (zip64At raw (e - 76))

theorem readEnds_ok {raw : Bytes} {d : Located} (h : readEnds raw = .ok d) :
    ∃ e, EndRecord raw e ∧ Described raw e d := by
  unfold readEnds at h
  dsimp only at h
  have hbase : min raw.length 65557 ≤ raw.length := Nat.min_le_left _ _
  rw [readAt_tail hbase] at h
  generalize hbase' : raw.length - min raw.length 65557 = base at h
  split at h
  · exact absurd h nofun
  next index hindex =>
    obtain ⟨_, hroom, h⟩ := bind_ok h
    obtain ⟨_, hfields, h⟩ := bind_ok h
    obtain ⟨hsig, hlast⟩ := (rfind_some (by decide)).mp hindex
    have hroom := raiseIf_ok hroom
    have hfields := raiseIf_ok hfields
    rw [List.length_drop] at hroom hfields
    simp only [field_drop, not_or, not_not] at hfields
    obtain ⟨hends, hdisk, hcentral, -⟩ := hfields
    have hplace : ∀ n, base + (index + n) = base + index + n := fun n => (Nat.add_assoc base index n).symm
    rw [hplace] at hends hdisk hcentral
    have hrecord : EndRecord raw (base + index) := by
      refine ⟨?_, ?_, by omega, hdisk, hcentral⟩
      · rw [readAt_drop] at hsig
        exact hsig
      · intro j hj hsig'
        have hj' := hlast (j - base) (by omega)
        rw [readAt_drop, show base + (j - base) = j by omega] at hj'
        exact hj' hsig'
    refine ⟨base + index, hrecord, ?_⟩
    have hplain : Located.mk (field (raw.drop base) (index + 10) 2) (field (raw.drop base) (index + 12) 4)
        (field (raw.drop base) (index + 16) 4) (base + index) = plainAt raw (base + index) := by
      simp only [field_drop, hplace, plainAt]
    by_cases hlocator : LOCATOR.isPrefixOf (if 20 ≤ base + index then readAt raw (base + index - 20) 20
        else []) = true
    · rw [if_pos hlocator] at h
      by_cases h20 : 20 ≤ base + index
      · rw [if_pos h20] at hlocator
        have hloc := isPrefixOf_iff.mp hlocator
        rw [readAt_readAt (by decide), Nat.add_zero] at hloc
        obtain ⟨_, -, h⟩ := bind_ok h
        obtain ⟨_, hl, h⟩ := bind_ok h
        obtain ⟨_, hr, h⟩ := bind_ok h
        obtain ⟨_, -, h⟩ := bind_ok h
        obtain ⟨_, -, h⟩ := bind_ok h
        obtain rfl := Except.ok.inj h
        have hl := raiseIf_ok hl
        simp only [not_or, not_not, field_readAt (show 4 + 4 ≤ 20 by decide),
          field_readAt (show 8 + 8 ≤ 20 by decide), field_readAt (show 16 + 4 ≤ 20 by decide)] at hl
        obtain ⟨hdisk64, htotal, hoffset⟩ := hl
        have hr := raiseIf_ok hr
        rw [not_or, not_not, not_not] at hr
        have hplace64 : field raw (base + index - 20 + 8) 8 = base + index - 76 := by omega
        rw [field_readAt (show 8 + 8 ≤ 20 by decide), hplace64] at hr ⊢
        have hsig64 := hr.2
        rw [readAt, List.take_take] at hsig64
        simp only [field_readAt (show 32 + 8 ≤ 56 by decide), field_readAt (show 40 + 8 ≤ 56 by decide),
          field_readAt (show 48 + 8 ≤ 56 by decide)]
        exact .zip64 (by omega) hloc hsig64 hdisk64 hplace64 htotal
      · rw [if_neg h20] at hlocator
        exact absurd hlocator nofun
    · rw [if_neg hlocator] at h
      obtain ⟨_, -, h⟩ := bind_ok h
      obtain rfl := Except.ok.inj h
      rw [hplain]
      refine .plain fun hsig' => hlocator ?_
      rw [if_pos hsig'.1, isPrefixOf_iff, readAt_readAt (by decide)]
      exact hsig'.2

/-- The directory of an accepted package: behind it its end records, and in it
    exactly the declared headers, which fill the declared size. -/
structure Directory (raw : Bytes) (b : Budget) (e : Nat) (d : Located) (headers : List Nat) : Prop where
  endRecord : EndRecord raw e
  described : Described raw e d
  place : d.centralOffset + d.centralSize = d.centralEnd
  tiles : Tiles raw d.centralEnd d.centralOffset headers
  count : headers.length = d.entries
  entries : d.entries ≤ b.maxFiles + 1
  bytes : d.centralSize ≤ b.maxMetadataBytes

/-- The directory stands directly before the end records. -/
theorem Described.before {raw : Bytes} {e : Nat} {d : Located} (h : Described raw e d) :
    d.centralEnd = e ∨ d.centralEnd + 76 = e := by
  cases h with
  | plain => exact Or.inl rfl
  | zip64 hroom => exact Or.inr (by show e - 76 + 76 = e; omega)

theorem admit_ok {b : Budget} {d : Located} {x : Unit} (h : Budget.admit b d = .ok x) :
    d.centralOffset + d.centralSize = d.centralEnd ∧ d.entries ≤ b.maxFiles + 1 ∧
      d.centralSize ≤ b.maxMetadataBytes := by
  obtain ⟨_, hplace, h⟩ := bind_ok h
  obtain ⟨_, hentries, h⟩ := bind_ok h
  exact ⟨not_not.mp (raiseIf_ok hplace), Nat.not_lt.mp (raiseIf_ok hentries),
    Nat.not_lt.mp (raiseIf_ok h)⟩

/-- **What is accepted is a directory**, of the headers that were read. -/
theorem directory_of_precheck {raw : Bytes} {b : Budget} {check : Nat → Except String Unit} {x : Unit}
    (h : precheck raw b check = .ok x) : ∃ e d, Directory raw b e d (headersRead raw b check) := by
  obtain ⟨d, hends, h⟩ := bind_ok h
  obtain ⟨_, hadmits, h⟩ := bind_ok h
  obtain ⟨n, hwalk, h⟩ := bind_ok h
  obtain ⟨e, hrecord, hdescribed⟩ := readEnds_ok hends
  obtain ⟨hplace, hentries, hbytes⟩ := admit_ok hadmits
  have hread : headersRead raw b check = (directoryWalk raw b check d).headers := by
    unfold headersRead
    rw [hends]
    show (match ( Budget.admit b d >>= fun _ => pure d) with
      | .error _ => []
      | .ok d => (directoryWalk raw b check d).headers) = _
    rw [hadmits]
    rfl
  obtain ⟨htiles, hcount⟩ := tiles_of_walk (by omega) hwalk
  have hn : n = d.entries := not_not.mp (raiseIf_ok h)
  refine ⟨e, d, hrecord, hdescribed, hplace, ?_, ?_, hentries, hbytes⟩
  · rw [hread]
    exact htiles
  · rw [hread, ← hn, hcount]
    exact (Nat.zero_add _).symm

/-- **The work is within the budget**, whether the package is accepted or not. -/
theorem headersRead_bounds (raw : Bytes) (b : Budget) (check : Nat → Except String Unit) :
    (headersRead raw b check).length ≤ b.maxFiles + 2 ∧
      46 * (headersRead raw b check).length ≤ b.maxMetadataBytes := by
  unfold headersRead
  cases hends : (do let d ← readEnds raw; Budget.admit b d; pure d) with
  | error _ => exact ⟨Nat.zero_le _, Nat.zero_le _⟩
  | ok d =>
      obtain ⟨d', -, h⟩ := bind_ok hends
      obtain ⟨_, hadmits, h⟩ := bind_ok h
      obtain rfl := Except.ok.inj h
      obtain ⟨hplace, -, hbytes⟩ := admit_ok hadmits
      obtain ⟨hcount, hroom⟩ := walk_short raw check d'.centralEnd (b.maxFiles + 1) d'.centralOffset 0
      refine ⟨hcount, Nat.le_trans hroom ?_⟩
      omega

theorem work_le (raw : Bytes) (b : Budget) (check : Nat → Except String Unit) :
    work raw b check ≤ 65633 + min (46 * (b.maxFiles + 2)) b.maxMetadataBytes := by
  obtain ⟨hcount, hbytes⟩ := headersRead_bounds raw b check
  have htail : min raw.length 65557 ≤ 65557 := Nat.min_le_right _ _
  unfold work
  rw [Nat.add_assoc _ 20, Nat.add_assoc]
  have h46 : 46 * (headersRead raw b check).length ≤ min (46 * (b.maxFiles + 2)) b.maxMetadataBytes :=
    Nat.le_min.mpr ⟨Nat.mul_le_mul_left 46 hcount, hbytes⟩
  omega

/-! ## The library

    `zipfile.ZipFile` looks for the end record and walks the directory by itself. -/

/-- What `_EndRecData` keeps of the end records. -/
structure EndRec where
  location : Nat
  size : Nat
  offset : Nat
  zip64 : Bool
deriving Repr, DecidableEq

/-- `_EndRecData64`. -/
def endRecData64 (raw : Bytes) (location : Nat) : Except String EndRec :=
  let plain : EndRec :=
    { location, size := field raw (location + 12) 4, offset := field raw (location + 16) 4, zip64 := false }
  if location < 20 ∨ readAt raw (location - 20) 4 ≠ LOCATOR then .ok plain
  else if field raw (location - 20 + 4) 4 ≠ 0 ∨ field raw (location - 20 + 16) 4 > 1 then
    .error "BadZipFile"
  else if location < 76 then .error "BadZipFile"
  else if readAt raw (location - 76) 4 ≠ END_RECORD_64 then .ok plain
  else .ok { location, size := field raw (location - 76 + 40) 8,
             offset := field raw (location - 76 + 48) 8, zip64 := true }

/-- `_EndRecData`: an end record without a comment, or the last signature near the
    end of the file. -/
def endRecData (raw : Bytes) : Except String EndRec :=
  if raw.length < 22 then .error "BadZipFile"
  else if readAt raw (raw.length - 22) 4 = END_RECORD ∧ readAt raw (raw.length - 2) 2 = [0, 0] then
    endRecData64 raw (raw.length - 22)
  else
    let start := raw.length - 65558
    match rfind END_RECORD (raw.drop start) with
    | none => .error "BadZipFile"
    | some index =>
        if (readAt raw (start + index) 22).length ≠ 22 then .error "BadZipFile"
        else endRecData64 raw (start + index)

/-- The loop over the headers, on the bytes of the directory that starts at
    `start`; `decodes` is whether a header with its variable fields can be decoded. -/
def centralHeaders (decodes : Bytes → Bool) (data : Bytes) (start size : Nat) : Nat → Nat → Except String (List Nat)
  | fuel, total =>
      if total < size then
        let header := readAt data total 46
        if header.length ≠ 46 ∨ header.take 4 ≠ HEADER then .error "BadZipFile"
        else if decodes (readAt data total (headerSize header)) = false then .error "decode"
        else
          match fuel with
          | 0 => .error "fuel"
          | fuel + 1 => (centralHeaders decodes data start size fuel (total + headerSize header)).map
              ((start + total) :: ·)
      else .ok []

/-- `_RealGetContents`: where the directory starts, what is taken for prepended
    data, and the positions of the headers. -/
def realGetContents (decodes : Bytes → Bool) (raw : Bytes) : Except String (Nat × Int × List Nat) := do
  let r ← endRecData raw
  let concat : Int := r.location - r.size - r.offset - (if r.zip64 then 76 else 0)
  let startDir : Int := r.offset + concat
  if startDir < 0 then .error "BadZipFile"
  else do
    let headers ← centralHeaders decodes (readAt raw startDir.toNat r.size) startDir.toNat r.size r.size 0
    .ok (startDir.toNat, concat, headers)

/-- The end record of the precheck is the one of the library. -/
theorem endRecData_of_endRecord {raw : Bytes} {e : Nat} (he : EndRecord raw e) :
    endRecData raw = endRecData64 raw e := by
  have hends := he.ends
  unfold endRecData
  rw [if_neg (by omega)]
  have hcomment : field raw (e + 20) 2 < 65536 := by
    have hlt : ∀ l : Bytes, l.length ≤ 2 → little l < 65536 := by
      intro l hl
      match l, hl with
      | [], _ => decide
      | [a], _ =>
          have := a.toNat_lt
          show a.toNat + 256 * 0 < _
          omega
      | [a, c], _ =>
          have := a.toNat_lt
          have := c.toNat_lt
          show a.toNat + 256 * (c.toNat + 256 * 0) < _
          omega
    exact hlt _ (by rw [readAt, List.length_take]; omega)
  by_cases hlast : readAt raw (raw.length - 22) 4 = END_RECORD ∧ readAt raw (raw.length - 2) 2 = [0, 0]
  · rw [if_pos hlast]
    have heq : raw.length - 22 = e := by
      by_contra hne
      exact he.last (raw.length - 22) (by omega) hlast.1
    rw [heq]
  · rw [if_neg hlast]
    dsimp only
    have hstart : raw.length - 65558 ≤ e := by omega
    have hfind : rfind END_RECORD (raw.drop (raw.length - 65558)) = some (e - (raw.length - 65558)) := by
      refine (rfind_some (by decide)).mpr ⟨?_, fun j hj => ?_⟩
      · rw [readAt_drop, Nat.add_sub_cancel' hstart]
        exact he.signature
      · rw [readAt_drop]
        exact he.last _ (by omega)
    rw [hfind]
    dsimp only
    rw [Nat.add_sub_cancel' hstart, if_neg (not_not.mpr (readAt_length (by omega)))]

/-- The loop of the library goes over the same tiling. -/
theorem centralHeaders_tiles {raw : Bytes} {start size : Nat} (decodes : Bytes → Bool) {p : Nat}
    {ps : List Nat} (h : Tiles raw (start + size) p ps)
    {total fuel : Nat} (hp : p = start + total) (hfuel : start + size ≤ p + fuel) :
    centralHeaders decodes (readAt raw start size) start size fuel total =
      if ps.all (fun q => decodes (readAt raw q (headerEnd raw q - q))) then .ok ps
      else .error "decode" := by
  induction h generalizing total fuel with
  | done =>
      unfold centralHeaders
      rw [if_neg (by omega)]
      rfl
  | @header q qs hat hend htiles ih =>
      have hstep : q + 46 ≤ headerEnd raw q := by
        unfold headerEnd
        omega
      have hheader : readAt (readAt raw start size) total 46 = readAt raw q 46 := by
        rw [readAt_readAt (by omega), hp]
      have hbytes := headerSize_readAt raw q
      have hwhole : readAt (readAt raw start size) total (headerSize (readAt raw q 46))
          = readAt raw q (headerEnd raw q - q) := by
        rw [readAt_readAt (by omega), ← hp, ← hbytes, Nat.add_sub_cancel_left]
      unfold centralHeaders
      rw [if_pos (by omega)]
      dsimp only
      rw [hheader, hwhole]
      have hgood : ¬ ((readAt raw q 46).length ≠ 46 ∨ (readAt raw q 46).take 4 ≠ HEADER) := by
        rw [not_or, not_not, not_not]
        refine ⟨readAt_length hat.inside, ?_⟩
        rw [readAt, List.take_take]
        exact hat.signature
      rw [if_neg hgood, List.all_cons]
      by_cases hdecodes : decodes (readAt raw q (headerEnd raw q - q)) = true
      · rw [hdecodes, if_neg nofun, Bool.true_and]
        cases fuel with
        | zero => omega
        | succ fuel =>
            dsimp only
            rw [ih (by omega) (by omega)]
            split
            · show Except.ok ((start + total) :: qs) = _
              rw [← hp]
            · rfl
      · have hfalse : decodes (readAt raw q (headerEnd raw q - q)) = false := by simpa using hdecodes
        rw [hfalse, if_pos rfl, Bool.false_and]
        rfl

/-- **The library finds the same directory**: it starts where the precheck says,
    nothing is taken for prepended data, and its headers are the ones that the
    precheck read, as far as they can be decoded. -/
theorem library_reads {raw : Bytes} {b : Budget} {e : Nat} {d : Located} {headers : List Nat}
    (h : Directory raw b e d headers) (decodes : Bytes → Bool) :
    realGetContents decodes raw =
      if headers.all (fun p => decodes (readAt raw p (headerEnd raw p - p))) then
        .ok (d.centralOffset, 0, headers)
      else .error "decode" := by
  have hplace := h.place
  have hends := h.endRecord.ends
  obtain ⟨r, hr, hsize, hoffset, hlocation⟩ : ∃ r, endRecData raw = .ok r ∧ r.size = d.centralSize ∧
      r.offset = d.centralOffset ∧ r.location = d.centralEnd + (if r.zip64 then 76 else 0) := by
    rw [endRecData_of_endRecord h.endRecord]
    unfold endRecData64
    cases h.described with
    | plain hno =>
        have hplain : e < 20 ∨ readAt raw (e - 20) 4 ≠ LOCATOR := by
          by_cases h20 : e < 20
          · exact Or.inl h20
          · exact Or.inr fun hsig => hno ⟨Nat.not_lt.mp h20, hsig⟩
        exact ⟨_, if_pos hplain, rfl, rfl, rfl⟩
    | zip64 hroom hlocator hsig hdisk hplace64 htotal =>
        refine ⟨{ location := e, size := field raw (e - 76 + 40) 8,
                  offset := field raw (e - 76 + 48) 8, zip64 := true }, ?_, rfl, rfl, ?_⟩
        · dsimp only
          rw [if_neg (by rw [not_or, not_not]; exact ⟨by omega, hlocator⟩), if_neg (by omega),
            if_neg (by omega), if_neg (not_not.mpr hsig)]
        · show e = e - 76 + 76
          omega
  have hconcat : (r.location : Int) - r.size - r.offset - (if r.zip64 then 76 else 0) = 0 := by
    rw [hlocation, hsize, hoffset]
    cases r.zip64 <;> simp <;> omega
  unfold realGetContents
  rw [hr]
  show (if (r.offset : Int) + ((r.location : Int) - r.size - r.offset - (if r.zip64 then 76 else 0)) < 0 then
    _ else _) = _
  rw [hconcat, if_neg (by omega), Int.add_zero, Int.toNat_natCast, hsize, hoffset]
  have htiles := h.tiles
  rw [← hplace] at htiles
  rw [centralHeaders_tiles decodes htiles rfl (by omega)]
  split
  · rfl
  · rfl

/-- **The precheck is sound**, for every byte string: it reads no more than the
    budget allows, and what it accepts is one directory, in front of the end record
    at the last signature of the file, that the library finds as well. -/
theorem precheck_sound (raw : Bytes) (b : Budget) (check : Nat → Except String Unit) :
    work raw b check ≤ 65633 + min (46 * (b.maxFiles + 2)) b.maxMetadataBytes ∧
    ∀ x, precheck raw b check = .ok x → ∃ e d headers, Directory raw b e d headers ∧
      ∀ decodes, realGetContents decodes raw =
        if headers.all (fun p => decodes (readAt raw p (headerEnd raw p - p))) then
          .ok (d.centralOffset, 0, headers)
        else .error "decode" := by
  refine ⟨work_le raw b check, fun x h => ?_⟩
  obtain ⟨e, d, hdirectory⟩ := directory_of_precheck h
  exact ⟨e, d, _, hdirectory, library_reads hdirectory⟩

/-- A place with the form of an end record whose comment reaches the end of the file. -/
def ReachesEnd (raw : Bytes) (e : Nat) : Prop :=
  readAt raw e 4 = END_RECORD ∧ e + 22 + field raw (e + 20) 2 = raw.length

/-- One header, named `a`, whose comment has the form of an end record, and behind
    it the end record of the package. -/
def nestedEnd : Bytes :=
  HEADER ++ List.replicate 24 0 ++ [1, 0, 0, 0, 22, 0] ++ List.replicate 12 0 ++ [97] ++
    (END_RECORD ++ List.replicate 16 0 ++ [22, 0]) ++
    (END_RECORD ++ [0, 0, 0, 0, 1, 0, 1, 0, 69, 0, 0, 0, 0, 0, 0, 0, 0, 0])

/-- Two places of an accepted file can have the form of its end record. -/
theorem nested_end_accepted : ¬ ∀ (raw : Bytes) (b : Budget) (check : Nat → Except String Unit) (x : Unit),
    precheck raw b check = .ok x → ∃ e, ReachesEnd raw e ∧ ∀ e', ReachesEnd raw e' → e' = e := by
  intro hall
  have haccepted : precheck nestedEnd { maxFiles := 1, maxMetadataBytes := 100, maxLogicalBytes := 0 }
      (fun _ => .ok ()) = .ok () := by rfl
  obtain ⟨e, -, honly⟩ := hall _ _ _ () haccepted
  have hinner : ReachesEnd nestedEnd 47 := ⟨by decide, by decide⟩
  have houter : ReachesEnd nestedEnd 69 := ⟨by decide, by decide⟩
  exact absurd ((honly 47 hinner).trans (honly 69 houter).symm) (by decide)

end ZipPrecheck
