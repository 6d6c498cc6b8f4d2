import VeloTransfer.ArchiveCodecProofs

/-! # Request journal — one chain for one request

    A journal publishes the acceptance of a request, its events and its seal, and
    keeps of them the number, the bytes and the reference of the last one.  A
    publisher may fail, or answer what it likes.

    * `run_sound` — what is on the disk is a chain, and the verifier agrees with the
      journal's own counts;
    * `seal_fits` — a journal that is available can be sealed;
    * `journal_truthful` — what becomes of refusals, unknown publications and seals. -/

namespace RequestJournal

open CanonicalJson JsonLine BoundedJson JsonDict ExceptRules ArchiveCodec

/-! ## The journal -/

/-- What a caller hands over: a JSON value, or an object that is none. -/
inductive Object where
  | json (value : Json) (held : Value value)
  | other

/-- What the publisher answers, `none` where it raises, and whether it has written the record.
    It acknowledges no record that it has not written. -/
structure Reply where
  value : Option Json
  written : Bool

structure Journal where
  owns : Bool
  parent : Json
  owner : Option Nat
  head : Option Ref
  count : Nat
  bytes : Nat
  events : Nat
  failed : Bool
  poisoned : Bool
  sealed : Bool
  closed : Bool
  closeFailed : Bool

/-- The journal, and the records of its directory. -/
structure World where
  journal : Journal
  disk : List Bytes

/-- `f'{sequence:08d}.json'`. -/
def fileName (sequence : Nat) : Text :=
  let digits := decimal sequence
  List.replicate (8 - digits.length) 48 ++ digits ++ ascii ".json"

/-- The reference that the publisher is to acknowledge. -/
def expectedRef (raw : Bytes) (sequence : Nat) : Json :=
  .obj [(ascii "path", .str (fileName sequence)), (ascii "size", .int raw.length),
    (ascii "sha256", .str (Sha256.hexdigest raw))]

def isDict : Json → Bool
  | .obj _ => true
  | _ => false

def isStr : Json → Bool
  | .str _ => true
  | _ => false

def isInt : Json → Bool
  | .int _ => true
  | _ => false

/-- The checks of an acknowledgment. -/
def acknowledges (expected : Json) : Option Json → Bool
  | some (.obj fs) =>
      hasKeys fs ["ref", "identity"] && isDict (field fs "identity") &&
        (match field fs "ref" with
          | .obj rs => hasKeys rs ["path", "size", "sha256"] && isStr (field rs "path") &&
              isStr (field rs "sha256") && isInt (field rs "size") &&
              canonical (.obj rs) == canonical expected
          | _ => false)
  | _ => false

/-- The record is written, and counted. -/
def World.confirm (w : World) (raw : Bytes) : World :=
  ⟨{ w.journal with
      head := some (refOf raw), count := w.journal.count + 1, bytes := w.journal.bytes + raw.length },
    w.disk ++ [raw]⟩

/-- The record is written or not, and the journal is poisoned. -/
def World.unknown (w : World) (raw : Bytes) (written : Bool) : World :=
  ⟨{ w.journal with failed := true, poisoned := true }, if written then w.disk ++ [raw] else w.disk⟩

/-- `_publish`. -/
def World.publish (w : World) (raw : Bytes) (sequence : Nat) (reply : Reply) :
    World × Except String Unit :=
  if acknowledges (expectedRef raw sequence) reply.value then (w.confirm raw, .ok ())
  else (w.unknown raw reply.written, .error "publisher acknowledgment differs")

/-- `fail`. -/
def World.fail (w : World) : World := { w with journal := { w.journal with failed := true } }

/-- `close`; the publisher may raise when it is closed. -/
def World.close (w : World) (raises : Bool) : World × Except String Unit :=
  if w.journal.closed then (w, .ok ())
  else if w.journal.owns && raises then
    ({ w with journal := { w.journal with closed := true, failed := true, closeFailed := true } },
      .error "publisher close failed")
  else ({ w with journal := { w.journal with closed := true } }, .ok ())

/-- `_available`. -/
def Journal.available (j : Journal) : Bool := !(j.poisoned || j.closed || j.sealed)

/-- `_reserve`: one record and the bytes of the longest one are kept for the seal. -/
def Journal.reserve (c : Codec) (j : Journal) (raw : Bytes) : Except String Unit :=
  require (j.count + 2 ≤ c.maxRecords &&
    j.bytes + raw.length + c.maxRecordBytes ≤ c.maxTotalBytes) "seal reservation exceeded"

/-- The record of an event, as `append` comes to it. -/
def Journal.eventRaw (c : Codec) (j : Journal) (event : Object) : Except String Bytes := do
  require (!j.failed) "journal already failed"
  match event with
  | .other => .error "non-JSON encoding input"
  | .json v _ => do
      require (j.events + 2 ≤ 99999999 && ((get v "sequence").map (isNumber (j.events + 1))).getD false)
        "event sequence differs/filename limit"
      let raw ← c.encode (recordJson EVENT (j.events + 1) j.head v)
      j.reserve c raw
      .ok raw

/-- `append`. -/
def World.append (c : Codec) (w : World) (event : Object) (reply : Reply) : World × Except String Unit :=
  if w.journal.available then
    match w.journal.eventRaw c event with
    | .error e => (w.fail, .error e)
    | .ok raw =>
        match w.publish raw (w.journal.events + 1) reply with
        | (w', .error e) => (w'.fail, .error e)
        | (w', .ok ()) => ({ w' with journal := { w'.journal with events := w'.journal.events + 1 } }, .ok ())
  else (w, .error "journal unavailable")

/-- The record of a seal, as `seal` comes to it; the flag may be no `bool`. -/
def Journal.sealRaw (c : Codec) (j : Journal) (outcome : Object) (failed : Option Bool) :
    Except String Bytes :=
  match failed with
  | none => .error "invalid failed flag"
  | some failed => do
      require (!j.failed || failed) "failed journal cannot complete"
      match outcome with
      | .other => .error "non-JSON encoding input"
      | .json o _ => do
          let raw ← c.encode (recordJson SEAL (j.events + 1) j.head (sealJson o failed j.events))
          require (j.count + 1 ≤ c.maxRecords && j.bytes + raw.length ≤ c.maxTotalBytes)
            "seal budget exceeded"
          .ok raw

/-- What a seal that failed leaves. -/
def World.poison (w : World) : World :=
  { w with journal := { w.journal with failed := true, poisoned := true } }

/-- What a seal that was confirmed leaves. -/
def World.endChain (w : World) : World := { w with journal := { w.journal with sealed := true } }

/-- `seal`. -/
def World.seal (c : Codec) (w : World) (outcome : Object) (failed : Option Bool) (reply : Reply) :
    World × Except String Unit :=
  if w.journal.available then
    match w.journal.sealRaw c outcome failed with
    | .error e => (w.poison, .error e)
    | .ok raw =>
        match w.publish raw (w.journal.events + 1) reply with
        | (w', .error e) => (w'.poison, .error e)
        | (w', .ok ()) => (w'.endChain, .ok ())
  else (w, .error "journal unavailable")

/-- The claim is for another request. -/
def Journal.mismatch (j : Journal) (key tool argumentsSha256 : Json) : Bool :=
  let differs := fun name v => canonical ((get j.parent name).getD .null) != canonical v
  differs "key" key || differs "tool" tool || differs "arguments_sha256" argumentsSha256

/-- `claim`. -/
def World.claim (w : World) (owner : Nat) (key tool argumentsSha256 : Json) : World × Except String Unit :=
  if w.journal.owner.isSome then (w, .error "journal already claimed")
  else if w.journal.closed || w.journal.sealed || w.journal.poisoned || w.journal.failed ||
      w.journal.mismatch key tool argumentsSha256 then
    ({ w with journal := { w.journal with owner := some owner, failed := true } },
      .error "journal parent mismatch/unavailable")
  else ({ w with journal := { w.journal with owner := some owner } }, .ok ())

/-- `close_claim`. -/
def World.closeClaim (w : World) (owner : Nat) (raises : Bool) : World × Except String Unit :=
  if w.journal.owner = some owner then w.close raises else (w, .ok ())

/-- A journal before its acceptance. -/
def blank (owns : Bool) (parent : Json) : Journal :=
  { owns, parent, owner := none, head := none, count := 0, bytes := 0, events := 0, failed := false,
    poisoned := false, sealed := false, closed := false, closeFailed := false }

/-- The record of the acceptance, as the constructor comes to it. -/
def acceptRaw (c : Codec) (j : Journal) (payload : Json) : Except String Bytes := do
  let raw ← c.encode (recordJson ACCEPT 0 none payload)
  j.reserve c raw
  .ok raw

/-- `RequestJournal(publisher, codec, accept_payload)`; a journal that is refused is
    closed. -/
def create (c : Codec) (owns : Bool) (payload : Object) (reply : Reply) (raises : Bool) :
    World × Except String Unit :=
  match payload with
  | .other => ((World.fail ⟨blank owns .null, []⟩ |>.close raises).1, .error "non-JSON encoding input")
  | .json p _ =>
      match acceptRaw c (blank owns p) p with
      | .error e => ((World.fail ⟨blank owns p, []⟩ |>.close raises).1, .error e)
      | .ok raw =>
          match World.publish ⟨blank owns p, []⟩ raw 0 reply with
          | (w, .error e) => ((w.fail.close raises).1, .error e)
          | (w, .ok ()) => (w, .ok ())

/-- A call on a journal, with what its publisher answers. -/
inductive Call where
  | append (event : Object) (reply : Reply)
  | sealChain (outcome : Object) (failed : Option Bool) (reply : Reply)
  | fail
  | claim (owner : Nat) (key tool argumentsSha256 : Json)
  | closeClaim (owner : Nat) (raises : Bool)
  | close (raises : Bool)

def World.call (c : Codec) (w : World) : Call → World × Except String Unit
  | .append event reply => w.append c event reply
  | .sealChain outcome failed reply => w.seal c outcome failed reply
  | .fail => (w.fail, .ok ())
  | .claim owner key tool argumentsSha256 => w.claim owner key tool argumentsSha256
  | .closeClaim owner raises => w.closeClaim owner raises
  | .close raises => w.close raises

/-- The calls of a run, one after another. -/
def World.run (c : Codec) (w : World) (calls : List Call) : World :=
  calls.foldl (fun w call => (w.call c call).1) w

/-! ## What the disk holds -/

section Invariant

variable {c : Codec} {w : World} {j : Journal}

/-- The confirmed records are a chain, and the verifier counts what the journal counts. -/
structure Recorded (c : Codec) (j : Journal) (records : List Bytes) (status : Status)
    (outcome : Option Json) : Prop where
  chained : Chained c records
  length : records.length = j.count
  head : headOf records = j.head
  walk : ∃ summary, records.foldlM (Walk.take c) Walk.start =
    .ok ⟨j.count, j.bytes, j.events, summary, j.head, status, outcome⟩ ∧ (summary = none → j.count = 0)

/-- What a journal that is available has kept for its seal. -/
structure Ready (c : Codec) (j : Journal) : Prop where
  roomy : c.Roomy
  count : j.count = j.events + 1
  names : j.events + 1 ≤ 99999999
  records : j.count + 1 ≤ c.maxRecords
  bytes : j.bytes + c.maxRecordBytes ≤ c.maxTotalBytes
  head : ∃ r, j.head = some r ∧ r.Sound ∧ r.size ≤ c.maxRecordBytes ∧ r.size ≤ MAX_SIZE

/-- The disk holds the confirmed records, and at most one whose publication is unknown. -/
def Holds (c : Codec) (w : World) (records : List Bytes) : Prop :=
  w.disk = records ∨ w.journal.poisoned = true ∧ w.journal.sealed = false ∧
    ∃ raw, w.disk = records ++ [raw] ∧ Chained c (records ++ [raw])

/-- The invariant of a journal and its directory. -/
structure Sound (c : Codec) (w : World) : Prop where
  recorded : ∃ records status outcome, Recorded c w.journal records status outcome ∧
    Holds c w records ∧ (w.journal.sealed = false ↔ status = .incomplete)
  ready : w.journal.available = true → Ready c w.journal

theorem available_iff : j.available = true ↔ j.poisoned = false ∧ j.closed = false ∧ j.sealed = false := by
  unfold Journal.available
  cases j.poisoned <;> cases j.closed <;> cases j.sealed <;> simp

/-- The chain is about the numbers of the journal, not about its flags. -/
theorem Recorded.congr {j' : Journal} {records : List Bytes} {status : Status} {outcome : Option Json}
    (h : Recorded c j records status outcome) (hcount : j'.count = j.count) (hbytes : j'.bytes = j.bytes)
    (hevents : j'.events = j.events) (hhead : j'.head = j.head) : Recorded c j' records status outcome := by
  refine ⟨h.chained, ?_, ?_, ?_⟩
  · rw [hcount]
    exact h.length
  · rw [hhead]
    exact h.head
  · rw [hcount, hbytes, hevents, hhead]
    exact h.walk

theorem Holds.congr {w' : World} {records : List Bytes} (h : Holds c w records)
    (hdisk : w'.disk = w.disk) (hsealed : w'.journal.sealed = w.journal.sealed)
    (hpoisoned : w.journal.poisoned = true → w'.journal.poisoned = true) : Holds c w' records := by
  rcases h with h | ⟨hp, hs, raw, hraw, hchain⟩
  · exact .inl (hdisk.trans h)
  · exact .inr ⟨hpoisoned hp, hsealed.trans hs, raw, hdisk.trans hraw, hchain⟩

/-- **A change of flags** keeps the invariant when it makes no journal available. -/
theorem Sound.flags {w' : World} (hw : Sound c w) (hdisk : w'.disk = w.disk)
    (hcount : w'.journal.count = w.journal.count) (hbytes : w'.journal.bytes = w.journal.bytes)
    (hevents : w'.journal.events = w.journal.events) (hhead : w'.journal.head = w.journal.head)
    (hsealed : w'.journal.sealed = w.journal.sealed)
    (hpoisoned : w.journal.poisoned = true → w'.journal.poisoned = true)
    (havailable : w'.journal.available = true → w.journal.available = true) : Sound c w' := by
  obtain ⟨records, status, outcome, hrecorded, hholds, hstatus⟩ := hw.recorded
  constructor
  · exact ⟨records, status, outcome, hrecorded.congr hcount hbytes hevents hhead,
      hholds.congr hdisk hsealed hpoisoned, hsealed ▸ hstatus⟩
  · intro h
    have hready := hw.ready (havailable h)
    refine ⟨hready.roomy, ?_, ?_, ?_, ?_, ?_⟩
    · rw [hcount, hevents]
      exact hready.count
    · rw [hevents]
      exact hready.names
    · rw [hcount]
      exact hready.records
    · rw [hbytes]
      exact hready.bytes
    · rw [hhead]
      exact hready.head

theorem Sound.fail (hw : Sound c w) : Sound c w.fail :=
  hw.flags rfl rfl rfl rfl rfl rfl id id

theorem Sound.poison (hw : Sound c w) : Sound c w.poison :=
  hw.flags rfl rfl rfl rfl rfl rfl (fun _ => rfl) (fun h => absurd (available_iff.mp h).1 nofun)

theorem Sound.close (hw : Sound c w) (raises : Bool) : Sound c (w.close raises).1 := by
  unfold World.close
  by_cases hclosed : w.journal.closed = true
  · rw [if_pos hclosed]
    exact hw
  · rw [if_neg hclosed]
    by_cases hraises : (w.journal.owns && raises) = true
    · rw [if_pos hraises]
      exact hw.flags rfl rfl rfl rfl rfl rfl id (fun h => absurd (available_iff.mp h).2.1 nofun)
    · rw [if_neg hraises]
      exact hw.flags rfl rfl rfl rfl rfl rfl id (fun h => absurd (available_iff.mp h).2.1 nofun)

theorem Sound.claim (hw : Sound c w) (owner : Nat) (key tool argumentsSha256 : Json) :
    Sound c (w.claim owner key tool argumentsSha256).1 := by
  unfold World.claim
  by_cases howner : w.journal.owner.isSome = true
  · rw [if_pos howner]
    exact hw
  · rw [if_neg howner]
    split
    · exact hw.flags rfl rfl rfl rfl rfl rfl id id
    · exact hw.flags rfl rfl rfl rfl rfl rfl id id

theorem Sound.closeClaim (hw : Sound c w) (owner : Nat) (raises : Bool) :
    Sound c (w.closeClaim owner raises).1 := by
  unfold World.closeClaim
  by_cases howner : w.journal.owner = some owner
  · rw [if_pos howner]
    exact hw.close raises
  · rw [if_neg howner]
    exact hw

/-! ## One record more -/

variable {kind : Text} {payload : Json} {raw : Bytes} {records : List Bytes} {status : Status}
  {outcome : Option Json}

theorem Ready.previous (hready : Ready c j) : ∀ r, j.head = some r → r.Sound := by
  obtain ⟨r, hr, hsound, -, -⟩ := hready.head
  intro r' hr'
  obtain rfl := Option.some.inj (hr.symm.trans hr')
  exact hsound

/-- A record in its place makes the chain longer. -/
theorem Recorded.chained_next (hrecorded : Recorded c j records status outcome)
    (hv : Value (recordJson kind j.count j.head payload))
    (hraw : c.encode (recordJson kind j.count j.head payload) = .ok raw) : Chained c (records ++ [raw]) := by
  obtain ⟨hsequence, hprevious, -, -⟩ := get_parsed hv
  obtain ⟨-, -, -, -, -, -, hparse⟩ := encode_spec hv hraw
  refine .next hrecorded.chained hparse ?_ ?_
  · rw [hsequence, hrecorded.length]
  · rw [hprevious, hrecorded.head]

/-- **A confirmed record** is counted by the verifier as the journal counts it. -/
theorem Recorded.next (hrecorded : Recorded c j records .incomplete outcome)
    (hprevious : ∀ r, j.head = some r → r.Sound) (hv : Value (recordJson kind j.count j.head payload))
    (hraw : c.encode (recordJson kind j.count j.head payload) = .ok raw)
    (hcount : j.count + 1 ≤ c.maxRecords) (htotal : j.bytes + raw.length ≤ c.maxTotalBytes)
    {j' : Journal} {status' : Status} {outcome' : Option Json}
    (hcount' : j'.count = j.count + 1) (hbytes' : j'.bytes = j.bytes + raw.length)
    (hhead' : j'.head = some (refOf raw))
    (hkind : ∀ summary, (summary = none → j.count = 0) → ∃ summary', summary' ≠ none ∧
      Walk.kind ⟨j.count + 1, j.bytes + raw.length, j.events, summary, j.head, .incomplete, outcome⟩
        (.str kind) payload.sortKeys =
      .ok ⟨j.count + 1, j.bytes + raw.length, j'.events, summary', j.head, status', outcome'⟩) :
    Recorded c j' (records ++ [raw]) status' outcome' := by
  obtain ⟨summary, hwalk, hsummary⟩ := hrecorded.walk
  obtain ⟨summary', hnone, hstep⟩ := hkind summary hsummary
  refine ⟨hrecorded.chained_next hv hraw, ?_, ?_, summary', ?_, fun h => absurd h hnone⟩
  · rw [List.length_append, hrecorded.length, hcount']
    rfl
  · rw [hhead', headOf, List.getLast?_concat, Option.map_some]
  · rw [foldlM_snoc hwalk, take_record hv hraw (value_previous hprevious) hcount htotal]
    rw [hstep, ok_bind, hcount', hbytes', hhead']

/-! ## What the operations check -/

theorem eventRaw_spec {event : Object} (h : j.eventRaw c event = .ok raw) : ∃ v, Value v ∧
    j.failed = false ∧ j.events + 2 ≤ 99999999 ∧
    c.encode (recordJson EVENT (j.events + 1) j.head v) = .ok raw ∧
    j.count + 2 ≤ c.maxRecords ∧ j.bytes + raw.length + c.maxRecordBytes ≤ c.maxTotalBytes := by
  obtain ⟨_, hfailed, h⟩ := bind_ok h
  have hfailed := require_iff.mp hfailed
  cases event with
  | other => exact absurd h nofun
  | json v held =>
      obtain ⟨_, hsequence, h⟩ := bind_ok h
      obtain ⟨raw', hraw, h⟩ := bind_ok h
      obtain ⟨_, hreserve, h⟩ := bind_ok h
      obtain rfl := Except.ok.inj h
      have hsequence := require_iff.mp hsequence
      have hreserve := require_iff.mp hreserve
      simp only [Bool.and_eq_true, decide_eq_true_eq, Bool.not_eq_true'] at hfailed hsequence hreserve
      exact ⟨v, held, hfailed, hsequence.1, hraw, hreserve.1, hreserve.2⟩

theorem sealRaw_spec {o : Object} {flag : Option Bool} (h : j.sealRaw c o flag = .ok raw) :
    ∃ v failed, Value v ∧ (∃ held, o = .json v held) ∧ flag = some failed ∧
    (j.failed = true → failed = true) ∧
    c.encode (recordJson SEAL (j.events + 1) j.head (sealJson v failed j.events)) = .ok raw ∧
    j.count + 1 ≤ c.maxRecords ∧ j.bytes + raw.length ≤ c.maxTotalBytes := by
  cases flag with
  | none => exact absurd h nofun
  | some failed =>
      obtain ⟨_, hfailed, h⟩ := bind_ok h
      have hfailed := require_iff.mp hfailed
      cases o with
      | other => exact absurd h nofun
      | json v held =>
          obtain ⟨raw', hraw, h⟩ := bind_ok h
          obtain ⟨_, hbudget, h⟩ := bind_ok h
          obtain rfl := Except.ok.inj h
          have hbudget := require_iff.mp hbudget
          simp only [Bool.and_eq_true, decide_eq_true_eq] at hbudget
          refine ⟨v, failed, held, ⟨held, rfl⟩, rfl, fun hj => ?_, hraw, hbudget.1, hbudget.2⟩
          rw [hj] at hfailed
          exact hfailed

theorem acceptRaw_spec {p : Json} (h : acceptRaw c j p = .ok raw) :
    c.encode (recordJson ACCEPT 0 none p) = .ok raw ∧ j.count + 2 ≤ c.maxRecords ∧
      j.bytes + raw.length + c.maxRecordBytes ≤ c.maxTotalBytes := by
  obtain ⟨raw', hraw, h⟩ := bind_ok h
  obtain ⟨_, hreserve, h⟩ := bind_ok h
  obtain rfl := Except.ok.inj h
  have hreserve := require_iff.mp hreserve
  simp only [Bool.and_eq_true, decide_eq_true_eq] at hreserve
  exact ⟨hraw, hreserve.1, hreserve.2⟩

/-- A publication that is acknowledged. -/
theorem publish_acknowledged {n : Nat} {reply : Reply}
    (h : acknowledges (expectedRef raw n) reply.value = true) :
    w.publish raw n reply = (w.confirm raw, .ok ()) := if_pos h

/-- A publication that is not. -/
theorem publish_unknown {n : Nat} {reply : Reply}
    (h : ¬ acknowledges (expectedRef raw n) reply.value = true) :
    w.publish raw n reply =
      (w.unknown raw reply.written, .error "publisher acknowledgment differs") := if_neg h

/-- A journal that is available has a disk with its confirmed records only. -/
theorem Sound.confirmed (hw : Sound c w) (h : w.journal.available = true) :
    ∃ outcome, Recorded c w.journal w.disk .incomplete outcome := by
  obtain ⟨records, status, outcome, hrecorded, hholds, hstatus⟩ := hw.recorded
  obtain ⟨hpoisoned, -, hsealed⟩ := available_iff.mp h
  obtain rfl := hstatus.mp hsealed
  rcases hholds with rfl | ⟨hp, -, -⟩
  · exact ⟨outcome, hrecorded⟩
  · cases hpoisoned.symm.trans hp

/-- **After an unknown publication** the disk holds the record or not, and the journal is
    poisoned. -/
theorem Sound.unknown (hw : Sound c w) (h : w.journal.available = true)
    (hv : Value (recordJson kind w.journal.count w.journal.head payload))
    (hraw : c.encode (recordJson kind w.journal.count w.journal.head payload) = .ok raw) (written : Bool) :
    Sound c (w.unknown raw written) := by
  obtain ⟨outcome, hrecorded⟩ := hw.confirmed h
  obtain ⟨-, -, hsealed⟩ := available_iff.mp h
  refine ⟨⟨w.disk, .incomplete, outcome, ⟨hrecorded.chained, hrecorded.length, hrecorded.head,
    hrecorded.walk⟩, ?_, fun _ => rfl, fun _ => hsealed⟩, fun h => absurd (available_iff.mp h).1 nofun⟩
  cases written with
  | true => exact .inr ⟨rfl, hsealed, raw, rfl, hrecorded.chained_next hv hraw⟩
  | false => exact .inl rfl

/-- **An append** keeps the invariant, whether it is refused, confirmed or unknown. -/
theorem Sound.append (hw : Sound c w) (event : Object) (reply : Reply) :
    Sound c (w.append c event reply).1 := by
  unfold World.append
  by_cases havailable : w.journal.available = true
  case neg =>
    rw [if_neg havailable]
    exact hw
  rw [if_pos havailable]
  cases heq : w.journal.eventRaw c event with
  | error e => exact hw.fail
  | ok raw =>
      obtain ⟨v, held, -, hnames, hraw, hrecords, hbytes⟩ := eventRaw_spec heq
      have hready := hw.ready havailable
      have hv : Value (recordJson EVENT w.journal.count w.journal.head v) :=
        value_record (by decide) hready.previous held
      rw [← hready.count] at hraw
      by_cases hack : acknowledges (expectedRef raw (w.journal.events + 1)) reply.value = true
      · obtain ⟨outcome, hrecorded⟩ := hw.confirmed havailable
        obtain ⟨-, -, hlength, hmax, hlong, -, -⟩ := encode_spec hv hraw
        dsimp only
        rw [publish_acknowledged hack]
        dsimp only
        refine ⟨⟨w.disk ++ [raw], .incomplete, outcome, ?_, .inl rfl, fun _ => rfl, fun _ =>
          (available_iff.mp havailable).2.2⟩, fun _ => ⟨hready.roomy, ?_, ?_, ?_, ?_, ?_⟩⟩
        · refine hrecorded.next hready.previous hv hraw (by omega) (by omega) rfl rfl rfl ?_
          intro summary hsummary
          have hpos : w.journal.count ≠ 0 := by
            rw [hready.count]
            exact Nat.succ_ne_zero _
          refine ⟨summary, fun h => hpos (hsummary h), ?_⟩
          unfold Walk.kind
          rw [if_neg (by dsimp only; omega), if_pos (show isText EVENT (.str EVENT) = true from beq_self_eq_true _)]
          rfl
        · exact congrArg (· + 1) hready.count
        · exact hnames
        · exact hrecords
        · exact hbytes
        · exact ⟨refOf raw, rfl, sound_refOf (by omega), hlong, hmax⟩
      · dsimp only
        rw [publish_unknown hack]
        exact (hw.unknown havailable hv hraw reply.written).fail

/-- The status of a seal. -/
def statusOf (failed : Bool) : Status := if failed then .failed else .complete

/-- The verifier at a seal. -/
theorem kind_seal {count total events : Nat} {summary : Option Summary} {head : Option Ref}
    {o : Json} (ho : Value o) (failed : Bool) (hcount : count ≠ 0) :
    Walk.kind ⟨count + 1, total, events, summary, head, .incomplete, outcome⟩ (.str SEAL)
        (sealJson o failed events).sortKeys =
      .ok ⟨count + 1, total, events, summary, head, statusOf failed, some o.sortKeys⟩ := by
  have hv := value_seal ho failed events
  have hevent : isText EVENT (.str SEAL) = false := by decide
  have hseal : isText SEAL (.str SEAL) = true := beq_self_eq_true _
  have hevents : get (sealJson o failed events).sortKeys "event_count" = some (.int events) := by
    rw [get_sortKeys hv]
    rfl
  have hstatus : get (sealJson o failed events).sortKeys "archive_status" = some (.str (statusText failed)) := by
    rw [get_sortKeys hv]
    rfl
  have houtcome : get (sealJson o failed events).sortKeys "outcome" = some o.sortKeys := by
    rw [get_sortKeys hv]
    rfl
  have hnumber : isNumber events (.int events) = true := beq_self_eq_true _
  unfold Walk.kind
  rw [if_neg (by dsimp only; omega), if_neg (by rw [hevent]; exact Bool.false_ne_true), if_pos hseal, hevents, hstatus, houtcome]
  dsimp only [Option.map_some, Option.getD_some]
  rw [require_of hnumber, ok_bind]
  cases failed with
  | true =>
      have hcomplete : ¬ isText (ascii "COMPLETE") (.str (statusText true)) = true := by decide
      rw [if_neg hcomplete]
      rfl
  | false =>
      have hcomplete : isText (ascii "COMPLETE") (.str (statusText false)) = true := by decide
      rw [if_pos hcomplete]
      rfl

/-- **A confirmed seal** ends the chain with its own status and outcome. -/
theorem Sound.sealed (hw : Sound c w) (h : w.journal.available = true) {o : Object} {flag : Option Bool}
    (hseal : w.journal.sealRaw c o flag = .ok raw) : ∃ v failed, flag = some failed ∧
    (∃ held, o = .json v held) ∧ (w.journal.failed = true → failed = true) ∧
    Value (recordJson SEAL w.journal.count w.journal.head (sealJson v failed w.journal.events)) ∧
    c.encode (recordJson SEAL w.journal.count w.journal.head (sealJson v failed w.journal.events)) = .ok raw ∧
    Recorded c (w.confirm raw).endChain.journal (w.disk ++ [raw]) (statusOf failed) (some v.sortKeys) := by
  obtain ⟨v, failed, held, hjson, hflag, hfailed, hraw, hcount, hbytes⟩ := sealRaw_spec hseal
  have hready := hw.ready h
  obtain ⟨outcome, hrecorded⟩ := hw.confirmed h
  have hv : Value (recordJson SEAL w.journal.count w.journal.head (sealJson v failed w.journal.events)) :=
    value_record (by decide) hready.previous (value_seal held failed _)
  rw [← hready.count] at hraw
  refine ⟨v, failed, hflag, hjson, hfailed, hv, hraw, ?_⟩
  refine hrecorded.next hready.previous hv hraw hcount hbytes rfl rfl rfl ?_
  intro summary hsummary
  have hpos : w.journal.count ≠ 0 := by
    rw [hready.count]
    exact Nat.succ_ne_zero _
  exact ⟨summary, fun h => hpos (hsummary h), kind_seal held failed hpos⟩

theorem Sound.seal (hw : Sound c w) (o : Object) (flag : Option Bool) (reply : Reply) :
    Sound c (w.seal c o flag reply).1 := by
  unfold World.seal
  by_cases havailable : w.journal.available = true
  case neg =>
    rw [if_neg havailable]
    exact hw
  rw [if_pos havailable]
  cases heq : w.journal.sealRaw c o flag with
  | error e => exact hw.poison
  | ok raw =>
      obtain ⟨v, failed, -, -, -, hv, hraw, hrecorded⟩ := hw.sealed havailable heq
      by_cases hack : acknowledges (expectedRef raw (w.journal.events + 1)) reply.value = true
      · dsimp only
        rw [publish_acknowledged hack]
        refine ⟨⟨w.disk ++ [raw], statusOf failed, some v.sortKeys, hrecorded, .inl rfl, nofun, ?_⟩,
          fun h => absurd (available_iff.mp h).2.2 nofun⟩
        cases failed <;> nofun
      · dsimp only
        rw [publish_unknown hack]
        exact (hw.unknown havailable hv hraw reply.written).poison

/-- A journal that was refused is closed, so it needs no room for a seal. -/
theorem sound_retired (hrecorded : Recorded c w.journal records .incomplete outcome)
    (hholds : Holds c w records) (hsealed : w.journal.sealed = false) (raises : Bool) :
    Sound c (w.fail.close raises).1 := by
  unfold World.close
  have hclosed : ∀ w' : World, w'.journal.closed = true → Recorded c w'.journal records .incomplete outcome →
      Holds c w' records → w'.journal.sealed = false → Sound c w' := fun w' h hr hh hs =>
    ⟨⟨records, .incomplete, outcome, hr, hh, fun _ => rfl, fun _ => hs⟩,
      fun ha => absurd (h.symm.trans (available_iff.mp ha).2.1) nofun⟩
  by_cases halready : w.fail.journal.closed = true
  · rw [if_pos halready]
    exact hclosed _ halready (hrecorded.congr rfl rfl rfl rfl) (hholds.congr rfl rfl id) hsealed
  · rw [if_neg halready]
    by_cases hraises : (w.fail.journal.owns && raises) = true
    · rw [if_pos hraises]
      exact hclosed _ rfl (hrecorded.congr rfl rfl rfl rfl) (hholds.congr rfl rfl id) hsealed
    · rw [if_neg hraises]
      exact hclosed _ rfl (hrecorded.congr rfl rfl rfl rfl) (hholds.congr rfl rfl id) hsealed

/-- A journal before its acceptance has written nothing. -/
theorem recorded_blank (owns : Bool) (parent : Json) :
    Recorded c (blank owns parent) [] .incomplete none :=
  ⟨.empty, rfl, rfl, none, rfl, fun _ => rfl⟩

/-- **A new journal** is sound, whether its acceptance is refused, confirmed or unknown. -/
theorem create_sound (c : Codec) (owns : Bool) (payload : Object) (reply : Reply) (raises : Bool) :
    Sound c (create c owns payload reply raises).1 := by
  unfold create
  cases payload with
  | other => exact sound_retired (recorded_blank owns .null) (.inl rfl) rfl raises
  | json p held =>
      dsimp only
      have hblank := recorded_blank (c := c) owns p
      cases heq : acceptRaw c (blank owns p) p with
      | error e => exact sound_retired hblank (.inl rfl) rfl raises
      | ok raw =>
          obtain ⟨hraw, hrecords, hbytes⟩ := acceptRaw_spec heq
          have hv : Value (recordJson ACCEPT 0 none p) := value_record (by decide) nofun held
          obtain ⟨hlevels, hrecord, hlength, hmax, hlong, htotal, -⟩ := encode_spec hv hraw
          obtain ⟨hdeep, hcost⟩ := accept_bounds held (acceptPayload_of_record hrecord)
          have hzero : (blank owns p).count = 0 := rfl
          have hnone : (blank owns p).bytes = 0 := rfl
          by_cases hack : acknowledges (expectedRef raw 0) reply.value = true
          · dsimp only
            rw [publish_acknowledged hack]
            refine ⟨⟨[raw], .incomplete, none, ?_, .inl rfl, fun _ => rfl, fun _ => rfl⟩, fun _ =>
              ⟨⟨by omega, by omega, by omega⟩, rfl, (by decide : 0 + 1 ≤ 99999999), ?_, ?_,
                refOf raw, rfl, sound_refOf (by omega), hlong, hmax⟩⟩
            · refine hblank.next nofun hv hraw ?_ ?_ rfl rfl rfl ?_
              · omega
              · omega
              · intro summary _
                refine ⟨some (summaryOf p.sortKeys), nofun, ?_⟩
                unfold Walk.kind
                rw [if_pos (show (blank owns p).count + 1 = 1 from rfl), require_of (show isText ACCEPT (.str ACCEPT) = true from beq_self_eq_true _)]
                rfl
            · show 0 + 1 + 1 ≤ c.maxRecords
              omega
            · show 0 + raw.length + c.maxRecordBytes ≤ c.maxTotalBytes
              omega
          · dsimp only
            rw [publish_unknown hack]
            refine sound_retired (hblank.congr rfl rfl rfl rfl) ?_ rfl raises
            cases reply.written with
            | true => exact .inr ⟨rfl, rfl, raw, rfl, hblank.chained_next hv hraw⟩
            | false => exact .inl rfl

/-- One call keeps the invariant. -/
theorem Sound.call (hw : Sound c w) (call : Call) : Sound c (w.call c call).1 := by
  cases call with
  | append event reply => exact hw.append event reply
  | sealChain o flag reply => exact hw.seal o flag reply
  | fail => exact hw.fail
  | claim owner key tool sha => exact hw.claim owner key tool sha
  | closeClaim owner raises => exact hw.closeClaim owner raises
  | close raises => exact hw.close raises

/-- **So does every run.** -/
theorem Sound.run (hw : Sound c w) (calls : List Call) : Sound c (w.run c calls) := by
  induction calls generalizing w with
  | nil => exact hw
  | cons call calls ih => exact ih (hw.call call)

theorem run_sound (c : Codec) (owns : Bool) (payload : Object) (reply : Reply) (raises : Bool)
    (calls : List Call) : Sound c ((create c owns payload reply raises).1.run c calls) :=
  (create_sound c owns payload reply raises).run calls

/-! ## What stays as it is -/

/-- The records and the numbers are the same, and so is what ended the journal. -/
structure Frozen (w w' : World) : Prop where
  disk : w'.disk = w.disk
  count : w'.journal.count = w.journal.count
  events : w'.journal.events = w.journal.events
  head : w'.journal.head = w.journal.head
  poisoned : w'.journal.poisoned = w.journal.poisoned
  sealed : w'.journal.sealed = w.journal.sealed
  closed : w.journal.closed = true → w'.journal.closed = true

theorem Frozen.refl (w : World) : Frozen w w := ⟨rfl, rfl, rfl, rfl, rfl, rfl, id⟩

theorem Frozen.trans {w' w'' : World} (h : Frozen w w') (h' : Frozen w' w'') : Frozen w w'' :=
  ⟨h'.disk.trans h.disk, h'.count.trans h.count, h'.events.trans h.events, h'.head.trans h.head,
    h'.poisoned.trans h.poisoned, h'.sealed.trans h.sealed, fun hc => h'.closed (h.closed hc)⟩

/-- A journal that is not available does not become so. -/
theorem Frozen.unavailable {w' : World} (h : Frozen w w') (ha : ¬ w.journal.available = true) :
    ¬ w'.journal.available = true := by
  intro ha'
  obtain ⟨hpoisoned, hclosed, hsealed⟩ := available_iff.mp ha'
  refine ha (available_iff.mpr ⟨h.poisoned ▸ hpoisoned, ?_, h.sealed ▸ hsealed⟩)
  cases hc : w.journal.closed with
  | false => rfl
  | true => exact absurd ((h.closed hc).symm.trans hclosed) nofun

theorem frozen_close (w : World) (raises : Bool) : Frozen w (w.close raises).1 := by
  unfold World.close
  split
  · exact .refl w
  · split <;> exact ⟨rfl, rfl, rfl, rfl, rfl, rfl, fun _ => rfl⟩

/-- A call on a journal that is not available changes flags only. -/
theorem frozen_call (h : ¬ w.journal.available = true) (call : Call) : Frozen w (w.call c call).1 := by
  cases call with
  | append event reply =>
      show Frozen w (w.append c event reply).1
      rw [World.append, if_neg h]
      exact .refl w
  | sealChain o flag reply =>
      show Frozen w (w.seal c o flag reply).1
      rw [World.seal, if_neg h]
      exact .refl w
  | fail => exact ⟨rfl, rfl, rfl, rfl, rfl, rfl, id⟩
  | claim owner key tool sha =>
      show Frozen w (w.claim owner key tool sha).1
      unfold World.claim
      split
      · exact .refl w
      · split <;> exact ⟨rfl, rfl, rfl, rfl, rfl, rfl, id⟩
  | closeClaim owner raises =>
      show Frozen w (w.closeClaim owner raises).1
      unfold World.closeClaim
      split
      · exact frozen_close w raises
      · exact .refl w
  | close raises => exact frozen_close w raises

/-- **A journal that was poisoned, closed or sealed publishes nothing more.** -/
theorem frozen_run (h : ¬ w.journal.available = true) (calls : List Call) :
    Frozen w (w.run c calls) := by
  induction calls generalizing w with
  | nil => exact .refl w
  | cons call calls ih =>
      have hcall := frozen_call (c := c) h call
      exact hcall.trans (ih (hcall.unavailable h))

/-! ## The journal is truthful -/

/-- An outcome as `seal` is given it. -/
def outcomeObject (o : Outcome) : Object :=
  .json (.str o.text) (pyText_printable (printable_outcome o))

/-- **A journal that is available can be sealed**, with the failed flag where it has failed. -/
theorem Sound.seal_fits (hw : Sound c w) (h : w.journal.available = true) (o : Outcome) (failed : Bool)
    (hfailed : w.journal.failed = true → failed = true) :
    ∃ raw, w.journal.sealRaw c (outcomeObject o) (some failed) = .ok raw ∧
      raw.length ≤ c.maxRecordBytes ∧ w.journal.count + 1 ≤ c.maxRecords ∧
      w.journal.bytes + raw.length ≤ c.maxTotalBytes := by
  have hready := hw.ready h
  obtain ⟨r, hr, hsound, hlong, hmax⟩ := hready.head
  obtain ⟨raw, hraw⟩ : ∃ raw, c.encode (sealRecord r (.str o.text) failed w.journal.events) = .ok raw :=
    encode_seal hready.roomy hsound hlong hmax hready.names
  have hv : Value (sealRecord r (.str o.text) failed w.journal.events) :=
    value_sealRecord hsound (pyText_printable (printable_outcome o))
  obtain ⟨-, -, -, -, hbytes, -, -⟩ := encode_spec hv hraw
  have hroom := hready.bytes
  have hcount := hready.records
  have hflag : (!w.journal.failed || failed) = true := by
    cases hj : w.journal.failed with
    | false => rfl
    | true => exact hfailed hj
  refine ⟨raw, ?_, hbytes, hcount, by omega⟩
  have hbudget : (decide (w.journal.count + 1 ≤ c.maxRecords) &&
      decide (w.journal.bytes + raw.length ≤ c.maxTotalBytes)) = true := by
    rw [Bool.and_eq_true, decide_eq_true_eq, decide_eq_true_eq]
    omega
  show (require (!w.journal.failed || failed) _ >>= fun _ =>
    c.encode (recordJson SEAL (w.journal.events + 1) w.journal.head
      (sealJson (.str o.text) failed w.journal.events)) >>= _) = _
  rw [require_of hflag, ok_bind, hr]
  show (c.encode (sealRecord r (.str o.text) failed w.journal.events) >>= _) = _
  rw [hraw, ok_bind, require_of hbudget, ok_bind]

/-- What `seal` leaves when it returns. -/
theorem seal_ok {o : Object} {flag : Option Bool} {reply : Reply} {w' : World}
    (h : w.seal c o flag reply = (w', .ok ())) : w.journal.available = true ∧
    ∃ raw, w.journal.sealRaw c o flag = .ok raw ∧
      w' = (w.confirm raw).endChain := by
  unfold World.seal at h
  by_cases havailable : w.journal.available = true
  case neg =>
    rw [if_neg havailable] at h
    exact absurd (congrArg Prod.snd h) nofun
  rw [if_pos havailable] at h
  refine ⟨havailable, ?_⟩
  cases heq : w.journal.sealRaw c o flag with
  | error e =>
      rw [heq] at h
      exact absurd (congrArg Prod.snd h) nofun
  | ok raw =>
      rw [heq] at h
      by_cases hack : acknowledges (expectedRef raw (w.journal.events + 1)) reply.value = true
      · dsimp only at h
        rw [publish_acknowledged hack] at h
        exact ⟨raw, rfl, (congrArg Prod.fst h).symm⟩
      · dsimp only at h
        rw [publish_unknown hack] at h
        exact absurd (congrArg Prod.snd h) nofun

/-- What is expected of a seal whose publication is acknowledged. -/
theorem seal_acknowledged {o : Object} {flag : Option Bool} {reply : Reply}
    (h : w.journal.available = true) (hraw : w.journal.sealRaw c o flag = .ok raw)
    (hack : acknowledges (expectedRef raw (w.journal.events + 1)) reply.value = true) :
    w.seal c o flag reply = ((w.confirm raw).endChain, .ok ()) := by
  unfold World.seal
  rw [if_pos h, hraw]
  dsimp only
  rw [publish_acknowledged hack]

end Invariant

/-- What a journal promises in a state. -/
structure Truthful (c : Codec) (w : World) : Prop where
  /-- The records written are a contiguous chain. -/
  chained : Chained c w.disk
  /-- The seal fits, and with an acknowledgment the journal is sealed. -/
  sealable : w.journal.available = true → ∀ (o : Outcome) (failed : Bool),
    (w.journal.failed = true → failed = true) →
    ∃ raw, w.journal.sealRaw c (outcomeObject o) (some failed) = .ok raw ∧
      raw.length ≤ c.maxRecordBytes ∧ w.journal.count + 1 ≤ c.maxRecords ∧
      w.journal.bytes + raw.length ≤ c.maxTotalBytes ∧
      ∀ reply, acknowledges (expectedRef raw (w.journal.events + 1)) reply.value = true →
        ∃ w', w.seal c (outcomeObject o) (some failed) reply = (w', .ok ()) ∧ w'.journal.sealed = true
  /-- A refused append marks the journal as failed. -/
  refused : w.journal.available = true → ∀ event reply w' e, w.append c event reply = (w', .error e) →
    w'.journal.failed = true
  /-- A failed journal has no seal without the failed flag. -/
  onlyFailed : w.journal.failed = true → ∀ o reply w', w.seal c o (some false) reply ≠ (w', .ok ())
  /-- An append whose publication is unknown poisons the journal, and so does every failed seal. -/
  unknownAppend : w.journal.available = true → ∀ event reply w' e raw,
    w.journal.eventRaw c event = .ok raw → w.append c event reply = (w', .error e) →
    w'.journal.poisoned = true
  unknownSeal : w.journal.available = true → ∀ o flag reply w' e,
    w.seal c o flag reply = (w', .error e) → w'.journal.poisoned = true
  /-- A poisoned journal stays so, and so does a sealed one; neither publishes anything. -/
  final : w.journal.poisoned = true ∨ w.journal.sealed = true → ∀ calls,
    (w.run c calls).disk = w.disk ∧ (w.run c calls).journal.poisoned = w.journal.poisoned ∧
    (w.run c calls).journal.sealed = w.journal.sealed
  /-- A sealed chain is verified, with the counts, the head, the outcome and the status of
      the seal, whatever is called later. -/
  verified : ∀ o flag reply w', w.seal c o flag reply = (w', .ok ()) → ∃ v failed, flag = some failed ∧
    (∃ held, o = .json v held) ∧ (w.journal.failed = true → failed = true) ∧ ∀ calls,
    (w'.run c calls).disk.length = (w'.run c calls).journal.count ∧
    ∃ summary, c.verify (w'.run c calls).disk = .ok
      { summary, eventCount := (w'.run c calls).journal.events, status := statusOf failed,
        outcome := some v.sortKeys, headRef := (w'.run c calls).journal.head }

section Truth

variable {c : Codec} {w : World}

theorem append_error {event : Object} {reply : Reply} {w' : World} {e : String}
    (havailable : w.journal.available = true) (h : w.append c event reply = (w', .error e)) :
    w'.journal.failed = true ∧
      ∀ raw, w.journal.eventRaw c event = .ok raw → w'.journal.poisoned = true := by
  unfold World.append at h
  rw [if_pos havailable] at h
  cases heq : w.journal.eventRaw c event with
  | error e' =>
      rw [heq] at h
      obtain rfl := congrArg Prod.fst h
      exact ⟨rfl, nofun⟩
  | ok raw =>
      rw [heq] at h
      by_cases hack : acknowledges (expectedRef raw (w.journal.events + 1)) reply.value = true
      · dsimp only at h
        rw [publish_acknowledged hack] at h
        exact absurd (congrArg Prod.snd h) nofun
      · dsimp only at h
        rw [publish_unknown hack] at h
        obtain rfl := congrArg Prod.fst h
        exact ⟨rfl, fun _ _ => rfl⟩

theorem seal_error {o : Object} {flag : Option Bool} {reply : Reply} {w' : World} {e : String}
    (havailable : w.journal.available = true) (h : w.seal c o flag reply = (w', .error e)) :
    w'.journal.poisoned = true := by
  unfold World.seal at h
  rw [if_pos havailable] at h
  cases heq : w.journal.sealRaw c o flag with
  | error e' =>
      rw [heq] at h
      obtain rfl := congrArg Prod.fst h
      rfl
  | ok raw =>
      rw [heq] at h
      by_cases hack : acknowledges (expectedRef raw (w.journal.events + 1)) reply.value = true
      · dsimp only at h
        rw [publish_acknowledged hack] at h
        exact absurd (congrArg Prod.snd h) nofun
      · dsimp only at h
        rw [publish_unknown hack] at h
        obtain rfl := congrArg Prod.fst h
        rfl

theorem Sound.chained (hw : Sound c w) : Chained c w.disk := by
  obtain ⟨records, status, outcome, hrecorded, hholds, -⟩ := hw.recorded
  rcases hholds with hdisk | ⟨-, -, raw, hdisk, hchain⟩
  · rw [hdisk]
    exact hrecorded.chained
  · rw [hdisk]
    exact hchain

/-- The verdict on a chain that was recorded. -/
theorem Recorded.verify {j : Journal} {records : List Bytes} {status : Status} {outcome : Option Json}
    (h : Recorded c j records status outcome) (hcount : j.count ≠ 0) : ∃ summary,
    c.verify records = .ok { summary, eventCount := j.events, status, outcome, headRef := j.head } := by
  obtain ⟨summary, hwalk, hnone⟩ := h.walk
  cases summary with
  | none => exact absurd (hnone rfl) hcount
  | some summary =>
      refine ⟨summary, ?_⟩
      unfold Codec.verify
      rw [hwalk]
      rfl

theorem Sound.verified (hw : Sound c w) {o : Object} {flag : Option Bool} {reply : Reply} {w' : World}
    (h : w.seal c o flag reply = (w', .ok ())) : ∃ v failed, flag = some failed ∧
    (∃ held, o = .json v held) ∧ (w.journal.failed = true → failed = true) ∧ ∀ calls,
    (w'.run c calls).disk.length = (w'.run c calls).journal.count ∧
    ∃ summary, c.verify (w'.run c calls).disk = .ok
      { summary, eventCount := (w'.run c calls).journal.events, status := statusOf failed,
        outcome := some v.sortKeys, headRef := (w'.run c calls).journal.head } := by
  obtain ⟨havailable, raw, hraw, rfl⟩ := seal_ok h
  obtain ⟨v, failed, hflag, hjson, hfailed, -, -, hrecorded⟩ := hw.sealed havailable hraw
  refine ⟨v, failed, hflag, hjson, hfailed, fun calls => ?_⟩
  have hended : ¬ (w.confirm raw).endChain.journal.available = true := fun ha =>
    absurd (available_iff.mp ha).2.2 nofun
  have hfrozen := frozen_run (c := c) hended calls
  rw [hfrozen.disk, hfrozen.count, hfrozen.events, hfrozen.head]
  exact ⟨hrecorded.length, hrecorded.verify (Nat.succ_ne_zero _)⟩

/-- **Every sound state is truthful.** -/
theorem Sound.truthful (hw : Sound c w) : Truthful c w where
  chained := hw.chained
  sealable havailable o failed hfailed := by
    obtain ⟨raw, hraw, hlength, hcount, hbytes⟩ := hw.seal_fits havailable o failed hfailed
    exact ⟨raw, hraw, hlength, hcount, hbytes, fun reply hack =>
      ⟨_, seal_acknowledged havailable hraw hack, rfl⟩⟩
  refused havailable event reply w' e h := (append_error havailable h).1
  onlyFailed hfailed o reply w' h := by
    obtain ⟨-, raw, hraw, -⟩ := seal_ok h
    obtain ⟨v, failed, -, -, hflag, hkeep, -⟩ := sealRaw_spec hraw
    obtain rfl := Option.some.inj hflag
    cases hkeep hfailed
  unknownAppend havailable event reply w' e raw hraw h := (append_error havailable h).2 raw hraw
  unknownSeal havailable o flag reply w' e h := seal_error havailable h
  final hended calls := by
    have hfrozen := frozen_run (c := c) (w := w) (fun ha => by
      obtain ⟨hpoisoned, -, hsealed⟩ := available_iff.mp ha
      rcases hended with h | h
      · cases h.symm.trans hpoisoned
      · cases h.symm.trans hsealed) calls
    exact ⟨hfrozen.disk, hfrozen.poisoned, hfrozen.sealed⟩
  verified o flag reply w' h := hw.verified h

/-- **A journal is truthful in every run**: whatever is appended, refused, unknown, failed or
    sealed. -/
theorem journal_truthful (c : Codec) (owns : Bool) (payload : Object) (reply : Reply) (raises : Bool)
    (calls : List Call) : Truthful c ((create c owns payload reply raises).1.run c calls) :=
  (run_sound c owns payload reply raises calls).truthful

/-! A seal with the failed flag on a journal that has not failed. -/

/-- What a publisher answers for a record that it has written. -/
def acknowledgment (raw : Bytes) (sequence : Nat) : Reply :=
  ⟨some (.obj [(ascii "ref", expectedRef raw sequence), (ascii "identity", .obj [])]), true⟩

theorem acknowledges_own (raw : Bytes) (n : Nat) :
    acknowledges (expectedRef raw n) (acknowledgment raw n).value = true := by
  show (true && true && (true && true && true && true &&
    canonical (expectedRef raw n) == canonical (expectedRef raw n))) = true
  rw [beq_self_eq_true]
  rfl

def sampleCodec : Codec :=
  { maxRecords := 4, maxRecordBytes := 4096, maxTotalBytes := 16384, maxJsonDepth := 8, positive := by decide }

def samplePayload : Json :=
  .obj [(ascii "key", .obj [(ascii "instance_id", .str (ascii "i")), (ascii "session_id", .str (ascii "s")),
      (ascii "request_id_type", .str (ascii "integer")), (ascii "request_id", .int 1)]),
    (ascii "tool", .str (ascii "t")), (ascii "arguments_sha256", .str (List.replicate 64 48)),
    (ascii "acceptance_sequence", .int 1)]

theorem value_samplePayload : Value samplePayload := by
  have hplain : ∀ s ∈ [ascii "key", ascii "instance_id", ascii "i", ascii "session_id", ascii "s",
      ascii "request_id_type", ascii "integer", ascii "request_id", ascii "tool", ascii "t",
      ascii "arguments_sha256", List.replicate 64 48, ascii "acceptance_sequence"],
      ∀ c ∈ s, c < 0x110000 := by decide
  simp only [List.forall_mem_cons] at hplain
  obtain ⟨h1, h2, h3, h4, h5, h6, h7, h8, h9, h10, h11, h12, h13, -⟩ := hplain
  exact ⟨rfl, ⟨h1, rfl, ⟨h2, h3⟩, ⟨h4, h5⟩, ⟨h6, h7⟩, ⟨h8, trivial⟩, trivial⟩, ⟨h9, h10⟩, ⟨h11, h12⟩,
    ⟨h13, trivial⟩, trivial⟩

/-- The journal of the sample, once its acceptance is confirmed. -/
def sampleWorld (raw : Bytes) : World := World.confirm ⟨blank false samplePayload, []⟩ raw

theorem sample_created : ∃ raw, create sampleCodec false (.json samplePayload value_samplePayload)
    (acknowledgment raw 0) false = (sampleWorld raw, .ok ()) := by
  have hok : (acceptRaw sampleCodec (blank false samplePayload) samplePayload).toOption.isSome = true := by
    decide +kernel
  cases hraw : acceptRaw sampleCodec (blank false samplePayload) samplePayload with
  | error e =>
      rw [hraw] at hok
      exact absurd hok nofun
  | ok raw =>
      refine ⟨raw, ?_⟩
      unfold create
      dsimp only
      rw [hraw]
      dsimp only
      rw [publish_acknowledged (acknowledges_own raw 0)]
      rfl

/-- **A journal that has not failed may be sealed as failed.** -/
theorem sealed_as_failed : ¬ ∀ (c : Codec) (owns : Bool) (payload : Object) (reply : Reply) (raises : Bool)
    (calls : List Call), ((create c owns payload reply raises).1.run c calls).journal.sealed = true →
    ∃ verdict, c.verify ((create c owns payload reply raises).1.run c calls).disk = .ok verdict ∧
      (verdict.status = .complete ↔
        ((create c owns payload reply raises).1.run c calls).journal.failed = false) := by
  intro hall
  obtain ⟨raw, hcreate⟩ := sample_created
  have hsound := create_sound sampleCodec false (.json samplePayload value_samplePayload)
    (acknowledgment raw 0) false
  rw [hcreate] at hsound
  obtain ⟨last, hlast, -⟩ := hsound.seal_fits rfl .returned true (fun _ => rfl)
  have hseal := seal_acknowledged rfl hlast (acknowledges_own last _)
  obtain ⟨v, failed, hflag, -, -, hverified⟩ := hsound.verified hseal
  obtain rfl := Option.some.inj hflag
  obtain ⟨-, summary, hverdict⟩ := hverified []
  have hrun : World.run sampleCodec (sampleWorld raw)
      [.sealChain (outcomeObject .returned) (some true) (acknowledgment last 1)] =
      ((sampleWorld raw).confirm last).endChain := congrArg Prod.fst hseal
  have hclaim := hall sampleCodec false (.json samplePayload value_samplePayload) (acknowledgment raw 0) false
    [.sealChain (outcomeObject .returned) (some true) (acknowledgment last 1)]
  rw [hcreate, hrun] at hclaim
  obtain ⟨verdict, hverify, hstatus⟩ := hclaim rfl
  obtain rfl := Except.ok.inj (hverify.symm.trans hverdict)
  exact absurd (hstatus.mpr rfl) nofun

end Truth

end RequestJournal
