import VeloTransfer.AttemptCatalogProofs

/-! # Attempt ledger — every attempt of an instance, and its catalog

    A ledger admits attempts, gives each accepted one a journal, and writes what becomes
    of them to the catalog.  Its state has one lock, its catalog another, and an attempt
    goes on in a thread of its own; a step here is what a thread does under one lock.

    * `shifted` — what a step of an attempt may be;
    * `Shifted.edge`, `Shifted.marks`, `Shifted.calm` — what each of them is to the attempt;
    * `publish_cases` — a row is confirmed, in doubt, or was not tried;
    * `Steady.step` — every event keeps the counters of the attempts, and what the holder of
      the lock relies on. -/

namespace AttemptLedger

open CanonicalJson JsonLine BoundedJson JsonLimits JsonDict ExceptRules ArchiveCodec AttemptCatalog
open RequestJournal (World Journal Object Reply Call fileName expectedRef acknowledges)

/-! ## What is approved -/

/-- `_budgets`: the budgets, and what they reserve. -/
structure Budgets where
  maxAttempts : Nat
  maxActive : Nat
  maxCatalogRecords : Nat
  maxCatalogRecordBytes : Nat
  maxTotalArchiveBytes : Nat
  maxKeyBytes : Nat
  maxSeenKeyBytes : Nat
  maxJsonDepth : Nat
  codec : Codec
  positive : 1 ≤ maxAttempts ∧ 1 ≤ maxActive ∧ 1 ≤ maxCatalogRecordBytes ∧ 1 ≤ maxKeyBytes ∧ 1 ≤ maxJsonDepth
  request : 2 ≤ codec.maxRecords ∧ codec.maxRecords ≤ 100000000 ∧ 2 * codec.maxRecordBytes ≤ codec.maxTotalBytes
  counts : maxActive ≤ maxAttempts ∧ 3 * maxAttempts + 2 ≤ maxCatalogRecords ∧
    maxCatalogRecords ≤ 100000000 ∧ maxAttempts * maxKeyBytes ≤ maxSeenKeyBytes
  reserve : (3 * maxAttempts + 2) * maxCatalogRecordBytes + maxAttempts * codec.maxTotalBytes +
    maxActive * codec.maxRecordBytes + maxCatalogRecordBytes ≤ maxTotalArchiveBytes

/-- The codec of the catalog that the budgets make. -/
def Budgets.catalog (b : Budgets) : CatalogCodec where
  maxRecords := b.maxCatalogRecords
  maxRecordBytes := b.maxCatalogRecordBytes
  maxTotalBytes := b.maxCatalogRecords * b.maxCatalogRecordBytes
  maxJsonDepth := b.maxJsonDepth
  positive := by
    obtain ⟨-, -, hbytes, -, hdepth⟩ := b.positive
    obtain ⟨-, hrecords, -, -⟩ := b.counts
    exact ⟨by omega, hbytes, Nat.mul_pos (by omega) hbytes, hdepth⟩
  nameable := b.counts.2.2.1

/-! ## The attempts -/

/-- Whose attempt it is: what was checked of the arguments of `begin`. -/
structure Parent where
  key : Json
  tool : Text
  argumentsSha256 : Text
  line : Bytes
  held : Value key
  toolText : PyText tool
  shaText : PyText argumentsSha256
  encodes : encoded key = some line

/-- `_Attempt.state`. -/
inductive State where
  | begun
  | accepting
  | accepted
  | finishing
  | ended
  | unknown
deriving Repr, DecidableEq

/-- Where the thread of an attempt is. -/
inductive Phase where
  | entering
  | begun
  | refused
  | accepting
  | journalled
  | acked
  | acceptFailed
  | acceptPoisoned
  | acceptLost
  | accepted
  | finishing (outcome : Outcome)
  | reopening
  | checking (outcome : Outcome)
  | checked (outcome : Outcome) (failed : Bool) (events : Nat)
  | recorded
  | finishFailed
  | finishMarked
  | finishLost
  | ended
  | done
  | lost
deriving Repr, DecidableEq

/-- What `state` says in a phase. -/
def Phase.state : Phase → State
  | .entering | .begun => .begun
  | .accepting | .journalled | .acked | .acceptFailed | .acceptPoisoned => .accepting
  | .accepted => .accepted
  | .finishing _ | .reopening | .checking _ | .checked .. | .recorded | .finishFailed => .finishing
  | .refused | .ended | .done => .ended
  | .acceptLost | .finishMarked | .finishLost | .lost => .unknown

/-- `_Attempt`; its sequence is its place among the attempts, from one on.  The counts of
    its `_RequestPublisher` are those of its journal. -/
structure Attempt where
  parent : Parent
  reason : Option Reason
  phase : Phase
  active : Bool
  journal : Option World

def Attempt.state (a : Attempt) : State := a.phase.state

/-- `_directory(attempt.sequence, attempt.key)`. -/
def Attempt.directory (a : Attempt) (i : Nat) : Text := AttemptCatalog.directory (i + 1) a.parent.line

/-- What an attempt's journal is opened with. -/
def Parent.payload (p : Parent) (i : Nat) : Json :=
  .obj [(ascii "key", p.key), (ascii "tool", .str p.tool), (ascii "arguments_sha256", .str p.argumentsSha256),
    (ascii "acceptance_sequence", .int (i + 1 : Nat))]

theorem Parent.value_payload (p : Parent) (i : Nat) : Value (p.payload i) := by
  have hplain : ∀ s ∈ ["key", "tool", "arguments_sha256", "acceptance_sequence"],
      ∀ x ∈ ascii s, x < 0x110000 := by decide
  simp only [List.forall_mem_cons] at hplain
  obtain ⟨h1, h2, h3, h4, -⟩ := hplain
  exact ⟨rfl, ⟨h1, p.held⟩, ⟨h2, p.toolText⟩, ⟨h3, p.shaText⟩, ⟨h4, trivial⟩, trivial⟩

/-- The publisher of a journal fails in a call on it. -/
def troubles (c : Codec) (w : World) : Call → Bool
  | .append event reply => w.journal.available && match w.journal.eventRaw c event with
      | .ok raw => !acknowledges (expectedRef raw (w.journal.events + 1)) reply.value
      | .error _ => false
  | .sealChain outcome failed reply => w.journal.available && match w.journal.sealRaw c outcome failed with
      | .ok raw => !acknowledges (expectedRef raw (w.journal.events + 1)) reply.value
      | .error _ => false
  | .closeClaim owner raises => decide (w.journal.owner = some owner) && !w.journal.closed && raises
  | .close raises => !w.journal.closed && raises
  | _ => false

/-- The originals of a request that `finish` reads back: their status and their events. -/
def Attempt.verified (c : Codec) (a : Attempt) (i : Nat) (outcome : Outcome) : Option (Bool × Nat) :=
  match a.journal with
  | none => none
  | some w =>
      let j := w.journal
      if j.sealed && !j.poisoned && !j.closeFailed && j.closed && j.owner.isSome && w.disk.length == j.count then
        match c.verify w.disk with
        | .error _ => none
        | .ok v =>
            if canonical v.summary.key == canonical a.parent.key && isText (· == a.parent.tool) v.summary.tool &&
                isText (· == a.parent.argumentsSha256) v.summary.argumentsSha256 &&
                isNumber (i + 1 : Nat) v.summary.acceptanceSequence &&
                (match v.outcome with | some o => isText (· == outcome.text) o | none => false) &&
                v.status != .incomplete && v.headRef == j.head &&
                (w.disk.map List.length).sum == j.bytes && j.events == v.eventCount then
              some (v.status == .failed, v.eventCount)
            else none
      else none

/-- What the thread of an attempt, or the user of its journal, does. -/
inductive AttemptEvent where
  | accept
  /-- The directory is allocated, and the journal makes its acceptance; `fails` where that
      comes to nothing before there is a journal. -/
  | create (fails : Bool) (reply : Reply) (raises : Bool)
  | return
  | call (call : Call)
  | finish (outcome : Outcome)
  | diagnose (raises : Bool)
  | reopen
  | check (fails : Bool)
  | settle
  | fail
deriving Inhabited

/-- The acceptance was written, or its publisher could not be closed. -/
def createTroubles (c : Codec) (p : Parent) (i : Nat) (raises : Bool) : Bool :=
  raises || (RequestJournal.acceptRaw c (RequestJournal.blank true (p.payload i)) (p.payload i)).toOption.isSome

/-- A step of an attempt, and whether it makes the ledger unknown. -/
def Attempt.step (c : Codec) (available open_ : Bool) (i : Nat) (a : Attempt) : AttemptEvent → Option (Attempt × Bool)
  | .accept =>
      if available && a.phase == .begun then some ({ a with phase := .accepting }, false) else none
  | .create fails reply raises =>
      if a.phase != .accepting then none
      else if fails then some ({ a with phase := .acceptFailed }, false)
      else match RequestJournal.create c true (.json (a.parent.payload i) (a.parent.value_payload i)) reply raises with
        | (w, .ok ()) => some ({ a with phase := .journalled, journal := some w }, false)
        | (_, .error _) => some ({ a with phase := .acceptFailed }, createTroubles c a.parent i raises)
  | .return => if a.phase == .acked then some ({ a with phase := .accepted }, false) else none
  | .call call =>
      match a.journal with
      | some w => some ({ a with journal := some (w.call c call).1 }, troubles c w call)
      | none => none
  | .finish outcome =>
      if open_ && a.phase == .accepted then some ({ a with phase := .finishing outcome }, false) else none
  | .diagnose raises =>
      match a.phase, a.journal with
      | .finishing outcome, some w =>
          if raises then some ({ a with phase := .reopening }, true)
          else if w.journal.closed then some ({ a with phase := .checking outcome }, false)
          else some ({ a with phase := .reopening }, false)
      | _, _ => none
  | .reopen => if a.phase == .reopening then some ({ a with phase := .accepted }, false) else none
  | .check fails =>
      match a.phase with
      | .checking outcome =>
          match fails, a.verified c i outcome with
          | false, some (failed, events) => some ({ a with phase := .checked outcome failed events }, false)
          | _, _ => some ({ a with phase := .finishFailed }, false)
      | _ => none
  | .settle => if a.phase == .recorded then some ({ a with phase := .ended }, false) else none
  | .fail =>
      match a.phase with
      -- A failed `accept` makes the ledger unknown before it marks the attempt, a failed
      -- `finish` behind it.
      | .acceptFailed => some ({ a with phase := .acceptPoisoned }, true)
      | .acceptPoisoned => some ({ a with phase := .acceptLost }, false)
      | .finishFailed => some ({ a with phase := .finishMarked }, false)
      | .finishMarked => some ({ a with phase := .finishLost }, true)
      | _ => none

/-! ## The ledger -/

/-- Who holds the catalog's lock, and what for. -/
inductive Holder where
  | deciding (parent : Parent) (reason : Option Reason)
  | beginning (i : Nat)
  | rejecting (i : Nat)
  | abandoning (i : Nat)
  | acking (i : Nat)
  | ending (i : Nat)
  | closing
  | certifying
  | leaving

/-- `ArchiveAttemptLedger`, and the records of its catalog's directory. -/
structure Ledger where
  instanceId : Text
  attempts : List Attempt
  seen : List Bytes
  seenBytes : Nat
  attemptCount : Nat
  active : Nat
  requestReserve : Nat
  accepted : Nat
  rejected : Nat
  catalogCount : Nat
  catalogBytes : Nat
  head : Option Ref
  unknown : Bool
  closed : Bool
  closing : Bool
  holder : Option Holder
  disk : List Bytes

/-- What the two rechecks around a publication and the catalog's publisher answer. -/
structure Answer where
  before : Bool
  reply : Reply
  after : Bool

/-- The publication is confirmed. -/
def Answer.confirms (answer : Answer) (raw : Bytes) (sequence : Nat) : Bool :=
  answer.before && acknowledges (expectedRef raw sequence) answer.reply.value && answer.after

/-- The record is on the disk, confirmed or not. -/
def Answer.leaves (answer : Answer) (raw : Bytes) (sequence : Nat) : Bool :=
  answer.before && (acknowledges (expectedRef raw sequence) answer.reply.value || answer.reply.written)

/-- `_available`. -/
def Ledger.available (w : Ledger) : Bool := !(w.closed || w.closing || w.unknown)

/-- `_raw`. -/
def Ledger.raw (b : Budgets) (w : Ledger) (kind : Text) (payload : Json) : Except String Bytes :=
  b.catalog.encode (rowJson w.instanceId w.catalogCount w.head kind payload)

/-- The row is written, and counted. -/
def Ledger.confirm (w : Ledger) (raw : Bytes) : Ledger :=
  { w with head := some (refOf raw), catalogCount := w.catalogCount + 1,
           catalogBytes := w.catalogBytes + raw.length, disk := w.disk ++ [raw] }

/-- The row is written or not. -/
def Ledger.doubt (w : Ledger) (raw : Bytes) (written : Bool) : Ledger :=
  { w with unknown := true, disk := if written then w.disk ++ [raw] else w.disk }

/-- `_publish`. -/
def Ledger.publish (b : Budgets) (w : Ledger) (kind : Text) (payload : Json) (answer : Answer) :
    Ledger × Except String Unit :=
  match w.raw b kind payload with
  | .error e => (w, .error e)
  | .ok raw =>
      if w.catalogCount < b.maxCatalogRecords ∧ w.catalogBytes + raw.length ≤ b.catalog.maxTotalBytes then
        if answer.confirms raw w.catalogCount then (w.confirm raw, .ok ())
        else (w.doubt raw (answer.leaves raw w.catalogCount), .error "publication_ack_differs")
      else (w, .error "catalog_budget")

/-- The reason to reject an attempt, if there is one. -/
def Ledger.reason (b : Budgets) (w : Ledger) (line : Bytes) : Option Reason :=
  if w.seen.contains line then some .duplicate
  else if b.maxActive ≤ w.active then some .activeLimit
  else if b.maxSeenKeyBytes < w.seenBytes + line.dropLast.length then some .seenLimit
  else if b.maxTotalArchiveBytes < w.requestReserve + b.codec.maxTotalBytes +
      (3 * b.maxAttempts + 2) * b.maxCatalogRecordBytes + b.maxActive * b.codec.maxRecordBytes +
      b.maxCatalogRecordBytes then some .byteLimit
  else none

/-- The checks of `begin`, up to its decision. -/
def Ledger.decide (b : Budgets) (w : Ledger) (key tool argumentsSha256 : Object) : Option Holder :=
  match key, tool, argumentsSha256 with
  | .json k hk, .json (.str t) ht, .json (.str s) hs =>
      match hline : encoded k, ArchiveCodec.key k with
      | some line, .ok () =>
          let reason := w.reason b line
          if isText (· == w.instanceId) (read k "instance_id") && !t.isEmpty && isHexOf 64 s &&
              line.length ≤ b.maxKeyBytes + 1 && w.available && w.attemptCount < b.maxAttempts &&
              (w.raw b ATTEMPT_BEGIN (beginJson (w.attemptCount + 1) k t s reason)).toOption.isSome then
            some (.deciding ⟨k, t, s, line, hk, ht, hs, hline⟩ reason)
          else none
      | _, _ => none
  | _, _, _ => none

/-- An attempt before its begin. -/
def fresh (parent : Parent) (reason : Option Reason) : Attempt := ⟨parent, reason, .entering, reason.isNone, none⟩

/-- The attempt is recorded in memory, before its begin is published. -/
def Ledger.reserve (b : Budgets) (w : Ledger) (parent : Parent) (reason : Option Reason) : Ledger :=
  { w with
    attemptCount := w.attemptCount + 1
    attempts := w.attempts ++ [fresh parent reason]
    seen := if w.seen.contains parent.line then w.seen else parent.line :: w.seen
    seenBytes := if w.seen.contains parent.line then w.seenBytes
      else w.seenBytes + parent.line.dropLast.length
    active := if reason.isNone then w.active + 1 else w.active
    requestReserve := if reason.isNone then w.requestReserve + b.codec.maxTotalBytes else w.requestReserve
    holder := some (.beginning w.attempts.length) }

def Ledger.put (w : Ledger) (i : Nat) (a : Attempt) : Ledger := { w with attempts := w.attempts.set i a }

/-- `_retire`, where the thread goes on in the phase. -/
def Ledger.retire (w : Ledger) (i : Nat) (a : Attempt) (phase : Phase) : Ledger :=
  { w.put i { a with active := false, phase } with active := if a.active then w.active - 1 else w.active }

/-- The row that the holder of the lock is to publish. -/
def Ledger.due (w : Ledger) : Option (Text × Json) :=
  match w.holder with
  | some (.beginning i) => w.attempts[i]?.map fun a => (ATTEMPT_BEGIN,
      beginJson (i + 1) a.parent.key a.parent.tool a.parent.argumentsSha256 a.reason)
  | some (.rejecting i) => some (ATTEMPT_END, rejectionJson (i + 1))
  | some (.acking i) => w.attempts[i]?.bind fun a => a.journal.bind fun j => j.disk.head?.map fun raw =>
      (ACCEPT_ACK, ackJson (i + 1) (a.directory i ++ 47 :: fileName 0) (refOf raw))
  | some (.ending i) => w.attempts[i]?.bind fun a =>
      match a.phase, a.journal with
      | .checked outcome failed events, some j => j.journal.head.map fun r =>
          (ATTEMPT_END, endJson (i + 1) failed outcome (a.directory i ++ 47 :: fileName (j.journal.count - 1)) r
            j.journal.count events j.journal.bytes)
      | _, _ => none
  | some .certifying => some (INSTANCE_END, instanceEndJson w.attemptCount w.accepted w.rejected)
  | _ => none

/-- The lock is released with the attempt in the phase. -/
def Ledger.leave (w : Ledger) (i : Nat) (phase : Phase) : Ledger :=
  { w with attempts := w.attempts.modify i fun a => { a with phase }, holder := none }

/-- What follows a publication of the holder that was confirmed. -/
def Ledger.published (w : Ledger) : Ledger :=
  match w.holder with
  | some (.beginning i) =>
      if (w.attempts[i]?.bind Attempt.reason).isNone then w.leave i .begun else { w with holder := some (.rejecting i) }
  | some (.rejecting i) => { w.leave i .refused with rejected := w.rejected + 1 }
  | some (.acking i) => { w.leave i .acked with accepted := w.accepted + 1 }
  | some (.ending i) => w.leave i .recorded
  | some .certifying => { w with holder := some .leaving }
  | _ => w

/-- What follows one that was not. -/
def Ledger.unpublished (w : Ledger) : Ledger :=
  match w.holder with
  | some (.beginning i) => { w with unknown := true, holder := some (.abandoning i) }
  | some (.rejecting i) => { w with unknown := true, holder := some (.abandoning i) }
  | some (.acking i) => w.leave i .acceptFailed
  | some (.ending i) => w.leave i .finishFailed
  | some .certifying => { w with unknown := true, holder := some .leaving }
  | _ => w

/-- What happens to a ledger. -/
inductive Event where
  | begin (key tool argumentsSha256 : Object)
  | reserve
  | publish (answer : Answer)
  | abandon
  | attempt (i : Nat) (event : AttemptEvent)
  | lock (i : Nat)
  | retire (i : Nat)
  | close
  | certify
  | leave (fails : Bool)

/-- One step of a thread; what no thread is ready for changes nothing. -/
def Ledger.step (b : Budgets) (w : Ledger) : Event → Ledger
  | .begin key tool argumentsSha256 =>
      match w.holder, w.decide b key tool argumentsSha256 with
      | none, some holder => { w with holder := some holder }
      | _, _ => w
  | .reserve =>
      match w.holder with
      | some (.deciding parent reason) => w.reserve b parent reason
      | _ => w
  | .publish answer =>
      match w.due with
      | some (kind, payload) =>
          match w.publish b kind payload answer with
          | (w', .ok ()) => w'.published
          | (w', .error _) => w'.unpublished
      | none => w
  | .abandon =>
      match w.holder with
      | some (.abandoning i) =>
          match w.attempts[i]? with
          | some a => { w.retire i a a.phase with holder := none }
          | none => w
      | _ => w
  | .attempt i event =>
      match w.attempts[i]? with
      | some a =>
          match a.step b.codec w.available (!w.closed && !w.closing) i event with
          | some (a', troubled) => { w.put i a' with unknown := w.unknown || troubled }
          | none => w
      | none => w
  | .lock i =>
      match w.holder, w.attempts[i]?.map Attempt.phase with
      | none, some .journalled =>
          if w.available then { w with holder := some (.acking i) } else w.leave i .acceptFailed
      | none, some (.checked ..) =>
          if w.available then { w with holder := some (.ending i) } else w.leave i .finishFailed
      | _, _ => w
  | .retire i =>
      match w.attempts[i]? with
      | some a =>
          match a.phase with
          | .acceptLost | .finishLost => w.retire i a .lost
          | .ended => w.retire i a .done
          | _ => w
      | none => w
  | .close =>
      if w.holder.isNone && !w.closed && w.active == 0 then { w with closing := true, holder := some .closing } else w
  | .certify =>
      match w.holder with
      | some .closing =>
          if !w.unknown && w.attempts.all fun a => a.state == .ended then { w with holder := some .certifying }
          else { w with unknown := true, holder := some .leaving }
      | _ => w
  | .leave fails =>
      match w.holder with
      | some .leaving => { w with closed := true, unknown := w.unknown || fails, holder := none }
      | _ => w

def Ledger.run (b : Budgets) (w : Ledger) (events : List Event) : Ledger := events.foldl (Ledger.step b) w

/-- A ledger before its first row. -/
def blank (instanceId : Text) : Ledger :=
  { instanceId, attempts := [], seen := [], seenBytes := 0, attemptCount := 0, active := 0, requestReserve := 0,
    accepted := 0, rejected := 0, catalogCount := 0, catalogBytes := 0, head := none, unknown := false,
    closed := false, closing := false, holder := none, disk := [] }

/-- What an instance is opened with: the configuration, the freeze and the root. -/
structure Opening where
  configRef : Json
  freezeRef : Json
  rootIdentity : Json
  values : Value configRef ∧ Value freezeRef ∧ Value rootIdentity

def Opening.payload (opening : Opening) : Json :=
  .obj [(ascii "config_ref", opening.configRef), (ascii "freeze_ref", opening.freezeRef),
    (ascii "root_identity", opening.rootIdentity)]

theorem Opening.value_payload (opening : Opening) : Value opening.payload := by
  have hplain : ∀ s ∈ ["config_ref", "freeze_ref", "root_identity"], ∀ x ∈ ascii s, x < 0x110000 := by
    decide
  simp only [List.forall_mem_cons] at hplain
  obtain ⟨h1, h2, h3, -⟩ := hplain
  obtain ⟨hconfig, hfreeze, hroot⟩ := opening.values
  exact ⟨rfl, ⟨h1, hconfig⟩, ⟨h2, hfreeze⟩, ⟨h3, hroot⟩, trivial⟩

/-- `open_approved`. -/
def openApproved (b : Budgets) (instanceId : Text) (opening : Opening) (answer : Answer) : Except String Ledger := do
  require (isHexOf 32 instanceId) "instance_invalid"
  -- The last row is tried out before the first directory is made.
  let _ ← b.catalog.encode (rowJson instanceId 1 (some ⟨1, List.replicate 64 48⟩) INSTANCE_END (instanceEndJson 0 0 0))
  match (blank instanceId).publish b INSTANCE_BEGIN opening.payload answer with
  | (w, .ok ()) => .ok w
  | (_, .error e) => .error e

/-! ## What an attempt does -/

section Attempts

variable {c : Codec} {a a' : Attempt} {troubled : Bool}

/-- What a step of an attempt may be. -/
inductive Shifted (c : Codec) (a : Attempt) : Attempt → Bool → Prop
  | accept (h : a.phase = .begun) : Shifted c a { a with phase := .accepting } false
  | uncreated (h : a.phase = .accepting) (troubled : Bool) :
      Shifted c a { a with phase := .acceptFailed } troubled
  | created (h : a.phase = .accepting) (w : World) (hsound : RequestJournal.Sound c w) :
      Shifted c a { a with phase := .journalled, journal := some w } false
  | returned (h : a.phase = .acked) : Shifted c a { a with phase := .accepted } false
  | called (w : World) (h : a.journal = some w) (call : Call) :
      Shifted c a { a with journal := some (w.call c call).1 } (troubles c w call)
  | finish (h : a.phase = .accepted) (outcome : Outcome) :
      Shifted c a { a with phase := .finishing outcome } false
  | raised {outcome : Outcome} (h : a.phase = .finishing outcome) :
      Shifted c a { a with phase := .reopening } true
  | unclosed {outcome : Outcome} (h : a.phase = .finishing outcome) (w : World) (hjournal : a.journal = some w)
      (hopen : w.journal.closed = false) : Shifted c a { a with phase := .reopening } false
  | closed {outcome : Outcome} (h : a.phase = .finishing outcome) (w : World) (hjournal : a.journal = some w)
      (hclosed : w.journal.closed = true) : Shifted c a { a with phase := .checking outcome } false
  | reopened (h : a.phase = .reopening) : Shifted c a { a with phase := .accepted } false
  | unchecked {outcome : Outcome} (h : a.phase = .checking outcome) :
      Shifted c a { a with phase := .finishFailed } false
  | checked {outcome : Outcome} (h : a.phase = .checking outcome) (failed : Bool) (events : Nat) :
      Shifted c a { a with phase := .checked outcome failed events } false
  | settled (h : a.phase = .recorded) : Shifted c a { a with phase := .ended } false
  | acceptPoisoned (h : a.phase = .acceptFailed) : Shifted c a { a with phase := .acceptPoisoned } true
  | acceptMarked (h : a.phase = .acceptPoisoned) : Shifted c a { a with phase := .acceptLost } false
  | finishMarked (h : a.phase = .finishFailed) : Shifted c a { a with phase := .finishMarked } false
  | finishPoisoned (h : a.phase = .finishMarked) : Shifted c a { a with phase := .finishLost } true

/-- **A step of an attempt** is one of these. -/
theorem shifted {available unclosed : Bool} {i : Nat} {event : AttemptEvent}
    (h : a.step c available unclosed i event = some (a', troubled)) : Shifted c a a' troubled := by
  have hpair : ∀ {x : Attempt} {t : Bool}, some (x, t) = some (a', troubled) → x = a' ∧ t = troubled := fun heq =>
    Prod.mk.inj (Option.some.inj heq)
  cases event with
  | accept =>
      simp only [Attempt.step] at h
      split at h
      next hphase =>
        rw [Bool.and_eq_true, beq_iff_eq] at hphase
        obtain ⟨rfl, rfl⟩ := hpair h
        exact .accept hphase.2
      · exact absurd h nofun
  | create fails reply raises =>
      simp only [Attempt.step] at h
      split at h
      · exact absurd h nofun
      next hphase =>
        rw [bne_iff_ne, not_not] at hphase
        split at h
        · obtain ⟨rfl, rfl⟩ := hpair h
          exact .uncreated hphase _
        · have hsound := RequestJournal.create_sound c true (.json (a.parent.payload i) (a.parent.value_payload i))
            reply raises
          split at h
          next w hcreate =>
            rw [hcreate] at hsound
            obtain ⟨rfl, rfl⟩ := hpair h
            exact .created hphase w hsound
          · obtain ⟨rfl, rfl⟩ := hpair h
            exact .uncreated hphase _
  | «return» =>
      simp only [Attempt.step] at h
      split at h
      next hphase =>
        obtain ⟨rfl, rfl⟩ := hpair h
        exact .returned (beq_iff_eq.mp hphase)
      · exact absurd h nofun
  | call call =>
      simp only [Attempt.step] at h
      split at h
      next w hw =>
        obtain ⟨rfl, rfl⟩ := hpair h
        exact .called w hw call
      · exact absurd h nofun
  | finish outcome =>
      simp only [Attempt.step] at h
      split at h
      next hphase =>
        rw [Bool.and_eq_true, beq_iff_eq] at hphase
        obtain ⟨rfl, rfl⟩ := hpair h
        exact .finish hphase.2 outcome
      · exact absurd h nofun
  | diagnose raises =>
      simp only [Attempt.step] at h
      split at h
      next outcome w hphase hw =>
        split at h
        · obtain ⟨rfl, rfl⟩ := hpair h
          exact .raised hphase
        · split at h
          next hclosed =>
            obtain ⟨rfl, rfl⟩ := hpair h
            exact .closed hphase w hw hclosed
          next hopen =>
            obtain ⟨rfl, rfl⟩ := hpair h
            exact .unclosed hphase w hw (Bool.eq_false_iff.mpr hopen)
      · exact absurd h nofun
  | reopen =>
      simp only [Attempt.step] at h
      split at h
      next hphase =>
        obtain ⟨rfl, rfl⟩ := hpair h
        exact .reopened (beq_iff_eq.mp hphase)
      · exact absurd h nofun
  | check fails =>
      simp only [Attempt.step] at h
      split at h
      next outcome hphase =>
        split at h
        · obtain ⟨rfl, rfl⟩ := hpair h
          exact .checked hphase _ _
        · obtain ⟨rfl, rfl⟩ := hpair h
          exact .unchecked hphase
      · exact absurd h nofun
  | settle =>
      simp only [Attempt.step] at h
      split at h
      next hphase =>
        obtain ⟨rfl, rfl⟩ := hpair h
        exact .settled (beq_iff_eq.mp hphase)
      · exact absurd h nofun
  | fail =>
      simp only [Attempt.step] at h
      split at h
      next hphase =>
        obtain ⟨rfl, rfl⟩ := hpair h
        exact .acceptPoisoned hphase
      next hphase =>
        obtain ⟨rfl, rfl⟩ := hpair h
        exact .acceptMarked hphase
      next hphase =>
        obtain ⟨rfl, rfl⟩ := hpair h
        exact .finishMarked hphase
      next hphase =>
        obtain ⟨rfl, rfl⟩ := hpair h
        exact .finishPoisoned hphase
      · exact absurd h nofun

/-- What a step of an attempt leaves as it is. -/
theorem Shifted.frame (h : Shifted c a a' troubled) :
    a'.parent = a.parent ∧ a'.reason = a.reason ∧ a'.active = a.active := by
  cases h <;> exact ⟨rfl, rfl, rfl⟩

/-- What the catalog has of an attempt in a phase, as acceptance and end; a thread that
    failed does not tell. -/
def Phase.marks : Phase → Option (Bool × Bool)
  | .entering | .begun | .accepting | .journalled => some (false, false)
  | .acked | .accepted | .finishing _ | .reopening | .checking _ | .checked .. => some (true, false)
  | .recorded | .ended | .done => some (true, true)
  | .refused => some (false, true)
  | .acceptFailed | .acceptPoisoned | .acceptLost | .finishFailed | .finishMarked | .finishLost | .lost => none

theorem Shifted.marks (h : Shifted c a a' troubled) :
    a'.phase.marks = none ∨ a'.phase.marks = a.phase.marks := by
  cases h with
  | called w hw call => exact .inr rfl
  | uncreated hphase => exact .inl rfl
  | unchecked hphase => exact .inl rfl
  | acceptPoisoned hphase => exact .inl rfl
  | acceptMarked hphase => exact .inl rfl
  | finishMarked hphase => exact .inl rfl
  | finishPoisoned hphase => exact .inl rfl
  | _ =>
      rw [‹a.phase = _›]
      exact .inr rfl

/-- A step from one state of an attempt to the next. -/
inductive Edge : State → State → Prop
  | stays (s : State) : Edge s s
  | accepting : Edge .begun .accepting
  | accepted : Edge .accepting .accepted
  | acceptLost : Edge .accepting .unknown
  | finishing : Edge .accepted .finishing
  | reopened : Edge .finishing .accepted
  | ended : Edge .finishing .ended
  | finishLost : Edge .finishing .unknown

theorem Shifted.edge (h : Shifted c a a' troubled) : Edge a.state a'.state := by
  unfold Attempt.state
  cases h with
  | accept hphase => exact hphase ▸ .accepting
  | uncreated hphase => exact hphase ▸ .stays _
  | created hphase => exact hphase ▸ .stays _
  | returned hphase => exact hphase ▸ .accepted
  | called w hw call => exact .stays _
  | finish hphase outcome => exact hphase ▸ .finishing
  | raised hphase => exact hphase ▸ .stays _
  | unclosed hphase => exact hphase ▸ .stays _
  | closed hphase => exact hphase ▸ .stays _
  | reopened hphase => exact hphase ▸ .reopened
  | unchecked hphase => exact hphase ▸ .stays _
  | checked hphase failed events => exact hphase ▸ .stays _
  | settled hphase => exact hphase ▸ .ended
  | acceptPoisoned hphase => exact hphase ▸ .stays _
  | acceptMarked hphase => exact hphase ▸ .acceptLost
  | finishMarked hphase => exact hphase ▸ .finishLost
  | finishPoisoned hphase => exact hphase ▸ .stays _

/-- An attempt goes back only where its journal was found open, or its diagnostics failed
    and the ledger is unknown. -/
theorem Shifted.found (h : Shifted c a a' troubled) (hphase : a'.phase = .reopening) :
    a.phase = .reopening ∨ troubled = true ∨ ∃ w, a.journal = some w ∧ w.journal.closed = false := by
  cases h with
  | called w hw call => exact .inl hphase
  | raised _ => exact .inr (.inl rfl)
  | unclosed _ w hw hopen => exact .inr (.inr ⟨w, hw, hopen⟩)
  | _ => exact absurd hphase nofun

/-- An attempt whose thread has ended, with or without an end in the catalog. -/
def Phase.retired : Phase → Bool
  | .refused | .done | .lost => true
  | _ => false

/-- The phases that are reached with the ledger unknown. -/
def Phase.poisoned : Phase → Bool
  | .acceptPoisoned | .acceptLost | .finishLost | .lost => true
  | _ => false

/-- The phases behind the look at a closed journal. -/
def Phase.closed : Phase → Bool
  | .checking _ | .checked .. | .recorded | .ended | .done => true
  | _ => false

/-- The phases in front of the journal. -/
def Phase.early : Phase → Bool
  | .entering | .begun | .refused | .accepting => true
  | _ => false

/-- What an attempt keeps, whatever else happens. -/
structure Calm (c : Codec) (unknown : Bool) (a : Attempt) : Prop where
  active : a.active = true → a.phase.retired = false
  idle : a.active = false → a.phase.retired = true ∨ unknown = true ∨ a.phase = .entering
  poisoned : a.phase.poisoned = true → unknown = true
  journalled : ∀ w, a.journal = some w → w.journal.closed = false → a.active = true ∨ unknown = true
  closed : a.phase.closed = true → ∃ w, a.journal = some w ∧ w.journal.closed = true
  early : a.phase.early = true → a.journal = none
  new : a.phase ≠ .entering → a.phase ≠ .refused → a.reason = none
  sound : ∀ w, a.journal = some w → RequestJournal.Sound c w

/-- A closed journal stays closed, and asks its publisher for nothing. -/
theorem call_closed {w : World} (h : w.journal.closed = true) (call : Call) :
    (w.call c call).1.journal.closed = true ∧ troubles c w call = false := by
  have hunavailable : w.journal.available = false := by
    unfold Journal.available
    rw [h, Bool.or_true, Bool.true_or]
    rfl
  refine ⟨(RequestJournal.frozen_call (ne_true_of_eq_false hunavailable) call).closed h, ?_⟩
  cases call with
  | append event reply =>
      unfold troubles
      rw [hunavailable]
      rfl
  | sealChain outcome failed reply =>
      unfold troubles
      rw [hunavailable]
      rfl
  | closeClaim owner raises =>
      unfold troubles
      rw [h]
      show (decide _ && false && raises) = false
      rw [Bool.and_false, Bool.false_and]
  | close raises =>
      unfold troubles
      rw [h]
      rfl
  | _ => rfl

theorem Calm.mono {u u' : Bool} (h : Calm c u a) (hu : u = true → u' = true) : Calm c u' a where
  active := h.active
  idle hidle := (h.idle hidle).imp_right (Or.imp_left hu)
  poisoned hphase := hu (h.poisoned hphase)
  journalled w hw hopen := (h.journalled w hw hopen).imp_right hu
  closed := h.closed
  early := h.early
  new := h.new
  sound := h.sound

/-- An attempt that has ended takes no step that matters. -/
theorem Shifted.ended {u : Bool} (h : Shifted c a a' troubled) (ha : Calm c u a) (hended : a.state = .ended) :
    a'.phase = a.phase ∧ troubled = false := by
  unfold Attempt.state at hended
  cases h with
  | called w hw call =>
      refine ⟨rfl, ?_⟩
      have hclosed : a.phase.closed = true ∨ a.phase.early = true := by
        revert hended
        cases a.phase <;> simp [Phase.state, Phase.closed, Phase.early]
      rcases hclosed with hclosed | hearly
      · obtain ⟨w', hw', hc⟩ := ha.closed hclosed
        obtain rfl := Option.some.inj (hw.symm.trans hw')
        exact (call_closed hc call).2
      · exact absurd (hw.symm.trans (ha.early hearly)) nofun
  | _ => exact absurd (‹a.phase = _› ▸ hended) nofun

/-- **A phase that follows another** keeps an attempt calm. -/
theorem Calm.move {u u' : Bool} {p : Phase} (ha : Calm c u a) (hu : u = true → u' = true)
    (hretired : a.phase.retired = false) (hentering : a.phase ≠ .entering) (hretired' : p.retired = false)
    (hpoisoned : p.poisoned = true → u' = true)
    (hclosed : p.closed = true → ∃ w, a.journal = some w ∧ w.journal.closed = true)
    (hearly : p.early = true → a.phase.early = true) : Calm c u' { a with phase := p } where
  active _ := hretired'
  idle hidle := by
    rcases ha.idle hidle with h | h | h
    · exact absurd (h.symm.trans hretired) nofun
    · exact .inr (.inl (hu h))
    · exact absurd h hentering
  poisoned := hpoisoned
  journalled w hw hopen := (ha.journalled w hw hopen).imp_right hu
  closed := hclosed
  early hphase := ha.early (hearly hphase)
  new _ _ := ha.new hentering fun hrefused => absurd (hrefused ▸ hretired) nofun
  sound := ha.sound

theorem Shifted.calm {u : Bool} (h : Shifted c a a' troubled) (ha : Calm c u a) : Calm c (u || troubled) a' := by
  have hor : u = true → (u || troubled) = true := fun hu => by
    rw [hu]
    rfl
  have hclosed : ∀ {p : Phase}, a.phase = p → p.closed = true →
      ∃ w, a.journal = some w ∧ w.journal.closed = true := fun hphase hp => ha.closed (hphase ▸ hp)
  cases h with
  | accept hphase => exact ha.move hor (hphase ▸ rfl) (hphase ▸ nofun) rfl nofun nofun (fun _ => hphase ▸ rfl)
  | uncreated hphase => exact ha.move hor (hphase ▸ rfl) (hphase ▸ nofun) rfl nofun nofun nofun
  | created hphase w hsound =>
      refine ⟨fun _ => rfl, fun hidle => ?_, nofun, fun _ _ _ => ?_, nofun, nofun,
        fun _ _ => ha.new (hphase ▸ nofun) (hphase ▸ nofun), fun w' hw' => Option.some.inj hw' ▸ hsound⟩
      · rcases ha.idle hidle with hr | hr | hr
        · exact absurd (hphase ▸ hr) nofun
        · exact .inr (.inl (hor hr))
        · exact absurd (hphase.symm.trans hr) nofun
      · cases hactive : a.active with
        | true => exact .inl rfl
        | false =>
            rcases ha.idle hactive with hr | hr | hr
            · exact absurd (hphase ▸ hr) nofun
            · exact .inr (hor hr)
            · exact absurd (hphase.symm.trans hr) nofun
  | returned hphase => exact ha.move hor (hphase ▸ rfl) (hphase ▸ nofun) rfl nofun nofun nofun
  | called w hw call =>
      refine ⟨ha.active, fun hidle => (ha.idle hidle).imp_right (Or.imp_left hor), fun hp => hor (ha.poisoned hp),
        fun w' hw' hopen => ?_, fun hp => ?_, fun hp => absurd (hw.symm.trans (ha.early hp)) nofun, ha.new,
        fun w' hw' => Option.some.inj hw' ▸ (ha.sound w hw).call call⟩
      · obtain rfl := Option.some.inj hw'
        have hbefore : w.journal.closed = false :=
          Bool.eq_false_iff.mpr fun hc => absurd ((call_closed (c := c) hc call).1.symm.trans hopen) nofun
        exact (ha.journalled w hw hbefore).imp_right hor
      · obtain ⟨w', hw', hc⟩ := ha.closed hp
        obtain rfl := Option.some.inj (hw.symm.trans hw')
        exact ⟨_, rfl, (call_closed hc call).1⟩
  | finish hphase outcome => exact ha.move hor (hphase ▸ rfl) (hphase ▸ nofun) rfl nofun nofun nofun
  | raised hphase => exact ha.move hor (hphase ▸ rfl) (hphase ▸ nofun) rfl nofun nofun nofun
  | unclosed hphase => exact ha.move hor (hphase ▸ rfl) (hphase ▸ nofun) rfl nofun nofun nofun
  | closed hphase w hw hc =>
      exact ha.move hor (hphase ▸ rfl) (hphase ▸ nofun) rfl nofun (fun _ => ⟨w, hw, hc⟩) nofun
  | reopened hphase => exact ha.move hor (hphase ▸ rfl) (hphase ▸ nofun) rfl nofun nofun nofun
  | unchecked hphase => exact ha.move hor (hphase ▸ rfl) (hphase ▸ nofun) rfl nofun nofun nofun
  | checked hphase failed events =>
      exact ha.move hor (hphase ▸ rfl) (hphase ▸ nofun) rfl nofun (fun _ => hclosed hphase rfl) nofun
  | settled hphase =>
      exact ha.move hor (hphase ▸ rfl) (hphase ▸ nofun) rfl nofun (fun _ => hclosed hphase rfl) nofun
  | acceptPoisoned hphase =>
      exact ha.move hor (hphase ▸ rfl) (hphase ▸ nofun) rfl (fun _ => Bool.or_true u) nofun nofun
  | acceptMarked hphase =>
      exact ha.move hor (hphase ▸ rfl) (hphase ▸ nofun) rfl (fun _ => hor (ha.poisoned (hphase ▸ rfl))) nofun nofun
  | finishMarked hphase => exact ha.move hor (hphase ▸ rfl) (hphase ▸ nofun) rfl nofun nofun nofun
  | finishPoisoned hphase =>
      exact ha.move hor (hphase ▸ rfl) (hphase ▸ nofun) rfl (fun _ => Bool.or_true u) nofun nofun

end Attempts

/-! ## What the ledger keeps -/

section Kept

variable {b : Budgets} {w : Ledger} {i : Nat} {a : Attempt}

theorem get_set {α : Type} {l : List α} {i j : Nat} {x y z : α} (hx : l[i]? = some x)
    (hz : (l.set i y)[j]? = some z) : i = j ∧ y = z ∨ i ≠ j ∧ l[j]? = some z := by
  obtain ⟨hlt, -⟩ := List.getElem?_eq_some_iff.mp hx
  rw [List.getElem?_set] at hz
  split at hz
  next heq =>
    exact .inl ⟨heq, Option.some.inj hz⟩
  next hne => exact .inr ⟨hne, hz⟩

theorem set_get {α : Type} {l : List α} {i k : Nat} {x y : α} {P : α → Prop} (hx : l[i]? = some x)
    (h : ∃ z, l[k]? = some z ∧ P z) (hP : P x → P y) : ∃ z, (l.set i y)[k]? = some z ∧ P z := by
  obtain ⟨z, hz, hPz⟩ := h
  obtain ⟨hlt, -⟩ := List.getElem?_eq_some_iff.mp hx
  by_cases heq : i = k
  · subst heq
    obtain rfl := Option.some.inj (hx.symm.trans hz)
    exact ⟨y, List.getElem?_set_self hlt, hP hPz⟩
  · exact ⟨z, (List.getElem?_set_ne heq).trans hz, hPz⟩

theorem modify_of_get {α : Type} {l : List α} {i : Nat} {x : α} (hx : l[i]? = some x) (f : α → α) :
    l.modify i f = l.set i (f x) := by
  induction l generalizing i with
  | nil => exact absurd hx nofun
  | cons y ys ih =>
      cases i with
      | zero =>
          obtain rfl := Option.some.inj hx
          rfl
      | succ i => exact congrArg (y :: ·) (ih hx)

theorem leave_of (ha : w.attempts[i]? = some a) (phase : Phase) :
    w.leave i phase = { w.put i { a with phase } with holder := none } := by
  unfold Ledger.leave Ledger.put
  rw [modify_of_get ha]

/-- The counters of the attempts, and the attempts one by one. -/
structure Steady (b : Budgets) (w : Ledger) : Prop where
  counted : w.attemptCount = w.attempts.length
  active : w.active = w.attempts.countP Attempt.active
  limit : w.active ≤ b.maxActive
  admitted : w.attemptCount ≤ b.maxAttempts
  calm : ∀ (i : Nat) (a : Attempt), w.attempts[i]? = some a → Calm b.codec w.unknown a

/-- What the holder of the catalog's lock may rely on. -/
def Held (b : Budgets) (w : Ledger) : Prop :=
  match w.holder with
  | some (.deciding parent reason) => w.attemptCount < b.maxAttempts ∧
      (reason = none → w.active < b.maxActive) ∧ (reason = some .duplicate ↔ parent.line ∈ w.seen)
  | some (.beginning i) => i + 1 = w.attempts.length ∧
      ∃ a, w.attempts[i]? = some a ∧ a.phase = .entering ∧ a.active = a.reason.isNone
  | some (.rejecting i) => ∃ a, w.attempts[i]? = some a ∧ a.phase = .entering ∧ a.reason ≠ none ∧ a.active = false
  | some (.abandoning i) => w.unknown = true ∧ ∃ a, w.attempts[i]? = some a ∧ a.phase = .entering
  | some (.acking i) => ∃ a, w.attempts[i]? = some a ∧ a.phase = .journalled
  | some (.ending i) => ∃ a, w.attempts[i]? = some a ∧ ∃ o f e, a.phase = .checked o f e
  | some .certifying => w.unknown = false ∧
      ∀ (i : Nat) (a : Attempt), w.attempts[i]? = some a → a.state = .ended
  | _ => True

theorem countP_set (ha : w.attempts[i]? = some a) (a' : Attempt) :
    (w.attempts.set i a').countP Attempt.active + a.active.toNat =
      w.attempts.countP Attempt.active + a'.active.toNat := by
  generalize w.attempts = l at ha
  induction l generalizing i with
  | nil => exact absurd ha nofun
  | cons x xs ih =>
      cases i with
      | zero =>
          obtain rfl := Option.some.inj ha
          rw [List.set_cons_zero, List.countP_cons, List.countP_cons]
          cases x.active <;> cases a'.active <;> simp
      | succ i =>
          have hxs := ih ha
          rw [List.set_cons_succ, List.countP_cons, List.countP_cons]
          omega

/-- An attempt changes; its flag does not. -/
theorem Steady.put (hw : Steady b w) (ha : w.attempts[i]? = some a) {a' : Attempt} {u : Bool}
    (hactive : a'.active = a.active) (hu : w.unknown = true → u = true) (hcalm : Calm b.codec u a') :
    Steady b { w.put i a' with unknown := u } := by
  refine ⟨?_, ?_, hw.limit, hw.admitted, fun j x hx => ?_⟩
  · exact hw.counted.trans List.length_set.symm
  · have hcount := countP_set ha a'
    rw [hactive] at hcount
    exact hw.active.trans (Nat.add_right_cancel hcount).symm
  · rcases get_set ha hx with ⟨-, rfl⟩ | ⟨-, hx⟩
    · exact hcalm
    · exact (hw.calm j x hx).mono hu

theorem Steady.leave (hw : Steady b w) (ha : w.attempts[i]? = some a) {phase : Phase}
    (hcalm : Calm b.codec w.unknown { a with phase }) : Steady b (w.leave i phase) := by
  rw [leave_of ha]
  have hput : Steady b { w.put i { a with phase } with unknown := w.unknown } := hw.put ha rfl id hcalm
  exact ⟨hput.counted, hput.active, hput.limit, hput.admitted, hput.calm⟩

theorem Steady.retire (hw : Steady b w) (ha : w.attempts[i]? = some a) {phase : Phase}
    (hcalm : Calm b.codec w.unknown { a with active := false, phase }) : Steady b (w.retire i a phase) := by
  have hcount := countP_set ha { a with active := false, phase }
  have hactive := hw.active
  have hlimit := hw.limit
  have hfalse : Bool.toNat { a with active := false, phase }.active = 0 := rfl
  refine ⟨hw.counted.trans List.length_set.symm, ?_, ?_, hw.admitted, fun j x hx => ?_⟩
  · show (if a.active then w.active - 1 else w.active) = _
    show _ = (w.attempts.set i { a with active := false, phase }).countP Attempt.active
    cases h : a.active with
    | true =>
        rw [h, hfalse] at hcount
        have hone : true.toNat = 1 := rfl
        rw [if_pos rfl]
        omega
    | false =>
        rw [h, hfalse] at hcount
        have hzero : false.toNat = 0 := rfl
        rw [if_neg Bool.false_ne_true]
        omega
  · show (if a.active then w.active - 1 else w.active) ≤ b.maxActive
    split <;> omega
  · rcases get_set ha hx with ⟨-, rfl⟩ | ⟨-, hx⟩
    · exact hcalm
    · exact hw.calm j x hx

/-! What each event keeps of that. -/

/-- **What a publication does**: it is confirmed, or in doubt, or was not tried. -/
inductive Published (b : Budgets) (w : Ledger) (kind : Text) (payload : Json) : Ledger × Except String Unit → Prop
  | confirmed {raw : Bytes} (hraw : w.raw b kind payload = .ok raw)
      (hbytes : w.catalogBytes + raw.length ≤ b.catalog.maxTotalBytes) :
      Published b w kind payload (w.confirm raw, .ok ())
  | doubted {raw : Bytes} (hraw : w.raw b kind payload = .ok raw)
      (hbytes : w.catalogBytes + raw.length ≤ b.catalog.maxTotalBytes) (written : Bool) (e : String) :
      Published b w kind payload (w.doubt raw written, .error e)
  | refused (e : String) : Published b w kind payload (w, .error e)

theorem publish_cases (w : Ledger) (kind : Text) (payload : Json) (answer : Answer) :
    Published b w kind payload (w.publish b kind payload answer) := by
  unfold Ledger.publish
  split
  · exact .refused _
  next raw hraw =>
    split
    next hroom =>
      split
      · exact .confirmed hraw hroom.2
      · exact .doubted hraw hroom.2 _ _
    · exact .refused _

/-- The attempt of a holder, with the phase that it publishes in. -/
theorem Steady.published (hw : Steady b w) (hheld : Held b w) : Steady b w.published ∧ Held b w.published := by
  unfold Ledger.published
  unfold Held at hheld
  split
  next i hholder =>
    rw [hholder] at hheld
    obtain ⟨-, a, ha, hphase, hactive⟩ := hheld
    rw [ha]
    have hcalm := hw.calm i a ha
    split
    next hnew =>
      refine ⟨hw.leave ha ⟨fun _ => rfl, fun hidle => absurd (hactive.symm.trans hidle) ?_, (by intro h; cases h), ?_, (by intro h; cases h),
        fun _ => hcalm.early (hphase ▸ rfl), fun _ _ => Option.isNone_iff_eq_none.mp hnew, hcalm.sound⟩, trivial⟩
      · rw [show a.reason.isNone = true from hnew]
        exact Bool.noConfusion
      · exact hcalm.journalled
    next hreason =>
      refine ⟨⟨hw.counted, hw.active, hw.limit, hw.admitted, hw.calm⟩, a, ha, hphase, ?_, ?_⟩
      · intro hnone
        rw [show (some a).bind Attempt.reason = a.reason from rfl, hnone] at hreason
        exact hreason rfl
      · rw [hactive]
        exact Bool.eq_false_iff.mpr hreason
  next i hholder =>
    rw [hholder] at hheld
    obtain ⟨a, ha, hphase, -, hactive⟩ := hheld
    have hcalm := hw.calm i a ha
    have hrefused : Calm b.codec w.unknown { a with phase := .refused } :=
      ⟨fun h => (by cases hactive.symm.trans h), fun _ => .inl rfl, (by intro h; cases h), hcalm.journalled, (by intro h; cases h),
        fun _ => hcalm.early (hphase ▸ rfl), fun _ hphase' => absurd rfl hphase', hcalm.sound⟩
    have hleft := hw.leave ha hrefused
    exact ⟨⟨hleft.counted, hleft.active, hleft.limit, hleft.admitted, hleft.calm⟩, trivial⟩
  next i hholder =>
    rw [hholder] at hheld
    obtain ⟨a, ha, hphase⟩ := hheld
    have hleft := hw.leave ha ((hw.calm i a ha).move (p := .acked) id (hphase ▸ rfl) (by rw [hphase]; intro h; cases h) rfl (by intro h; cases h)
      (by intro h; cases h) (by intro h; cases h))
    exact ⟨⟨hleft.counted, hleft.active, hleft.limit, hleft.admitted, hleft.calm⟩, trivial⟩
  next i hholder =>
    rw [hholder] at hheld
    obtain ⟨a, ha, o, f, e, hphase⟩ := hheld
    have hcalm := hw.calm i a ha
    exact ⟨hw.leave ha (hcalm.move (p := .recorded) id (hphase ▸ rfl) (by rw [hphase]; intro h; cases h) rfl (by intro h; cases h)
      (fun _ => hcalm.closed (hphase ▸ rfl)) (by intro h; cases h)), trivial⟩
  next hholder => exact ⟨⟨hw.counted, hw.active, hw.limit, hw.admitted, hw.calm⟩, trivial⟩
  next => exact ⟨hw, hheld⟩

/-- Who has a row to publish. -/
theorem due_holder {row : Text × Json} (h : w.due = some row) : (∃ i, w.holder = some (.beginning i)) ∨
    (∃ i, w.holder = some (.rejecting i)) ∨ (∃ i, w.holder = some (.acking i)) ∨
    (∃ i, w.holder = some (.ending i)) ∨ w.holder = some .certifying := by
  unfold Ledger.due at h
  split at h
  next i hholder => exact .inl ⟨i, hholder⟩
  next i hholder => exact .inr (.inl ⟨i, hholder⟩)
  next i hholder => exact .inr (.inr (.inl ⟨i, hholder⟩))
  next i hholder => exact .inr (.inr (.inr (.inl ⟨i, hholder⟩)))
  next hholder => exact .inr (.inr (.inr (.inr hholder)))
  · exact absurd h nofun

theorem Steady.unpublished {w' : Ledger} {row : Text × Json} (hw : Steady b w') (hheld : Held b w)
    (hdue : w.due = some row) (hattempts : w'.attempts = w.attempts) (hsame : w'.holder = w.holder) :
    Steady b w'.unpublished ∧ Held b w'.unpublished := by
  have hlost : ∀ j x, w'.attempts[j]? = some x → Calm b.codec true x := fun j x hx =>
    (hw.calm j x hx).mono fun _ => rfl
  unfold Held at hheld
  rw [← hattempts, ← hsame] at hheld
  unfold Ledger.unpublished
  split
  next i hholder =>
    rw [hholder] at hheld
    obtain ⟨-, a, ha, hphase, -⟩ := hheld
    exact ⟨⟨hw.counted, hw.active, hw.limit, hw.admitted, hlost⟩, rfl, a, ha, hphase⟩
  next i hholder =>
    rw [hholder] at hheld
    obtain ⟨a, ha, hphase, -⟩ := hheld
    exact ⟨⟨hw.counted, hw.active, hw.limit, hw.admitted, hlost⟩, rfl, a, ha, hphase⟩
  next i hholder =>
    rw [hholder] at hheld
    obtain ⟨a, ha, hphase⟩ := hheld
    exact ⟨hw.leave ha ((hw.calm i a ha).move (p := .acceptFailed) id (hphase ▸ rfl) (hphase ▸ nofun) rfl nofun
      nofun nofun), trivial⟩
  next i hholder =>
    rw [hholder] at hheld
    obtain ⟨a, ha, o, f, e, hphase⟩ := hheld
    exact ⟨hw.leave ha ((hw.calm i a ha).move (p := .finishFailed) id (hphase ▸ rfl) (hphase ▸ nofun) rfl nofun
      nofun nofun), trivial⟩
  next hholder => exact ⟨⟨hw.counted, hw.active, hw.limit, hw.admitted, hlost⟩, trivial⟩
  next hb hr ha he hc =>
    rcases due_holder hdue with ⟨i, h⟩ | ⟨i, h⟩ | ⟨i, h⟩ | ⟨i, h⟩ | h
    · exact absurd (hsame.trans h) (hb i)
    · exact absurd (hsame.trans h) (hr i)
    · exact absurd (hsame.trans h) (ha i)
    · exact absurd (hsame.trans h) (he i)
    · exact absurd (hsame.trans h) hc

theorem decide_spec {key tool argumentsSha256 : Object} {holder : Holder}
    (h : w.decide b key tool argumentsSha256 = some holder) : ∃ parent,
      holder = .deciding parent (w.reason b parent.line) ∧ w.available = true ∧ w.attemptCount < b.maxAttempts := by
  unfold Ledger.decide at h
  split at h
  · split at h
    · dsimp only at h
      split at h
      next hall =>
        simp only [Bool.and_eq_true, decide_eq_true_eq] at hall
        exact ⟨_, (Option.some.inj h).symm, hall.1.1.2, hall.1.2⟩
      · exact absurd h nofun
    · exact absurd h nofun
  · exact absurd h nofun

theorem reason_spec (line : Bytes) : (w.reason b line = some .duplicate ↔ line ∈ w.seen) ∧
    (w.reason b line = none → w.active < b.maxActive) := by
  unfold Ledger.reason
  by_cases hseen : w.seen.contains line = true
  · rw [if_pos hseen]
    exact ⟨⟨fun _ => List.contains_iff_mem.mp hseen, fun _ => rfl⟩, nofun⟩
  · rw [if_neg hseen]
    have hnot : line ∉ w.seen := fun h => hseen (List.contains_iff_mem.mpr h)
    by_cases hactive : b.maxActive ≤ w.active
    · rw [if_pos hactive]
      exact ⟨⟨nofun, fun h => absurd h hnot⟩, nofun⟩
    · rw [if_neg hactive]
      refine ⟨⟨fun h => ?_, fun h => absurd h hnot⟩, fun _ => Nat.lt_of_not_le hactive⟩
      split at h
      · exact absurd h nofun
      · split at h <;> exact absurd h nofun

theorem append_get {α : Type} {l : List α} {i : Nat} {x y : α} (h : (l ++ [x])[i]? = some y) :
    l[i]? = some y ∨ i = l.length ∧ x = y := by
  rcases Nat.lt_or_ge i l.length with hlt | hge
  · exact .inl ((List.getElem?_append_left hlt).symm.trans h)
  · rw [List.getElem?_append_right hge, List.getElem?_singleton] at h
    split at h
    next hzero => exact .inr ⟨by omega, Option.some.inj h⟩
    · exact absurd h nofun

theorem Steady.reserve {parent : Parent} {reason : Option Reason} (hw : Steady b w)
    (hcount : w.attemptCount < b.maxAttempts) (hactive : reason = none → w.active < b.maxActive) :
    Steady b (w.reserve b parent reason) ∧ Held b (w.reserve b parent reason) := by
  have hattempts : (w.reserve b parent reason).attempts = w.attempts ++ [fresh parent reason] := rfl
  have hcounter : (w.reserve b parent reason).active = if reason.isNone then w.active + 1 else w.active := rfl
  have hlast : (w.attempts ++ [fresh parent reason])[w.attempts.length]? = some (fresh parent reason) := by
    rw [List.getElem?_append_right (Nat.le_refl _), Nat.sub_self]
    rfl
  have hlimit := hw.limit
  refine ⟨⟨?_, ?_, ?_, hcount, fun i a ha => ?_⟩, ?_, fresh parent reason, hlast, rfl, rfl⟩
  · rw [hattempts, List.length_append, ← hw.counted]
    rfl
  · rw [hattempts, hcounter, List.countP_append, ← hw.active]
    cases reason <;> rfl
  · rw [hcounter]
    cases reason with
    | none => exact hactive rfl
    | some r => exact hlimit
  · rw [hattempts] at ha
    rcases append_get ha with ha | ⟨-, rfl⟩
    · exact hw.calm i a ha
    · exact ⟨fun _ => rfl, fun _ => .inr (.inr rfl), nofun, nofun, nofun, fun _ => rfl,
        fun hentering => absurd rfl hentering, nofun⟩
  · rw [hattempts, List.length_append]
    rfl

/-- A holder of the lock waits for its attempt, and its attempt for it. -/
theorem Shifted.stays {c : Codec} {a' : Attempt} {troubled : Bool} (h : Shifted c a a' troubled)
    (hphase : a.phase = .entering ∨ a.phase = .journalled ∨ ∃ o f e, a.phase = .checked o f e) :
    a'.phase = a.phase := by
  cases h with
  | called w hw call => rfl
  | _ =>
      have hbefore := ‹a.phase = _›
      rcases hphase with h | h | ⟨o, f, e, h⟩
      · exact absurd (h.symm.trans hbefore) nofun
      · exact absurd (h.symm.trans hbefore) nofun
      · exact absurd (h.symm.trans hbefore) nofun

theorem Held.put {a' : Attempt} {troubled : Bool} (hw : Steady b w) (hheld : Held b w)
    (ha : w.attempts[i]? = some a) (h : Shifted b.codec a a' troubled) :
    Held b { w.put i a' with unknown := w.unknown || troubled } := by
  obtain ⟨-, hreason, hactive⟩ := h.frame
  unfold Held at hheld ⊢
  dsimp only [Ledger.put]
  cases hholder : w.holder with
  | none => trivial
  | some holder =>
      rw [hholder] at hheld
      cases holder with
      | deciding parent reason => exact hheld
      | beginning k =>
          refine ⟨hheld.1.trans List.length_set.symm, set_get ha hheld.2 fun ⟨hphase, hflag⟩ => ?_⟩
          rw [h.stays (.inl hphase), hactive, hreason]
          exact ⟨hphase, hflag⟩
      | rejecting k =>
          refine set_get ha hheld fun ⟨hphase, hflag⟩ => ?_
          rw [h.stays (.inl hphase), hactive, hreason]
          exact ⟨hphase, hflag⟩
      | abandoning k =>
          refine ⟨?_, set_get ha hheld.2 fun hphase => (h.stays (.inl hphase)).trans hphase⟩
          rw [hheld.1]
          rfl
      | acking k => exact set_get ha hheld fun hphase => (h.stays (.inr (.inl hphase))).trans hphase
      | ending k =>
          refine set_get ha hheld fun hphase => ?_
          rw [h.stays (.inr (.inr hphase))]
          exact hphase
      | certifying =>
          obtain ⟨hknown, hended⟩ := hheld
          obtain ⟨hphase, rfl⟩ := h.ended (hw.calm i a ha) (hended i a ha)
          refine ⟨by rw [hknown]; rfl, fun j x hx => ?_⟩
          rcases get_set ha hx with ⟨-, rfl⟩ | ⟨-, hx⟩
          · exact (congrArg Phase.state hphase).trans (hended i a ha)
          · exact hended j x hx
      | _ => trivial

/-- The thread of an attempt ends. -/
theorem Held.retire (hheld : Held b w) (ha : w.attempts[i]? = some a) {phase : Phase}
    (hbefore : a.phase = .acceptLost ∨ a.phase = .finishLost ∨ a.phase = .ended ∧ phase = .done) :
    Held b (w.retire i a phase) := by
  have hother : ∀ {p : Phase}, p ≠ .acceptLost → p ≠ .finishLost → p ≠ .ended → a.phase ≠ p := by
    rintro p h1 h2 h3 rfl
    rcases hbefore with h | h | ⟨h, -⟩
    · exact h1 h
    · exact h2 h
    · exact h3 h
  unfold Held at hheld ⊢
  dsimp only [Ledger.retire, Ledger.put]
  cases hholder : w.holder with
  | none => trivial
  | some holder =>
      rw [hholder] at hheld
      cases holder with
      | deciding parent reason =>
          refine ⟨hheld.1, fun hnone => ?_, hheld.2.2⟩
          have hlt := hheld.2.1 hnone
          split <;> omega
      | beginning k =>
          exact ⟨hheld.1.trans List.length_set.symm,
            set_get ha hheld.2 fun hphase => absurd hphase.1 (hother nofun nofun nofun)⟩
      | rejecting k => exact set_get ha hheld fun hphase => absurd hphase.1 (hother nofun nofun nofun)
      | abandoning k => exact ⟨hheld.1, set_get ha hheld.2 fun hphase => absurd hphase (hother nofun nofun nofun)⟩
      | acking k => exact set_get ha hheld fun hphase => absurd hphase (hother nofun nofun nofun)
      | ending k =>
          exact set_get ha hheld fun ⟨o, f, e, hphase⟩ => absurd hphase (hother nofun nofun nofun)
      | certifying =>
          refine ⟨hheld.1, fun j x hx => ?_⟩
          rcases get_set ha hx with ⟨-, rfl⟩ | ⟨-, hx⟩
          · have hended : a.phase.state = .ended := hheld.2 i a ha
            rcases hbefore with h | h | ⟨-, rfl⟩
            · exact absurd (h ▸ hended) nofun
            · exact absurd (h ▸ hended) nofun
            · rfl
          · exact hheld.2 j x hx
      | _ => trivial

theorem Calm.retire {c : Codec} {u : Bool} (ha : Calm c u a) (h : a.phase = .acceptLost ∨ a.phase = .finishLost) :
    Calm c u { a with active := false, phase := .lost } := by
  have hu : u = true := ha.poisoned (by rcases h with h | h <;> exact h ▸ rfl)
  have hnew : a.reason = none := by rcases h with h | h <;> exact ha.new (h ▸ nofun) (h ▸ nofun)
  exact ⟨nofun, fun _ => .inl rfl, fun _ => hu, fun _ _ _ => .inr hu, nofun, nofun, fun _ _ => hnew, ha.sound⟩

theorem Calm.finish {c : Codec} {u : Bool} (ha : Calm c u a) (h : a.phase = .ended) :
    Calm c u { a with active := false, phase := .done } := by
  obtain ⟨w, hw, hclosed⟩ := ha.closed (h ▸ rfl)
  refine ⟨nofun, fun _ => .inl rfl, nofun, fun w' hw' hopen => ?_, fun _ => ⟨w, hw, hclosed⟩, nofun,
    fun _ _ => ha.new (h ▸ nofun) (h ▸ nofun), ha.sound⟩
  obtain rfl := Option.some.inj (hw.symm.trans hw')
  exact absurd (hclosed.symm.trans hopen) nofun

/-- The lock is taken, or the thread fails. -/
theorem Steady.lock (hw : Steady b w) (ha : w.attempts[i]? = some a) {holder : Holder} {phase : Phase}
    (hheld : Held b { w with holder := some holder }) (hcalm : Calm b.codec w.unknown { a with phase }) :
    let w' := if w.available then { w with holder := some holder } else w.leave i phase
    Steady b w' ∧ Held b w' := by
  dsimp only
  split
  · exact ⟨⟨hw.counted, hw.active, hw.limit, hw.admitted, hw.calm⟩, hheld⟩
  · exact ⟨hw.leave ha hcalm, trivial⟩

/-- **Every event keeps the counters and the attempts.** -/
theorem Steady.step (hw : Steady b w) (hheld : Held b w) (event : Event) :
    Steady b (w.step b event) ∧ Held b (w.step b event) := by
  cases event with
  | begin key tool argumentsSha256 =>
      simp only [Ledger.step]
      split
      next holder hnone hdecide =>
        obtain ⟨parent, rfl, -, hcount⟩ := decide_spec hdecide
        obtain ⟨hduplicate, hactive⟩ := reason_spec (b := b) (w := w) parent.line
        exact ⟨⟨hw.counted, hw.active, hw.limit, hw.admitted, hw.calm⟩, hcount, hactive, hduplicate⟩
      · exact ⟨hw, hheld⟩
  | reserve =>
      simp only [Ledger.step]
      split
      next parent reason hholder =>
        unfold Held at hheld
        rw [hholder] at hheld
        exact hw.reserve hheld.1 hheld.2.1
      · exact ⟨hw, hheld⟩
  | publish answer =>
      simp only [Ledger.step]
      split
      next kind payload hdue =>
        have hcases := publish_cases (b := b) w kind payload answer
        generalize w.publish b kind payload answer = result at hcases
        cases hcases with
        | @confirmed raw hraw hbytes =>
            have hsteady : Steady b (w.confirm raw) := ⟨hw.counted, hw.active, hw.limit, hw.admitted, hw.calm⟩
            exact hsteady.published hheld
        | @doubted raw hraw hbytes written e =>
            have hsteady : Steady b (w.doubt raw written) :=
              ⟨hw.counted, hw.active, hw.limit, hw.admitted, fun j x hx => (hw.calm j x hx).mono fun _ => rfl⟩
            exact hsteady.unpublished hheld hdue rfl rfl
        | refused e => exact hw.unpublished hheld hdue rfl rfl
      · exact ⟨hw, hheld⟩
  | abandon =>
      simp only [Ledger.step]
      split
      next k hholder =>
        unfold Held at hheld
        rw [hholder] at hheld
        obtain ⟨hunknown, x, hx, hphase⟩ := hheld
        have hcalm := hw.calm k x hx
        split
        next a ha =>
          obtain rfl := Option.some.inj (hx.symm.trans ha)
          have hidle : Calm b.codec w.unknown { x with active := false, phase := x.phase } :=
            ⟨nofun, fun _ => .inr (.inr hphase), fun _ => hunknown, fun _ _ _ => .inr hunknown, hcalm.closed,
              hcalm.early, hcalm.new, hcalm.sound⟩
          have hretired := hw.retire hx hidle
          exact ⟨⟨hretired.counted, hretired.active, hretired.limit, hretired.admitted, hretired.calm⟩, trivial⟩
        next hnone => exact absurd (hx.symm.trans hnone) nofun
      · exact ⟨hw, hheld⟩
  | attempt i event =>
      simp only [Ledger.step]
      split
      next a ha =>
        split
        next a' troubled hstep =>
          have hshift := shifted hstep
          obtain ⟨-, -, hactive⟩ := hshift.frame
          exact ⟨hw.put ha hactive (fun hu => by rw [hu]; rfl) (hshift.calm (hw.calm i a ha)), hheld.put hw ha hshift⟩
        · exact ⟨hw, hheld⟩
      · exact ⟨hw, hheld⟩
  | lock i =>
      simp only [Ledger.step]
      split
      next hnone hphase =>
        obtain ⟨a, ha, hphase⟩ := Option.map_eq_some_iff.mp hphase
        exact hw.lock ha ⟨a, ha, hphase⟩ ((hw.calm i a ha).move id (hphase ▸ rfl) (hphase ▸ nofun) rfl nofun nofun nofun)
      next hnone hphase =>
        obtain ⟨a, ha, hphase⟩ := Option.map_eq_some_iff.mp hphase
        exact hw.lock ha ⟨a, ha, _, _, _, hphase⟩
          ((hw.calm i a ha).move id (hphase ▸ rfl) (hphase ▸ nofun) rfl nofun nofun nofun)
      · exact ⟨hw, hheld⟩
  | retire i =>
      simp only [Ledger.step]
      split
      next a ha =>
        have hcalm := hw.calm i a ha
        split
        next hphase => exact ⟨hw.retire ha (hcalm.retire (.inl hphase)), hheld.retire ha (.inl hphase)⟩
        next hphase => exact ⟨hw.retire ha (hcalm.retire (.inr hphase)), hheld.retire ha (.inr (.inl hphase))⟩
        next hphase => exact ⟨hw.retire ha (hcalm.finish hphase), hheld.retire ha (.inr (.inr ⟨hphase, rfl⟩))⟩
        · exact ⟨hw, hheld⟩
      · exact ⟨hw, hheld⟩
  | close =>
      simp only [Ledger.step]
      split
      · exact ⟨⟨hw.counted, hw.active, hw.limit, hw.admitted, hw.calm⟩, trivial⟩
      · exact ⟨hw, hheld⟩
  | certify =>
      simp only [Ledger.step]
      split
      next hholder =>
        split
        next hall =>
          rw [Bool.and_eq_true, Bool.not_eq_true', List.all_eq_true] at hall
          refine ⟨⟨hw.counted, hw.active, hw.limit, hw.admitted, hw.calm⟩, hall.1, fun j x hx => ?_⟩
          exact beq_iff_eq.mp (hall.2 x (List.mem_of_getElem? hx))
        · exact ⟨⟨hw.counted, hw.active, hw.limit, hw.admitted, fun j x hx => (hw.calm j x hx).mono fun _ => rfl⟩,
            trivial⟩
      · exact ⟨hw, hheld⟩
  | leave fails =>
      simp only [Ledger.step]
      split
      next hholder =>
        refine ⟨⟨hw.counted, hw.active, hw.limit, hw.admitted, fun j x hx => (hw.calm j x hx).mono fun hu => ?_⟩,
          trivial⟩
        rw [hu]
        rfl
      · exact ⟨hw, hheld⟩

end Kept

end AttemptLedger
