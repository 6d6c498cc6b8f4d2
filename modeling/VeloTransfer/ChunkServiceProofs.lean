import VeloTransfer.GuestConcurrencyProofs
import VeloTransfer.GuestReceptionProofs
import VeloTransfer.PullTaskProofs
import VeloTransfer.WireFrameProofs

/-! # The service behind both ways to it

    A batch of chunks reaches the guest as a call of a tool or as a binary request.
    Both end in `invoke`, which calls `transfer_chunks` of the task that is there, and
    turns what it raises into the code of an error.

    * `transferChunks_same` — calls with the same bytes do the same, however the bytes
      were written;
    * `invoke_answer` — what an answer holds. -/

namespace ChunkService

open EffectPrograms Program FaultScript CanonicalJson GuestTerminal
open GuestTask (BatchCall BatchItem BatchReply Policy TaskState)
open PullTask (PullReply Bytes)

/-- A transfer task of the guest, on its machine. -/
inductive Task where
  | push (m : Machine Failure GuestTask.Disk)
  | pull (m : Machine Failure PullTask.Disk)

inductive Reply where
  | push (r : BatchReply)
  | pull (r : PullReply)
deriving Repr, DecidableEq

def isAlphanumeric (c : Nat) : Bool := (48 ≤ c && c ≤ 57) || (65 ≤ c && c ≤ 90) || (97 ≤ c && c ≤ 122)

/-- `_ID`, without the names of the service itself. -/
def isTransferId : Text → Bool
  | [] => false
  | c :: cs => isAlphanumeric c && cs.length ≤ 127 && cs.all (fun d => isAlphanumeric d || d == 95 || d == 46 || d == 45) &&
      !((ascii "guest-internal-").isPrefixOf (c :: cs))

/-- A call up to `_load`, which refuses what names no task. -/
def unnamed {δ α : Type} (policy : Policy) (c : BatchCall) : Effect Failure δ α := do
  raiseIf (¬ (0 < policy.maxBatchChunks.getD 0 ∧ policy.maxBatchChunks.getD 0 ≤ 64))
    (.error "batch_not_allowed")
  raiseIf (c.offset < 0) (.error "invalid_chunk_range")
  probe
  raise (.error "invalid_transfer_id")

def isNamed (c : BatchCall) : Bool := isTransferId c.transferId && Sha256.isHex c.requestDigest

/-- `transfer_chunks`. -/
def transferChunks (policy : Policy) (c : BatchCall) : Task → Outcome Failure Reply × Task
  | .push m =>
      match (if isNamed c then GuestTask.transferChunks policy c else unnamed policy c) m with
      | (.done r, m) => (.done (.push r), .push m)
      | (.raised e, m) => (.raised e, .push m)
      | (.crashed, m) => (.crashed, .push m)
  | .pull m =>
      match (if isNamed c then PullTask.transferChunks policy c else unnamed policy c) m with
      | (.done r, m) => (.done (.pull r), .pull m)
      | (.raised e, m) => (.raised e, .pull m)
      | (.crashed, m) => (.crashed, .pull m)

/-- `TransferEnvelope`; an error has a code of the contract. -/
inductive Envelope where
  | success (r : Reply)
  | error (code : String)
deriving Repr, DecidableEq

/-- `_failure`. -/
def failure (code : String) : Envelope :=
  if TransferWire.codeNames.contains code then .error code else .error "internal_error"

/-- `TransferToolService`: whether it was closed, whether a policy is configured, and
    what opening the service of the guest raises, if it does. -/
structure ToolService where
  closed : Bool
  configured : Bool
  opening : Option Failure
  policy : Policy

def failureOf : Failure → Envelope
  | .error code => failure code
  | .osError => failure "internal_error"

/-- `invoke`, for `transfer_chunks`; there is no answer when the process is gone. -/
def invoke (service : ToolService) (c : BatchCall) (t : Task) : Option Envelope × Task :=
  if service.closed then (some (failure "transfer_service_closed"), t)
  else if service.configured = false then (some (failure "transfer_disabled"), t)
  else
    match service.opening with
    | some e => (some (failureOf e), t)
    | none =>
        match transferChunks service.policy c t with
        | (.done r, t) => (some (.success r), t)
        | (.raised e, t) => (some (failureOf e), t)
        | (.crashed, t) => (none, t)

/-! ## Calls with the same bytes -/

/-- Two items hold the same bytes, in texts that are as long as such bytes need at most. -/
structure SameItem (a b : BatchItem) : Prop where
  count : a.count = b.count
  sha : a.chunkSha256 = b.chunkSha256
  data : ∃ s t raw, a.dataBase64 = some s ∧ b.dataBase64 = some t ∧ Base64.decode s = some raw ∧
    Base64.decode t = some raw ∧ s.length ≤ 4 * ((a.count.toNat + 2) / 3) ∧ t.length ≤ 4 * ((b.count.toNat + 2) / 3)

/-- Two calls that differ in how their bytes are written only. -/
structure SameCall (a b : BatchCall) : Prop where
  transferId : a.transferId = b.transferId
  requestDigest : a.requestDigest = b.requestDigest
  offset : a.offset = b.offset
  countPerChunk : a.countPerChunk = b.countPerChunk
  chunkCount : a.chunkCount = b.chunkCount
  chunks : (a.chunks = none ∧ b.chunks = none) ∨
    ∃ xs ys, a.chunks = some (xs.map some) ∧ b.chunks = some (ys.map some) ∧ List.Forall₂ SameItem xs ys

theorem rejectIf_congr {c d : Prop} [Decidable c] [Decidable d] (h : c ↔ d) (code : String) :
    GuestTask.rejectIf c code = GuestTask.rejectIf d code := by
  by_cases hd : d
  · simp only [GuestTask.rejectIf, raiseIf, if_pos hd, if_pos (h.mpr hd)]
  · simp only [GuestTask.rejectIf, raiseIf, if_neg hd, if_neg (fun hc => hd (h.mp hc))]

/-- What an item comes to, once its bytes are known. -/
def itemOf (s : TaskState) (maximum total : Nat) (count : Int) (sha : Option Text) (raw : Bytes)
    (rest : List (Option BatchItem)) : GuestTask.Guest (List (Bytes × Text)) := do
  GuestTask.rejectIf (count ≤ 0 ∨ count > maximum) "invalid_chunk"
  match sha with
  | none => GuestTask.reject "invalid_chunk"
  | some sha => do
      GuestTask.rejectIf (Sha256.isHex sha = false) "invalid_chunk"
      GuestTask.rejectIf (total + count.toNat > 2 ^ 26) "chunk_budget_or_deadline"
      GuestTask.budgetCheck s .never
      GuestTask.rejectIf (raw.length ≠ count.toNat ∨ Sha256.hexdigest raw ≠ sha) "chunk_hash_mismatch"
      let prepared ← GuestTask.prepareBatch s maximum (total + count.toNat) rest
      pure ((raw, sha) :: prepared)

theorem prepareBatch_item {s : TaskState} {maximum total : Nat} {item : BatchItem} {text : Text} {raw : Bytes}
    (rest : List (Option BatchItem)) (htext : item.dataBase64 = some text) (hraw : Base64.decode text = some raw)
    (hshort : text.length ≤ 4 * ((item.count.toNat + 2) / 3)) :
    GuestTask.prepareBatch s maximum total (some item :: rest) =
      itemOf s maximum total item.count item.chunkSha256 raw rest := by
  have hlong : ¬ text.length > 4 * ((item.count.toNat + 2) / 3) := Nat.not_lt.mpr hshort
  rw [GuestTask.prepareBatch, htext]
  simp only [itemOf]
  cases item.chunkSha256 with
  | none => rfl
  | some sha =>
      have hcheck := rejectIf_congr (or_iff_right (b := Sha256.isHex sha = false) hlong) "invalid_chunk"
      simp only [GuestTask.chunkTexts, GuestTask.decodeChunk, hraw, program_bind_assoc, program_pure_bind, hcheck]

/-- **Calls with the same bytes** prepare the same chunks. -/
theorem prepareBatch_same {s : TaskState} {maximum : Nat} {xs ys : List BatchItem} (h : List.Forall₂ SameItem xs ys)
    (total : Nat) : GuestTask.prepareBatch s maximum total (xs.map some) =
      GuestTask.prepareBatch s maximum total (ys.map some) := by
  induction h generalizing total with
  | nil => rfl
  | cons hxy _ ih =>
      obtain ⟨t, u, raw, hx, hy, ht, hu, hshort, hshort'⟩ := hxy.data
      rw [List.map_cons, List.map_cons, prepareBatch_item _ hx ht hshort, prepareBatch_item _ hy hu hshort',
        ← hxy.count, ← hxy.sha]
      simp only [itemOf, ih]

theorem batchRequest_same {policy : Policy} {a b : BatchCall} (h : SameCall a b) :
    GuestTask.batchRequest policy a = GuestTask.batchRequest policy b := by
  rw [GuestTask.batchRequest, GuestTask.batchRequest, h.transferId, h.requestDigest, h.offset, h.countPerChunk,
    h.chunkCount]
  rcases h.chunks with ⟨ha, hb⟩ | ⟨xs, ys, ha, hb, hsame⟩
  · rw [ha, hb]
  · have hnil : xs.map some = [] ↔ ys.map some = [] := by
      rw [List.map_eq_nil_iff, List.map_eq_nil_iff, ← List.length_eq_zero_iff, ← List.length_eq_zero_iff,
        hsame.length_eq]
    have hlength : (xs.map some).length = (ys.map some).length := by
      rw [List.length_map, List.length_map, hsame.length_eq]
    have hcheck := rejectIf_congr (or_congr hnil (iff_of_eq
      (congrArg (fun n => n > policy.maxBatchChunks.getD 0) hlength))) "invalid_chunk"
    rw [ha, hb]
    simp only [Option.getD_some, hcheck, prepareBatch_same hsame]

/-- **Calls with the same bytes** do the same to the task, and have the same answer. -/
theorem transferChunks_same {policy : Policy} {a b : BatchCall} (h : SameCall a b) (t : Task) :
    transferChunks policy a t = transferChunks policy b t := by
  have hnamed : isNamed a = isNamed b := by rw [isNamed, isNamed, h.transferId, h.requestDigest]
  have hunnamed : ∀ {δ α : Type}, (unnamed policy a : Effect Failure δ α) = unnamed policy b := by
    intro δ α
    rw [unnamed, unnamed, h.offset]
  cases t with
  | push m =>
      have hcall : GuestTask.transferChunks policy a = GuestTask.transferChunks policy b := by
        rw [GuestTask.transferChunks_parts, GuestTask.transferChunks_parts, batchRequest_same h, h.transferId,
          h.requestDigest, h.offset]
      simp only [transferChunks, hnamed, hunnamed, hcall]
  | pull m =>
      have hnumbers : PullTask.pullNumbers a = PullTask.pullNumbers b := by
        rw [PullTask.pullNumbers, PullTask.pullNumbers, h.countPerChunk, h.chunkCount]
        rcases h.chunks with ⟨ha, hb⟩ | ⟨xs, ys, ha, hb, -⟩
        · rw [ha, hb]
        · rw [ha, hb]
      have hcall : PullTask.transferChunks policy a = PullTask.transferChunks policy b := by
        rw [PullTask.transferChunks, PullTask.transferChunks, hnumbers, h.transferId, h.requestDigest, h.offset]
      simp only [transferChunks, hnamed, hunnamed, hcall]

theorem invoke_same {service : ToolService} {a b : BatchCall} (h : SameCall a b) (t : Task) :
    invoke service a t = invoke service b t := by
  rw [invoke, invoke, transferChunks_same h]

/-! ## What an answer holds -/

/-- How many bytes the items of a batch announce. -/
def announced (xs : List (Option BatchItem)) : Nat := (xs.map fun x => x.elim 0 fun item => item.count.toNat).sum

/-- **What the answer to a call holds.** -/
def Answers (c : BatchCall) : Envelope → Prop
  | .error code => code ∈ TransferWire.codeNames
  | .success (.push r) => ∃ xs, c.chunks = some xs ∧ r.accepted = xs.length ∧
      r.verifiedOffset = c.offset.toNat + announced xs
  | .success (.pull r) => ∃ countPerChunk chunkCount : Nat, ∃ parts, c.chunks = none ∧
      c.countPerChunk = some (countPerChunk : Int) ∧ c.chunkCount = some (chunkCount : Int) ∧ chunkCount ≤ 64 ∧
      countPerChunk ≤ 2 ^ 20 ∧ countPerChunk * chunkCount ≤ 2 ^ 26 ∧
      r.chunks = PullTask.place c.offset.toNat parts ∧ PullTask.Cut countPerChunk chunkCount parts ∧
      r.verifiedOffset = 0

theorem failure_known (c : BatchCall) (code : String) : Answers c (failure code) := by
  rw [failure]
  split
  next h => exact List.contains_iff_mem.mp h
  · show "internal_error" ∈ TransferWire.codeNames
    decide

theorem failureOf_known (c : BatchCall) (e : Failure) : Answers c (failureOf e) := by
  cases e <;> exact failure_known c _

theorem prepareBatch_gives {s : TaskState} {maximum total : Nat} {xs : List (Option BatchItem)}
    {m m' : Machine Failure GuestTask.Disk} {prepared : List (Bytes × Text)}
    (h : Gives (GuestTask.prepareBatch s maximum total xs) m prepared m') :
    prepared.length = xs.length ∧ (prepared.map Prod.fst).flatten.length = announced xs := by
  induction xs generalizing total m m' prepared with
  | nil =>
      obtain ⟨rfl, -⟩ := gives_pure.mp h
      exact ⟨rfl, rfl⟩
  | cons x xs ih =>
      cases x with
      | none => exact absurd h gives_raise
      | some item =>
          obtain ⟨-, h⟩ := gives_check.mp h
          obtain ⟨⟨text, sha⟩, m₁, -, h⟩ := gives_bind.mp h
          obtain ⟨-, h⟩ := gives_check.mp h
          obtain ⟨-, m₂, -, h⟩ := gives_bind.mp h
          obtain ⟨raw, m₃, hraw, h⟩ := gives_bind.mp h
          obtain ⟨rest, m₄, hrest, h⟩ := gives_bind.mp h
          obtain ⟨rfl, -⟩ := gives_pure.mp h
          obtain ⟨hlength, hbytes⟩ := ih hrest
          have hcount : raw.length = item.count.toNat := by
            rw [GuestTask.decodeChunk] at hraw
            split at hraw
            · exact absurd hraw gives_raise
            · obtain ⟨hagrees, hraw⟩ := gives_check.mp hraw
              obtain ⟨rfl, -⟩ := gives_pure.mp hraw
              exact not_not.mp fun hne => hagrees (.inl hne)
          refine ⟨congrArg Nat.succ hlength, ?_⟩
          rw [List.map_cons, List.flatten_cons, List.length_append, hbytes]
          show raw.length + announced xs = item.count.toNat + announced xs
          rw [hcount]

theorem batchLines_length (position : Nat) (prepared : List (Bytes × Text)) :
    (GuestTask.batchLines position prepared).length = prepared.length := by
  induction prepared generalizing position with
  | nil => rfl
  | cons p rest ih =>
      obtain ⟨data, sha⟩ := p
      exact congrArg Nat.succ (ih _)

/-- The state that was acknowledged ends where the bytes do. -/
theorem acknowledge_gives {policy : Policy} {fresh : GuestTask.Envelope} {s s' : TaskState}
    {before : GuestTask.Guest Unit} {position : Nat} {writes appends : List Bytes}
    {m m' : Machine Failure GuestTask.Disk}
    (h : Gives (GuestTask.acknowledge policy fresh s before position writes appends) m s' m') :
    s'.offset = position + writes.flatten.length := by
  obtain ⟨pinned, m₁, -, h⟩ := gives_bind.mp h
  obtain ⟨fresh', m₂, -, h⟩ := gives_bind.mp h
  obtain ⟨-, m₃, -, h⟩ := gives_bind.mp h
  obtain ⟨-, m₄, -, h⟩ := gives_bind.mp h
  obtain ⟨now, m₅, -, h⟩ := gives_bind.mp h
  obtain ⟨saved, m₆, -, h⟩ := gives_bind.mp h
  obtain ⟨rfl, -⟩ := gives_pure.mp h
  exact GuestTask.advance_offset ..

theorem batchReceive_gives {policy : Policy} {transferId digest : Text} {offset : Nat}
    {prepared : List (Bytes × Text)} {m m' : Machine Failure GuestTask.Disk} {r : BatchReply}
    (h : Gives (GuestTask.batchReceive GuestTask.checkIdle policy transferId digest offset prepared) m r m') :
    r.accepted = prepared.length ∧ r.verifiedOffset = offset + (prepared.map Prod.fst).flatten.length := by
  obtain ⟨-, m₁, -, h⟩ := gives_bind.mp h
  obtain ⟨fresh, m₂, -, h⟩ := gives_bind.mp h
  obtain ⟨-, h⟩ := gives_check.mp h
  obtain ⟨-, h⟩ := gives_check.mp h
  obtain ⟨-, h⟩ := gives_check.mp h
  obtain ⟨-, h⟩ := gives_check.mp h
  obtain ⟨-, m₃, -, h⟩ := gives_bind.mp h
  obtain ⟨d, m₄, -, h⟩ := gives_bind.mp h
  obtain ⟨-, h⟩ := gives_check.mp h
  obtain ⟨-, m₅, -, h⟩ := gives_bind.mp h
  obtain ⟨-, m₆, -, h⟩ := gives_bind.mp h
  obtain ⟨-, m₇, -, h⟩ := gives_bind.mp h
  obtain ⟨⟨sha, s⟩, m₈, -, h⟩ := gives_bind.mp h
  obtain ⟨-, m₉, -, h⟩ := gives_bind.mp h
  obtain ⟨-, m₁₀, -, h⟩ := gives_bind.mp h
  obtain ⟨s', m₁₁, hs', h⟩ := gives_bind.mp h
  obtain ⟨rfl, -⟩ := gives_pure.mp h
  exact ⟨batchLines_length _ _, acknowledge_gives hs'⟩

theorem push_answer {policy : Policy} {c : BatchCall} {m m' : Machine Failure GuestTask.Disk} {r : BatchReply}
    (h : Gives (GuestTask.transferChunks policy c) m r m') : Answers c (.success (.push r)) := by
  rw [GuestTask.transferChunks_parts] at h
  obtain ⟨prepared, m₁, hprepared, h⟩ := gives_bind.mp h
  obtain ⟨haccepted, hverified⟩ := batchReceive_gives h
  obtain ⟨-, hprepared⟩ := gives_check.mp hprepared
  obtain ⟨-, hprepared⟩ := gives_check.mp hprepared
  obtain ⟨-, m₂, -, hprepared⟩ := gives_bind.mp hprepared
  obtain ⟨envelope, m₃, -, hprepared⟩ := gives_bind.mp hprepared
  obtain ⟨-, hprepared⟩ := gives_check.mp hprepared
  obtain ⟨-, hprepared⟩ := gives_check.mp hprepared
  obtain ⟨hsome, hprepared⟩ := gives_check.mp hprepared
  obtain ⟨hlength, hbytes⟩ := prepareBatch_gives hprepared
  cases hchunks : c.chunks with
  | none =>
      rw [hchunks] at hsome
      exact absurd (.inl rfl) hsome
  | some xs =>
      rw [hchunks] at hlength hbytes
      exact ⟨xs, hchunks, haccepted.trans hlength, hverified.trans (congrArg _ hbytes)⟩

theorem unnamed_gives {δ α : Type} {policy : Policy} {c : BatchCall} {m m' : Machine Failure δ} {a : α} :
    ¬ Gives (unnamed policy c) m a m' := by
  intro h
  obtain ⟨-, h⟩ := gives_check.mp h
  obtain ⟨-, h⟩ := gives_check.mp h
  obtain ⟨-, m₁, -, h⟩ := gives_bind.mp h
  exact gives_raise h

theorem transferChunks_answer {policy : Policy} {c : BatchCall} {t t' : Task} {r : Reply}
    (h : transferChunks policy c t = (.done r, t')) : Answers c (.success r) := by
  cases t with
  | push m =>
      simp only [transferChunks] at h
      split at h
      next r' m' hrun =>
        obtain ⟨hr, -⟩ := Prod.mk.inj h
        obtain rfl := Outcome.done.inj hr
        split at hrun
        · exact push_answer hrun
        · exact absurd hrun unnamed_gives
      · exact absurd (Prod.mk.inj h).1 nofun
      · exact absurd (Prod.mk.inj h).1 nofun
  | pull m =>
      simp only [transferChunks] at h
      split at h
      next r' m' hrun =>
        obtain ⟨hr, -⟩ := Prod.mk.inj h
        obtain rfl := Outcome.done.inj hr
        split at hrun
        · exact PullTask.transferChunks_parts hrun
        · exact absurd hrun unnamed_gives
      · exact absurd (Prod.mk.inj h).1 nofun
      · exact absurd (Prod.mk.inj h).1 nofun

/-- **The service answers** with a code of the contract, or with what it received or read. -/
theorem invoke_answer {service : ToolService} {c : BatchCall} {t t' : Task} {env : Envelope}
    (h : invoke service c t = (some env, t')) : Answers c env := by
  simp only [invoke] at h
  split at h
  · obtain rfl := Option.some.inj (Prod.mk.inj h).1
    exact failure_known c _
  · split at h
    · obtain rfl := Option.some.inj (Prod.mk.inj h).1
      exact failure_known c _
    · split at h
      · obtain rfl := Option.some.inj (Prod.mk.inj h).1
        exact failureOf_known c _
      · split at h
        next r t' hrun =>
          obtain rfl := Option.some.inj (Prod.mk.inj h).1
          exact transferChunks_answer hrun
        · obtain rfl := Option.some.inj (Prod.mk.inj h).1
          exact failureOf_known c _
        · exact absurd (Prod.mk.inj h).1 nofun

end ChunkService
