import VeloTransfer.GuestTaskProofs

/-! # The guest task of a pull — reading the package

    The package of a pull task is read in chunks of one length, several with one call.
    The file may change while it is read, and the task may be cancelled or run out of
    time between two chunks; each of these ends the call.

    `transferChunks_parts` — what a call that returns has read: chunks that follow one
    another from the offset that was asked for, all but the last of the length that was
    asked for. -/

namespace PullTask

open EffectPrograms Program FaultScript CanonicalJson GuestTerminal
open GuestTask (TaskBudget Policy BatchCall ChunkCall)

abbrev Bytes := List UInt8

/-- The task state of a pull, as far as reading uses it.  The offset counts what was
    received, and a pull task receives nothing. -/
structure PullState where
  transferId : Text
  requestDigest : Text
  budget : TaskBudget
  deadlineMonotonic : Nat
  phase : Phase
  packageSize : Nat
  cancelled : Bool
  offset : Nat
  unreceived : offset = 0
deriving Repr, DecidableEq

/-- What the guest holds for the task; `bundle` is the bytes of `bundle.zip`. -/
structure Disk where
  state : PullState
  bundle : Option Bytes
deriving Repr, DecidableEq

abbrev Pull (α : Type) := Effect Failure Disk α

def rejectIf (c : Prop) [Decidable c] (code : String) : Pull Unit := raiseIf c (.error code)

/-- One chunk of an answer. -/
structure PullChunk where
  offset : Nat
  count : Nat
  dataBase64 : Text
  chunkSha256 : Text
deriving Repr, DecidableEq

structure PullReply where
  chunks : List PullChunk
  verifiedOffset : Nat
deriving Repr, DecidableEq

def PullChunk.of (offset : Nat) (data : Bytes) : PullChunk :=
  { offset, count := data.length, dataBase64 := Base64.encode data, chunkSha256 := Sha256.hexdigest data }

/-- `_load`. -/
def load (transferId digest : Text) : Pull PullState := do
  probe
  let d ← getDisk
  rejectIf (d.state.transferId ≠ transferId) "task_not_found"
  rejectIf (d.state.requestDigest ≠ digest) "task_binding_conflict"
  pure d.state

/-- `Budget.check` of a budget that rereads the stored state for a cancellation. -/
def budgetCheck (s : PullState) : Pull Unit := do
  rejectIf (s.budget.maxFiles = 0 ∨ s.budget.maxMetadataBytes = 0 ∨ s.budget.maxPackageBytes = 0)
    "invalid_budget"
  let now ← monotonic
  rejectIf (s.deadlineMonotonic ≤ now) "deadline_exceeded"
  let current ← load s.transferId s.requestDigest
  rejectIf current.cancelled "transfer_cancelled"

/-- The package file, after the checks of its path. -/
def openBundle : Pull Bytes := do
  probe
  let d ← getDisk
  match d.bundle with
  | some bytes => pure bytes
  | none => raise (.error "source_unavailable")

/-- The loop over the chunks, as many as are left; the outside says whether the file is
    still the one that was opened. -/
def readChunks (s : PullState) (bundle : Bytes) (countPerChunk : Nat) : Nat → Nat → Pull (List PullChunk)
  | 0, _ => pure []
  | left + 1, offset => do
      budgetCheck s
      if s.packageSize ≤ offset then pure []
      else do
        let count := min countPerChunk (s.packageSize - offset)
        let data := (bundle.drop offset).take count
        let changed ← observe
        rejectIf (data.length ≠ count ∨ changed ≠ 0) "package_changed"
        let rest ← readChunks s bundle countPerChunk left (offset + countPerChunk)
        pure (.of offset data :: rest)

/-- The two numbers of a pull, which comes without chunks. -/
def pullNumbers (c : BatchCall) : Pull (Nat × Nat) :=
  match c.chunks, c.countPerChunk, c.chunkCount with
  | none, some countPerChunk, some chunkCount => do
      rejectIf (countPerChunk ≤ 0 ∨ chunkCount ≤ 0) "invalid_chunk"
      pure (countPerChunk.toNat, chunkCount.toNat)
  | _, _, _ => raise (.error "invalid_chunk")

/-- `transfer_chunks` of a pull task. -/
def transferChunks (policy : Policy) (c : BatchCall) : Pull PullReply := do
  rejectIf (¬ (0 < policy.maxBatchChunks.getD 0 ∧ policy.maxBatchChunks.getD 0 ≤ 64))
    "batch_not_allowed"
  rejectIf (c.offset < 0) "invalid_chunk_range"
  let offset := c.offset.toNat
  probe
  let s ← load c.transferId c.requestDigest
  rejectIf s.cancelled "transfer_cancelled"
  let (countPerChunk, chunkCount) ← pullNumbers c
  rejectIf (countPerChunk > min (2 ^ 20) (min s.budget.maxChunkBytes policy.maxChunkBytes) ∨
    chunkCount > policy.maxBatchChunks.getD 0 ∨ countPerChunk * chunkCount > 2 ^ 26) "chunk_budget_or_deadline"
  rejectIf (s.phase ≠ .sourceReady ∧ s.phase ≠ .sourcePrepared) "chunk_precondition_failed"
  rejectIf (max s.packageSize 1 ≤ offset + (chunkCount - 1) * countPerChunk ∧
    offset + countPerChunk < s.packageSize) "invalid_chunk_range"
  rejectIf (s.packageSize ≤ offset ∧ 0 < s.packageSize) "invalid_chunk_range"
  probe
  let bundle ← openBundle
  rejectIf (bundle.length ≠ s.packageSize) "package_changed"
  probe
  let chunks ← readChunks s bundle countPerChunk chunkCount offset
  pure { chunks, verifiedOffset := s.offset }

/-- `transfer_chunk` of a pull task. -/
def transferChunk (policy : Policy) (c : ChunkCall) : Pull PullChunk := do
  rejectIf (c.count ≤ 0 ∨ c.offset < 0) "invalid_chunk_range"
  let offset := c.offset.toNat
  let count := c.count.toNat
  probe
  let s ← load c.transferId c.requestDigest
  let now ← monotonic
  rejectIf (count > min (2 ^ 20) (min s.budget.maxChunkBytes policy.maxChunkBytes) ∨
    s.deadlineMonotonic ≤ now) "chunk_budget_or_deadline"
  rejectIf s.cancelled "transfer_cancelled"
  rejectIf (c.dataBase64 ≠ none ∨ c.chunkSha256 ≠ none ∨ (s.phase ≠ .sourceReady ∧ s.phase ≠ .sourcePrepared))
    "chunk_precondition_failed"
  rejectIf (s.packageSize < offset + count) "invalid_chunk_range"
  let bundle ← openBundle
  rejectIf (bundle.length ≠ s.packageSize) "package_changed"
  probe
  let data := (bundle.drop offset).take count
  let changed ← observe
  rejectIf (data.length ≠ count ∨ changed ≠ 0) "package_changed"
  pure (.of offset data)

/-! ## What was read -/

/-- Chunks that follow one another from an offset. -/
def place : Nat → List Bytes → List PullChunk
  | _, [] => []
  | offset, data :: rest => .of offset data :: place (offset + data.length) rest

/-- At most so many parts, none of them empty, and all but the last of one length. -/
structure Cut (countPerChunk chunkCount : Nat) (parts : List Bytes) : Prop where
  few : parts.length ≤ chunkCount
  sized : ∀ data ∈ parts, 1 ≤ data.length ∧ data.length ≤ countPerChunk
  full : ∀ data ∈ parts.dropLast, data.length = countPerChunk

theorem cut_nil (countPerChunk chunkCount : Nat) : Cut countPerChunk chunkCount [] :=
  ⟨Nat.zero_le _, nofun, nofun⟩

/-- A first part, which is full unless it is the only one. -/
theorem cut_cons {countPerChunk left : Nat} {data : Bytes} {parts : List Bytes} (h : Cut countPerChunk left parts)
    (hsome : 1 ≤ data.length) (hmost : data.length ≤ countPerChunk)
    (hfull : parts ≠ [] → data.length = countPerChunk) : Cut countPerChunk (left + 1) (data :: parts) where
  few := Nat.succ_le_succ h.few
  sized := fun d hd => (List.mem_cons.mp hd).elim (fun hd => hd ▸ ⟨hsome, hmost⟩) (h.sized d)
  full := by
    intro d hd
    cases parts with
    | nil => exact absurd hd nofun
    | cons p ps =>
        rcases List.mem_cons.mp hd with rfl | hd
        · exact hfull nofun
        · exact h.full d hd

/-- What the loop has read, from where it starts. -/
theorem readChunks_parts {s : PullState} {bundle : Bytes} {countPerChunk : Nat} (hsome : 1 ≤ countPerChunk)
    {left offset : Nat} {m m' : Machine Failure Disk} {out : List PullChunk}
    (h : Gives (readChunks s bundle countPerChunk left offset) m out m') :
    ∃ parts, out = place offset parts ∧ Cut countPerChunk left parts ∧ (parts ≠ [] → offset < s.packageSize) := by
  induction left generalizing offset m m' out with
  | zero =>
      obtain ⟨rfl, -⟩ := gives_pure.mp h
      exact ⟨[], rfl, cut_nil _ _, nofun⟩
  | succ left ih =>
      rw [readChunks, gives_bind] at h
      obtain ⟨-, m₁, -, h⟩ := h
      split at h
      · obtain ⟨rfl, -⟩ := gives_pure.mp h
        exact ⟨[], rfl, cut_nil _ _, nofun⟩
      next hwithin =>
        obtain ⟨changed, m₂, -, h⟩ := gives_bind.mp h
        obtain ⟨hread, h⟩ := gives_check.mp h
        obtain ⟨rest, m₃, hrest, h⟩ := gives_bind.mp h
        obtain ⟨rfl, -⟩ := gives_pure.mp h
        obtain ⟨parts, rfl, hcut, hmore⟩ := ih hrest
        have hcount : ((bundle.drop offset).take (min countPerChunk (s.packageSize - offset))).length =
            min countPerChunk (s.packageSize - offset) := not_not.mp fun hne => hread (.inl hne)
        -- where another chunk follows, the package goes on behind this one
        have hfull : parts ≠ [] →
            ((bundle.drop offset).take (min countPerChunk (s.packageSize - offset))).length = countPerChunk := by
          intro hparts
          have := hmore hparts
          omega
        refine ⟨_ :: parts, ?_, cut_cons hcut (by omega) (by omega) hfull, fun _ => by omega⟩
        cases parts with
        | nil => rfl
        | cons p ps =>
            refine congrArg (List.cons _) ?_
            rw [hfull nofun]

theorem pullNumbers_gives {c : BatchCall} {m m' : Machine Failure Disk} {countPerChunk chunkCount : Nat}
    (h : Gives (pullNumbers c) m (countPerChunk, chunkCount) m') : c.chunks = none ∧
      c.countPerChunk = some (countPerChunk : Int) ∧ c.chunkCount = some (chunkCount : Int) ∧ 1 ≤ countPerChunk := by
  rw [pullNumbers] at h
  split at h
  next per count hnone hper hcount =>
    obtain ⟨hsome, h⟩ := gives_check.mp h
    obtain ⟨hpair, -⟩ := gives_pure.mp h
    obtain ⟨rfl, rfl⟩ := Prod.mk.inj hpair
    rw [not_or] at hsome
    refine ⟨hnone, ?_, ?_, by omega⟩
    · rw [hper, Int.toNat_of_nonneg (by omega)]
    · rw [hcount, Int.toNat_of_nonneg (by omega)]
  · exact absurd h gives_raise

/-- **What a call that returns has read.** -/
theorem transferChunks_parts {policy : Policy} {c : BatchCall} {m m' : Machine Failure Disk} {r : PullReply}
    (h : Gives (transferChunks policy c) m r m') : ∃ countPerChunk chunkCount : Nat, ∃ parts,
      c.chunks = none ∧ c.countPerChunk = some (countPerChunk : Int) ∧ c.chunkCount = some (chunkCount : Int) ∧
      chunkCount ≤ 64 ∧ countPerChunk ≤ 2 ^ 20 ∧ countPerChunk * chunkCount ≤ 2 ^ 26 ∧
      r.chunks = place c.offset.toNat parts ∧ Cut countPerChunk chunkCount parts ∧ r.verifiedOffset = 0 := by
  obtain ⟨hbatch, h⟩ := gives_check.mp h
  obtain ⟨-, h⟩ := gives_check.mp h
  obtain ⟨-, m₁, -, h⟩ := gives_bind.mp h
  obtain ⟨s, m₂, -, h⟩ := gives_bind.mp h
  obtain ⟨-, h⟩ := gives_check.mp h
  obtain ⟨⟨countPerChunk, chunkCount⟩, m₃, hnumbers, h⟩ := gives_bind.mp h
  obtain ⟨hbudget, h⟩ := gives_check.mp h
  obtain ⟨-, h⟩ := gives_check.mp h
  obtain ⟨-, h⟩ := gives_check.mp h
  obtain ⟨-, h⟩ := gives_check.mp h
  obtain ⟨-, m₄, -, h⟩ := gives_bind.mp h
  obtain ⟨bundle, m₅, -, h⟩ := gives_bind.mp h
  obtain ⟨-, h⟩ := gives_check.mp h
  obtain ⟨-, m₆, -, h⟩ := gives_bind.mp h
  obtain ⟨chunks, m₇, hchunks, h⟩ := gives_bind.mp h
  obtain ⟨rfl, -⟩ := gives_pure.mp h
  obtain ⟨hnone, hper, hcount, hsome⟩ := pullNumbers_gives hnumbers
  obtain ⟨parts, hplace, hcut, -⟩ := readChunks_parts hsome hchunks
  simp only [not_or, not_lt, not_not] at hbatch hbudget
  refine ⟨countPerChunk, chunkCount, parts, hnone, hper, hcount, ?_, ?_, hbudget.2.2, hplace, hcut, s.unreceived⟩
  · omega
  · omega

end PullTask
