import VeloTransfer.GuestCalmProofs
import VeloTransfer.PiecesProofs
import VeloTransfer.PullTaskProofs

/-! # Reading a package that stays as it is

    A guest with a live pull task, whose package file stays as it is and whose outside
    does not fail before the deadline, answers every request for chunks that starts
    within the package and does not ask for too much.

    * `completes_transferChunks` — a batch is the next pieces of the package;
    * `completes_transferChunk` — a single chunk is the next piece. -/

namespace PullTask

open EffectPrograms Program FaultScript CanonicalJson GuestTerminal Pieces
open GuestTask (Policy BatchCall ChunkCall)

/-- A pull task that can be read: its package, and that it is ready, live and within its
    deadline. -/
structure Readable (package : Bytes) (deadline : Nat) (d : Disk) : Prop where
  bundle : d.bundle = some package
  size : d.state.packageSize = package.length
  phase : d.state.phase = .sourceReady ∨ d.state.phase = .sourcePrepared
  live : d.state.cancelled = false
  usable : d.state.budget.Usable
  deadline : deadline ≤ d.state.deadlineMonotonic

section Reading

variable {package : Bytes} {deadline room : Nat} {d : Disk} {α : Type} {Q : α → Disk → Prop}

theorem completes_load {t g : Text} {k : PullState → Pull α} (ht : d.state.transferId = t)
    (hg : d.state.requestDigest = g) (hk : Completes id deadline room (fun v => v = d) (k d.state) Q) :
    Completes id deadline room (fun v => v = d) (load t g >>= k) Q := by
  refine completes_bind (Q := fun s v => v = d ∧ s = d.state) ?_ ?_
  · refine completes_probe (completes_getDisk (fun v hv => ?_))
    obtain rfl : v = d := hv
    exact completes_check (not_not.mpr ht) (completes_check (not_not.mpr hg)
      (completes_pure (fun w hw => ⟨hw, rfl⟩)))
  · rintro s m hcalm hroom ⟨hv, rfl⟩
    exact hk m hcalm hroom hv

theorem completes_budgetCheck {k : Unit → Pull α} (hr : Readable package deadline d)
    (hk : Completes id deadline room (fun v => v = d) (k ()) Q) :
    Completes id deadline room (fun v => v = d) (budgetCheck d.state >>= k) Q := by
  refine completes_bind (Q := fun _ v => v = d) ?_ (fun _ => hk)
  obtain ⟨hfiles, hmetadata, hpackage⟩ := hr.usable
  have hdeadline := hr.deadline
  refine completes_check (by omega) (completes_monotonic (fun now hnow => completes_check (by omega)
    (completes_load rfl rfl (completes_raiseIf ?_ (fun v hv => hv)))))
  rw [hr.live]
  exact Bool.false_ne_true

theorem completes_openBundle {k : Bytes → Pull α} (hr : Readable package deadline d)
    (hk : Completes id deadline room (fun v => v = d) (k package) Q) :
    Completes id deadline room (fun v => v = d) (openBundle >>= k) Q := by
  refine completes_bind (Q := fun b v => v = d ∧ b = package) ?_ ?_
  · refine completes_probe (completes_getDisk (fun v hv => ?_))
    obtain rfl : v = d := hv
    rw [hr.bundle]
    exact completes_pure (fun w hw => ⟨hw, rfl⟩)
  · rintro b m hcalm hroom ⟨hv, rfl⟩
    exact hk m hcalm hroom hv

/-- The file is still the one that was opened. -/
theorem completes_unchanged {k : Nat → Pull α} (hk : Completes id deadline room (fun v => v = d) (k 0) Q) :
    Completes id deadline room (fun v => v = d) (observe >>= k) Q := by
  refine completes_bind completes_observe ?_
  rintro n m hcalm hroom ⟨hv, rfl⟩
  exact hk m hcalm hroom hv

/-- **The loop reads the next pieces**, as many as are left of the package. -/
theorem completes_readChunks (hr : Readable package deadline d) (n left offset : Nat) :
    Completes id deadline room (fun v => v = d) (readChunks d.state package n left offset)
      (fun out v => v = d ∧ out = place offset (pieces n left (package.drop offset))) := by
  induction left generalizing offset with
  | zero => exact completes_pure (fun v hv => ⟨hv, rfl⟩)
  | succ left ih =>
      rw [readChunks]
      refine completes_budgetCheck hr (completes_ite (fun hend => ?_) (fun hmore => ?_))
      · rw [hr.size] at hend
        rw [List.drop_of_length_le hend, pieces_nil]
        exact completes_pure (fun v hv => ⟨hv, rfl⟩)
      · rw [hr.size] at hmore
        have hrest : package.drop offset ≠ [] := by
          rw [Ne, List.drop_eq_nil_iff]
          exact hmore
        have htake : (package.drop offset).take (min n (package.length - offset)) = (package.drop offset).take n := by
          rw [← List.length_drop, ← List.take_eq_take_min]
        dsimp only
        rw [hr.size, htake, pieces_succ hrest, List.drop_drop]
        refine completes_unchanged (completes_check ?_ (completes_bind (ih (offset + n)) (fun rest => ?_)))
        · rintro (hne | hne)
          · exact hne (by rw [List.length_take, List.length_drop])
          · exact hne rfl
        · refine completes_pure ?_
          rintro v ⟨hv, rfl⟩
          refine ⟨hv, congrArg (List.cons _) ?_⟩
          -- where another chunk follows, this one has the full length
          rcases Nat.lt_or_ge (offset + n) package.length with hlt | hge
          · have hfull : ((package.drop offset).take n).length = n := by
              rw [List.length_take, List.length_drop]
              omega
            rw [hfull]
          · rw [List.drop_of_length_le hge, pieces_nil]
            rfl

/-! ## Whole calls -/

/-- The arguments of a pull: a batch of chunks of one length, or one chunk. -/
def batchCall (transferId digest : Text) (offset countPerChunk chunkCount : Nat) : BatchCall :=
  { transferId, requestDigest := digest, offset := offset, chunks := none
    countPerChunk := some countPerChunk, chunkCount := some chunkCount }

def chunkCall (transferId digest : Text) (offset count : Nat) : ChunkCall :=
  { transferId, requestDigest := digest, offset := offset, count := count, dataBase64 := none
    chunkSha256 := none }

/-- The most that one chunk may have. -/
def maximum (policy : Policy) (s : PullState) : Nat := min (2 ^ 20) (min s.budget.maxChunkBytes policy.maxChunkBytes)

theorem completes_pullNumbers {t g : Text} {offset n k : Nat} (hn : 0 < n) (hk : 0 < k)
    {rest : Nat × Nat → Pull α} (hrest : Completes id deadline room (fun v => v = d) (rest (n, k)) Q) :
    Completes id deadline room (fun v => v = d) (pullNumbers (batchCall t g offset n k) >>= rest) Q := by
  refine completes_bind (Q := fun r v => v = d ∧ r = (n, k)) ?_ ?_
  · exact completes_check (by omega) (completes_pure (fun v hv => ⟨hv, rfl⟩))
  · rintro r m hcalm hroom ⟨hv, rfl⟩
    exact hrest m hcalm hroom hv

/-- **A batch is answered** where it starts each of its chunks within the package. -/
theorem completes_transferChunks {policy : Policy} (hr : Readable package deadline d) {offset n k : Nat}
    (hbatch : policy.maxBatchChunks.getD 0 ≤ 64) (hn : 0 < n) (hmaximum : n ≤ maximum policy d.state)
    (hk : 0 < k) (hmost : k ≤ policy.maxBatchChunks.getD 0) (hwithin : offset + (k - 1) * n < package.length) :
    Completes id deadline room (fun v => v = d)
      (transferChunks policy (batchCall d.state.transferId d.state.requestDigest offset n k))
      (fun r v => v = d ∧ r.chunks = place offset (pieces n k (package.drop offset))) := by
  have hmaximum' : n ≤ 2 ^ 20 := Nat.le_trans hmaximum (Nat.min_le_left _ _)
  have hbytes : n * k ≤ 2 ^ 20 * 64 := Nat.mul_le_mul hmaximum' (Nat.le_trans hmost hbatch)
  rw [maximum] at hmaximum
  refine completes_check (by omega) (completes_check (Int.not_lt.mpr (Int.natCast_nonneg _)) (completes_probe
    (completes_load rfl rfl (completes_check ?_ (completes_pullNumbers hn hk (completes_check ?_ (completes_check ?_
    (completes_check ?_ (completes_check ?_ (completes_probe (completes_openBundle hr (completes_check ?_
    (completes_probe (completes_bind (completes_readChunks hr _ _ _) (fun chunks => completes_pure ?_)))))))))))))))
  · rw [hr.live]
    exact Bool.false_ne_true
  · omega
  · have hphase := hr.phase
    exact fun hne => hphase.elim hne.1 hne.2
  · rw [hr.size]
    simp only [batchCall, Int.toNat_natCast]
    omega
  · rw [hr.size]
    simp only [batchCall, Int.toNat_natCast]
    omega
  · exact not_not.mpr hr.size.symm
  · rintro v ⟨hv, rfl⟩
    exact ⟨hv, rfl⟩

/-- **A single chunk is answered** where it lies within the package. -/
theorem completes_transferChunk {policy : Policy} (hr : Readable package deadline d) {offset count : Nat}
    (hcount : 0 < count) (hmaximum : count ≤ maximum policy d.state) (hwithin : offset + count ≤ package.length) :
    Completes id deadline room (fun v => v = d)
      (transferChunk policy (chunkCall d.state.transferId d.state.requestDigest offset count))
      (fun r v => v = d ∧ r = .of offset ((package.drop offset).take count)) := by
  have hdeadline := hr.deadline
  rw [maximum] at hmaximum
  refine completes_check (by simp only [chunkCall]; omega) (completes_probe (completes_load rfl rfl (completes_monotonic
    (fun now hnow => completes_check (by simp only [chunkCall, Int.toNat_natCast]; omega) (completes_check ?_ (completes_check ?_
    (completes_check ?_ (completes_openBundle hr (completes_check ?_ (completes_probe (completes_unchanged
    (completes_check ?_ (completes_pure (fun v hv => ⟨hv, rfl⟩))))))))))))))
  · rw [hr.live]
    exact Bool.false_ne_true
  · have hphase := hr.phase
    rintro (hne | hne | hne)
    · exact hne rfl
    · exact hne rfl
    · exact hphase.elim hne.1 hne.2
  · rw [hr.size]
    simp only [chunkCall, Int.toNat_natCast]
    omega
  · exact not_not.mpr hr.size.symm
  · simp only [chunkCall, Int.toNat_natCast]
    rw [List.length_take, List.length_drop]
    omega

end Reading

end PullTask
