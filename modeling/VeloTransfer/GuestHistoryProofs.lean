import Mathlib
import VeloTransfer.GuestCalmProofs

/-! # Sequences of reception calls — what a push task has acknowledged

    A push task starts without files.  Any sequence of `transfer_chunk` and
    `transfer_chunks` requests is made on it, under any script of outside
    failures, process deaths included.

    * `Acknowledged d h` says in terms of the files alone that the chunks `h` are
      acknowledged: the ledger reads back as their records, the package starts
      with their bytes, and every byte below the offset lies in one record;
    * `Safe` says what one request may do to them;
    * `reception_safe` — after every sequence the acknowledged chunks are those
      of a subsequence of the requests, and the next request is safe. -/

namespace GuestTask

open EffectPrograms Program FaultScript FileNodes ChunkLog CanonicalJson JsonLine Sha256 GuestTerminal

/-! ## Requests and runs -/

/-- A reception request of either kind. -/
inductive Call where
  | chunk (c : ChunkCall)
  | batch (c : BatchCall)
deriving Repr, DecidableEq

inductive Answer where
  | chunk (r : ChunkReply)
  | batch (r : BatchReply)
deriving Repr, DecidableEq

def Call.offset : Call → Int
  | .chunk c => c.offset
  | .batch c => c.offset

/-- The chunks that a request carries. -/
def Call.data : Call → Option (List Bytes)
  | .chunk c => c.data.map (fun data => [data])
  | .batch c => c.data

def Answer.replayed : Answer → Bool
  | .chunk r => r.replayed
  | .batch _ => false

def Call.run (policy : Policy) : Call → Guest Answer
  | .chunk c => do
      let r ← transferChunk policy c
      pure (.chunk r)
  | .batch c => do
      let r ← transferChunks policy c
      pure (.batch r)

/-- The machine after a sequence of requests, whatever each of them ended in. -/
def receive (policy : Policy) (calls : List Call) (m : Machine Failure Disk) :
    Machine Failure Disk :=
  calls.foldl (fun m c => (c.run policy m).2) m

/-- The state that `transfer_begin` creates for a push. -/
def newTask (request : Request) (package : Package) (deadline : Nat) : TaskState :=
  { request := request, deadlineMonotonic := deadline, phase := .destReceiving
    package := package, offset := 0, chunkCount := 0, partialIdentity := none, terminal := none
    owner := none, cancelled := false, error := none, prefixVerification := none }

/-- A push task that has just begun. -/
def Begun (d : Disk) : Prop :=
  ∃ request package deadline, d.store.state = newTask request package deadline ∧
    d.part = none ∧ d.ledger = none

/-! ## What is acknowledged -/

def Disk.partBytes (d : Disk) : Bytes := d.part.elim [] FileNode.bytes

def Disk.ledgerBytes (d : Disk) : Bytes := d.ledger.elim [] FileNode.bytes

/-- The chunks `h` are acknowledged on the disk, as its files show. -/
structure Acknowledged (d : Disk) (h : List Bytes) : Prop where
  records : readRecords .count d.store.state.chunkCount d.ledgerBytes = some (recordsFrom 0 h)
  count : d.store.state.chunkCount = h.length
  offset : d.store.state.offset = ((recordsFrom 0 h).map Record.count).sum
  bytes : d.partBytes.take d.store.state.offset = h.flatten
  held : d.store.state.offset ≤ d.partBytes.length
  once : ∀ b, b < d.store.state.offset →
    ∃! k : Nat, ∃ r : Record, (recordsFrom 0 h)[k]? = some r ∧ r.offset ≤ b ∧ b < r.offset + r.count

/-- The invariant of reception gives what the files show. -/
theorem Received.acknowledged {i : Intent} {d : Disk} {h : List Bytes}
    (hr : Received i d.reception h) : Acknowledged d h := by
  have hoffset : d.store.state.offset = h.flatten.length := hr.offset
  have hcount : d.store.state.chunkCount = h.length := hr.count
  obtain ⟨tail, hledger, tail', hpart⟩ : ∃ tail, d.ledgerBytes = ledgerFrom .count 0 h ++ tail ∧
      ∃ tail', d.partBytes = h.flatten ++ tail' := by
    cases hid : d.store.state.partialIdentity with
    | none =>
        obtain rfl := hr.unpinned hid
        exact ⟨_, (List.nil_append _).symm, _, (List.nil_append _).symm⟩
    | some f =>
        obtain ⟨p, l, hpin⟩ := hr.pinned f hid
        obtain ⟨tail, htail⟩ := hpin.lines
        obtain ⟨tail', htail'⟩ := hpin.data
        have hp : d.part = some p := hpin.part
        have hl : d.ledger = some l := hpin.ledger
        refine ⟨tail, ?_, tail', ?_⟩
        · rw [Disk.ledgerBytes, hl, htail]
          rfl
        · rw [Disk.partBytes, hp, htail']
          rfl
  refine ⟨?_, hcount, ?_, ?_, ?_, ?_⟩
  · rw [hcount, hledger]
    exact readRecords_ledgerFrom hr.fit tail
  · rw [recordsFrom_counts, hoffset]
  · rw [hpart, hoffset, List.take_left]
  · rw [hpart, hoffset, List.length_append]
    exact Nat.le_add_right _ _
  · intro b hb
    exact recordsFrom_once (Nat.zero_le b) (by omega)

/-! ## One request -/

/-- The request was accepted: its chunks follow the acknowledged ones. -/
def Extends (call : Call) (h : List Bytes) (d d' : Disk) : Prop :=
  ∃ chunks, call.data = some chunks ∧ call.offset = d.store.state.offset ∧
    Acknowledged d' (h ++ chunks)

/-- What a request may do to a task that has acknowledged `h`. -/
structure Safe (call : Call) (h : List Bytes) (d : Disk) (o : Outcome Failure Answer) (d' : Disk) :
    Prop where
  accepted : ∀ a, o = .done a → a.replayed = false → Extends call h d d'
  replayed : ∀ a, o = .done a → a.replayed = true → Acknowledged d' h ∧
    ∃ data, call.data = some [data] ∧ 0 ≤ call.offset ∧
      call.offset.toNat + data.length ≤ d.store.state.offset ∧
      (d.partBytes.drop call.offset.toNat).take data.length = data
  rejected : ∀ e, o = .raised e →
    Acknowledged d' h ∨ (Unconfirmed (some e) ∧ Extends call h d d')
  died : o = .crashed → Acknowledged d' h ∨ Extends call h d d'
  misplaced : ∀ c, call = .batch c → c.offset ≠ d.store.state.offset →
    (∀ a, o ≠ .done a) ∧ Acknowledged d' h

section Requests

variable {i : Intent} {h : List Bytes} {v₀ : Disk} {policy : Policy} {call : Call}

/-- An answered request of either kind, in terms of the invariant. -/
def CallDone (i : Intent) (h : List Bytes) (call : Call) (a : Answer) (v : Disk) : Prop :=
  ∃ chunks, call.data = some chunks ∧ 0 ≤ call.offset ∧
    ((a.replayed = false ∧ call.offset.toNat = h.flatten.length ∧ Received i v (h ++ chunks)) ∨
      (a.replayed = true ∧ (∃ c, call = .chunk c) ∧ Received i v h ∧
        call.offset.toNat + chunks.flatten.length ≤ h.flatten.length ∧
        (h.flatten.drop call.offset.toNat).take chunks.flatten.length = chunks.flatten))

def CallEarly (i : Intent) (h : List Bytes) (call : Call) (e : Option Failure) (v : Disk) : Prop :=
  Received i v h ∨ (Unconfirmed e ∧ ∃ chunks, call.data = some chunks ∧ 0 ≤ call.offset ∧
    call.offset.toNat = h.flatten.length ∧ Received i v (h ++ chunks))

/-- Both kinds of requests keep the invariant in the same way. -/
theorem run_triple (policy : Policy) (call : Call) (hr : Received i v₀ h) :
    Triple view (fun v => v = v₀) (call.run policy) (CallDone i h call) (CallEarly i h call) := by
  cases call with
  | chunk c =>
      refine triple_bind (Q := ChunkDone i h c) (triple_conseq (transferChunk_triple hr)
        (fun _ hv => hv) (fun _ _ hv => hv) ?_) (fun r => triple_pure ?_)
      · rintro e v (hv | ⟨he, data, hdata, hpos, hoffset, hv⟩)
        · exact Or.inl hv
        · exact Or.inr ⟨he, [data], by rw [Call.data, hdata]; rfl, hpos, hoffset, hv⟩
      · rintro v ⟨data, hdata, hpos, hcase⟩
        have hflat : [data].flatten = data := by simp
        refine ⟨[data], by rw [Call.data, hdata]; rfl, hpos, ?_⟩
        rw [hflat]
        rcases hcase with ⟨hrep, hv, -, hrange, hequal⟩ | ⟨hrep, hoffset, hv, -⟩
        · exact Or.inr ⟨hrep, ⟨c, rfl⟩, hv, hrange, hequal⟩
        · exact Or.inl ⟨hrep, hoffset, hv⟩
  | batch c =>
      refine triple_bind (Q := BatchDone i h c) (transferChunks_triple hr)
        (fun r => triple_pure ?_)
      rintro v ⟨chunks, hdata, hpos, hoffset, -, -, hv⟩
      exact ⟨chunks, hdata, hpos, Or.inl ⟨rfl, hoffset, hv⟩⟩

theorem Received.offset_eq {d : Disk} (hr : Received i d.reception h) {n : Int} (hn : 0 ≤ n)
    (heq : n.toNat = h.flatten.length) : n = d.store.state.offset := by
  have hoffset : d.store.state.offset = h.flatten.length := hr.offset
  omega

/-- A stored slice of the acknowledged range is one of the acknowledged chunks. -/
theorem Received.slice_disk {d : Disk} (hr : Received i d.reception h) {offset count : Nat}
    (hrange : offset + count ≤ h.flatten.length) :
    (d.partBytes.drop offset).take count = (h.flatten.drop offset).take count :=
  hr.slice hrange

/-- **One request** is safe, whatever the outside does during it. -/
theorem safe_run {m : Machine Failure Disk} (hr : Received i m.disk.reception h) :
    Safe call h m.disk (call.run policy m).1 (call.run policy m).2.disk := by
  have hrun := run_triple policy call hr m rfl
  rcases hresult : call.run policy m with ⟨o, m'⟩
  rw [hresult] at hrun
  have hoffset : m.disk.store.state.offset = h.flatten.length := hr.offset
  have hextends : ∀ {chunks}, call.data = some chunks → 0 ≤ call.offset →
      call.offset.toNat = h.flatten.length → Received i m'.disk.reception (h ++ chunks) →
      Extends call h m.disk m'.disk := fun hdata hpos heq hv =>
    ⟨_, hdata, hr.offset_eq hpos heq, hv.acknowledged⟩
  have hearly : ∀ {e}, CallEarly i h call e m'.disk.reception →
      Acknowledged m'.disk h ∨ (Unconfirmed e ∧ Extends call h m.disk m'.disk) := by
    rintro e (hv | ⟨he, chunks, hdata, hpos, heq, hv⟩)
    · exact Or.inl hv.acknowledged
    · exact Or.inr ⟨he, hextends hdata hpos heq hv⟩
  constructor
  · rintro a rfl hrep
    obtain ⟨chunks, hdata, hpos, ⟨-, heq, hv⟩ | ⟨hrep', -⟩⟩ := hrun
    · exact hextends hdata hpos heq hv
    · rw [hrep] at hrep'
      exact absurd hrep' Bool.false_ne_true
  · rintro a rfl hrep
    obtain ⟨chunks, hdata, hpos, ⟨hrep', -⟩ | ⟨-, ⟨c, rfl⟩, hv, hrange, hequal⟩⟩ := hrun
    · rw [hrep'] at hrep
      exact absurd hrep Bool.false_ne_true
    · obtain ⟨data, -, rfl⟩ := Option.map_eq_some_iff.mp hdata
      have hflat : [data].flatten = data := by simp
      rw [hflat] at hrange hequal
      refine ⟨hv.acknowledged, data, hdata, hpos, by omega, ?_⟩
      rw [hr.slice_disk hrange]
      exact hequal
  · rintro e rfl
    exact hearly hrun
  · rintro rfl
    exact (hearly hrun).imp_right And.right
  · rintro c rfl hne
    have hmisplaced : ∀ {chunks}, Call.data (.batch c) = some chunks → 0 ≤ c.offset →
        c.offset.toNat = h.flatten.length → False := fun _ hpos heq =>
      hne (hr.offset_eq hpos heq)
    cases o with
    | done a =>
        obtain ⟨chunks, hdata, hpos, ⟨-, heq, -⟩ | ⟨-, ⟨c', hc⟩, -⟩⟩ := hrun
        · exact (hmisplaced hdata hpos heq).elim
        · exact Call.noConfusion hc
    | raised e =>
        rcases hrun with hv | ⟨-, chunks, hdata, hpos, heq, -⟩
        · exact ⟨fun a => nofun, hv.acknowledged⟩
        · exact (hmisplaced hdata hpos heq).elim
    | crashed =>
        rcases hrun with hv | ⟨-, chunks, hdata, hpos, heq, -⟩
        · exact ⟨fun a => nofun, hv.acknowledged⟩
        · exact (hmisplaced hdata hpos heq).elim

/-! ## Replays -/

/-- A single-chunk request for an acknowledged range that reaches the comparison
    of its bytes: nothing outside fails before the task's deadline, and its files
    need no long verification. -/
structure Comparable (policy : Policy) (m : Machine Failure Disk) (c : ChunkCall) (data : Bytes) :
    Prop where
  calm : Calm m.disk.store.state.deadlineMonotonic m
  usable : m.disk.store.state.request.budget.Usable
  quick : Quick m.disk
  carries : c.Carries policy m.disk.store.state data
  range : c.offset.toNat + data.length ≤ m.disk.store.state.offset

theorem ChunkCall.Carries.data {s : TaskState} {c : ChunkCall} {data : Bytes}
    (hc : c.Carries policy s data) : c.data = some data := by
  obtain ⟨text, htext, hdecode, -⟩ := hc.text
  rw [ChunkCall.data, htext]
  exact hdecode

/-- **A replay is decided by its bytes.** -/
theorem replayed_iff {m : Machine Failure Disk} {c : ChunkCall} {data : Bytes}
    (hr : Received i m.disk.reception h) (hc : Comparable policy m c data) :
    (∃ r, (transferChunk policy c m).1 = .done r ∧ r.replayed = true) ↔
      (m.disk.partBytes.drop c.offset.toNat).take data.length = data := by
  have hrange := hc.range
  have hoffset : m.disk.store.state.offset = h.flatten.length := hr.offset
  rw [hoffset] at hrange
  have hlength : 0 < data.length := List.length_pos_iff.mpr hc.carries.full
  rw [hr.slice_disk hrange]
  constructor
  · rintro ⟨r, hdone, hrep⟩
    have hrun : endsIn (ChunkDone i h c) (ChunkEarly i h c) (transferChunk policy c m).1 _ :=
      transferChunk_triple hr m rfl
    rw [hdone] at hrun
    obtain ⟨data', hdata', -, ⟨-, -, -, -, hequal⟩ | ⟨hrep', -⟩⟩ := hrun
    · obtain rfl : data' = data := Option.some.inj (hdata'.symm.trans hc.carries.data)
      exact hequal
    · rw [hrep'] at hrep
      exact absurd hrep Bool.false_ne_true
  · intro hequal
    have hunstarted : Unstarted m.disk.reception := by
      intro hid
      obtain rfl := hr.unpinned hid
      rw [List.flatten_nil, List.length_nil] at hrange
      omega
    have husable : i.request.budget.Usable := by
      rw [← hr.request]
      exact hc.usable
    have hopen : Open i i.deadlineMonotonic m.disk.reception :=
      ⟨hunstarted, husable, Nat.le_refl _, hc.quick⟩
    have hcalm : Calm i.deadlineMonotonic m := by
      rw [← hr.deadline]
      exact hc.calm
    obtain ⟨r, m', hrun, -, -, data', hdata', -, hcase⟩ :=
      completes_transferChunk hr hopen hc.carries (Or.inl ⟨hrange, hequal⟩) m hcalm
        (Nat.zero_le _) rfl
    refine ⟨r, by rw [hrun], ?_⟩
    rcases hcase with ⟨hrep, -⟩ | ⟨-, heq, -⟩
    · exact hrep
    · omega

end Requests

/-! ## Sequences of requests -/

section Sequences

variable {policy : Policy}

theorem Begun.received {d : Disk} (hd : Begun d) : ∃ i, Received i d.reception [] := by
  obtain ⟨request, package, deadline, hstate, hpart, hledger⟩ := hd
  refine ⟨⟨request, package, deadline, d.device, False⟩, ?_⟩
  have hs : d.reception.store.state = newTask request package deadline := hstate
  refine ⟨by rw [hs]; rfl, by rw [hs]; rfl, by rw [hs]; rfl, by rw [hs]; rfl,
    by rw [hs]; exact Or.inl rfl, rfl, by rw [hs]; rfl, by rw [hs]; rfl,
    ⟨by simp, by simp⟩, by simp, by simp, ?_, False.elim, fun _ => rfl, ?_⟩
  · have hsize : ledgerSize d.reception = 0 := by
      show d.ledger.elim 0 _ = 0
      rw [hledger]
      rfl
    rw [hsize]
    exact Nat.zero_le _
  · intro f hf
    rw [hs] at hf
    exact absurd hf (by simp [newTask])

theorem receive_append (calls : List Call) (call : Call) (m : Machine Failure Disk) :
    receive policy (calls ++ [call]) m = (call.run policy (receive policy calls m)).2 := by
  rw [receive, List.foldl_append]
  rfl

/-- After any sequence of requests the invariant holds for the chunks of some of
    them, in their order. -/
theorem received_receive (policy : Policy) {i : Intent} {m₀ : Machine Failure Disk}
    (h₀ : Received i m₀.disk.reception []) (calls : List Call) :
    ∃ accepted : List Call, accepted.Sublist calls ∧ ∃ chunks,
      accepted.mapM Call.data = some chunks ∧
      Received i (receive policy calls m₀).disk.reception chunks.flatten := by
  induction calls using List.reverseRecOn with
  | nil => exact ⟨[], List.Sublist.refl _, [], rfl, h₀⟩
  | append_singleton calls call ih =>
      obtain ⟨accepted, hsub, chunks, hchunks, hr⟩ := ih
      rw [receive_append]
      have hrun := run_triple policy call hr _ rfl
      have hkept : Received i (call.run policy (receive policy calls m₀)).2.disk.reception
          chunks.flatten ∨ ∃ new, call.data = some new ∧
            Received i (call.run policy (receive policy calls m₀)).2.disk.reception
              (chunks.flatten ++ new) := by
        rcases hresult : call.run policy (receive policy calls m₀) with ⟨o, m'⟩
        rw [hresult] at hrun
        cases o with
        | done a =>
            obtain ⟨new, hdata, -, ⟨-, -, hv⟩ | ⟨-, -, hv, -⟩⟩ := hrun
            · exact Or.inr ⟨new, hdata, hv⟩
            · exact Or.inl hv
        | raised e => exact hrun.imp_right (fun ⟨_, new, hdata, _, _, hv⟩ => ⟨new, hdata, hv⟩)
        | crashed => exact hrun.imp_right (fun ⟨_, new, hdata, _, _, hv⟩ => ⟨new, hdata, hv⟩)
      rcases hkept with hv | ⟨new, hdata, hv⟩
      · exact ⟨accepted, hsub.trans (List.sublist_append_left _ _), chunks, hchunks, hv⟩
      · refine ⟨accepted ++ [call], hsub.append (List.Sublist.refl _), chunks ++ [new], ?_, ?_⟩
        · rw [List.mapM_append, hchunks, List.mapM_cons, hdata]
          rfl
        · rw [List.flatten_append]
          simpa using hv

/-- What holds after a sequence of requests: the acknowledged chunks are those of a
    subsequence of them, the next request of either kind is safe, and a replay
    that reaches the comparison is decided by its bytes. -/
def SafeAfter (policy : Policy) (calls : List Call) (m₀ : Machine Failure Disk) : Prop :=
  ∃ accepted : List Call, accepted.Sublist calls ∧ ∃ chunks,
    accepted.mapM Call.data = some chunks ∧
    Acknowledged (receive policy calls m₀).disk chunks.flatten ∧
    (∀ call, Safe call chunks.flatten (receive policy calls m₀).disk
      (call.run policy (receive policy calls m₀)).1
      (call.run policy (receive policy calls m₀)).2.disk) ∧
    (∀ c data, Comparable policy (receive policy calls m₀) c data →
      ((∃ r, (transferChunk policy c (receive policy calls m₀)).1 = .done r ∧
          r.replayed = true) ↔
        ((receive policy calls m₀).disk.partBytes.drop c.offset.toNat).take data.length = data))

/-- **Reception is safe** in every sequence of requests on a begun push task. -/
theorem reception_safe (policy : Policy) (m₀ : Machine Failure Disk) (hbegun : Begun m₀.disk)
    (calls : List Call) : SafeAfter policy calls m₀ := by
  obtain ⟨i, h₀⟩ := hbegun.received
  obtain ⟨accepted, hsub, chunks, hchunks, hr⟩ := received_receive policy h₀ calls
  exact ⟨accepted, hsub, chunks, hchunks, hr.acknowledged, fun call => safe_run hr,
    fun c data hc => replayed_iff hr hc⟩

end Sequences

/-! ## A task of two bytes -/

namespace Sample

def request : Request :=
  { transferId := ascii "transfer", requestDigest := hexdigest []
    expectedDestination := { endpoint := ascii "guest", identity := [], canonicalPath := ascii "/d" }
    vmUuid := ascii "vm", bootIdentity := ascii "boot", vmEpoch := ascii "epoch"
    budget := { maxFiles := 8, maxMetadataBytes := 4096, maxLogicalBytes := 4096
                maxPackageBytes := 4096, minFreeBytes := 0, maxChunkBytes := 4096 } }

def package : Package :=
  { size := 2, sha256 := hexdigest [7, 8], manifestSha256 := hexdigest [] }

def policy : Policy :=
  { policyId := ascii "policy", maxChunkBytes := 4096, maxBatchChunks := some 8
    stateFits := fun _ _ => true }

/-- The task as it begins. -/
def disk : Disk :=
  { device := 1, nextInode := 2, part := none, ledger := none
    store := { revision := 1, state := newTask request package 1000 }, active := none }

def machine (script : List (Event Failure)) : Machine Failure Disk :=
  { disk := disk, clock := 0, free := 10000, script := script }

/-- The first byte of the package as a single chunk. -/
def chunk : ChunkCall :=
  { transferId := ascii "transfer", requestDigest := hexdigest [], offset := 0, count := 1
    dataBase64 := some (Base64.encode [7]), chunkSha256 := some (hexdigest [7]) }

/-- Calm events, then one fault. -/
def faultAfter (n : Nat) (fault : Fault Failure) : List (Event Failure) :=
  List.replicate n Event.calm ++ [⟨0, 0, 0, fault⟩]

/-- The first byte is stored and the final save is durable, but its directory
    cannot be synchronised. -/
def unconfirmed : List (Event Failure) := faultAfter 21 (.fail .osError 1)

/-- Behind the first call the deadline passes. -/
def late : List (Event Failure) := List.replicate 22 Event.calm ++ [⟨1000, 0, 0, .none⟩]

end Sample

/-- A failing request may have advanced the acknowledged offset, when the end of
    its final save stays unconfirmed; and an identical replay that does not reach
    the comparison, here behind the deadline, is no replay. -/
theorem failed_request_advances :
    (Begun (Sample.machine Sample.unconfirmed).disk ∧
      (transferChunk Sample.policy Sample.chunk (Sample.machine Sample.unconfirmed)).1
        = .raised (.error "storage_durability_unknown") ∧
      (Sample.machine Sample.unconfirmed).disk.store.state.offset = 0 ∧
      (transferChunk Sample.policy Sample.chunk
        (Sample.machine Sample.unconfirmed)).2.disk.store.state.offset = 1) ∧
    (Begun (Sample.machine Sample.late).disk ∧
      (receive Sample.policy [.chunk Sample.chunk]
        (Sample.machine Sample.late)).disk.store.state.offset = 1 ∧
      (receive Sample.policy [.chunk Sample.chunk]
        (Sample.machine Sample.late)).disk.partBytes = [7] ∧
      Sample.chunk.data = some [7] ∧
      (transferChunk Sample.policy Sample.chunk (receive Sample.policy [.chunk Sample.chunk]
        (Sample.machine Sample.late))).1 = .raised (.error "chunk_budget_or_deadline")) := by
  refine ⟨⟨⟨_, _, _, rfl, rfl, rfl⟩, ?_, rfl, ?_⟩, ⟨_, _, _, rfl, rfl, rfl⟩, ?_, ?_, ?_, ?_⟩
  all_goals decide +kernel

theorem reception_safe_sample :
    SafeAfter Sample.policy [.chunk Sample.chunk, .chunk Sample.chunk]
      (Sample.machine Sample.unconfirmed) :=
  reception_safe _ _ ⟨_, _, _, rfl, rfl, rfl⟩ _

end GuestTask
