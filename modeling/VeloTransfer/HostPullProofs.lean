import VeloTransfer.HostRecoveryProofs
import VeloTransfer.PullReadingProofs
import VeloTransfer.WireFrameProofs

/-! # Pulling a package

    The host reads the package of a guest in batches of chunks, as many and as large as
    its adapter has negotiated, and appends each chunk to its partial package.  A batch
    that the connection loses makes it go on with single chunks.

    Host and guest count chunks by their own arithmetic.  With a guest whose package
    stays as it is:

    * `pullLoop_safe` — whatever the connection and the host's own storage do, the guest
      refuses nothing, what is acknowledged is the next pieces of the package, and the
      loop ends at the end of the package or where host or connection fail;
    * `pullLoop_ends` — where neither fails and the records of the chunks fit into the
      metadata budget, it ends at the end of the package. -/

namespace HostPull

open EffectPrograms Program FaultScript FileNodes CanonicalJson ChunkLog Sha256 Pieces
open GuestTerminal (Failure)
open GuestTask (Policy)
open HostPartial (Config Response Holds Fresh Acknowledged)
open PullTask (Pull PullChunk Readable Bytes place batchCall chunkCall)

/-! ## What the adapter negotiates -/

structure Adapter where
  rawChunkBytes : Nat
  batchChunks : Nat
deriving Repr, DecidableEq

inductive Channel where
  | transport
  | windows
deriving Repr, DecidableEq

/-- How many chunks of a batch fit into a response, with their JSON text twice. -/
def batchOf (rawChunkBytes : Nat) : Option Nat → Nat
  | some batch =>
      if 1 ≤ batch ∧ batch ≤ 64 then
        max 1 (min batch (100 * 1024 * 1024 / (2 * (4 * (rawChunkBytes + 2) / 3 + 2048))))
      else 1
  | none => 1

/-- What a call of `transfer_capabilities` leaves in an adapter. -/
def negotiate (policy : Policy) : Channel → Adapter
  | .transport =>
      let raw := if 0 < policy.maxChunkBytes then min (2 ^ 20) policy.maxChunkBytes else 2 ^ 20
      { rawChunkBytes := raw, batchChunks := batchOf raw policy.maxBatchChunks }
  | .windows =>
      -- the default that the guest offers is the smaller of 2^20 and its maximum
      { rawChunkBytes := min 4096 (min policy.maxChunkBytes (min (2 ^ 20) policy.maxChunkBytes))
        batchChunks := 1 }

/-! ## Calls to the guest -/

/-- What becomes of a call on its way: its answer arrives, or the adapter raises a code of
    its own, and the call may have reached the guest. -/
inductive Delivery where
  | arrives
  | fails (code : String) (reached : Bool)
deriving Repr, DecidableEq

/-- Both machines, and what the connection will do; a connection without script works. -/
structure World where
  host : Machine Failure HostPartial.Disk
  guest : Machine Failure PullTask.Disk
  link : List Delivery

inductive Answer (α : Type) where
  | result (a : α)
  | refused (code : String)
  | fault (code : String)

/-- The code of an error that the service answers. -/
def codeOf : Failure → String
  | .error code => if TransferWire.codeNames.contains code then code else "internal_error"
  | .osError => "internal_error"

def serve {α : Type} (m : Pull α) (w : World) : Answer α × World :=
  match m w.guest with
  | (.done a, g) => (.result a, { w with guest := g })
  | (.raised e, g) => (.refused (codeOf e), { w with guest := g })
  | (.crashed, g) => (.fault "outcome_unknown", { w with guest := g })

/-- `_call`. -/
def call {α : Type} (m : Pull α) (w : World) : Answer α × World :=
  match w.link with
  | [] => serve m w
  | .arrives :: rest => serve m { w with link := rest }
  | .fails code reached :: rest =>
      (.fault code, { w with guest := if reached then (m w.guest).2 else w.guest, link := rest })

def onHost {α : Type} (m : HostPartial.Host α) (w : World) : Outcome Failure α × World :=
  ((m w.host).1, { w with host := (m w.host).2 })

/-! ## The loop -/

/-- Append what an answer holds. -/
def store (cfg : Config) (item : PullChunk) : HostPartial.Host Response :=
  match Base64.decode item.dataBase64 with
  | none => HostPartial.reject "invalid_chunk"
  | some raw => do
      HostPartial.rejectIf (raw.length ≠ item.count) "invalid_chunk"
      HostPartial.append cfg item.offset raw item.chunkSha256

/-- The loop over the items of a batch. -/
def acceptItems (cfg : Config) (maximum : Nat) : Nat → Response → List PullChunk → HostPartial.Host Response
  | _, current, [] => pure current
  | expected, _, item :: items => do
      HostPartial.rejectIf (item.offset ≠ expected ∨ item.count = 0 ∨ maximum < item.count ∨
        4 * ((item.count + 2) / 3) < item.dataBase64.length) "invalid_chunk"
      let current ← store cfg item
      acceptItems cfg maximum (item.offset + item.count) current items

def acceptBatch (cfg : Config) (maximum offset : Nat) (current : Response) (chunks : List PullChunk) :
    HostPartial.Host Response := do
  HostPartial.rejectIf (chunks = []) "invalid_chunk"
  acceptItems cfg maximum offset current chunks

def acceptSingle (cfg : Config) (offset count : Nat) (item : PullChunk) : HostPartial.Host Response := do
  HostPartial.rejectIf (item.offset ≠ offset ∨ item.count ≠ count ∨
    4 * ((count + 2) / 3) < item.dataBase64.length) "invalid_chunk"
  store cfg item

/-- The codes on which the host goes on with single chunks. -/
def degradable (code : String) : Bool :=
  ["protocol_error", "transport_timeout", "outcome_unknown", "connection_failed"].contains code

/-- How the loop ends: at the end of the package; with the error of an answer, of the
    adapter or of the host itself; or with its process.  `running` is the loop cut off. -/
inductive End where
  | finished (current : Response)
  | refused (code : String)
  | fault (code : String)
  | failed (e : Failure)
  | crashed
  | running
deriving Repr, DecidableEq

/-- Go on behind a step of the host. -/
def advance (next : Response → World → End × World) : Outcome Failure Response × World → End × World
  | (.done current, w) => next current w
  | (.raised e, w) => (.failed e, w)
  | (.crashed, w) => (.crashed, w)

/-- The loop of `_pull`; `batch` becomes one where a batch was lost. -/
def pullLoop (cfg : Config) (policy : Policy) (maximum : Nat) : Nat → Nat → Response → World → End × World
  | 0, _, _, w => (.running, w)
  | fuel + 1, batch, current, w =>
      let size := cfg.binding.packageSize
      let offset := current.verifiedOffset
      if size ≤ offset then (.finished current, w)
      else if 1 < batch then
        let room := (size - offset + maximum - 1) / maximum
        match call (PullTask.transferChunks policy
          (batchCall cfg.binding.transferId cfg.binding.requestDigest offset maximum (min batch room))) w with
        | (.result r, w) =>
            advance (pullLoop cfg policy maximum fuel batch)
              (onHost (acceptBatch cfg maximum offset current r.chunks) w)
        | (.refused code, w) =>
            if degradable code then pullLoop cfg policy maximum fuel 1 current w else (.refused code, w)
        | (.fault code, w) =>
            if degradable code then pullLoop cfg policy maximum fuel 1 current w else (.fault code, w)
      else
        let count := min maximum (size - offset)
        match call (PullTask.transferChunk policy
          (chunkCall cfg.binding.transferId cfg.binding.requestDigest offset count)) w with
        | (.result item, w) =>
            advance (pullLoop cfg policy maximum fuel batch) (onHost (acceptSingle cfg offset count item) w)
        | (.refused code, w) => (.refused code, w)
        | (.fault code, w) => (.fault code, w)

/-- `_pull` behind `initialize`, up to the end of its loop.  Each round appends a byte, or
    gives up batches once. -/
def pullFrom (cfg : Config) (policy : Policy) (adapter : Adapter) (current : Response) (w : World) : End × World :=
  let maximum := min cfg.budget.maxChunkBytes adapter.rawChunkBytes
  if maximum = 0 then (.failed (.error "invalid_chunk_range"), w)
  else pullLoop cfg policy maximum (cfg.binding.packageSize + 2) (max 1 adapter.batchChunks) current w

/-- `_pull` of a partial that is READY, where `initialize` is `resume`. -/
def pull (cfg : Config) (policy : Policy) (adapter : Adapter) (w : World) : End × World :=
  advance (pullFrom cfg policy adapter) (onHost (HostPartial.resume cfg) w)

/-! ## Calls to a guest that can be read -/

/-- The guest stays as it is, and nothing fails there before the deadline. -/
structure Steadfast (deadline : Nat) (d : PullTask.Disk) (w : World) : Prop where
  disk : w.guest.disk = d
  calm : Calm deadline w.guest

section Calls

variable {α : Type} {m : Pull α} {P : α → Prop} {deadline : Nat} {d : PullTask.Disk} {w : World}

theorem serve_steadfast (hm : Completes id deadline 0 (fun v => v = d) m (fun a v => v = d ∧ P a))
    (hg : Steadfast deadline d w) :
    ∃ a g, serve m w = (.result a, { w with guest := g }) ∧ P a ∧ Steadfast deadline d { w with guest := g } ∧
      m w.guest = (.done a, g) := by
  obtain ⟨a, g, hrun, hcalm, -, hdisk, hP⟩ := hm w.guest hg.calm (Nat.zero_le _) hg.disk
  refine ⟨a, g, ?_, hP, ⟨hdisk, hcalm⟩, hrun⟩
  rw [serve, hrun]

/-- Where an answer arrives, it is the guest's; the call changes nothing but the script of
    the connection. -/
theorem call_steadfast (hm : Completes id deadline 0 (fun v => v = d) m (fun a v => v = d ∧ P a))
    (hg : Steadfast deadline d w) :
    ∃ w', w'.host = w.host ∧ w'.link = w.link.tail ∧ Steadfast deadline d w' ∧
      ((∃ a, call m w = (.result a, w') ∧ P a ∧ ∀ code reached, w.link.head? ≠ some (.fails code reached)) ∨
        ∃ code reached, call m w = (.fault code, w') ∧ w.link.head? = some (.fails code reached)) := by
  obtain ⟨host, guest, link⟩ := w
  cases link with
  | nil =>
      obtain ⟨a, g, hserve, hP, hg', -⟩ := serve_steadfast hm hg
      exact ⟨{ host, guest := g, link := [] }, rfl, rfl, hg', .inl ⟨a, hserve, hP, nofun⟩⟩
  | cons event rest =>
      have hrest : Steadfast deadline d { host, guest, link := rest } := ⟨hg.disk, hg.calm⟩
      obtain ⟨a, g, hserve, hP, hg', hrun⟩ := serve_steadfast hm hrest
      cases event with
      | arrives => exact ⟨{ host, guest := g, link := rest }, rfl, rfl, hg', .inl ⟨a, hserve, hP, nofun⟩⟩
      | fails code reached =>
          cases reached with
          | false => exact ⟨{ host, guest, link := rest }, rfl, rfl, hrest, .inr ⟨code, false, rfl, rfl⟩⟩
          | true =>
              refine ⟨{ host, guest := g, link := rest }, rfl, rfl, hg', .inr ⟨code, true, ?_, rfl⟩⟩
              show (Answer.fault code, World.mk host (m guest).2 rest) = _
              rw [show m guest = (.done a, g) from hrun]

end Calls

/-! ## The pieces of the package -/

section Pieces

variable {n : Nat} {package : Bytes} {h : List Bytes}

/-- The chunks behind a start of the package are a start of it, too. -/
theorem pieces_start (k : Nat) (hstart : h.flatten <+: package) :
    (h ++ pieces n k (package.drop h.flatten.length)).flatten <+: package ∧
      package.drop (h ++ pieces n k (package.drop h.flatten.length)).flatten.length =
        (package.drop h.flatten.length).drop (k * n) := by
  obtain ⟨rest, rfl⟩ := hstart
  rw [List.drop_left, List.flatten_append, flatten_pieces]
  refine ⟨(List.prefix_append_right_inj _).mpr (List.take_prefix _ _), ?_⟩
  rw [List.length_append, ← List.drop_drop, List.drop_left, List.length_take]
  rcases Nat.le_total (k * n) rest.length with hle | hle
  · rw [Nat.min_eq_left hle]
  · rw [Nat.min_eq_right hle, List.drop_length, List.drop_of_length_le hle]

/-- Pieces behind pieces are pieces. -/
theorem pieces_behind (k j : Nat) (hstart : h.flatten <+: package) :
    (h ++ pieces n k (package.drop h.flatten.length)) ++
        pieces n j (package.drop (h ++ pieces n k (package.drop h.flatten.length)).flatten.length) =
      h ++ pieces n (k + j) (package.drop h.flatten.length) := by
  rw [(pieces_start k hstart).2, pieces_append, List.append_assoc]

/-- The next chunk is the next piece. -/
theorem pieces_next (hmore : h.flatten.length < package.length) :
    pieces n 1 (package.drop h.flatten.length) = [(package.drop h.flatten.length).take n] := by
  refine pieces_succ ?_
  rw [Ne, List.drop_eq_nil_iff]
  omega

end Pieces

/-! ## Accepting chunks -/

section Accepting

variable {cfg : Config} {t n : Nat} {package : Bytes} {h : List Bytes} {v₀ : HostPartial.Disk}

/-- What is acknowledged where the host ends early: some of the next pieces. -/
def Partway (cfg : Config) (t n : Nat) (package : Bytes) (h : List Bytes) (v : HostPartial.Disk) : Prop :=
  ∃ j, Holds cfg t v (h ++ pieces n j (package.drop h.flatten.length))

/-- What the host answers when the chunks `h` are acknowledged. -/
structure At (cfg : Config) (t : Nat) (h : List Bytes) (r : Response) (v : HostPartial.Disk) : Prop where
  holds : Holds cfg t v h
  offset : r.verifiedOffset = h.flatten.length

theorem At.of_held {s : HostPartial.State} {p l : FileNode} {v : HostPartial.Disk}
    (hh : HostPartial.Held cfg t v h s p l) : At cfg t h (HostPartial.respond s) v :=
  ⟨⟨s, p, l, hh⟩, hh.counts.offset⟩

theorem partway_none {v : HostPartial.Disk} (hh : Holds cfg t v h) : Partway cfg t n package h v :=
  ⟨0, by rw [pieces_zero, List.append_nil]; exact hh⟩

/-- **The next chunk** is appended, or what was acknowledged stays. -/
theorem store_triple (hh : Holds cfg t v₀ h) (hmore : h.flatten.length < package.length) (hn : 0 < n) :
    Triple HostPartial.disk (fun v => v = v₀)
      (store cfg (.of h.flatten.length ((package.drop h.flatten.length).take n)))
      (At cfg t (h ++ pieces n 1 (package.drop h.flatten.length))) (fun _ => Partway cfg t n package h) := by
  obtain ⟨s, p, l, hheld⟩ := hh
  have hpiece := pieces_next (n := n) hmore
  have hpos : 0 < ((package.drop h.flatten.length).take n).length := by
    rw [List.length_take, List.length_drop]
    omega
  rw [store, PullChunk.of, Base64.decode_encode]
  refine at_check (fun _ => partway_none ⟨s, p, l, hheld⟩) (fun _ => triple_conseq (HostPartial.append_triple hheld)
    (fun _ hv => hv) ?_ ?_)
  · rintro r v ⟨s', p', l', rfl, hdone⟩
    rcases hdone with ⟨hack, -⟩ | ⟨-, -, hheld'⟩
    · -- an acknowledged chunk ends within what is acknowledged
      have hrange : h.flatten.length + ((package.drop h.flatten.length).take n).length ≤ h.flatten.length :=
        hack.range.2
      omega
    · rw [hpiece]
      exact .of_held hheld'
  · rintro e v (hold | ⟨-, -, hnew⟩)
    · exact partway_none hold
    · refine ⟨1, ?_⟩
      rw [hpiece]
      exact hnew

/-- **The loop over the items** of a batch appends all of them, or some. -/
theorem acceptItems_triple {current : Response} (hh : Holds cfg t v₀ h)
    (hcurrent : current.verifiedOffset = h.flatten.length) (hstart : h.flatten <+: package) (hn : 0 < n) (k : Nat) :
    Triple HostPartial.disk (fun v => v = v₀)
      (acceptItems cfg n h.flatten.length current
        (place h.flatten.length (pieces n k (package.drop h.flatten.length))))
      (At cfg t (h ++ pieces n k (package.drop h.flatten.length))) (fun _ => Partway cfg t n package h) := by
  induction k generalizing h current v₀ with
  | zero =>
      refine triple_pure ?_
      rintro v rfl
      rw [pieces_zero, List.append_nil]
      exact ⟨hh, hcurrent⟩
  | succ k ih =>
      by_cases hmore : h.flatten.length < package.length
      · have hrest : package.drop h.flatten.length ≠ [] := by
          rw [Ne, List.drop_eq_nil_iff]
          omega
        obtain ⟨hstart', hdrop⟩ := pieces_start (n := n) 1 hstart
        have hbehind := fun j => pieces_behind (n := n) 1 j hstart
        have hstored := store_triple hh hmore hn
        rw [pieces_next hmore, Nat.one_mul] at hdrop
        rw [pieces_next hmore] at hstart' hbehind hstored
        rw [pieces_succ hrest, place, ← hdrop]
        refine at_check (fun _ => partway_none hh) (fun _ => triple_bind hstored (fun r => triple_at (fun v hv => ?_)))
        have hlength : h.flatten.length + ((package.drop h.flatten.length).take n).length =
            (h ++ [(package.drop h.flatten.length).take n]).flatten.length := by
          rw [HostPartial.flatten_extend, List.length_append]
        show Triple _ _ (acceptItems cfg n (h.flatten.length + ((package.drop h.flatten.length).take n).length) r _) _ _
        rw [hlength]
        refine triple_conseq (ih hv.holds hv.offset hstart') (fun _ hw => hw) ?_ ?_
        · intro r' w hw
          rw [hbehind k, Nat.add_comm, pieces_succ hrest, ← hdrop] at hw
          exact hw
        · rintro e w ⟨j, hw⟩
          rw [hbehind j] at hw
          exact ⟨1 + j, hw⟩
      · have hend : package.drop h.flatten.length = [] := List.drop_of_length_le (by omega)
        rw [hend, pieces_nil, List.append_nil]
        refine triple_pure ?_
        rintro v rfl
        exact ⟨hh, hcurrent⟩

end Accepting

/-! ## The loop with a guest that stays as it is -/

/-- What host and guest know of one task, and a length of chunks within the guest's limits. -/
structure Agreed (cfg : Config) (policy : Policy) (package : Bytes) (deadline : Nat) (d : PullTask.Disk) (n : Nat) :
    Prop where
  readable : Readable package deadline d
  transferId : d.state.transferId = cfg.binding.transferId
  requestDigest : d.state.requestDigest = cfg.binding.requestDigest
  size : cfg.binding.packageSize = package.length
  positive : 0 < n
  maximum : n ≤ PullTask.maximum policy d.state
  batches : policy.maxBatchChunks.getD 0 ≤ 64

/-- Where a loop may end: at the end of the package, with a fault of the connection, or
    with a failure of the host; never with an error that the guest answers. -/
def Ends (package : Bytes) (link : List Delivery) (acknowledged : Bytes) : End → Prop
  | .finished current => current.verifiedOffset = package.length ∧ acknowledged = package
  | .refused _ => False
  | .fault code => ∃ reached, .fails code reached ∈ link
  | .failed _ => True
  | .crashed => True
  | .running => False

/-- The chunks behind `h` that are acknowledged are the next pieces, and the end is one of
    the above. -/
def Safe (cfg : Config) (t n : Nat) (package : Bytes) (h : List Bytes) (link : List Delivery) (r : End × World) :
    Prop :=
  ∃ j, Holds cfg t r.2.host.disk (h ++ pieces n j (package.drop h.flatten.length)) ∧
    Ends package link (h ++ pieces n j (package.drop h.flatten.length)).flatten r.1

section Loop

variable {cfg : Config} {policy : Policy} {package : Bytes} {deadline t n : Nat} {d : PullTask.Disk} {w : World}
  {h : List Bytes}

/-- The chunks that are left, by the arithmetic of the host. -/
theorem room_within {x n : Nat} (hx : 0 < x) (hn : 0 < n) :
    0 < (x + n - 1) / n ∧ ((x + n - 1) / n - 1) * n < x := by
  refine ⟨Nat.div_pos (by omega) hn, ?_⟩
  have hmul := Nat.div_mul_le_self (x + n - 1) n
  rw [Nat.sub_mul, Nat.one_mul]
  omega

/-- **The guest answers the batch** that the host asks for. -/
theorem batch_answered (ha : Agreed cfg policy package deadline d n) {offset batch : Nat}
    (hmore : offset < package.length) (hmany : 1 < batch) (hbatch : batch ≤ max 1 (policy.maxBatchChunks.getD 0)) :
    Completes id deadline 0 (fun v => v = d)
      (PullTask.transferChunks policy (batchCall cfg.binding.transferId cfg.binding.requestDigest offset n
        (min batch ((cfg.binding.packageSize - offset + n - 1) / n))))
      (fun r v => v = d ∧ r.chunks = place offset
        (pieces n (min batch ((cfg.binding.packageSize - offset + n - 1) / n)) (package.drop offset))) := by
  obtain ⟨hroom, hlast⟩ := room_within (x := cfg.binding.packageSize - offset) (by rw [ha.size]; omega) ha.positive
  rw [← ha.transferId, ← ha.requestDigest]
  refine PullTask.completes_transferChunks ha.readable ha.batches ha.positive ha.maximum (by omega) (by omega) ?_
  have hfew : (min batch ((cfg.binding.packageSize - offset + n - 1) / n) - 1) * n ≤
      ((cfg.binding.packageSize - offset + n - 1) / n - 1) * n :=
    Nat.mul_le_mul_right n (Nat.sub_le_sub_right (Nat.min_le_right _ _) 1)
  rw [ha.size] at hlast hfew ⊢
  omega

/-- **The guest answers the single chunk** that the host asks for. -/
theorem chunk_answered (ha : Agreed cfg policy package deadline d n) {offset : Nat} (hmore : offset < package.length) :
    Completes id deadline 0 (fun v => v = d)
      (PullTask.transferChunk policy (chunkCall cfg.binding.transferId cfg.binding.requestDigest offset
        (min n (cfg.binding.packageSize - offset))))
      (fun r v => v = d ∧ r = .of offset ((package.drop offset).take n)) := by
  have htake : (package.drop offset).take n = (package.drop offset).take (min n (package.length - offset)) := by
    rw [← List.length_drop, ← List.take_eq_take_min]
  have hpositive := ha.positive
  have hmaximum := ha.maximum
  rw [← ha.transferId, ← ha.requestDigest, ha.size, htake]
  exact PullTask.completes_transferChunk ha.readable (by omega) (by omega) (by omega)

theorem At.move {h' : List Bytes} {r : Response} {v : HostPartial.Disk} (hat : At cfg t h r v) (hh : h = h') :
    At cfg t h' r v := hh ▸ hat

/-- What is safe behind some of the next pieces is safe. -/
theorem Safe.behind {k : Nat} {link : List Delivery} {r : End × World} (hstart : h.flatten <+: package)
    (hs : Safe cfg t n package (h ++ pieces n k (package.drop h.flatten.length)) link.tail r) :
    Safe cfg t n package h link r := by
  obtain ⟨j, hholds, hends⟩ := hs
  rw [pieces_behind k j hstart] at hholds hends
  refine ⟨k + j, hholds, ?_⟩
  obtain ⟨e, w⟩ := r
  cases e with
  | fault code =>
      obtain ⟨reached, hmem⟩ := hends
      exact ⟨reached, List.mem_of_mem_tail hmem⟩
  | finished current => exact hends
  | refused code => exact hends
  | failed e => exact hends
  | crashed => exact hends
  | running => exact hends

/-- A step of the host that ends the loop leaves what was acknowledged, or some more. -/
theorem advance_safe {k : Nat} {link : List Delivery} {m : HostPartial.Host Response}
    {next : Response → World → End × World}
    (hm : Triple HostPartial.disk (fun v => v = w.host.disk) m
      (At cfg t (h ++ pieces n k (package.drop h.flatten.length))) (fun _ => Partway cfg t n package h))
    (hg : Steadfast deadline d w)
    (hnext : ∀ current w', At cfg t (h ++ pieces n k (package.drop h.flatten.length)) current w'.host.disk →
      Steadfast deadline d w' → w'.link = w.link → Safe cfg t n package h link (next current w')) :
    Safe cfg t n package h link (advance next (onHost m w)) := by
  have hrun := hm w.host rfl
  rcases hms : m w.host with ⟨o, host⟩
  rw [hms] at hrun
  have honHost : onHost m w = (o, { w with host }) := by rw [onHost, hms]
  rw [honHost]
  cases o with
  | done current => exact hnext current { w with host } hrun ⟨hg.disk, hg.calm⟩ rfl
  | raised e =>
      obtain ⟨j, hholds⟩ := hrun
      exact ⟨j, hholds, trivial⟩
  | crashed =>
      obtain ⟨j, hholds⟩ := hrun
      exact ⟨j, hholds, trivial⟩

/-- **The loop is safe** whatever the connection and the host's own storage do. -/
theorem pullLoop_safe (ha : Agreed cfg policy package deadline d n) {fuel batch : Nat} {current : Response}
    (hg : Steadfast deadline d w) (hat : At cfg t h current w.host.disk) (hstart : h.flatten <+: package)
    (hbatch : batch ≤ max 1 (policy.maxBatchChunks.getD 0))
    (hfuel : package.length - h.flatten.length + (if 1 < batch then 1 else 0) < fuel) :
    Safe cfg t n package h w.link (pullLoop cfg policy n fuel batch current w) := by
  induction fuel generalizing batch current w h with
  | zero => exact absurd hfuel (Nat.not_lt_zero _)
  | succ fuel ih =>
      have hoffset := hat.offset
      have hlength := hstart.length_le
      rw [pullLoop]
      dsimp only
      rw [hoffset, ha.size]
      by_cases hend : package.length ≤ h.flatten.length
      · rw [if_pos hend]
        refine ⟨0, ?_, ?_⟩
        · rw [pieces_zero, List.append_nil]
          exact hat.holds
        · rw [pieces_zero, List.append_nil]
          exact ⟨hoffset.trans (Nat.le_antisymm hlength hend), hstart.eq_of_length_le hend⟩
      rw [if_neg hend]
      have hmore : h.flatten.length < package.length := Nat.not_le.mp hend
      -- behind the next pieces, of which there is at least one, less fuel is needed
      have hrec : ∀ {k : Nat} {current' : Response} {w' : World}, 0 < k →
          At cfg t (h ++ pieces n k (package.drop h.flatten.length)) current' w'.host.disk →
          Steadfast deadline d w' → w'.link = w.link.tail →
          Safe cfg t n package h w.link (pullLoop cfg policy n fuel batch current' w') := by
        intro k current' w' hk hat' hg' hlink
        have hgrown : h.flatten.length < (h ++ pieces n k (package.drop h.flatten.length)).flatten.length := by
          have hpositive := Nat.mul_pos hk ha.positive
          rw [List.flatten_append, flatten_pieces, List.length_append, List.length_take, List.length_drop]
          omega
        refine Safe.behind (k := k) hstart ?_
        rw [← hlink]
        refine ih hg' hat' (pieces_start k hstart).1 hbatch ?_
        omega
      by_cases hmany : 1 < batch
      · rw [if_pos hmany]
        obtain ⟨w', hhost, hlink, hg', hanswer⟩ := call_steadfast (batch_answered ha hmore hmany hbatch) hg
        rw [ha.size] at hanswer
        rcases hanswer with ⟨r, hcall, hchunks, -⟩ | ⟨code, reached, hcall, hhead⟩
        · rw [hcall]
          dsimp only
          obtain ⟨hroom, -⟩ := room_within (x := package.length - h.flatten.length) (n := n) (by omega) ha.positive
          refine advance_safe (k := min batch ((package.length - h.flatten.length + n - 1) / n)) ?_ hg'
            (fun current' w'' hat' hg'' hlink' => hrec (by omega) hat' hg'' (hlink'.trans hlink))
          rw [hhost, hchunks]
          exact at_check (fun _ => partway_none hat.holds) (fun _ => acceptItems_triple hat.holds hoffset hstart ha.positive _)
        · rw [hcall]
          dsimp only
          split
          · -- a batch was lost; single chunks from here on
            have hless : package.length - h.flatten.length + (if 1 < 1 then 1 else 0) < fuel := by
              rw [if_pos hmany] at hfuel
              rw [if_neg (by omega)]
              omega
            have hsafe : Safe cfg t n package h w'.link (pullLoop cfg policy n fuel 1 current w') :=
              ih hg' (hhost ▸ hat) hstart (Nat.le_max_left _ _) hless
            rw [hlink] at hsafe
            refine Safe.behind (k := 0) hstart ?_
            rw [pieces_zero, List.append_nil]
            exact hsafe
          · refine ⟨0, ?_, reached, List.mem_of_mem_head? hhead⟩
            rw [pieces_zero, List.append_nil, hhost]
            exact hat.holds
      · rw [if_neg hmany]
        obtain ⟨w', hhost, hlink, hg', hanswer⟩ := call_steadfast (chunk_answered ha hmore) hg
        rw [ha.size] at hanswer
        rcases hanswer with ⟨item, hcall, rfl, -⟩ | ⟨code, reached, hcall, hhead⟩
        · rw [hcall]
          dsimp only
          refine advance_safe (k := 1) ?_ hg'
            (fun current' w'' hat' hg'' hlink' => hrec Nat.one_pos hat' hg'' (hlink'.trans hlink))
          rw [hhost]
          exact at_check (fun _ => partway_none hat.holds) (fun _ => store_triple hat.holds hmore ha.positive)
        · rw [hcall]
          refine ⟨0, ?_, reached, List.mem_of_mem_head? hhead⟩
          rw [pieces_zero, List.append_nil, hhost]
          exact hat.holds

end Loop

/-! ## The loop where nothing fails -/

/-- A connection that loses no call but one of a batch, with a code on which the host goes
    on. -/
def Steady : Bool → List Delivery → Prop
  | _, [] => True
  | batched, .arrives :: rest => Steady batched rest
  | batched, .fails code _ :: rest => batched = true ∧ degradable code = true ∧ Steady false rest

/-- A host whose budgets, files and journal have a place for the package in chunks of one
    length. -/
structure Ample (cfg : Config) (package : Bytes) (n free : Nat) (h : List Bytes) : Prop where
  usable : cfg.budget.Usable
  packaged : cfg.binding.packageSize ≤ cfg.budget.maxPackageBytes
  chunk : n ≤ cfg.budget.maxChunkBytes
  metadata : (ledgerFrom .size 0 (h ++ whole n (package.drop h.flatten.length))).length ≤
    cfg.budget.maxMetadataBytes
  file : package.length ≤ maxFileSize
  ledger : cfg.budget.maxMetadataBytes ≤ maxFileSize
  fits : ∀ revision s, cfg.journalFits revision s = true
  room : n + 255 + cfg.budget.minFreeBytes ≤ free

/-- The chunks `h` are acknowledged, and nothing else is in the files. -/
def FreshAt (cfg : Config) (t : Nat) (h : List Bytes) (r : Response) (v : HostPartial.Disk) : Prop :=
  ∃ s p l, Fresh cfg t v h s p l ∧ r = HostPartial.respond s

section Calm

variable {cfg : Config} {policy : Policy} {package : Bytes} {deadline t n room : Nat} {d : PullTask.Disk} {w : World}
  {h : List Bytes} {v₀ : HostPartial.Disk}

theorem FreshAt.at {r : Response} {v : HostPartial.Disk} (hf : FreshAt cfg t h r v) : At cfg t h r v := by
  obtain ⟨s, p, l, hfresh, rfl⟩ := hf
  exact .of_held hfresh.held

theorem steady_arrived {batched : Bool} {link : List Delivery} (hs : Steady batched link)
    (harrived : ∀ code reached, link.head? ≠ some (.fails code reached)) : Steady batched link.tail := by
  cases link with
  | nil => trivial
  | cons event rest =>
      cases event with
      | arrives => exact hs
      | fails code reached => exact absurd rfl (harrived code reached)

theorem steady_failed {batched : Bool} {link : List Delivery} {code : String} {reached : Bool}
    (hs : Steady batched link) (hfailed : link.head? = some (.fails code reached)) :
    batched = true ∧ degradable code = true ∧ Steady false link.tail := by
  cases link with
  | nil => exact absurd hfailed nofun
  | cons event rest =>
      obtain rfl : event = .fails code reached := Option.some.inj hfailed
      exact hs

/-- What is left of the package has the same place behind some of its pieces. -/
theorem Ample.behind {free : Nat} (ha : Ample cfg package n free h) (hn : 0 < n) (hstart : h.flatten <+: package)
    (k : Nat) : Ample cfg package n free (h ++ pieces n k (package.drop h.flatten.length)) where
  usable := ha.usable
  packaged := ha.packaged
  chunk := ha.chunk
  metadata := by
    rw [(pieces_start k hstart).2, List.append_assoc, pieces_whole hn]
    exact ha.metadata
  file := ha.file
  ledger := ha.ledger
  fits := ha.fits
  room := ha.room

/-- The next piece is a chunk that the host has a place for. -/
theorem Ample.next {free : Nat} (ha : Ample cfg package n free h) (hn : 0 < n) (hsize : cfg.binding.packageSize = package.length)
    (hmore : h.flatten.length < package.length) :
    HostPartial.Next cfg h ((package.drop h.flatten.length).take n) ∧
      HostPartial.Storable cfg h ((package.drop h.flatten.length).take n) := by
  have hlength : ((package.drop h.flatten.length).take n).length = min n (package.length - h.flatten.length) := by
    rw [List.length_take, List.length_drop]
  have hmetadata : (ledgerFrom .size 0 (h ++ [(package.drop h.flatten.length).take n])).length ≤
      cfg.budget.maxMetadataBytes := by
    have hall := ha.metadata
    rw [← pieces_whole hn 1, pieces_next hmore, ← List.append_assoc, ledgerFrom_append, List.length_append] at hall
    omega
  have hchunk := ha.chunk
  have hfile := ha.file
  have hledger := ha.ledger
  refine ⟨⟨?_, by omega, by omega, ?_⟩, by omega, by omega, ha.fits⟩
  · rw [Ne, ← List.length_eq_zero_iff]
    omega
  · rw [HostPartial.ledgerFrom_extend, List.length_append] at hmetadata
    exact hmetadata

/-- **The next chunk is appended.** -/
theorem completes_store (ha : Ample cfg package n room h) (hn : 0 < n) (hsize : cfg.binding.packageSize = package.length)
    (hmore : h.flatten.length < package.length) {current : Response} (hf : FreshAt cfg t h current v₀) :
    Completes id t room (fun v => v = v₀)
      (store cfg (.of h.flatten.length ((package.drop h.flatten.length).take n)))
      (FreshAt cfg t (h ++ pieces n 1 (package.drop h.flatten.length))) := by
  obtain ⟨s, p, l, hfresh, -⟩ := hf
  obtain ⟨hnext, hstorable⟩ := ha.next hn hsize hmore
  have hvalid : (chunkRecord h.flatten.length ((package.drop h.flatten.length).take n)).Valid := by
    refine ⟨List.length_pos_iff.mpr hnext.full, ?_, isHex_hexdigest _⟩
    show h.flatten.length + ((package.drop h.flatten.length).take n).length ≤ maxFileSize
    exact hstorable.part
  have hline := hvalid.length .size
  have hroom := ha.room
  have hmost : ((package.drop h.flatten.length).take n).length ≤ n := List.length_take_le _ _
  have happend : Completes id t room (fun v => v = v₀) (HostPartial.append cfg h.flatten.length
      ((package.drop h.flatten.length).take n) (hexdigest ((package.drop h.flatten.length).take n)))
      (FreshAt cfg t (h ++ [(package.drop h.flatten.length).take n])) :=
    HostPartial.completes_appendNext hfresh hnext ha.usable ha.packaged hstorable (by omega)
  rw [store, PullChunk.of, Base64.decode_encode, pieces_next hmore]
  exact completes_check (not_not.mpr rfl) happend

theorem completes_acceptItems (ha : Ample cfg package n room h) (hn : 0 < n)
    (hsize : cfg.binding.packageSize = package.length) (hstart : h.flatten <+: package) {current : Response}
    (hf : FreshAt cfg t h current v₀) (k : Nat) :
    Completes id t room (fun v => v = v₀)
      (acceptItems cfg n h.flatten.length current
        (place h.flatten.length (pieces n k (package.drop h.flatten.length))))
      (FreshAt cfg t (h ++ pieces n k (package.drop h.flatten.length))) := by
  induction k generalizing h current v₀ with
  | zero =>
      rw [pieces_zero, List.append_nil]
      refine completes_pure ?_
      rintro v rfl
      exact hf
  | succ k ih =>
      by_cases hmore : h.flatten.length < package.length
      · have hrest : package.drop h.flatten.length ≠ [] := by
          rw [Ne, List.drop_eq_nil_iff]
          omega
        obtain ⟨hstart', hdrop⟩ := pieces_start (n := n) 1 hstart
        have hbehind := pieces_behind (n := n) 1 k hstart
        have hample := ha.behind hn hstart 1
        have hstored := completes_store ha hn hsize hmore hf
        rw [pieces_next hmore, Nat.one_mul] at hdrop
        rw [pieces_next hmore] at hstart' hbehind hample hstored
        rw [pieces_succ hrest, place, ← hdrop]
        have hlength : h.flatten.length + ((package.drop h.flatten.length).take n).length =
            (h ++ [(package.drop h.flatten.length).take n]).flatten.length := by
          rw [HostPartial.flatten_extend, List.length_append]
        refine completes_check ?_ (completes_bind hstored (fun r => completes_at (fun v hv => ?_)))
        · have hpos : 0 < ((package.drop h.flatten.length).take n).length := by
            rw [List.length_take, List.length_drop]
            omega
          have hmost : ((package.drop h.flatten.length).take n).length ≤ n := List.length_take_le _ _
          rintro (hne | hzero | hlong | htext)
          · exact hne rfl
          · exact absurd hzero (Nat.ne_of_gt hpos)
          · exact absurd hlong (Nat.not_lt.mpr hmost)
          · exact absurd htext (Nat.not_lt.mpr (Nat.le_of_eq (Base64.encode_length _)))
        · show Completes _ _ _ _ (acceptItems cfg n (h.flatten.length + ((package.drop h.flatten.length).take n).length) r _) _
          rw [hlength]
          refine completes_post (ih hample hstart' hv) ?_
          intro r' w hw
          rw [hbehind, Nat.add_comm, pieces_succ hrest, ← hdrop] at hw
          exact hw
      · have hend : package.drop h.flatten.length = [] := List.drop_of_length_le (by omega)
        rw [hend, pieces_nil, List.append_nil]
        refine completes_pure ?_
        rintro v rfl
        exact hf

/-- A step of the host that returns goes on. -/
theorem advance_calm {m : HostPartial.Host Response} {Q : Response → HostPartial.Disk → Prop}
    (next : Response → World → End × World) (hm : Completes id t w.host.free (fun v => v = w.host.disk) m Q)
    (hcalm : Calm t w.host) : ∃ current host, advance next (onHost m w) = next current { w with host } ∧
      Calm t host ∧ host.free = w.host.free ∧ Q current host.disk := by
  obtain ⟨current, host, hrun, hcalm', hfree, hQ⟩ := hm w.host hcalm (Nat.le_refl _) rfl
  refine ⟨current, host, ?_, hcalm', hfree, hQ⟩
  rw [onHost, hrun, advance]

/-- Where the loop ends when nothing stops it. -/
def Complete (cfg : Config) (t n : Nat) (package : Bytes) (h : List Bytes) (r : End × World) : Prop :=
  ∃ current, r.1 = .finished current ∧ current.verifiedOffset = package.length ∧
    Holds cfg t r.2.host.disk (h ++ whole n (package.drop h.flatten.length))

theorem Complete.behind {k : Nat} {r : End × World} (hn : 0 < n) (hstart : h.flatten <+: package)
    (hc : Complete cfg t n package (h ++ pieces n k (package.drop h.flatten.length)) r) :
    Complete cfg t n package h r := by
  obtain ⟨current, hend, hoffset, hholds⟩ := hc
  rw [(pieces_start k hstart).2, List.append_assoc, pieces_whole hn] at hholds
  exact ⟨current, hend, hoffset, hholds⟩

/-- **The loop ends at the end of the package** where nothing fails. -/
theorem pullLoop_ends (ha : Agreed cfg policy package deadline d n) {fuel batch : Nat} {current : Response}
    (hg : Steadfast deadline d w) (hcalm : Calm t w.host) (hample : Ample cfg package n w.host.free h)
    (hf : FreshAt cfg t h current w.host.disk) (hstart : h.flatten <+: package)
    (hbatch : batch ≤ max 1 (policy.maxBatchChunks.getD 0)) (hsteady : Steady (decide (1 < batch)) w.link)
    (hfuel : package.length - h.flatten.length + (if 1 < batch then 1 else 0) < fuel) :
    Complete cfg t n package h (pullLoop cfg policy n fuel batch current w) := by
  induction fuel generalizing batch current w h with
  | zero => exact absurd hfuel (Nat.not_lt_zero _)
  | succ fuel ih =>
      have hoffset := hf.at.offset
      have hlength := hstart.length_le
      rw [pullLoop]
      dsimp only
      rw [hoffset, ha.size]
      by_cases hend : package.length ≤ h.flatten.length
      · rw [if_pos hend]
        refine ⟨current, rfl, hoffset.trans (Nat.le_antisymm hlength hend), ?_⟩
        rw [List.drop_of_length_le hend, show whole n ([] : Bytes) = [] from rfl, List.append_nil]
        exact hf.at.holds
      rw [if_neg hend]
      have hmore : h.flatten.length < package.length := Nat.not_le.mp hend
      have hrec : ∀ {k : Nat} {current' : Response} {w' : World}, 0 < k → Steadfast deadline d w' →
          Calm t w'.host → w'.host.free = w.host.free →
          FreshAt cfg t (h ++ pieces n k (package.drop h.flatten.length)) current' w'.host.disk →
          Steady (decide (1 < batch)) w'.link →
          Complete cfg t n package h (pullLoop cfg policy n fuel batch current' w') := by
        intro k current' w' hk hg' hcalm' hfree hf' hsteady'
        have hgrown : h.flatten.length < (h ++ pieces n k (package.drop h.flatten.length)).flatten.length := by
          have hpositive := Nat.mul_pos hk ha.positive
          rw [List.flatten_append, flatten_pieces, List.length_append, List.length_take, List.length_drop]
          omega
        have hample' := hample.behind ha.positive hstart k
        rw [← hfree] at hample'
        exact (ih hg' hcalm' hample' hf' (pieces_start k hstart).1 hbatch hsteady' (by omega)).behind ha.positive hstart
      by_cases hmany : 1 < batch
      · rw [if_pos hmany]
        obtain ⟨w', hhost, hlink, hg', hanswer⟩ := call_steadfast (batch_answered ha hmore hmany hbatch) hg
        rw [ha.size] at hanswer
        rcases hanswer with ⟨r, hcall, hchunks, harrived⟩ | ⟨code, reached, hcall, hhead⟩
        · rw [hcall]
          dsimp only
          obtain ⟨hroom, -⟩ := room_within (x := package.length - h.flatten.length) (n := n) (by omega) ha.positive
          rw [← hhost] at hcalm hample hf
          have hnonempty : r.chunks ≠ [] := by
            rw [hchunks]
            obtain ⟨k, hk⟩ := Nat.exists_eq_add_one.mpr (show 0 < min batch
              ((package.length - h.flatten.length + n - 1) / n) by omega)
            have hrest : package.drop h.flatten.length ≠ [] := by
              rw [Ne, List.drop_eq_nil_iff]
              omega
            rw [hk, pieces_succ hrest, place]
            exact List.cons_ne_nil _ _
          have haccepted : Completes id t w'.host.free (fun v => v = w'.host.disk)
              (acceptBatch cfg n h.flatten.length current r.chunks)
              (FreshAt cfg t (h ++ pieces n (min batch ((package.length - h.flatten.length + n - 1) / n))
                (package.drop h.flatten.length))) := by
            refine completes_check hnonempty ?_
            rw [hchunks]
            exact completes_acceptItems hample ha.positive ha.size hstart hf _
          obtain ⟨current', host, hnext, hcalm', hfree, hf'⟩ := advance_calm (pullLoop cfg policy n fuel batch)
            haccepted hcalm
          rw [hnext]
          refine hrec (by omega) ⟨hg'.disk, hg'.calm⟩ hcalm' (hfree.trans (by rw [hhost])) hf' ?_
          show Steady _ w'.link
          rw [hlink]
          exact steady_arrived hsteady harrived
        · obtain ⟨-, hcode, hsteady'⟩ := steady_failed hsteady hhead
          rw [hcall]
          dsimp only
          rw [if_pos hcode]
          rw [← hhost] at hcalm hample hf
          refine ih hg' hcalm hample hf hstart (Nat.le_max_left _ _) (by rw [hlink]; exact hsteady') ?_
          rw [if_pos hmany] at hfuel
          rw [if_neg (by omega)]
          omega
      · rw [if_neg hmany]
        obtain ⟨w', hhost, hlink, hg', hanswer⟩ := call_steadfast (chunk_answered ha hmore) hg
        rw [ha.size] at hanswer
        rcases hanswer with ⟨item, hcall, rfl, harrived⟩ | ⟨code, reached, hcall, hhead⟩
        · rw [hcall]
          dsimp only
          rw [← hhost] at hcalm hample hf
          have haccepted : Completes id t w'.host.free (fun v => v = w'.host.disk)
              (acceptSingle cfg h.flatten.length (min n (package.length - h.flatten.length))
                (.of h.flatten.length ((package.drop h.flatten.length).take n)))
              (FreshAt cfg t (h ++ pieces n 1 (package.drop h.flatten.length))) := by
            have hcount : ((package.drop h.flatten.length).take n).length = min n (package.length - h.flatten.length) := by
              rw [List.length_take, List.length_drop]
            refine completes_check ?_ (completes_store hample ha.positive ha.size hmore hf)
            rw [← hcount]
            rintro (hne | hne | htext)
            · exact hne rfl
            · exact hne rfl
            · exact absurd htext (Nat.not_lt.mpr (Nat.le_of_eq (Base64.encode_length _)))
          obtain ⟨current', host, hnext, hcalm', hfree, hf'⟩ := advance_calm (pullLoop cfg policy n fuel batch)
            haccepted hcalm
          rw [hnext]
          refine hrec Nat.one_pos ⟨hg'.disk, hg'.calm⟩ hcalm' (hfree.trans (by rw [hhost])) hf' ?_
          show Steady _ w'.link
          rw [hlink]
          exact steady_arrived hsteady harrived
        · -- a single call is not lost
          obtain ⟨hbatched, -, -⟩ := steady_failed hsteady hhead
          exact absurd (of_decide_eq_true hbatched) hmany

end Calm

/-! ## Pulling -/

/-- What a loaded policy has been checked for. -/
structure Valid (policy : Policy) : Prop where
  chunk : 0 < policy.maxChunkBytes
  batch : ∀ batch ∈ policy.maxBatchChunks, 1 ≤ batch ∧ batch ≤ 64

/-- Host and guest work on one request, for one package. -/
structure SameTask (cfg : Config) (package : Bytes) (d : PullTask.Disk) : Prop where
  transferId : d.state.transferId = cfg.binding.transferId
  requestDigest : d.state.requestDigest = cfg.binding.requestDigest
  chunkBytes : d.state.budget.maxChunkBytes = cfg.budget.maxChunkBytes
  size : cfg.binding.packageSize = package.length

/-- The length of the chunks that the host asks for. -/
def chunkLength (cfg : Config) (policy : Policy) (channel : Channel) : Nat :=
  min cfg.budget.maxChunkBytes (negotiate policy channel).rawChunkBytes

section Pull

variable {cfg : Config} {policy : Policy} {channel : Channel} {package : Bytes} {deadline t : Nat} {w : World}
  {h : List Bytes}

/-- No channel negotiates longer chunks than the guest accepts, or more of them. -/
theorem negotiate_within (hv : Valid policy) (channel : Channel) :
    0 < (negotiate policy channel).rawChunkBytes ∧
      (negotiate policy channel).rawChunkBytes ≤ min (2 ^ 20) policy.maxChunkBytes ∧
      max 1 (negotiate policy channel).batchChunks ≤ max 1 (policy.maxBatchChunks.getD 0) := by
  have hpositive := hv.chunk
  cases channel with
  | transport =>
      simp only [negotiate, if_pos hpositive]
      refine ⟨by omega, Nat.le_refl _, ?_⟩
      cases hbatch : policy.maxBatchChunks with
      | none => exact Nat.le_max_left _ _
      | some batch =>
          rw [batchOf, if_pos (hv.batch batch hbatch), Option.getD_some]
          omega
  | windows =>
      simp only [negotiate]
      omega

theorem agreed (hv : Valid policy) (hbudget : 0 < cfg.budget.maxChunkBytes) (htask : SameTask cfg package w.guest.disk)
    (hread : Readable package deadline w.guest.disk) :
    Agreed cfg policy package deadline w.guest.disk (chunkLength cfg policy channel) := by
  obtain ⟨hpositive, hmost, -⟩ := negotiate_within hv channel
  refine ⟨hread, htask.transferId, htask.requestDigest, htask.size, ?_, ?_, ?_⟩
  · rw [chunkLength]
    omega
  · rw [chunkLength, PullTask.maximum, htask.chunkBytes]
    omega
  · cases hbatch : policy.maxBatchChunks with
    | none => exact Nat.zero_le _
    | some batch => exact (hv.batch batch hbatch).2

theorem pull_safe (ha : Agreed cfg policy package deadline w.guest.disk (chunkLength cfg policy channel))
    (hv : Valid policy) (hguest : Calm deadline w.guest) (hheld : Holds cfg t w.host.disk h)
    (hstart : h.flatten <+: package) :
    Safe cfg t (chunkLength cfg policy channel) package h w.link (pull cfg policy (negotiate policy channel) w) := by
  obtain ⟨s, p, l, hh⟩ := hheld
  have hsize := ha.size
  have hg : Steadfast deadline w.guest.disk w := ⟨rfl, hguest⟩
  refine advance_safe (k := 0) ?_ hg (fun current w' hat hg' hlink => ?_)
  · -- resuming keeps what is acknowledged, and answers with its end
    rw [pieces_zero, List.append_nil]
    refine triple_conseq (HostPartial.resume_triple (K := fun _ => Partway cfg t _ package h) hh ?_)
      (fun _ hw => hw) ?_ (fun _ _ hw => hw)
    · exact fun _ v hkept => partway_none hkept.holds
    · intro r v hr
      obtain ⟨s', p', l', hh', -, rfl, -⟩ := hr.files
      exact .of_held hh'
  · rw [pieces_zero, List.append_nil] at hat
    have hpositive : ¬ min cfg.budget.maxChunkBytes (negotiate policy channel).rawChunkBytes = 0 :=
      Nat.ne_of_gt ha.positive
    rw [pullFrom, if_neg hpositive, ← hlink]
    refine pullLoop_safe ha hg' hat hstart (negotiate_within hv channel).2.2 ?_
    split <;> omega

theorem pull_ends (ha : Agreed cfg policy package deadline w.guest.disk (chunkLength cfg policy channel))
    (hv : Valid policy) (hguest : Calm deadline w.guest) (hheld : Holds cfg t w.host.disk h)
    (hstart : h.flatten <+: package) (hcalm : Calm t w.host)
    (hample : Ample cfg package (chunkLength cfg policy channel) w.host.free h)
    (hsteady : Steady (decide (1 < (negotiate policy channel).batchChunks)) w.link) :
    Complete cfg t (chunkLength cfg policy channel) package h (pull cfg policy (negotiate policy channel) w) := by
  obtain ⟨s, p, l, hh⟩ := hheld
  have hsize := ha.size
  have hresumed : Completes id t w.host.free (fun v => v = w.host.disk) (HostPartial.resume cfg)
      (HostPartial.Resumed cfg t h p l) :=
    HostPartial.completes_resume hh ⟨hample.usable, hample.packaged, fun _ _ _ _ _ => hample.fits _ _⟩
  obtain ⟨current, host, hnext, hcalm', hfree, hr⟩ :=
    advance_calm (pullFrom cfg policy (negotiate policy channel)) hresumed hcalm
  obtain ⟨s', p', l', hh', hexact, hrespond, hcontinuity, -⟩ := hr.files
  have hpositive : ¬ min cfg.budget.maxChunkBytes (negotiate policy channel).rawChunkBytes = 0 :=
    Nat.ne_of_gt ha.positive
  have hmany : decide (1 < max 1 (negotiate policy channel).batchChunks) =
      decide (1 < (negotiate policy channel).batchChunks) := decide_eq_decide.mpr (by omega)
  rw [pull, hnext, pullFrom, if_neg hpositive]
  rw [← hfree] at hample
  rw [← hmany] at hsteady
  refine pullLoop_ends ha ⟨rfl, hguest⟩ hcalm' hample ⟨s', p', l', ⟨hh', hexact, hcontinuity⟩, hrespond⟩ hstart
    (negotiate_within hv channel).2.2 hsteady ?_
  split <;> omega

/-- **Pulling covers the package.**  The guest refuses nothing; what the host appends are the
    next pieces of the package; and where nothing fails and the host has a place for it, the
    package is complete. -/
theorem pull_covers (hv : Valid policy) (hbudget : 0 < cfg.budget.maxChunkBytes)
    (htask : SameTask cfg package w.guest.disk) (hread : Readable package deadline w.guest.disk)
    (hguest : Calm deadline w.guest) (hheld : Holds cfg t w.host.disk h) (hstart : h.flatten <+: package) :
    (∃ new, Acknowledged (pull cfg policy (negotiate policy channel) w).2.host.disk (h ++ new) ∧
      (∀ c ∈ new, 0 < c.length ∧ c.length ≤ chunkLength cfg policy channel) ∧ (h ++ new).flatten <+: package ∧
      Ends package w.link (h ++ new).flatten (pull cfg policy (negotiate policy channel) w).1) ∧
    (Calm t w.host → Ample cfg package (chunkLength cfg policy channel) w.host.free h →
      Steady (decide (1 < (negotiate policy channel).batchChunks)) w.link →
      ∃ current new, (pull cfg policy (negotiate policy channel) w).1 = .finished current ∧
        current.verifiedOffset = package.length ∧ (h ++ new).flatten = package ∧
        Acknowledged (pull cfg policy (negotiate policy channel) w).2.host.disk (h ++ new)) := by
  have ha : Agreed cfg policy package deadline w.guest.disk (chunkLength cfg policy channel) :=
    agreed hv hbudget htask hread
  constructor
  · obtain ⟨j, hholds, hends⟩ := pull_safe ha hv hguest hheld hstart
    exact ⟨_, hholds.acknowledged, fun c hc => mem_pieces ha.positive hc, (pieces_start j hstart).1, hends⟩
  · intro hcalm hample hsteady
    obtain ⟨current, hend, hoffset, hholds⟩ := pull_ends ha hv hguest hheld hstart hcalm hample hsteady
    refine ⟨current, _, hend, hoffset, ?_, hholds.acknowledged⟩
    obtain ⟨rest, rfl⟩ := hstart
    rw [List.flatten_append, List.drop_left, flatten_whole ha.positive]

end Pull

/-! ## An empty archive in chunks of four bytes -/

namespace Sample

def package : Bytes := [80, 75, 5, 6] ++ List.replicate 18 0

/-- The budgets of both sides. -/
def budget (maxMetadataBytes : Nat) : GuestTask.TaskBudget :=
  { maxFiles := 8, maxMetadataBytes, maxLogicalBytes := 4096, maxPackageBytes := 4096, minFreeBytes := 0
    maxChunkBytes := 4 }

def cfg (maxMetadataBytes : Nat) : Config :=
  { HostPartial.Sample.cfg with
    binding := { HostPartial.Sample.cfg.binding with packageSize := 22, packageSha256 := hexdigest package }
    budget := budget maxMetadataBytes }

def policy : Policy :=
  { policyId := ascii "policy", maxChunkBytes := 8, maxBatchChunks := some 3, stateFits := fun _ _ => true }

def guest (maxMetadataBytes : Nat) : PullTask.Disk :=
  { state :=
      { transferId := (cfg maxMetadataBytes).binding.transferId
        requestDigest := (cfg maxMetadataBytes).binding.requestDigest, budget := budget maxMetadataBytes
        deadlineMonotonic := 1000, phase := .sourceReady, packageSize := 22, cancelled := false, offset := 0
        unreceived := rfl }
    bundle := some package }

/-- The connection loses the second batch. -/
def world (maxMetadataBytes : Nat) : World :=
  { host :=
      { HostPartial.Sample.machine with
        disk := { HostPartial.Sample.disk with
          journal := { HostPartial.Sample.disk.journal with binding := (cfg maxMetadataBytes).binding } }
        script := [] }
    guest := { disk := guest maxMetadataBytes, clock := 0, free := 0, script := [] }
    link := [.arrives, .fails "transport_timeout" true] }

end Sample

/-- What `pull_covers` asks for, in the example; nothing is acknowledged yet. -/
theorem sample_ready (maxMetadataBytes : Nat) (hpositive : 0 < maxMetadataBytes) :
    Valid Sample.policy ∧ SameTask (Sample.cfg maxMetadataBytes) Sample.package (Sample.guest maxMetadataBytes) ∧
      Readable Sample.package 1000 (Sample.guest maxMetadataBytes) ∧
      Calm 1000 (Sample.world maxMetadataBytes).guest ∧ Calm 1000 (Sample.world maxMetadataBytes).host ∧
      Holds (Sample.cfg maxMetadataBytes) 1000 (Sample.world maxMetadataBytes).host.disk [] := by
  refine ⟨⟨by decide, ?_⟩, ⟨rfl, rfl, rfl, rfl⟩, ⟨rfl, rfl, .inl rfl, rfl, ⟨Nat.zero_lt_succ 7, hpositive, Nat.zero_lt_succ 4095⟩,
    Nat.le_refl _⟩, ⟨nofun, Nat.zero_lt_succ 999⟩, ⟨nofun, Nat.zero_lt_succ 999⟩, HostPartial.Sample.state, HostPartial.Sample.file 3,
    HostPartial.Sample.file 4, rfl, rfl, rfl, rfl, ⟨rfl, rfl, rfl, rfl⟩, ⟨⟨nofun, by decide⟩, nofun, Nat.zero_le _, Nat.zero_le _⟩,
    ⟨rfl, rfl, rfl, _, _, rfl, rfl, rfl, rfl, rfl, rfl⟩, List.nil_prefix, List.nil_prefix⟩
  rintro batch ⟨⟩
  decide

/-- With a larger metadata budget the package is complete, one batch and three single chunks. -/
theorem pull_covers_sample : ∃ current new,
    (pull (Sample.cfg 4096) Sample.policy (negotiate Sample.policy .transport) (Sample.world 4096)).1 =
      .finished current ∧ current.verifiedOffset = 22 ∧ ([] ++ new).flatten = Sample.package ∧
    Acknowledged (pull (Sample.cfg 4096) Sample.policy (negotiate Sample.policy .transport)
      (Sample.world 4096)).2.host.disk ([] ++ new) := by
  obtain ⟨hvalid, hsame, hreadable, hguest, hhost, hholds⟩ := sample_ready 4096 (Nat.zero_lt_succ 4095)
  have hfit : ChunksFit 0 (whole 4 Sample.package) := ⟨by decide, by decide⟩
  have hledger : (ledgerFrom .size 0 (whole 4 Sample.package)).length ≤ 4096 :=
    Nat.le_trans (ledgerFrom_length_le hfit) (by decide)
  have hlength : chunkLength (Sample.cfg 4096) Sample.policy .transport = 4 := by decide
  have hample : Ample (Sample.cfg 4096) Sample.package (chunkLength (Sample.cfg 4096) Sample.policy .transport)
      (Sample.world 4096).host.free [] := by
    rw [hlength]
    exact ⟨hreadable.usable, by decide, by decide, hledger, by decide, by decide, fun _ _ => rfl, by decide⟩
  exact (pull_covers hvalid (Nat.zero_lt_succ 3) hsame hreadable hguest hholds List.nil_prefix).2 hhost hample
    ⟨rfl, rfl, trivial⟩

/-- With a metadata budget of 400 bytes the records of four chunks have a place, and the
    fifth of the six is refused. -/
theorem metadata_stops : Valid Sample.policy ∧ SameTask (Sample.cfg 400) Sample.package (Sample.guest 400) ∧
    Readable Sample.package 1000 (Sample.guest 400) ∧ Calm 1000 (Sample.world 400).guest ∧
    Calm 1000 (Sample.world 400).host ∧ Holds (Sample.cfg 400) 1000 (Sample.world 400).host.disk [] ∧
    (pull (Sample.cfg 400) Sample.policy (negotiate Sample.policy .transport) (Sample.world 400)).1 =
      .failed (.error "metadata_budget_exceeded") := by
  obtain ⟨hvalid, hsame, hreadable, hguest, hhost, hholds⟩ := sample_ready 400 (Nat.zero_lt_succ 399)
  refine ⟨hvalid, hsame, hreadable, hguest, hhost, hholds, ?_⟩
  decide +kernel

end HostPull
