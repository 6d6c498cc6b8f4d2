import Mathlib
import VeloTransfer.CanonicalJsonProofs
import VeloTransfer.JsonLineProofs
import VeloTransfer.Sha256Proofs
import VeloTransfer.Base64Proofs
import VeloTransfer.ExceptProofs

/-! # The captured boot-install origin — who was alive at a write

    `verifyCaptured` rederives the origin of a captured installation: two
    artifacts, each closed after a write of the sample root, which must still be
    alive then.  The answer to that question replays the kernel's fork and exit
    events up to the write, over member sets that outlive the call: the second
    write starts where the first one stopped. -/

namespace BootInstall

open CanonicalJson JsonLine Sha256 ExceptRules

/-- A process: its pid and its birth. -/
abbrev Key := Nat × Text

inductive EventKind where
  | fork (child : Key)
  | exit
  | exec
  | modify (name : Text) (directoryInode device : Nat) (size : Int)
  | other
deriving Repr, DecidableEq

/-- One kernel event, by the process `key` under the sample root `rootKey`. -/
structure Event where
  monotonicNs : Nat
  key : Key
  rootKey : Key
  truncated : Bool
  kind : EventKind
deriving Repr, DecidableEq

structure Identity where
  uids : List Nat
  gids : List Nat
  groups : List Nat
deriving Repr, DecidableEq

structure Actor where
  key : Key
  identity : Identity
deriving Repr, DecidableEq

/-- The captured version of one file. -/
structure Artifact where
  path : Text
  content : Text
  size : Nat
  sha256 : Text
  device : Nat
deriving Repr, DecidableEq

structure Manager where
  pid : Nat
  birth : Text
  uids : List Nat
  gids : List Nat
deriving Repr, DecidableEq

structure Config where
  directory : Text
  payload : Text
  service : Text
  socket : Text
  windowSeconds : Nat
  manager : Manager
deriving Repr, DecidableEq

structure Root where
  pid : Nat
  startTime : Text
  bootId : Text
deriving Repr, DecidableEq

/-- One property set of a unit, as `validate_fresh` reads it. -/
structure UnitState where
  loadState : Text
  activeState : Text
  fragmentPath : Text
  activation : List Text
  invocationId : List Nat
deriving Repr, DecidableEq

inductive Body where
  | intent (source : Text) (config : Config) (binding : Text) (root : Root) (directoryInode : Nat)
  | fresh (units : List (Text × UnitState)) (absent : List Text) (peer : List Nat)
  | ready
  | closedWrite (file : Artifact) (actor : Actor) (lease : Option Text)
  | other
deriving Repr, DecidableEq

structure Row where
  monotonicNs : Nat
  body : Body
deriving Repr, DecidableEq

/-- What `verify_captured` is given; `binding` holds the boot identity alone. -/
structure Capture where
  rows : List Row
  config : Config
  binding : Text
  root : Root
  credentials : Identity
  kernel : List Event
  boundaryNs : Nat
deriving Repr, DecidableEq

/-- A parsed installation unit. -/
structure InstallationUnit where
  user : Text
  group : Text
  execstart : Text
  argv : Option (List Text)
  ordered : Bool
deriving Repr, DecidableEq

/-- The two checks that read configuration files and file system: the profile
    and the parse of a unit, for the credentials and the payload path. -/
structure Readers where
  validateProfile : Config → Except String Unit
  parseInstallationUnit : Bytes → Identity → Text → Except String InstallationUnit

def need (c : Prop) [Decidable c] (message : String) : Except String Unit :=
  if c then .ok () else .error message

/-! ## Paths -/

/-- `Path(p).parts`, after the slashes of the root. -/
def pathParts (p : Text) : List Text :=
  (p.splitOn 47).filter (fun part => part ≠ [] ∧ part ≠ [46])

/-- `Path(p).name`. -/
def pathName (p : Text) : Text := (pathParts p).getLast?.getD []

/-- The root of a path: two leading slashes are kept, three are one. -/
def pathRoot : Text → Text
  | 47 :: 47 :: 47 :: _ => [47]
  | 47 :: 47 :: _ => [47, 47]
  | 47 :: _ => [47]
  | _ => []

/-- `str(Path(directory) / name)` for a name without slashes. -/
def pathJoin (directory name : Text) : Text :=
  pathRoot directory ++ [47].intercalate (pathParts directory ++ [name])

/-- `(os.major(d) << 20) | os.minor(d)`. -/
def kernelDevice (d : Nat) : Nat :=
  let major := (d >>> 8) % 2 ^ 12 + ((d >>> 32) >>> 12) * 2 ^ 12
  let minor := d % 2 ^ 8 + ((d >>> 12) >>> 8) * 2 ^ 8
  major <<< 20 ||| minor

/-! ## Liveness -/

/-- `members` and `seen`. -/
structure Liveness where
  members : Finset Key
  seen : Finset Key
deriving DecidableEq

def Root.key (r : Root) : Key := (r.pid, r.startTime)

/-- The two sets as `verify_captured` sets them up. -/
def Liveness.start (root : Key) : Liveness := { members := {root}, seen := {root} }

/-- One kernel event of the replay. -/
def Liveness.event (root : Key) (s : Liveness) (e : Event) : Except String Liveness := do
  need (e.key ∈ s.members ∧ e.rootKey = root) "foreign kernel member"
  match e.kind with
  | .fork child => do
      need (child ∉ s.seen) "reused child"
      .ok { members := insert child s.members, seen := insert child s.seen }
  | .exit => .ok { s with members := s.members.erase e.key }
  | _ => .ok s

/-- The loop of `live`, up to a time. -/
def Liveness.replay (root : Key) (ns : Nat) (s : Liveness) : List Event → Except String Liveness
  | [] => .ok s
  | e :: es =>
      if e.monotonicNs > ns then .ok s
      else do
        let s ← s.event root e
        Liveness.replay root ns s es

/-- How the liveness of an actor at a time is decided, from the state that the
    question before it left. -/
abbrev LiveRule := Liveness → Key → Nat → Except String (Bool × Liveness)

/-- `live`. -/
def live (c : Capture) : LiveRule := fun s actor ns => do
  let s ← s.replay c.root.key ns c.kernel
  .ok (decide (actor ∈ s.members), s)

/-- The question is not asked: what is left are the other checks. -/
def trust : LiveRule := fun s _ _ => .ok (true, s)

/-! ## Verification -/

/-- A captured artifact that passed its checks: the number of its row, the time
    of its close, its name, the file and its bytes. -/
structure Closed where
  number : Nat
  monotonicNs : Nat
  name : Text
  file : Artifact
  raw : Bytes
deriving Repr, DecidableEq

structure Captured where
  files : List Closed
  unit : InstallationUnit
  rootExecNs : Nat
  rootExitNs : Nat
deriving Repr, DecidableEq

/-- A `closed-write` row with its number. -/
structure Write where
  number : Nat
  monotonicNs : Nat
  file : Artifact
  actor : Actor
  lease : Option Text
deriving Repr, DecidableEq

def writesFrom : Nat → List Row → List Write
  | _, [] => []
  | number, row :: rows =>
      match row.body with
      | .closedWrite file actor lease =>
          { number := number, monotonicNs := row.monotonicNs, file := file, actor := actor
            lease := lease } :: writesFrom (number + 1) rows
      | _ => writesFrom (number + 1) rows

/-- The `closed-write` rows of a capture. -/
def Capture.writes (c : Capture) : List Write := writesFrom 1 c.rows

/-- `validate_fresh` for the one unit of the profile. -/
def validateFresh (units : List (Text × UnitState)) (c : Config) : Except String Unit := do
  need (units.map Prod.fst = [c.service]) "fresh unit inventory"
  need (∀ u ∈ units, u.2.loadState = ascii "not-found" ∧ u.2.activeState = ascii "inactive" ∧
      u.2.fragmentPath = [] ∧ u.2.activation = [] ∧ u.2.invocationId.all (· == 0))
    "existing definition or invocation"

/-- The checks of one close before the question whether its writer was alive. -/
def closeContent (c : Capture) (files : List Closed) (w : Write) : Except String Closed := do
  let name := pathName w.file.path
  need ((name = c.config.payload ∨ name = c.config.service) ∧ (∀ f ∈ files, f.name ≠ name) ∧
    w.file.path = pathJoin c.config.directory name) "foreign/duplicate artifact"
  match Base64.decode w.file.content with
  | none => .error "binascii.Error"
  | some raw => do
      need (raw.length = w.file.size ∧ hexdigest raw = w.file.sha256 ∧
        w.lease = some (ascii "F_RDLCK")) "unbound origin content"
      need (w.actor.key = c.root.key) "origin author is not the ordinary sample root"
      need (w.actor.identity = c.credentials) "unknown/dead writer identity"
      .ok { number := w.number, monotonicNs := w.monotonicNs, name := name, file := w.file, raw := raw }

/-- A write of some bytes to the file that was closed, in the captured directory. -/
def EventKind.modifies (directoryInode : Nat) (f : Closed) : EventKind → Bool
  | .modify name inode device size =>
      name == f.name && inode == directoryInode && device == kernelDevice f.file.device &&
        decide (0 < size)
  | _ => false

/-- The root wrote the content that was closed. -/
def wroteContent (c : Capture) (directoryInode : Nat) (f : Closed) : Prop :=
  ∃ e ∈ c.kernel, e.key = c.root.key ∧ e.monotonicNs < f.monotonicNs ∧ e.truncated = false ∧
    e.kind.modifies directoryInode f = true

instance (c : Capture) (directoryInode : Nat) (f : Closed) :
    Decidable (wroteContent c directoryInode f) :=
  inferInstanceAs (Decidable (∃ e ∈ c.kernel, _))

/-- The loop over the closes. -/
def closeWrites (rule : LiveRule) (c : Capture) (directoryInode : Nat) (s : Liveness)
    (files : List Closed) : List Write → Except String (List Closed)
  | [] => .ok files
  | w :: ws => do
      let f ← closeContent c files w
      let answer ← rule s w.actor.key w.monotonicNs
      need (answer.1 = true) "writer outside the author liveness window"
      need (wroteContent c directoryInode f) "actual content write missing"
      closeWrites rule c directoryInode answer.2 (files ++ [f]) ws

def ownEvents (c : Capture) (kind : EventKind) : List Event :=
  c.kernel.filter (fun e => e.kind = kind ∧ e.key = c.root.key)

/-- `files[name]`. -/
def fileOf (files : List Closed) (name : Text) : Except String Closed :=
  match files.find? (fun f => f.name = name) with
  | some f => .ok f
  | none => .error "KeyError"

/-- The checks after the closes. -/
def finishCaptured (readers : Readers) (c : Capture) (readyNs : Nat) (files : List Closed) :
    Except String Captured := do
  let payload ← fileOf files c.config.payload
  let service ← fileOf files c.config.service
  need (payload.raw.take 4 = [0x7f, 0x45, 0x4c, 0x46]) "only native ELF payload supported"
  let unit ← readers.parseInstallationUnit service.raw c.credentials payload.file.path
  match ownEvents c .exec with
  | [rootExec] => do
      need (readyNs < rootExec.monotonicNs) "origin root exec missing or unready"
      need (rootExec.monotonicNs < payload.monotonicNs ∧
        payload.monotonicNs < service.monotonicNs)
        "origin write order missing (payload must precede the definition)"
      match ownEvents c .exit with
      | [rootExit] => do
          need (service.monotonicNs < rootExit.monotonicNs ∧ rootExit.monotonicNs ≤ c.boundaryNs)
            "install window/order conflict"
          .ok { files := files, unit := unit, rootExecNs := rootExec.monotonicNs
                rootExitNs := rootExit.monotonicNs }
      | _ => .error "actual root exit missing"
  | _ => .error "origin root exec missing or unready"

def SOURCE : Text := ascii "MalTrace.SystemBootInstall.v1"

def Body.isIntent : Body → Bool
  | .intent .. => true
  | _ => false

def Body.isFresh : Body → Bool
  | .fresh .. => true
  | _ => false

def rowsOf (c : Capture) (p : Body → Bool) : List Row := c.rows.filter (fun r => p r.body)

/-- The checks before the closes: the inode of the directory and the ready time. -/
def openCaptured (readers : Readers) (c : Capture) : Except String (Nat × Nat) := do
  readers.validateProfile c.config
  need (c.rows ≠ [] ∧ (c.rows.map Row.monotonicNs).Pairwise (· ≤ ·)) "install source order"
  match rowsOf c Body.isIntent, rowsOf c Body.isFresh, rowsOf c (· == .ready) with
  | [intent], [fresh], [ready] =>
      match intent.body, fresh.body with
      | .intent source config binding root directoryInode, .fresh units absent peer => do
          need (source = SOURCE ∧ config = c.config ∧ binding = c.binding ∧ root = c.root)
            "install independent expectation mismatch"
          validateFresh units c.config
          need (absent = [c.config.service] ∧ some peer = (do
            let uid ← c.config.manager.uids[1]?
            let gid ← c.config.manager.gids[1]?
            pure [c.config.manager.pid, uid, gid])) "manager/freshness conflict"
          need (c.root.bootId = c.binding) "install boot conflict"
          .ok (directoryInode, ready.monotonicNs)
      | _, _ => .error "KeyError"
  | [_], [_], _ => .error "missing/duplicate ready"
  | [_], _, _ => .error "missing/duplicate fresh"
  | _, _, _ => .error "missing/duplicate intent"

/-- `verify_captured`, under a rule that decides who is alive. -/
def verifyCapturedBy (rule : LiveRule) (readers : Readers) (c : Capture) :
    Except String Captured := do
  let opened ← openCaptured readers c
  need (c.writes.length = ({c.config.payload, c.config.service} : Finset Text).card)
    "one version of every origin artifact required"
  let files ← closeWrites rule c opened.1 (Liveness.start c.root.key) [] c.writes
  finishCaptured readers c opened.2 files

/-- `verify_captured`. -/
def verifyCaptured (readers : Readers) (c : Capture) : Except String Captured :=
  verifyCapturedBy (live c) readers c

/-! ## Process histories -/

/-- The kernel events up to a time. -/
def upTo (kernel : List Event) (ns : Nat) : List Event :=
  kernel.takeWhile (fun e => e.monotonicNs ≤ ns)

/-- The events are a process history: every event comes from the root or from a
    child forked before and not yet exited, and no child is reused. -/
structure History (root : Key) (es : List Event) : Prop where
  rooted : ∀ e ∈ es, e.rootKey = root
  member : ∀ before e rest, es = before ++ e :: rest →
    (e.key = root ∨ ∃ f ∈ before, f.kind = .fork e.key) ∧
      ∀ x ∈ before, x.kind = .exit → x.key ≠ e.key
  fresh : ∀ before e rest child, es = before ++ e :: rest → e.kind = .fork child →
    child ≠ root ∧ ∀ f ∈ before, f.kind ≠ .fork child

/-- Whoever was forked and has not exited. -/
def Alive (root : Key) (es : List Event) (k : Key) : Prop :=
  (k = root ∨ ∃ f ∈ es, f.kind = .fork k) ∧ ∀ x ∈ es, x.kind = .exit → x.key ≠ k

/-- The replay of a whole list. -/
def Liveness.follow (root : Key) (s : Liveness) (es : List Event) : Except String Liveness :=
  es.foldlM (Liveness.event root) s

section Replay

variable {root : Key} {s s' : Liveness} {es : List Event} {e : Event}

theorem replay_eq (ns : Nat) (s : Liveness) (kernel : List Event) :
    s.replay root ns kernel = s.follow root (upTo kernel ns) := by
  induction kernel generalizing s with
  | nil => rfl
  | cons e es ih =>
      unfold Liveness.replay upTo
      by_cases hlate : e.monotonicNs > ns
      · rw [if_pos hlate, List.takeWhile_cons_of_neg (by simpa using hlate)]
        rfl
      · rw [if_neg hlate, List.takeWhile_cons_of_pos (by simpa using hlate)]
        unfold Liveness.follow
        rw [List.foldlM_cons]
        exact congrArg (Liveness.event root s e >>= ·) (funext ih)

theorem follow_append (s : Liveness) (es es' : List Event) :
    s.follow root (es ++ es') = s.follow root es >>= fun s => s.follow root es' :=
  List.foldlM_append

theorem follow_single (s : Liveness) (e : Event) : s.follow root [e] = s.event root e := by
  unfold Liveness.follow
  rw [List.foldlM_cons]
  cases s.event root e with
  | error m => rfl
  | ok s' => rfl

theorem need_ok {c : Prop} [Decidable c] {m : String} : need c m = .ok () ↔ c := by
  unfold need
  by_cases hc : c
  · simp [hc]
  · simp [hc]

/-- Past a check that holds. -/
theorem need_bind {α : Type} {c : Prop} [Decidable c] {m : String} {k : Unit → Except String α}
    (hc : c) : need c m >>= k = k () := by
  rw [need_ok.mpr hc]
  rfl

/-- An accepted event adds to what was seen, and forks nobody seen before. -/
theorem event_seen (h : s.event root e = .ok s') :
    s.seen ⊆ s'.seen ∧ ∀ child, e.kind = .fork child → child ∉ s.seen := by
  unfold Liveness.event at h
  obtain ⟨_, -, h⟩ := bind_ok h
  cases hk : e.kind with
  | fork child =>
      rw [hk] at h
      obtain ⟨_, hneed, h⟩ := bind_ok h
      obtain rfl := Except.ok.inj h
      refine ⟨Finset.subset_insert _ _, fun child' hc => ?_⟩
      obtain rfl := EventKind.fork.inj hc
      exact need_ok.mp hneed
  | exit =>
      rw [hk] at h
      obtain rfl := Except.ok.inj h
      exact ⟨Finset.Subset.refl _, nofun⟩
  | exec =>
      rw [hk] at h
      obtain rfl := Except.ok.inj h
      exact ⟨Finset.Subset.refl _, nofun⟩
  | modify name inode device size =>
      rw [hk] at h
      obtain rfl := Except.ok.inj h
      exact ⟨Finset.Subset.refl _, nofun⟩
  | other =>
      rw [hk] at h
      obtain rfl := Except.ok.inj h
      exact ⟨Finset.Subset.refl _, nofun⟩

/-- A replay in which somebody seen is forked is refused. -/
theorem follow_refused (hfork : ∃ e ∈ es, ∃ child, e.kind = .fork child ∧ child ∈ s.seen) :
    s.follow root es ≠ .ok s' := by
  obtain ⟨e, he, child, hk, hseen⟩ := hfork
  induction es generalizing s with
  | nil => exact absurd he List.not_mem_nil
  | cons x rest ih =>
      intro h
      unfold Liveness.follow at h
      rw [List.foldlM_cons] at h
      obtain ⟨s₁, hevent, h⟩ := bind_ok h
      obtain ⟨hsub, hunseen⟩ := event_seen hevent
      rcases List.mem_cons.mp he with rfl | he
      · exact hunseen child hk hseen
      · exact ih he (hsub hseen) h

theorem forked_append (k : Key) : (∃ f ∈ es ++ [e], f.kind = .fork k) ↔
    (∃ f ∈ es, f.kind = .fork k) ∨ e.kind = .fork k := by
  simp [or_and_right, exists_or]

theorem alive_append (k : Key) : Alive root (es ++ [e]) k ↔
    (k = root ∨ (∃ f ∈ es, f.kind = .fork k) ∨ e.kind = .fork k) ∧
      (∀ x ∈ es, x.kind = .exit → x.key ≠ k) ∧ (e.kind = .exit → e.key ≠ k) := by
  unfold Alive
  rw [forked_append]
  simp [or_imp, forall_and]

/-- An event that is no fork adds nobody. -/
theorem forked_other (hfork : ∀ child, e.kind ≠ .fork child) (k : Key) :
    (∃ f ∈ es ++ [e], f.kind = .fork k) ↔ ∃ f ∈ es, f.kind = .fork k := by
  rw [forked_append]
  exact or_iff_left (hfork k)

/-- An event that is neither a fork nor an exit changes nobody's life. -/
theorem alive_other (hfork : ∀ child, e.kind ≠ .fork child) (hexit : e.kind ≠ .exit) (k : Key) :
    Alive root (es ++ [e]) k ↔ Alive root es k := by
  rw [alive_append, or_iff_left (hfork k), and_iff_left (fun h => absurd h hexit)]
  rfl

theorem History.init {es : List Event} (h : History root (es ++ [e])) : History root es where
  rooted := fun x hx => h.rooted x (List.mem_append_left _ hx)
  member := fun before x rest heq => h.member before x (rest ++ [e]) (by rw [heq]; simp)
  fresh := fun before x rest child heq =>
    h.fresh before x (rest ++ [e]) child (by rw [heq]; simp)

/-- Nobody acts before it is forked. -/
theorem History.unborn {child : Key} (h : History root (es ++ [e])) (hfork : e.kind = .fork child) :
    ∀ x ∈ es, x.key ≠ child := by
  intro x hx hkey
  obtain ⟨hroot, hnew⟩ := h.fresh es e [] child rfl hfork
  obtain ⟨before, rest, rfl⟩ := List.append_of_mem hx
  rcases (h.init.member before x rest rfl).1 with hr | ⟨f, hf, hkind⟩
  · exact hroot (hkey.symm.trans hr)
  · exact hnew f (List.mem_append_left _ hf) (hkey ▸ hkind)

/-- **The replay of a history is accepted**, and finds who is alive and who was
    ever there. -/
theorem follow_history (h : History root es) :
    ∃ s, (Liveness.start root).follow root es = .ok s ∧
      (∀ k, k ∈ s.members ↔ Alive root es k) ∧
      ∀ k, k ∈ s.seen ↔ k = root ∨ ∃ f ∈ es, f.kind = .fork k := by
  induction es using List.reverseRecOn with
  | nil => exact ⟨_, rfl, by simp [Liveness.start, Alive], by simp [Liveness.start]⟩
  | append_singleton es e ih =>
      obtain ⟨s, hs, hmembers, hseen⟩ := ih h.init
      have hmember : e.key ∈ s.members := (hmembers _).mpr (h.member es e [] rfl)
      have hroot := h.rooted e (List.mem_append_right _ List.mem_cons_self)
      rw [follow_append, hs]
      show ∃ s', s.follow root [e] = .ok s' ∧ _
      rw [follow_single]
      unfold Liveness.event
      rw [need_bind ⟨hmember, hroot⟩]
      cases hk : e.kind with
      | fork child =>
          obtain ⟨hnotroot, hnew⟩ := h.fresh es e [] child rfl hk
          have hunseen : child ∉ s.seen := by
            rw [hseen]
            rintro (hr | ⟨f, hf, hkind⟩)
            · exact hnotroot hr
            · exact hnew f hf hkind
          dsimp only
          rw [need_bind hunseen]
          refine ⟨_, rfl, fun k => ?_, fun k => ?_⟩
          · rw [Finset.mem_insert, hmembers, alive_append, hk]
            constructor
            · rintro (rfl | ⟨hborn, hexits⟩)
              · exact ⟨Or.inr (Or.inr rfl), fun x hx _ => h.unborn hk x hx, nofun⟩
              · exact ⟨hborn.imp_right Or.inl, hexits, nofun⟩
            · rintro ⟨hroot | hfork | hchild, hexits, -⟩
              · exact Or.inr ⟨Or.inl hroot, hexits⟩
              · exact Or.inr ⟨Or.inr hfork, hexits⟩
              · exact Or.inl (EventKind.fork.inj hchild).symm
          · rw [Finset.mem_insert, hseen, forked_append, hk]
            constructor
            · rintro (rfl | hroot | hfork)
              · exact Or.inr (Or.inr rfl)
              · exact Or.inl hroot
              · exact Or.inr (Or.inl hfork)
            · rintro (hroot | hfork | hchild)
              · exact Or.inr (Or.inl hroot)
              · exact Or.inr (Or.inr hfork)
              · exact Or.inl (EventKind.fork.inj hchild).symm
      | exit =>
          refine ⟨_, rfl, fun k => ?_, fun k => ?_⟩
          · rw [Finset.mem_erase, hmembers, alive_append, hk]
            constructor
            · rintro ⟨hne, hborn, hexits⟩
              exact ⟨hborn.imp_right Or.inl, hexits, fun _ => hne.symm⟩
            · rintro ⟨hborn, hexits, hne⟩
              exact ⟨(hne rfl).symm, hborn.imp_right (fun hf => hf.resolve_right nofun), hexits⟩
          · rw [hseen, forked_append, hk]
            simp
      | exec =>
          refine ⟨s, rfl, fun k => (hmembers k).trans (alive_other ?_ ?_ k).symm,
            fun k => (hseen k).trans (or_congr_right (forked_other ?_ k).symm)⟩
          all_goals rw [hk]; nofun
      | modify name inode device size =>
          refine ⟨s, rfl, fun k => (hmembers k).trans (alive_other ?_ ?_ k).symm,
            fun k => (hseen k).trans (or_congr_right (forked_other ?_ k).symm)⟩
          all_goals rw [hk]; nofun
      | other =>
          refine ⟨s, rfl, fun k => (hmembers k).trans (alive_other ?_ ?_ k).symm,
            fun k => (hseen k).trans (or_congr_right (forked_other ?_ k).symm)⟩
          all_goals rw [hk]; nofun

end Replay

/-! ## The two writes -/

section Writes

variable {readers : Readers} {c : Capture}

theorem upTo_le (kernel : List Event) {ns ns' : Nat} (h : ns ≤ ns') :
    upTo kernel ns <+: upTo kernel ns' := by
  induction kernel with
  | nil => exact List.prefix_rfl
  | cons e es ih =>
      unfold upTo
      by_cases he : e.monotonicNs ≤ ns
      · rw [List.takeWhile_cons_of_pos (by simpa using he),
          List.takeWhile_cons_of_pos (by simpa using Nat.le_trans he h)]
        exact List.cons_prefix_cons.mpr ⟨rfl, ih⟩
      · rw [List.takeWhile_cons_of_neg (by simpa using he)]
        exact List.nil_prefix

/-- The writes stand in the order of their rows. -/
theorem writesFrom_times (number : Nat) (rows : List Row) :
    ((writesFrom number rows).map Write.monotonicNs).Sublist (rows.map Row.monotonicNs) := by
  induction rows generalizing number with
  | nil => exact List.Sublist.refl _
  | cons row rows ih =>
      unfold writesFrom
      split
      · exact (ih _).cons_cons _
      · exact (ih _).cons _

theorem openCaptured_sorted {opened : Nat × Nat} (h : openCaptured readers c = .ok opened) :
    (c.rows.map Row.monotonicNs).Pairwise (· ≤ ·) := by
  unfold openCaptured at h
  obtain ⟨_, -, h⟩ := bind_ok h
  obtain ⟨_, hneed, -⟩ := bind_ok h
  exact (need_ok.mp hneed).2

/-- What a close passes besides the question of liveness. -/
theorem closeWrites_cons {rule : LiveRule} {inode : Nat} {s : Liveness} {files out : List Closed}
    {w : Write} {ws : List Write} (h : closeWrites rule c inode s files (w :: ws) = .ok out) :
    ∃ f s', closeContent c files w = .ok f ∧ rule s w.actor.key w.monotonicNs = .ok (true, s') ∧
      wroteContent c inode f ∧ closeWrites rule c inode s' (files ++ [f]) ws = .ok out := by
  obtain ⟨f, hf, h⟩ := bind_ok h
  obtain ⟨⟨alive, s'⟩, hrule, h⟩ := bind_ok h
  obtain ⟨_, halive, h⟩ := bind_ok h
  obtain ⟨_, hwrote, h⟩ := bind_ok h
  obtain rfl : alive = true := need_ok.mp halive
  exact ⟨f, s', hf, hrule, need_ok.mp hwrote, h⟩

theorem closeWrites_step {rule : LiveRule} {inode : Nat} {s s' : Liveness} {files : List Closed}
    {w : Write} {ws : List Write} {f : Closed} (hf : closeContent c files w = .ok f)
    (hrule : rule s w.actor.key w.monotonicNs = .ok (true, s')) (hwrote : wroteContent c inode f) :
    closeWrites rule c inode s files (w :: ws) = closeWrites rule c inode s' (files ++ [f]) ws := by
  rw [closeWrites, hf, ok_bind, hrule, ok_bind, need_bind rfl, need_bind hwrote]

/-- The author of every accepted close is the root. -/
theorem closeContent_author {files : List Closed} {w : Write} {f : Closed}
    (h : closeContent c files w = .ok f) :
    w.actor.key = c.root.key ∧ f.monotonicNs = w.monotonicNs := by
  unfold closeContent at h
  obtain ⟨_, -, h⟩ := bind_ok h
  split at h
  · exact absurd h nofun
  · obtain ⟨_, -, h⟩ := bind_ok h
    obtain ⟨_, hauthor, h⟩ := bind_ok h
    obtain ⟨_, -, h⟩ := bind_ok h
    obtain rfl := Except.ok.inj h
    exact ⟨need_ok.mp hauthor, rfl⟩

theorem fileOf_mem {files : List Closed} {name : Text} {f : Closed}
    (h : fileOf files name = .ok f) : f ∈ files := by
  unfold fileOf at h
  split at h
  next f' hf =>
    obtain rfl := Except.ok.inj h
    exact List.mem_of_find?_eq_some hf
  next => exact absurd h nofun

/-- The payload was closed before the definition. -/
theorem finishCaptured_order {readyNs : Nat} {files : List Closed} {r : Captured}
    (h : finishCaptured readers c readyNs files = .ok r) :
    ∃ f ∈ files, ∃ g ∈ files, f.monotonicNs < g.monotonicNs := by
  unfold finishCaptured at h
  obtain ⟨payload, hpayload, h⟩ := bind_ok h
  obtain ⟨service, hservice, h⟩ := bind_ok h
  obtain ⟨_, -, h⟩ := bind_ok h
  obtain ⟨unit, -, h⟩ := bind_ok h
  split at h
  next =>
    obtain ⟨_, -, h⟩ := bind_ok h
    obtain ⟨_, horder, h⟩ := bind_ok h
    exact ⟨payload, fileOf_mem hpayload, service, fileOf_mem hservice, (need_ok.mp horder).2⟩
  next => exact absurd h nofun

/-- What a capture that passes the other checks looks like: two writes of the
    root in order, whose contents pass. -/
theorem passed_writes {r : Captured} (h : verifyCapturedBy trust readers c = .ok r) :
    ∃ opened w₁ w₂ f₁ f₂, openCaptured readers c = .ok opened ∧ c.writes = [w₁, w₂] ∧
      w₁.monotonicNs ≤ w₂.monotonicNs ∧ w₁.actor.key = c.root.key ∧ w₂.actor.key = c.root.key ∧
      closeContent c [] w₁ = .ok f₁ ∧ closeContent c [f₁] w₂ = .ok f₂ ∧
      wroteContent c opened.1 f₁ ∧ wroteContent c opened.1 f₂ ∧
      finishCaptured readers c opened.2 [f₁, f₂] = .ok r := by
  obtain ⟨opened, hopened, h⟩ := bind_ok h
  obtain ⟨_, hlength, h⟩ := bind_ok h
  obtain ⟨files, hfiles, hfinish⟩ := bind_ok h
  have hlength := need_ok.mp hlength
  have htwo : c.writes.length ≤ 2 := by
    rw [hlength]
    exact Finset.card_le_two
  have hsorted : (c.writes.map Write.monotonicNs).Pairwise (· ≤ ·) :=
    (openCaptured_sorted hopened).sublist (writesFrom_times 1 c.rows)
  obtain ⟨f, hf, g, hg, hlt⟩ := finishCaptured_order hfinish
  match hw : c.writes with
  | [] =>
      rw [hw] at hfiles
      obtain rfl := Except.ok.inj hfiles
      exact absurd hf List.not_mem_nil
  | [w] =>
      rw [hw] at hfiles
      obtain ⟨f', s', -, -, -, hend⟩ := closeWrites_cons hfiles
      obtain rfl := Except.ok.inj hend
      obtain rfl := List.mem_singleton.mp hf
      obtain rfl := List.mem_singleton.mp hg
      exact absurd hlt (Nat.lt_irrefl _)
  | [w₁, w₂] =>
      rw [hw] at hfiles hsorted
      obtain ⟨f₁, s₁, hf₁, -, hwrote₁, hrest⟩ := closeWrites_cons hfiles
      obtain ⟨f₂, s₂, hf₂, -, hwrote₂, hend⟩ := closeWrites_cons hrest
      obtain rfl := Except.ok.inj hend
      refine ⟨opened, w₁, w₂, f₁, f₂, hopened, rfl, ?_, (closeContent_author hf₁).1,
        (closeContent_author hf₂).1, hf₁, hf₂, hwrote₁, hwrote₂, hfinish⟩
      simpa using hsorted
  | w₁ :: w₂ :: w₃ :: rest =>
      rw [hw] at htwo
      exact absurd htwo (by simp)

/-- The answer of `live`, over a prefix of the kernel's events. -/
theorem live_eq (s : Liveness) (actor : Key) (ns : Nat) :
    live c s actor ns = s.follow c.root.key (upTo c.kernel ns) >>= fun s =>
      .ok (decide (actor ∈ s.members), s) := by
  unfold live
  rw [replay_eq]

/-- A history without forks, from which the root has not exited, leaves the sets. -/
theorem follow_childless {root : Key} {es : List Event} (h : History root es)
    (halive : ∀ e ∈ es, e.kind = .exit → e.key ≠ root)
    (hchildless : ∀ e ∈ es, ∀ child, e.kind ≠ .fork child) :
    (Liveness.start root).follow root es = .ok (Liveness.start root) := by
  obtain ⟨s, hs, hmembers, hseen⟩ := follow_history h
  have hnobody : ∀ k, ¬ ∃ f ∈ es, f.kind = .fork k := by
    rintro k ⟨f, hf, hk⟩
    exact hchildless f hf k hk
  obtain ⟨members, seen⟩ := s
  rw [hs]
  have hm : members = {root} := by
    ext k
    rw [hmembers, Finset.mem_singleton]
    constructor
    · rintro ⟨hroot | hforked, -⟩
      · exact hroot
      · exact absurd hforked (hnobody k)
    · rintro rfl
      exact ⟨Or.inl rfl, halive⟩
  have hn : seen = {root} := by
    ext k
    rw [hseen, Finset.mem_singleton]
    exact or_iff_left (hnobody k)
  rw [hm, hn]
  rfl

end Writes

/-- **When the origin is accepted.**  A capture that passes the other checks,
    whose kernel prefixes are process histories in which the root is alive at
    both writes, is accepted exactly when nobody was forked before the first
    write: only then does the second question start from the sets of the first. -/
theorem verifyCaptured_accepts_iff {readers : Readers} {c : Capture} {r : Captured}
    (hother : verifyCapturedBy trust readers c = .ok r)
    (hhistory : ∀ w ∈ c.writes, History c.root.key (upTo c.kernel w.monotonicNs))
    (halive : ∀ w ∈ c.writes, ∀ e ∈ upTo c.kernel w.monotonicNs,
      e.kind = .exit → e.key ≠ c.root.key) :
    (∃ r', verifyCaptured readers c = .ok r') ↔
      ∀ w, c.writes.head? = some w →
        ∀ e ∈ upTo c.kernel w.monotonicNs, ∀ child, e.kind ≠ .fork child := by
  obtain ⟨opened, w₁, w₂, f₁, f₂, hopened, hw, hle, hauthor₁, hauthor₂, hf₁, hf₂, hwrote₁,
    hwrote₂, hfinish⟩ := passed_writes hother
  have hhistory₁ := hhistory w₁ (by rw [hw]; simp)
  have hhistory₂ := hhistory w₂ (by rw [hw]; simp)
  constructor
  · rintro ⟨r', haccepted⟩ w hhead e he child hfork
    rw [hw] at hhead
    obtain rfl := Option.some.inj hhead
    obtain ⟨_, -, haccepted⟩ := bind_ok haccepted
    obtain ⟨_, -, haccepted⟩ := bind_ok haccepted
    obtain ⟨files, hfiles, -⟩ := bind_ok haccepted
    rw [hw] at hfiles
    obtain ⟨_, s₁, -, hlive₁, -, hrest⟩ := closeWrites_cons hfiles
    obtain ⟨_, s₂, -, hlive₂, -, -⟩ := closeWrites_cons hrest
    -- the first question has seen the child that the second one forks again
    rw [live_eq] at hlive₁ hlive₂
    obtain ⟨s, hfollow, -, hseen⟩ := follow_history hhistory₁
    rw [hfollow] at hlive₁
    obtain rfl : s = s₁ := congrArg Prod.snd (Except.ok.inj hlive₁)
    obtain ⟨s', hfollow₂, -⟩ := bind_ok hlive₂
    exact follow_refused ⟨e, (upTo_le c.kernel hle).subset he, child, hfork,
      (hseen child).mpr (Or.inr ⟨e, he, hfork⟩)⟩ hfollow₂
  · intro hchildless
    have halive₁ := halive w₁ (by rw [hw]; simp)
    have halive₂ := halive w₂ (by rw [hw]; simp)
    have hfollow₁ := follow_childless hhistory₁ halive₁ (hchildless w₁ (by rw [hw]; rfl))
    obtain ⟨s₂, hfollow₂, hmembers, -⟩ := follow_history hhistory₂
    have hroot : c.root.key ∈ s₂.members := (hmembers _).mpr ⟨Or.inl rfl, halive₂⟩
    have hlive₁ : live c (Liveness.start c.root.key) w₁.actor.key w₁.monotonicNs
        = .ok (true, Liveness.start c.root.key) := by
      rw [live_eq, hauthor₁, hfollow₁]
      show Except.ok (decide (c.root.key ∈ ({c.root.key} : Finset Key)), _) = _
      rw [decide_eq_true (Finset.mem_singleton_self _)]
    have hlive₂ : live c (Liveness.start c.root.key) w₂.actor.key w₂.monotonicNs
        = .ok (true, s₂) := by
      rw [live_eq, hauthor₂, hfollow₂]
      show Except.ok (decide (c.root.key ∈ s₂.members), s₂) = _
      rw [decide_eq_true hroot]
    refine ⟨r, ?_⟩
    have hlength : c.writes.length = ({c.config.payload, c.config.service} : Finset Text).card := by
      obtain ⟨_, -, h⟩ := bind_ok hother
      obtain ⟨_, hlength, -⟩ := bind_ok h
      exact need_ok.mp hlength
    unfold verifyCaptured verifyCapturedBy
    rw [hopened]
    show (need (c.writes.length = _) _ >>= _) = _
    rw [need_bind hlength, hw, closeWrites_step hf₁ hlive₁ hwrote₁, List.nil_append,
      closeWrites_step hf₂ hlive₂ hwrote₂]
    exact hfinish

/-! ## A sample that forks once -/

def sampleConfig : Config :=
  { directory := ascii "/opt/o", payload := ascii "app", service := ascii "one.service"
    socket := ascii "/run/systemd/private", windowSeconds := 30
    manager := { pid := 1, birth := ascii "5", uids := [0, 0, 0, 0], gids := [0, 0, 0, 0] } }

def sampleRoot : Root := { pid := 100, startTime := ascii "7", bootId := ascii "boot" }

def sampleCredentials : Identity :=
  { uids := [1000, 1000, 1000, 1000], gids := [1000, 1000, 1000, 1000], groups := [] }

/-- The bytes of the captured payload and of the captured unit. -/
def sampleElf : Bytes := [0x7f, 0x45, 0x4c, 0x46]

def sampleUnit : Bytes :=
  (ascii "[Unit]\nDescription=x\nDefaultDependencies=no\nRefuseManualStart=yes\n[Service]\nType=simple\nUser=1000\nGroup=1000\nExecStart=/opt/o/app\nRestart=no\n[Install]\nWantedBy=multi-user.target\n").map
    UInt8.ofNat

def sampleArtifact (path : Text) (raw : Bytes) : Artifact :=
  { path := path, content := Base64.encode raw, size := raw.length, sha256 := hexdigest raw
    device := 0 }

/-- The readers, on this capture: the profile is valid, the unit is the plain form. -/
def sampleReaders : Readers where
  validateProfile := fun _ => .ok ()
  parseInstallationUnit := fun _ _ payload =>
    .ok { user := ascii "1000", group := ascii "1000", execstart := payload, argv := none
          ordered := false }

def sampleEvent (ns : Nat) (kind : EventKind) : Event :=
  { monotonicNs := ns, key := sampleRoot.key, rootKey := sampleRoot.key, truncated := false
    kind := kind }

/-- A capture whose root forks the given children right after its exec. -/
def sampleCapture (children : List Key) : Capture :=
  { rows :=
      [ { monotonicNs := 1
          body := .intent SOURCE sampleConfig (ascii "boot") sampleRoot 9 },
        { monotonicNs := 2
          body := .fresh [(ascii "one.service",
            { loadState := ascii "not-found", activeState := ascii "inactive", fragmentPath := []
              activation := [], invocationId := [] })] [ascii "one.service"] [1, 0, 0] },
        { monotonicNs := 3, body := .ready },
        { monotonicNs := 20
          body := .closedWrite (sampleArtifact (ascii "/opt/o/app") sampleElf)
            { key := sampleRoot.key, identity := sampleCredentials } (some (ascii "F_RDLCK")) },
        { monotonicNs := 30
          body := .closedWrite (sampleArtifact (ascii "/opt/o/one.service") sampleUnit)
            { key := sampleRoot.key, identity := sampleCredentials } (some (ascii "F_RDLCK")) } ]
    config := sampleConfig, binding := ascii "boot", root := sampleRoot
    credentials := sampleCredentials
    kernel := sampleEvent 10 .exec :: children.map (fun k => sampleEvent 11 (.fork k)) ++
      [ sampleEvent 15 (.modify (ascii "app") 9 0 4),
        sampleEvent 25 (.modify (ascii "one.service") 9 0 1), sampleEvent 40 .exit ]
    boundaryNs := 50 }

def EventKind.child : EventKind → Option Key
  | .fork child => some child
  | _ => none

/-- Events of the root alone, which forks everybody once, are a history. -/
theorem history_of_root {root : Key} {es : List Event}
    (hroot : ∀ e ∈ es, e.key = root ∧ e.rootKey = root ∧ e.kind ≠ .exit)
    (hchildren : (root :: es.filterMap (fun e => e.kind.child)).Nodup) : History root es where
  rooted := fun e he => (hroot e he).2.1
  member := fun before e rest heq =>
    ⟨Or.inl (hroot e (by simp [heq])).1,
      fun x hx hexit => absurd hexit (hroot x (by simp [heq, hx])).2.2⟩
  fresh := fun before e rest child heq hk => by
    rw [heq, List.filterMap_append, List.filterMap_cons_some (b := child) (by rw [hk]; rfl),
      List.nodup_cons] at hchildren
    refine ⟨?_, fun f hf hkind => ?_⟩
    · rintro rfl
      exact hchildren.1 (by simp)
    · have hmem : child ∈ before.filterMap (fun e => e.kind.child) :=
        List.mem_filterMap.mpr ⟨f, hf, by rw [hkind]; rfl⟩
      exact (List.nodup_append.mp hchildren.2).2.2 child hmem child List.mem_cons_self rfl

/-- Up to its writes the sample is a history of the root alone. -/
theorem sample_history (children : List Key)
    (h : ∀ w ∈ (sampleCapture children).writes,
      (∀ e ∈ upTo (sampleCapture children).kernel w.monotonicNs,
        e.key = sampleRoot.key ∧ e.rootKey = sampleRoot.key ∧ e.kind ≠ .exit) ∧
      (sampleRoot.key :: (upTo (sampleCapture children).kernel w.monotonicNs).filterMap
        (fun e => e.kind.child)).Nodup) :
    ∀ w ∈ (sampleCapture children).writes,
      History (sampleCapture children).root.key (upTo (sampleCapture children).kernel w.monotonicNs) :=
  fun w hw => history_of_root (h w hw).1 (h w hw).2

set_option maxRecDepth 4000 in
/-- The verdicts on the capture that forks once, and on the one that never forks. -/
theorem sample_verdicts :
    (verifyCapturedBy trust sampleReaders (sampleCapture [(101, ascii "8")])).isOk = true ∧
      verifyCaptured sampleReaders (sampleCapture [(101, ascii "8")]) = .error "reused child" ∧
      (verifyCapturedBy trust sampleReaders (sampleCapture [])).isOk = true := by
  unfold sampleCapture
  -- the unit is long: its characters are read off the literal, not decoded from it
  rw [show sampleUnit = _ from congrArg (List.map UInt8.ofNat) (ascii_ofList _)]
  decide +kernel

/-- A root that forks a child before its first write is refused: the child is
    met again when the second write is judged. -/
theorem forked_origin_refused :
    (verifyCapturedBy trust sampleReaders (sampleCapture [(101, ascii "8")])).isOk = true ∧
      (∀ w ∈ (sampleCapture [(101, ascii "8")]).writes,
        History (sampleCapture [(101, ascii "8")]).root.key
          (upTo (sampleCapture [(101, ascii "8")]).kernel w.monotonicNs)) ∧
      (∀ w ∈ (sampleCapture [(101, ascii "8")]).writes,
        ∀ e ∈ upTo (sampleCapture [(101, ascii "8")]).kernel w.monotonicNs,
          e.kind = .exit → e.key ≠ (sampleCapture [(101, ascii "8")]).root.key) ∧
      verifyCaptured sampleReaders (sampleCapture [(101, ascii "8")]) = .error "reused child" :=
  ⟨sample_verdicts.1, sample_history _ (by decide +kernel), by decide +kernel, sample_verdicts.2.1⟩

theorem verifyCaptured_accepts_iff_sample :
    (∃ r', verifyCaptured sampleReaders (sampleCapture []) = .ok r') ↔
      ∀ w, (sampleCapture []).writes.head? = some w →
        ∀ e ∈ upTo (sampleCapture []).kernel w.monotonicNs, ∀ child, e.kind ≠ .fork child := by
  obtain ⟨r, hr⟩ : ∃ r, verifyCapturedBy trust sampleReaders (sampleCapture []) = .ok r := by
    have hok := sample_verdicts.2.2
    cases h : verifyCapturedBy trust sampleReaders (sampleCapture []) with
    | ok r => exact ⟨r, rfl⟩
    | error m => rw [h] at hok; exact absurd hok Bool.false_ne_true
  exact verifyCaptured_accepts_iff hr (sample_history _ (by decide +kernel)) (by decide +kernel)

end BootInstall
