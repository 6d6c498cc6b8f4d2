import VeloTransfer.DownloadFileProofs

/-! # Downloading a file of a flow — nothing is overwritten, nothing is hidden

    Up to its link an attempt changes nothing at the destination, whatever fails; the
    link takes place only where nothing stands there, with bytes that the backend sent
    between two equal listings; behind the link every error is turned into one.

    * `Sound` — what holds of the directory at every moment of a call;
    * `Phase` — a part of an attempt that the checks of paths leave alone;
    * `triple_attempt` — one attempt, which delivers its file or fails. -/

namespace DownloadFile

open CanonicalJson EffectPrograms EffectPrograms.Program
open McpCore FlowFiles
open FaultScript (happened)
open Sha256 (hexdigest)

/-! ## What is published -/

/-- The answers to a reading from an offset on, up to the empty one. -/
def readAnswers (components : List Text) (padding : Bool) : Nat → List Bytes → List Answer
  | offset, [] => [.chunk components padding offset []]
  | offset, chunk :: chunks =>
      .chunk components padding offset chunk :: readAnswers components padding (offset + chunk.length) chunks

/-- The answers of an attempt that comes to its link: two listings, and between them the
    compact bytes of a sparse file and the bytes of the file. -/
def attemptAnswers (client : ClientId) (rows rows' : List (List (Text × Json))) (compact chunks : List Bytes)
    (r : FileRecord) : List Answer :=
  .uploads client rows :: ((if r.indexSelector.isSome then readAnswers r.components false 0 compact else []) ++
    readAnswers r.components r.indexSelector.isSome 0 chunks) ++ [.uploads client rows']

/-- What the answers of an attempt say of the bytes that it links. -/
structure Told (py : Python) (flow fileId : Text) (client : ClientId) (rows rows' : List (List (Text × Json)))
    (compact chunks : List Bytes) (r r' : FileRecord) (bytes : Bytes) : Prop where
  selected : ∃ inventory, deduplicatedUploads py client.val flow rows = .ok inventory ∧
    selectedOf fileId inventory = some r
  refreshed : ∃ inventory, deduplicatedUploads py client.val flow rows' = .ok inventory ∧
    selectedOf fileId inventory = some r'
  unchanged : r'.same py r = true
  content : chunks.flatten = bytes
  size : (bytes.length : Int) = r.fileSize
  compactSize : r.indexSelector.isSome = true → (compact.flatten.length : Int) = r.uploadedSize
  plainSize : r.indexSelector = none → r.fileSize = r.uploadedSize

/-- One attempt was told that the bytes are the file that was asked for. -/
def Verified (py : Python) (flow fileId : Text) (answers : List Answer) (bytes : Bytes) : Prop :=
  ∃ client rows rows' compact chunks r r', Told py flow fileId client rows rows' compact chunks r r' bytes ∧
    attemptAnswers client rows rows' compact chunks r <:+: answers

theorem Verified.later {py : Python} {flow fileId : Text} {answers later : List Answer} {bytes : Bytes}
    (h : Verified py flow fileId answers bytes) (hlater : answers <+: later) :
    Verified py flow fileId later bytes := by
  obtain ⟨client, rows, rows', compact, chunks, r, r', htold, hanswers⟩ := h
  exact ⟨client, rows, rows', compact, chunks, r, r', htold, hanswers.trans hlater.isInfix⟩

/-! ## The outside -/

/-- A file operation that fails only as the system lets it fail. -/
def FileEvent.Tame (event : FileEvent) : Prop := ∀ e n, event.fault = some (e, n) → isOSError e = true

/-- What may have happened to the directory before an operation takes its effect. -/
structure Moved (v v' : Local) : Prop where
  temp : v'.temp = v.temp
  linked : v'.linked = v.linked
  identity : v'.tempIdentity = v.tempIdentity
  attempted : v'.cleanupAttempted = v.cleanupAttempted
  answers : v'.answers = v.answers
  after : ∀ event ∈ v'.after, event ∈ v.after
  final : (v'.final = v.final ∧ v'.appeared = v.appeared) ∨
    (v.final = none ∧ ∃ node, v'.final = some (.others, node) ∧ v'.appeared = v.appeared ++ [(.others, node)])

/-- An event behind the link is one of those that are left for then. -/
def Drawn (v : Local) (event : FileEvent) : Prop :=
  v.published = true → event.fault = none ∨ event ∈ v.after

theorem Local.pop_spec (v : Local) :
    Moved v v.pop.2 ∧ v.pop.2.final = v.final ∧ v.pop.2.appeared = v.appeared ∧ Drawn v v.pop.1 := by
  have hsame : Moved v v := ⟨rfl, rfl, rfl, rfl, rfl, fun _ h => h, .inl ⟨rfl, rfl⟩⟩
  unfold Local.pop
  by_cases hpublished : v.published = true
  · rw [if_pos hpublished]
    cases hafter : v.after with
    | nil => exact ⟨hsame, rfl, rfl, fun _ => .inl rfl⟩
    | cons event rest =>
        refine ⟨⟨rfl, rfl, rfl, rfl, rfl, fun e he => ?_, .inl ⟨rfl, rfl⟩⟩, rfl, rfl, fun _ => .inr ?_⟩
        · rw [hafter]
          exact List.mem_cons_of_mem _ he
        · rw [hafter]
          exact List.mem_cons_self
  · rw [if_neg hpublished]
    cases v.before with
    | nil => exact ⟨hsame, rfl, rfl, fun h => absurd h hpublished⟩
    | cons event rest =>
        exact ⟨⟨rfl, rfl, rfl, rfl, rfl, fun _ h => h, .inl ⟨rfl, rfl⟩⟩, rfl, rfl, fun h => absurd h hpublished⟩

theorem Moved.arrive {v v' : Local} (h : Moved v v') (hfinal : v'.final = v.final)
    (happeared : v'.appeared = v.appeared) (rival : Option Node) : Moved v (v'.arrive rival) := by
  unfold Local.arrive
  split
  next node hnone =>
    refine ⟨h.temp, h.linked, h.identity, h.attempted, h.answers, h.after, .inr ⟨hfinal.symm.trans hnone, node, rfl, ?_⟩⟩
    show v'.appeared ++ _ = _
    rw [happeared]
  next => exact h

/-- A file of this call is at the destination for good. -/
theorem Moved.published {v v' : Local} (h : Moved v v') : v'.published = v.published := by
  unfold Local.published
  rcases h.final with ⟨-, happeared⟩ | ⟨-, node, -, happeared⟩
  · rw [happeared]
  · rw [happeared, List.any_append]
    exact Bool.or_false _

/-! ## What holds at every moment -/

section Sound

variable {S : Prop} {py : Python} {flow fileId : Text} {start : List (Origin × Node)} {v v' : Local}

/-- What ever appeared at the destination is still there, it is no more than one file, and
    where it is of this call, its bytes are verified.  `S` is what is asked of the
    outside so that no error behind the link gets lost. -/
structure Sound (S : Prop) (py : Python) (flow fileId : Text) (start : List (Origin × Node)) (v : Local) : Prop where
  grows : start <+: v.appeared
  once : v.appeared.length ≤ 1
  final : v.final = v.appeared.head?
  verified : ∀ node, (Origin.ours, node) ∈ v.appeared → Verified py flow fileId v.answers node.bytes
  tame : S → ∀ event ∈ v.after, event.Tame

theorem Sound.none_iff (h : Sound S py flow fileId start v) : v.final = none ↔ v.appeared = [] := by
  rw [h.final, List.head?_eq_none_iff]

/-- Nothing has appeared where the destination is free, so one file may. -/
theorem Sound.put (h : Sound S py flow fileId start v) (hnone : v.final = none) {x : Origin × Node}
    (hfinal : v'.final = some x) (happeared : v'.appeared = v.appeared ++ [x]) (hanswers : v'.answers = v.answers)
    (hafter : ∀ event ∈ v'.after, event ∈ v.after)
    (hx : ∀ node, x = (.ours, node) → Verified py flow fileId v.answers node.bytes) :
    Sound S py flow fileId start v' := by
  have hnil := h.none_iff.mp hnone
  rw [hnil, List.nil_append] at happeared
  refine ⟨?_, ?_, ?_, ?_, fun hS event hevent => h.tame hS event (hafter event hevent)⟩
  · rw [happeared]
    exact (hnil ▸ h.grows).trans (List.nil_prefix)
  · rw [happeared]
    exact Nat.le_refl 1
  · rw [hfinal, happeared]
    rfl
  · intro node hnode
    rw [happeared] at hnode
    rw [hanswers]
    exact hx node (List.mem_singleton.mp hnode).symm

/-- The outside keeps what holds. -/
theorem Sound.moved (h : Sound S py flow fileId start v) (hmoved : Moved v v') :
    Sound S py flow fileId start v' := by
  rcases hmoved.final with ⟨hfinal, happeared⟩ | ⟨hnone, node, hfinal, happeared⟩
  · refine ⟨?_, ?_, ?_, ?_, fun hS event hevent => h.tame hS event (hmoved.after event hevent)⟩
    · exact happeared ▸ h.grows
    · exact happeared ▸ h.once
    · rw [hfinal, happeared]
      exact h.final
    · rw [happeared, hmoved.answers]
      exact h.verified
  · exact h.put hnone hfinal happeared hmoved.answers hmoved.after (fun node heq => absurd heq nofun)

/-- The variables and the temporary file have no part in it, and answers are only added. -/
theorem Sound.same (h : Sound S py flow fileId start v) (hfinal : v'.final = v.final)
    (happeared : v'.appeared = v.appeared) (hanswers : v.answers <+: v'.answers) (hafter : v'.after = v.after) :
    Sound S py flow fileId start v' where
  grows := happeared ▸ h.grows
  once := happeared ▸ h.once
  final := by
    rw [hfinal, happeared]
    exact h.final
  verified := by
    rw [happeared]
    exact fun node hnode => (h.verified node hnode).later hanswers
  tame := hafter ▸ h.tame

end Sound

/-! ## Phases of an attempt -/

section Phase

variable {ρ α : Type} {P : Shared (Site ρ) → Prop} {K : Option Raised → Shared (Site ρ) → Prop}

/-- What may have happened to all that an operation reaches. -/
structure MovedTo (s s' : Shared (Site ρ)) : Prop where
  here : Moved (here s) (here s')
  scope : s'.scope = s.scope

theorem nextEvent_spec (s : Shared (Site ρ)) :
    ∃ event s', nextEvent s = (.done event, s') ∧ MovedTo s s' ∧ Drawn (here s) event := by
  obtain ⟨hmoved, hfinal, happeared, hdrawn⟩ := (here s).pop_spec
  exact ⟨_, _, rfl, ⟨hmoved.arrive hfinal happeared _, rfl⟩, hdrawn⟩

/-- A program goes on from wherever the outside has moved to. -/
theorem triple_next {β : Type} {k : FileEvent → Effect ρ β} {Q : β → Shared (Site ρ) → Prop}
    (hk : ∀ s s' event, P s → MovedTo s s' → Drawn (here s) event → endsIn Q K (k event s').1 (k event s').2) :
    Triple id P (nextEvent >>= k) Q K := by
  intro s hs
  obtain ⟨event, s', hrun, hmoved, hdrawn⟩ := nextEvent_spec s
  show endsIn Q K (andThen nextEvent k s).1 (andThen nextEvent k s).2
  unfold andThen
  rw [hrun]
  exact hk s s' event hs hmoved hdrawn

/-- An operation ends as its event says. -/
theorem triple_operate {change : FileEvent → Option Nat → Local → Local} {Q : FileEvent → Shared (Site ρ) → Prop}
    (hdone : ∀ s s' event, P s → MovedTo s s' → Q event (withHere s' (change event none (here s'))))
    (hfault : ∀ s s' event e n, P s → MovedTo s s' → Drawn (here s) event → event.fault = some (e, n) →
      K (some e) (withHere s' (change event (some n) (here s')))) :
    Triple id P (operate change) Q K := by
  refine triple_next (fun s s' event hs hmoved hdrawn => ?_)
  cases hevent : event.fault with
  | none => exact hdone s s' event hs hmoved
  | some fault =>
      obtain ⟨e, n⟩ := fault
      exact hfault s s' event e n hs hmoved hdrawn hevent

/-- The errors that the checks of paths raise themselves. -/
def IsOwn (e : Raised) : Prop := isOSError e = true ∨ isBackendError e = true

/-- A part of an attempt in which `P` holds, and `K` where it ends early. -/
structure Phase (P : Shared (Site ρ) → Prop) (K : Option Raised → Shared (Site ρ) → Prop) : Prop where
  moved : ∀ s s', P s → MovedTo s s' → P s'
  fault : ∀ s s' event e n, P s → MovedTo s s' → Drawn (here s) event → event.fault = some (e, n) → K (some e) s'
  own : ∀ e s, P s → IsOwn e → K (some e) s

variable (h : Phase P K)
include h

theorem Phase.observe : Triple id P observe (fun _ => P) K := by
  refine triple_bind (triple_operate (Q := fun _ => P) ?_ ?_) (fun _ => triple_pure (fun _ hs => hs))
  · exact fun s s' _ hs hmoved => h.moved s s' hs hmoved
  · exact fun s s' event e n hs hmoved hdrawn hevent => h.fault s s' event e n hs hmoved hdrawn hevent

theorem Phase.check {c : Prop} [Decidable c] {e : Raised} (he : IsOwn e) :
    Triple id P (raiseIf c e) (fun _ => P) K :=
  triple_ite (fun _ => triple_raise (fun s hs => h.own e s hs he)) (fun _ => triple_pure (fun _ hs => hs))

theorem Phase.assertPlainPath : Triple id P assertPlainPath (fun _ => P) K :=
  triple_bind h.observe (fun _ => h.check (.inr rfl))

theorem Phase.assertContained : Triple id P assertContained (fun _ => P) K :=
  triple_bind h.observe (fun _ => h.check (.inr rfl))

theorem Phase.lstat (look : Local → Option Node) : Triple id P (lstat look) (fun _ => P) K := by
  refine triple_bind h.observe (fun _ => ?_)
  refine triple_bind (Q := fun _ => P) (triple_read (fun s => triple_pure (fun _ hs => hs.1))) (fun v => ?_)
  cases look v with
  | none => exact triple_raise (fun s hs => h.own _ s hs (.inl (by decide)))
  | some node => exact triple_pure (fun _ hs => hs)

theorem Phase.assertPlainFile (look : Local → Option Node) : Triple id P (assertPlainFile look) (fun _ => P) K :=
  triple_bind (h.lstat look) (fun _ => h.check (.inr rfl))

theorem Phase.assertSafeDirectories : Triple id P assertSafeDirectories (fun _ => P) K := by
  have hplain := h.assertPlainPath
  have hcontained := h.assertContained
  refine triple_bind hplain (fun _ => triple_bind hcontained (fun _ => ?_))
  refine triple_bind hplain (fun _ => triple_bind hcontained (fun _ => ?_))
  exact triple_bind hplain (fun _ => hcontained)

theorem Phase.assertSafeChain (look : Local → Option Node) : Triple id P (assertSafeChain look) (fun _ => P) K :=
  triple_bind h.assertSafeDirectories (fun _ => triple_bind (h.assertPlainFile look) (fun _ => h.assertContained))

theorem Phase.assertOwnedFile (look : Local → Option Node) (identity : Nat) :
    Triple id P (assertOwnedFile look identity) (fun _ => P) K := by
  refine triple_bind (h.lstat look) (fun info => triple_ite (fun _ => ?_) (fun _ => ?_))
  · exact triple_raise (fun s hs => h.own _ s hs (.inr rfl))
  · exact triple_bind (h.lstat look) (fun _ => h.check (.inr rfl))

/-- The removal of the temporary file swallows what the checks raise themselves. -/
theorem Phase.cleanupOwnedTemp (hunlink : Triple id P unlinkTemp (fun _ => P) K)
    (hkeeps : ∀ e s, K e s → P s) (identity : Nat) :
    Triple id P (cleanupOwnedTemp identity) (fun _ => P) (fun e s => K e s ∧ ∀ f, e = some f → ¬ IsOwn f) := by
  refine triple_handle (H := fun e => K (some e)) ?_ (fun e => ?_)
  · refine triple_conseq (K := K) (Q := fun _ => P) ?_ (fun _ hs => hs) (fun _ _ hs => hs) ?_
    · refine triple_bind h.assertPlainPath (fun _ => triple_bind h.assertContained (fun _ => ?_))
      refine triple_bind (h.lstat _) (fun info => triple_ite (fun _ => triple_pure (fun _ hs => hs)) (fun _ => ?_))
      refine triple_bind (h.lstat _) (fun node => triple_ite (fun _ => triple_pure (fun _ hs => hs)) (fun _ => ?_))
      exact triple_bind h.assertContained (fun _ => triple_bind hunlink (fun _ => triple_pure (fun _ hs => hs)))
    · intro e s hs
      cases e with
      | none => exact ⟨hs, nofun⟩
      | some e => exact hs
  · have hpass : ∀ b : Bool, Triple id (K (some e)) (pure b : Effect ρ Bool) (fun _ => P)
        (fun e s => K e s ∧ ∀ f, e = some f → ¬ IsOwn f) :=
      fun b => triple_pure (fun s hs => hkeeps _ s hs)
    refine triple_ite (fun _ => hpass true) (fun hmissing => ?_)
    refine triple_ite (fun _ => hpass false) (fun hos => ?_)
    refine triple_ite (fun _ => hpass false) (fun hbackend => triple_raise (fun s hs => ⟨hs, ?_⟩))
    rintro f hf (hown | hown)
    · exact hos (Option.some.inj hf ▸ hown)
    · exact hbackend (Option.some.inj hf ▸ hown)

end Phase

/-! ## Before the link -/

section Before

variable {ρ : Type} (S : Prop) (py : Python) (flow fileId : Text) (start : List (Origin × Node))

/-- An observation that takes facts, or none. -/
def Open : Option Scope → Prop
  | none => True
  | some scope => scope.isSealed = false ∧ scope.isFailed = false

def AnyScope (_ : Option Scope) : Prop := True

/-- Nothing of this call is at the destination, as far as `S` goes. -/
structure Before (l : Bool) (s : Shared (Site ρ)) : Prop where
  sound : Sound S py flow fileId start (here s)
  linked : (here s).linked = l
  fresh : S → (here s).published = false

/-- The answers so far, and what is in the temporary file. -/
structure Stage (l : Bool) (log : List Answer) (content : Option Bytes) (C : Option Scope → Prop)
    (s : Shared (Site ρ)) : Prop extends Before S py flow fileId start l s where
  answers : (here s).answers = log
  content : (here s).temp.map Node.bytes = content
  scope : C s.scope

variable {S py flow fileId start} {l : Bool} {log : List Answer} {content : Option Bytes} {C : Option Scope → Prop}

theorem Before.moved {s s' : Shared (Site ρ)} (h : Before S py flow fileId start l s) (hmoved : MovedTo s s') :
    Before S py flow fileId start l s' where
  sound := h.sound.moved hmoved.here
  linked := hmoved.here.linked.trans h.linked
  fresh hS := hmoved.here.published.trans (h.fresh hS)

theorem Stage.moved {s s' : Shared (Site ρ)} (h : Stage S py flow fileId start l log content C s)
    (hmoved : MovedTo s s') : Stage S py flow fileId start l log content C s' where
  toBefore := h.toBefore.moved hmoved
  answers := hmoved.here.answers.trans h.answers
  content := by
    rw [hmoved.here.temp]
    exact h.content
  scope := hmoved.scope ▸ h.scope

theorem before_phase (l : Bool) : Phase (ρ := ρ) (Before S py flow fileId start l) (fun _ => Before S py flow fileId start l) where
  moved _ _ hs hmoved := hs.moved hmoved
  fault _ _ _ _ _ hs hmoved _ _ := hs.moved hmoved
  own _ _ hs _ := hs

theorem stage_phase (l : Bool) (log : List Answer) (content : Option Bytes) (C : Option Scope → Prop) :
    Phase (ρ := ρ) (Stage S py flow fileId start l log content C) (fun _ => Before S py flow fileId start l) where
  moved _ _ hs hmoved := hs.moved hmoved
  fault _ _ _ _ _ hs hmoved _ _ := hs.toBefore.moved hmoved
  own _ _ hs _ := hs.toBefore

theorem Stage.weaken {s : Shared (Site ρ)} (h : Stage S py flow fileId start l log content C s) :
    Stage S py flow fileId start l log content AnyScope s := { h with scope := trivial }

/-- What does not reach into the directory keeps the stage, but not the observation. -/
theorem Stage.apart {s s' : Shared (Site ρ)} (h : Stage S py flow fileId start l log content C s)
    (hhere : here s' = here s) : Stage S py flow fileId start l log content AnyScope s' where
  sound := hhere ▸ h.sound
  linked := hhere ▸ h.linked
  fresh := hhere ▸ h.fresh
  answers := hhere ▸ h.answers
  content := hhere ▸ h.content
  scope := trivial

theorem triple_apart {α : Type} {m : Effect ρ α} (hm : Fixes here m) :
    Triple id (Stage S py flow fileId start l log content C) m
      (fun _ => Stage S py flow fileId start l log content AnyScope) (fun _ => Before S py flow fileId start l) := by
  intro s hs
  have hafter := Stage.apart hs (hm s)
  rcases hms : m s with ⟨o, s'⟩
  rw [hms] at hafter
  cases o with
  | done a => exact hafter
  | raised e => exact hafter.toBefore
  | crashed => exact hafter.toBefore

theorem triple_note (answer : Answer) :
    Triple id (Stage (ρ := ρ) S py flow fileId start l log content C) (note answer)
      (fun _ => Stage S py flow fileId start l (log ++ [answer]) content C)
      (fun _ => Before S py flow fileId start l) := by
  intro s hs
  refine ⟨⟨?_, hs.linked, hs.fresh⟩, congrArg (· ++ [answer]) hs.answers, hs.content, hs.scope⟩
  exact hs.sound.same rfl rfl (List.prefix_append _ _) rfl

end Before

/-! ## Reading from the backend -/

section Reading

variable {ρ : Type} {S : Prop} {py : Python} {flow fileId : Text} {start : List (Origin × Node)}
  {refuse : Scope → Fact → Option Raised} {backend : DownloadBackend ρ} {l : Bool} {log : List Answer}
  {content : Option Bytes} {C : Option Scope → Prop}

theorem apart_emitFact (fact : Fact) : Fixes (here (ρ := ρ)) (emitFact refuse fact) := by
  intro s
  unfold emitFact
  split
  · rfl
  · split
    · rfl
    · split
      · rfl
      · split
        · rfl
        · rfl

theorem apart_backendCall {α : Type} {m : Effect ρ α} (hm : Fixes here m) (operation : String) :
    Fixes here (backendCall operation m) :=
  fixes_handle hm (fun _ => fixes_raise _)

theorem apart_ofExcept {α : Type} (r : Except Raised α) : Fixes (here (ρ := ρ)) (ofExcept r) := by
  cases r with
  | ok a => exact fixes_pure a
  | error e => exact fixes_raise e

theorem apart_guard : Fixes (here (ρ := ρ)) flowReadGuard := by
  intro s
  unfold flowReadGuard
  split
  · rfl
  · split
    · rfl
    · split
      · rfl
      · rfl

theorem apart_flowDetails (client : ClientId) (flow : Text) :
    Fixes here (flowDetails refuse backend.flow client flow) := by
  refine fixes_bind (apart_ofExcept _) (fun _ => fixes_bind apart_guard (fun _ => ?_))
  refine fixes_bind (apart_backendCall (backend.apart_details client flow) _) (fun row => ?_)
  split
  · exact fixes_raise _
  · exact fixes_bind (apart_emitFact _) (fun _ => fixes_pure _)
  · exact fixes_raise _

/-- An observation that has taken a fact takes more. -/
theorem triple_emitOpen (fact : Fact) :
    Triple id (Stage (ρ := ρ) S py flow fileId start l log content C) (emitFact refuse fact)
      (fun _ => Stage S py flow fileId start l log content Open) (fun _ => Before S py flow fileId start l) := by
  intro s hs
  have hhere : here (emitFact refuse fact s).2 = here s := apart_emitFact fact s
  have hafter := hs.apart hhere
  show endsIn _ _ (emitFact refuse fact s).1 (emitFact refuse fact s).2
  unfold emitFact at hafter ⊢
  split
  next hscope => exact { hs with scope := hscope ▸ trivial }
  next scope hscope =>
    rw [hscope] at hafter
    dsimp only at hafter
    split
    next => exact hs.toBefore
    next hsealed =>
      rw [if_neg hsealed] at hafter
      split
      next e hrefuse =>
        rw [hrefuse] at hafter
        exact hafter.toBefore
      next hrefuse =>
        rw [hrefuse] at hafter
        dsimp only at hafter
        split
        next => exact hs.toBefore
        next hfailed =>
          rw [if_neg hfailed] at hafter
          exact { hafter with scope := ⟨eq_false_of_ne_true hsealed, eq_false_of_ne_true hfailed⟩ }

/-- **A listing** is answered by rows, of which the inventory is made. -/
theorem triple_fileRecords (client : ClientId) :
    Triple id (Stage S py flow fileId start l log content C) (fileRecords py refuse backend client flow)
      (fun inventory s => ∃ rows, deduplicatedUploads py client.val flow rows = .ok inventory ∧
        Stage S py flow fileId start l (log ++ [.uploads client rows]) content Open s)
      (fun _ => Before S py flow fileId start l) := by
  refine triple_bind (triple_apart (apart_flowDetails client flow)) (fun _ => ?_)
  refine triple_bind (triple_apart apart_guard) (fun _ => ?_)
  refine triple_bind (triple_apart (apart_backendCall (backend.apart_uploads client flow) _)) (fun answer => ?_)
  cases uploadRows answer with
  | none => exact triple_raise (fun s hs => hs.toBefore)
  | some rows =>
      refine triple_bind (triple_note _) (fun _ => triple_bind (triple_emitOpen _) (fun _ => ?_))
      cases hinventory : deduplicatedUploads py client.val flow rows with
      | error e => exact triple_raise (fun s hs => hs.toBefore)
      | ok inventory =>
          show Triple id _ (emitFact refuse _ >>= fun _ => pure inventory) _ _
          exact triple_bind (triple_emitOpen _) (fun _ => triple_pure (fun s hs => ⟨rows, hinventory, hs⟩))

theorem readAnswers_cons (components : List Text) (padding : Bool) (offset : Nat) (chunk : Bytes) (chunks : List Bytes) :
    readAnswers components padding offset (chunk :: chunks) =
      .chunk components padding offset chunk :: readAnswers components padding (offset + chunk.length) chunks := rfl

/-- **The loop over the chunks**: what it returns is the size and the digest of what was
    answered, and `write` has made that of the temporary file which `held` says. -/
theorem triple_readVfsStream {write : Bytes → Effect ρ Unit} (held : Bytes → Option Bytes) (record : FileRecord)
    (padding : Bool)
    (hwrite : ∀ log soFar chunk, Triple id (Stage S py flow fileId start l log (held soFar) AnyScope) (write chunk)
      (fun _ => Stage S py flow fileId start l log (held (soFar ++ chunk)) AnyScope)
      (fun _ => Before S py flow fileId start l))
    (fuel : Nat) (soFar : Bytes) (log : List Answer) :
    Triple id (Stage S py flow fileId start l log (held soFar) AnyScope)
      (readVfsStream backend record padding write fuel soFar)
      (fun read s => ∃ chunks, read = ((soFar ++ chunks.flatten).length, hexdigest (soFar ++ chunks.flatten)) ∧
        Stage S py flow fileId start l (log ++ readAnswers record.components padding soFar.length chunks)
          (held (soFar ++ chunks.flatten)) AnyScope s)
      (fun _ => Before S py flow fileId start l) := by
  induction fuel generalizing soFar log with
  | zero => exact fun s hs => hs.toBefore
  | succ fuel ih =>
      refine triple_bind (triple_apart (apart_backendCall (backend.apart_read _ _ _ _) _)) (fun chunk => ?_)
      cases chunk with
      | none => exact triple_raise (fun s hs => hs.toBefore)
      | some bytes =>
          refine triple_ite (fun _ => triple_raise (fun s hs => hs.toBefore)) (fun _ => ?_)
          refine triple_bind (triple_note _) (fun _ => triple_ite (fun hempty => ?_) (fun _ => ?_))
          · -- the empty chunk is the end
            subst hempty
            refine triple_pure (fun s hs => ⟨[], ?_, ?_⟩)
            · rw [List.flatten_nil, List.append_nil]
            · rw [List.flatten_nil, List.append_nil]
              exact hs
          · refine triple_bind (hwrite _ soFar bytes) (fun _ => ?_)
            refine triple_conseq (ih (soFar ++ bytes) _) (fun _ hs => hs) ?_ (fun _ _ hs => hs)
            rintro read s ⟨chunks, hread, hs⟩
            refine ⟨bytes :: chunks, ?_, ?_⟩
            · rw [List.flatten_cons, ← List.append_assoc]
              exact hread
            · rw [List.flatten_cons, ← List.append_assoc, readAnswers_cons]
              rw [List.append_assoc, List.length_append] at hs
              exact hs

end Reading

/-! ## The link -/

section Link

variable {ρ : Type} {S : Prop} {py : Python} {flow fileId : Text} {start : List (Origin × Node)}
  {refuse : Scope → Fact → Option Raised} {backend : DownloadBackend ρ} {l : Bool} {log : List Answer}
  {content : Option Bytes} {bytes : Bytes} {C : Option Scope → Prop}

/-- The temporary file may change, and the variables of it. -/
theorem Stage.changed {s : Shared (Site ρ)} (h : Stage S py flow fileId start l log content C s) (temp : Option Node)
    (identity : Option Nat) (attempted : Bool) {content' : Option Bytes} (hcontent : temp.map Node.bytes = content') :
    Stage S py flow fileId start l log content' C (withHere s
      { here s with temp := temp, tempIdentity := identity, cleanupAttempted := attempted }) where
  sound := h.sound.same rfl rfl (List.prefix_refl _) rfl
  linked := h.linked
  fresh := h.fresh
  answers := h.answers
  content := hcontent
  scope := h.scope

theorem Before.changed {s : Shared (Site ρ)} (h : Before S py flow fileId start l s) (temp : Option Node)
    (identity : Option Nat) (attempted : Bool) : Before S py flow fileId start l (withHere s
      { here s with temp := temp, tempIdentity := identity, cleanupAttempted := attempted }) where
  sound := h.sound.same rfl rfl (List.prefix_refl _) rfl
  linked := h.linked
  fresh := h.fresh

theorem triple_openTemp :
    Triple id (Stage (ρ := ρ) S py flow fileId start l log content C) openTemp
      (fun _ => Stage S py flow fileId start l log (some []) C) (fun _ => Before S py flow fileId start l) := by
  refine triple_bind (Q := fun _ => Stage S py flow fileId start l log (some []) C) (triple_operate ?_ ?_)
    (fun _ => triple_pure (fun _ hs => hs))
  · intro s s' event hs hmoved
    exact (hs.moved hmoved).changed _ _ _ rfl
  · intro s s' event e n hs hmoved _ _
    have hs' := (hs.moved hmoved).toBefore
    show Before _ _ _ _ _ _ (withHere s' (if happened (some n) then _ else _))
    split
    · exact hs'.changed _ _ _
    · exact hs'

theorem triple_takeIdentity (identity : Nat) :
    Triple id (Stage (ρ := ρ) S py flow fileId start l log content C) (takeIdentity identity)
      (fun _ => Stage S py flow fileId start l log content C) (fun _ => Before S py flow fileId start l) := by
  refine triple_bind (stage_phase l log content C).observe (fun _ => ?_)
  exact fun s hs => hs.changed _ _ _ hs.content

theorem triple_writeChunk (log : List Answer) (soFar chunk : Bytes) :
    Triple id (Stage (ρ := ρ) S py flow fileId start l log (some soFar) C) (writeChunk chunk)
      (fun _ => Stage S py flow fileId start l log (some (soFar ++ chunk)) C)
      (fun _ => Before S py flow fileId start l) := by
  refine triple_bind (Q := fun _ => Stage S py flow fileId start l log (some (soFar ++ chunk)) C) (triple_operate ?_ ?_)
    (fun _ => triple_pure (fun _ hs => hs))
  · intro s s' event hs hmoved
    refine (hs.moved hmoved).changed _ _ _ ?_
    obtain ⟨node, hnode, hbytes⟩ := Option.map_eq_some_iff.mp (hs.moved hmoved).content
    rw [hnode]
    exact congrArg (fun b => some (b ++ chunk)) hbytes
  · intro s s' event e n hs hmoved _ _
    exact (hs.moved hmoved).toBefore.changed _ _ _

theorem triple_unlinkTemp :
    Triple id (Before (ρ := ρ) S py flow fileId start l) unlinkTemp (fun _ => Before S py flow fileId start l)
      (fun _ => Before S py flow fileId start l) := by
  have hunlink : ∀ (progress : Option Nat) (s : Shared (Site ρ)), Before S py flow fileId start l s →
      Before S py flow fileId start l
        (withHere s (if happened progress then { here s with temp := none } else here s)) := by
    intro progress s hs
    split
    · exact hs.changed _ _ _
    · exact hs
  refine triple_bind (Q := fun _ => Before S py flow fileId start l) (triple_operate ?_ ?_)
    (fun _ => triple_pure (fun _ hs => hs))
  · exact fun s s' event hs hmoved => hunlink none s' (hs.moved hmoved)
  · exact fun s s' event e n hs hmoved _ _ => hunlink (some n) s' (hs.moved hmoved)

/-- Behind the link: the bytes at the destination are those of this call. -/
structure Linked (S : Prop) (py : Python) (flow fileId : Text) (start : List (Origin × Node)) (bytes : Bytes)
    (s : Shared (Site ρ)) : Prop where
  sound : Sound S py flow fileId start (here s)
  linked : (here s).linked = true
  ours : ∃ node, (here s).final = some (.ours, node) ∧ node.bytes = bytes
  scope : Open s.scope

/-- Where a part behind the link ends early. -/
def Broken (S : Prop) (py : Python) (flow fileId : Text) (start : List (Origin × Node)) (bytes : Bytes)
    (e : Option Raised) (s : Shared (Site ρ)) : Prop :=
  Linked S py flow fileId start bytes s ∧ (S → ∃ f, e = some f ∧ IsOwn f)

theorem Linked.published {s : Shared (Site ρ)} (h : Linked S py flow fileId start bytes s) :
    (here s).published = true := by
  obtain ⟨node, hfinal, -⟩ := h.ours
  have hhead := h.sound.final.symm.trans hfinal
  exact List.any_eq_true.mpr ⟨_, List.mem_of_mem_head? hhead, rfl⟩

theorem Linked.moved {s s' : Shared (Site ρ)} (h : Linked S py flow fileId start bytes s) (hmoved : MovedTo s s') :
    Linked S py flow fileId start bytes s' := by
  obtain ⟨node, hfinal, hbytes⟩ := h.ours
  refine ⟨h.sound.moved hmoved.here, hmoved.here.linked.trans h.linked, ⟨node, ?_, hbytes⟩, hmoved.scope ▸ h.scope⟩
  rcases hmoved.here.final with ⟨hsame, -⟩ | ⟨hnone, -⟩
  · exact hsame.trans hfinal
  · exact absurd (hnone.symm.trans hfinal) nofun

theorem linked_phase (bytes : Bytes) :
    Phase (ρ := ρ) (Linked S py flow fileId start bytes) (Broken S py flow fileId start bytes) where
  moved _ _ hs hmoved := hs.moved hmoved
  fault s s' event e n hs hmoved hdrawn hevent := by
    refine ⟨hs.moved hmoved, fun hS => ⟨e, rfl, .inl ?_⟩⟩
    rcases hdrawn hs.published with hnone | hmem
    · exact absurd (hnone.symm.trans hevent) nofun
    · exact hs.sound.tame hS event hmem e n hevent
  own e _ hs hown := ⟨hs, fun _ => ⟨e, rfl, hown⟩⟩

/-- The variables and the temporary file do not matter any more. -/
theorem Linked.changed {s : Shared (Site ρ)} (h : Linked S py flow fileId start bytes s) (temp : Option Node)
    (identity : Option Nat) (attempted : Bool) : Linked S py flow fileId start bytes (withHere s
      { here s with temp := temp, tempIdentity := identity, cleanupAttempted := attempted }) where
  sound := h.sound.same rfl rfl (List.prefix_refl _) rfl
  linked := h.linked
  ours := h.ours
  scope := h.scope

theorem linked_unlinkTemp :
    Triple id (Linked (ρ := ρ) S py flow fileId start bytes) unlinkTemp (fun _ => Linked S py flow fileId start bytes)
      (Broken S py flow fileId start bytes) := by
  have hunlink : ∀ (progress : Option Nat) (s : Shared (Site ρ)), Linked S py flow fileId start bytes s →
      Linked S py flow fileId start bytes
        (withHere s (if happened progress then { here s with temp := none } else here s)) := by
    intro progress s hs
    split
    · exact hs.changed _ _ _
    · exact hs
  refine triple_bind (Q := fun _ => Linked S py flow fileId start bytes) (triple_operate ?_ ?_)
    (fun _ => triple_pure (fun _ hs => hs))
  · exact fun s s' event hs hmoved => hunlink none s' (hs.moved hmoved)
  · intro s s' event e n hs hmoved hdrawn hevent
    obtain ⟨hmovedOn, howned⟩ := (linked_phase bytes).fault s s' event e n hs hmoved hdrawn hevent
    exact ⟨hunlink (some n) s' hmovedOn, howned⟩

/-- What follows the link keeps the published file. -/
theorem triple_settle (identity size : Nat) :
    Triple id (Linked (ρ := ρ) S py flow fileId start bytes) (settle identity size)
      (fun _ => Linked S py flow fileId start bytes)
      (fun e s => Linked S py flow fileId start bytes s ∧ (S → ∃ f, e = some f ∧ isException f = true)) := by
  have hphase : Phase (ρ := ρ) (Linked S py flow fileId start bytes) (Broken S py flow fileId start bytes) :=
    linked_phase bytes
  have hexception : ∀ e s, Broken (ρ := ρ) S py flow fileId start bytes e s →
      Linked S py flow fileId start bytes s ∧ (S → ∃ f, e = some f ∧ isException f = true) := by
    rintro e s ⟨hs, howned⟩
    refine ⟨hs, fun hS => ?_⟩
    obtain ⟨f, hf, hown⟩ := howned hS
    refine ⟨f, hf, ?_⟩
    cases f with
    | interrupt name => exact absurd hown (by rintro (h | h) <;> exact absurd h nofun)
    | _ => rfl
  refine triple_conseq (K := Broken S py flow fileId start bytes) ?_ (fun _ hs => hs) (fun _ _ hs => hs) hexception
  refine triple_bind (hphase.assertSafeChain _) (fun _ => triple_bind (hphase.assertOwnedFile _ _) (fun _ => ?_))
  refine triple_bind hphase.assertContained (fun _ => triple_bind (hphase.lstat _) (fun node => ?_))
  refine triple_bind (hphase.check (.inr rfl)) (fun _ => ?_)
  refine triple_bind (Q := fun _ => Linked S py flow fileId start bytes) (fun s hs => hs.changed _ _ _) (fun _ => ?_)
  refine triple_bind (triple_conseq (hphase.cleanupOwnedTemp linked_unlinkTemp (fun _ _ hs => hs.1) identity)
    (fun _ hs => hs) (fun _ _ hs => hs) (fun _ _ hs => hs.1)) (fun removed => ?_)
  exact hphase.check (.inr rfl)

/-- Right behind the link, before the variable tells of it. -/
structure JustLinked (S : Prop) (py : Python) (flow fileId : Text) (start : List (Origin × Node)) (bytes : Bytes)
    (s : Shared (Site ρ)) : Prop where
  sound : Sound S py flow fileId start (here s)
  ours : ∃ node, (here s).final = some (.ours, node) ∧ node.bytes = bytes
  scope : Open s.scope

/-- **The link** takes place where nothing is at the destination, or not at all. -/
theorem triple_osLink (hverified : Verified py flow fileId log bytes) :
    Triple id (Stage (ρ := ρ) S py flow fileId start false log (some bytes) Open) osLink
      (fun _ => JustLinked S py flow fileId start bytes) (fun _ => Before S py flow fileId start false) := by
  refine triple_next (fun s s' event hs hmoved _ => ?_)
  have hs' := hs.moved hmoved
  cases event.fault with
  | some fault => exact hs'.toBefore
  | none =>
      show endsIn _ _ (linkInto (here s') s').1 (linkInto (here s') s').2
      obtain ⟨node, hnode, hbytes⟩ := Option.map_eq_some_iff.mp hs'.content
      unfold linkInto
      rw [hnode]
      cases hfinal : (here s').final with
      | some x => exact hs'.toBefore
      | none =>
          refine ⟨hs'.sound.put hfinal rfl rfl rfl (fun _ h => h) (fun n hn => ?_), ⟨node, rfl, hbytes⟩, hs'.scope⟩
          obtain rfl := (Prod.mk.inj hn).2
          rw [hs'.answers, hbytes]
          exact hverified

/-- A destination that others have taken is an error of its own, before any link. -/
theorem triple_publishLink (hverified : Verified py flow fileId log bytes) :
    Triple id (Stage (ρ := ρ) S py flow fileId start false log (some bytes) Open) publishLink
      (fun _ => Linked S py flow fileId start bytes) (fun _ => Before S py flow fileId start false) := by
  refine triple_handle (H := fun _ => Before S py flow fileId start false) ?_ (fun e => ?_)
  · refine triple_bind (triple_conseq (triple_osLink hverified) (fun _ hs => hs) (fun _ _ hs => hs) ?_) (fun _ => ?_)
    · intro e s hs
      cases e with
      | none => exact hs
      | some e => exact hs
    · exact fun s hs => ⟨hs.sound.same rfl rfl (List.prefix_refl _) rfl, rfl, hs.ours, hs.scope⟩
  · refine triple_ite (fun _ => ?_) (fun _ => ?_)
    · exact triple_raise (fun _ hs => hs)
    · exact triple_raise (fun _ hs => hs)

end Link

/-! ## One attempt -/

section Attempt

variable {ρ : Type} {S : Prop} {py : Python} {flow fileId : Text} {start : List (Origin × Node)}
  {refuse : Scope → Fact → Option Raised} {backend : DownloadBackend ρ} {l : Bool} {log : List Answer}
  {content : Option Bytes} {client : ClientId} {rows : List (List (Text × Json))} {r : FileRecord}

/-- The block of a stream ends early where its body or its end does. -/
theorem triple_closing {α : Type} {m : Effect ρ α} {P : Shared (Site ρ) → Prop} {Q : α → Shared (Site ρ) → Prop}
    (hm : Triple id P m Q (fun _ => Before S py flow fileId start l))
    (hQ : ∀ a, Phase (Q a) (fun _ => Before S py flow fileId start l)) :
    Triple id P (closing m) Q (fun _ => Before S py flow fileId start l) := by
  have hbefore : Phase (ρ := ρ) (Before S py flow fileId start l) (fun _ => Before S py flow fileId start l) :=
    before_phase l
  refine triple_bind (Q := Q) ?_ (fun a => triple_bind (hQ a).observe (fun _ => triple_pure (fun _ hs => hs)))
  refine triple_recover hm (fun _ hs => hs) (fun e => ?_)
  exact triple_bind hbefore.observe (fun _ => triple_raise (fun _ hs => hs))

/-- The compact bytes that a file has, which only a sparse one does. -/
def compactAnswers (r : FileRecord) (compact : List Bytes) : List Answer :=
  if r.indexSelector.isSome then readAnswers r.components false 0 compact else []

theorem triple_readCompact (fuel : Nat) :
    Triple id (Stage S py flow fileId start l log content AnyScope) (readCompact backend fuel r)
      (fun _ s => ∃ compact, (r.indexSelector.isSome = true → (compact.flatten.length : Int) = r.uploadedSize) ∧
        Stage S py flow fileId start l (log ++ compactAnswers r compact) content AnyScope s)
      (fun _ => Before S py flow fileId start l) := by
  refine triple_whenever (fun hsparse => ?_) (fun hplain s hs => ⟨[], fun h => absurd h hplain, ?_⟩)
  · refine triple_bind (triple_readVfsStream (fun _ => content) r false ?_ fuel [] log) (fun read => ?_)
    · exact fun log soFar chunk => triple_pure (fun _ hs => hs)
    refine triple_exists (fun compact => ?_)
    intro s hs
    obtain ⟨hread, hs⟩ := hs
    rw [List.nil_append] at hread
    by_cases hsize : (read.1 : Int) ≠ r.uploadedSize
    · rw [raiseIf, if_pos hsize]
      exact hs.toBefore
    · rw [raiseIf, if_neg hsize]
      refine ⟨compact, fun _ => ?_, ?_⟩
      · rw [← Decidable.not_not.mp hsize, hread]
      · rw [compactAnswers, if_pos hsparse]
        exact hs
  · rw [compactAnswers, if_neg hplain, List.append_nil]
    exact hs

theorem triple_readContent (fuel identity : Nat) :
    Triple id (Stage S py flow fileId start l log (some []) AnyScope) (readContent backend fuel r identity)
      (fun read s => ∃ chunks : List Bytes, read = (chunks.flatten.length, hexdigest chunks.flatten) ∧
        Stage S py flow fileId start l (log ++ readAnswers r.components r.indexSelector.isSome 0 chunks)
          (some chunks.flatten) AnyScope s)
      (fun _ => Before S py flow fileId start l) := by
  refine triple_closing ?_ (fun read => ?_)
  · refine triple_bind (triple_takeIdentity identity) (fun _ => ?_)
    refine triple_bind (triple_readVfsStream some r _ (fun log soFar chunk => triple_writeChunk log soFar chunk) fuel [] log)
      (fun read => triple_exists (fun chunks => ?_))
    rw [List.nil_append]
    have hread : ∀ φ : Prop, φ → ∀ C content log, Triple id
        (fun s => φ ∧ Stage (ρ := ρ) S py flow fileId start l log content C s) observe
        (fun _ s => φ ∧ Stage S py flow fileId start l log content C s) (fun _ => Before S py flow fileId start l) :=
      fun φ hφ C content log => triple_conseq (stage_phase l log content C).observe (fun _ hs => hs.2)
        (fun _ _ hs => ⟨hφ, hs⟩) (fun _ _ hs => hs)
    intro s hs
    refine triple_bind (hread _ hs.1 _ _ _) (fun _ => triple_bind (hread _ hs.1 _ _ _) (fun _ => ?_)) s hs
    exact triple_pure (fun s hs => ⟨chunks, hs⟩)
  · refine ⟨?_, ?_, ?_⟩
    · rintro s s' ⟨chunks, hread, hs⟩ hmoved
      exact ⟨chunks, hread, hs.moved hmoved⟩
    · rintro s s' event e n ⟨chunks, -, hs⟩ hmoved - -
      exact hs.toBefore.moved hmoved
    · rintro e s ⟨chunks, -, hs⟩ -
      exact hs.toBefore

/-- The second listing selects the same file. -/
theorem triple_recheck :
    Triple id (Stage S py flow fileId start l log content AnyScope) (recheck py refuse backend client flow fileId r)
      (fun _ s => ∃ rows' r', (∃ inventory, deduplicatedUploads py client.val flow rows' = .ok inventory ∧
          selectedOf fileId inventory = some r') ∧ r'.same py r = true ∧
        Stage S py flow fileId start l (log ++ [.uploads client rows']) content Open s)
      (fun _ => Before S py flow fileId start l) := by
  refine triple_bind (triple_fileRecords client) (fun inventory => triple_exists (fun rows' => ?_))
  intro s hs
  obtain ⟨hinventory, hs⟩ := hs
  cases hr' : selectedOf fileId inventory with
  | none => exact hs.toBefore
  | some r' =>
      by_cases hsame : (some r').any (fun r'' => r''.same py r) = true
      · rw [raiseIf, if_neg (not_not_intro hsame)]
        exact ⟨rows', r', ⟨inventory, hinventory, hr'⟩, hsame, hs⟩
      · rw [raiseIf, if_pos hsame]
        exact hs.toBefore

theorem triple_assertTemp :
    Triple id (Stage (ρ := ρ) S py flow fileId start l log content Open) assertTemp
      (fun _ => Stage S py flow fileId start l log content Open) (fun _ => Before S py flow fileId start l) := by
  have hphase : Phase (ρ := ρ) (Stage S py flow fileId start l log content Open)
      (fun _ => Before S py flow fileId start l) := stage_phase l log content Open
  refine triple_bind (Q := fun _ => Stage S py flow fileId start l log content Open)
    (triple_read (fun s => triple_pure (fun _ hs => hs.1))) (fun v => ?_)
  cases v.tempIdentity with
  | none => exact triple_raise (fun s hs => hs.toBefore)
  | some identity =>
      refine triple_bind (hphase.assertSafeChain _) (fun _ => triple_bind (hphase.assertOwnedFile _ _) (fun _ => ?_))
      exact triple_pure (fun _ hs => hs)

/-- Where the block of a download ends early: before its link, or behind it with an error. -/
def BlockEnd (S : Prop) (py : Python) (flow fileId : Text) (start : List (Origin × Node)) (e : Option Raised)
    (s : Shared (Site ρ)) : Prop :=
  Before S py flow fileId start false s ∨
    ∃ bytes, Linked S py flow fileId start bytes s ∧ (S → ∃ f, e = some f ∧ isException f = true)

/-- The file of the result is at the destination. -/
def Delivered (S : Prop) (py : Python) (flow fileId : Text) (start : List (Origin × Node)) (result : DownloadResult)
    (s : Shared (Site ρ)) : Prop :=
  ∃ bytes, Linked S py flow fileId start bytes s ∧ result.size = bytes.length ∧ result.sha256 = hexdigest bytes

/-- The block behind the reading of a file whose bytes are told to be it. -/
theorem triple_linked (root key : Text) {bytes : Bytes} (hverified : Verified py flow fileId log bytes) :
    Triple id (Stage (ρ := ρ) S py flow fileId start false log (some bytes) Open) (do
        let identity ← assertTemp
        publishLink
        settle identity bytes.length
        raiseIf (isText r.originalPath = false) (.exception "ValidationError")
        pure { flowId := flow, fileId := fileId
               localPath := root ++ [47] ++ key ++ [47] ++ fileId ++ ascii "/content.bin"
               size := bytes.length, sha256 := hexdigest bytes, originalPath := r.originalPath })
      (Delivered S py flow fileId start) (BlockEnd S py flow fileId start) := by
  refine triple_bind (triple_conseq triple_assertTemp (fun _ hs => hs) (fun _ _ hs => hs) (fun _ _ hs => .inl hs)) ?_
  intro identity
  refine triple_bind (triple_conseq (triple_publishLink hverified) (fun _ hs => hs) (fun _ _ hs => hs)
    (fun _ _ hs => .inl hs)) (fun _ => ?_)
  refine triple_bind (triple_conseq (triple_settle identity bytes.length) (fun _ hs => hs) (fun _ _ hs => hs)
    (fun _ _ hs => .inr ⟨bytes, hs⟩)) (fun _ => ?_)
  refine triple_check (fun s hs => .inr ⟨bytes, hs, fun _ => ⟨_, rfl, rfl⟩⟩) (fun _ => ?_)
  exact triple_pure (fun s hs => ⟨bytes, hs, rfl, rfl⟩)

/-- **The block of a download** ends with its file at the destination, before its link, or with
    an error that its handler turns into one. -/
theorem triple_publish (fuel : Nat) (root key : Text)
    (hselected : ∃ inventory, deduplicatedUploads py client.val flow rows = .ok inventory ∧
      selectedOf fileId inventory = some r)
    (hplain : r.indexSelector = none → r.fileSize = r.uploadedSize) :
    Triple id (Stage S py flow fileId start false (log ++ [.uploads client rows]) content AnyScope)
      (publish py refuse backend fuel root key flow fileId client r)
      (Delivered S py flow fileId start) (BlockEnd S py flow fileId start) := by
  have hearly : ∀ (e : Option Raised) (s : Shared (Site ρ)), Before S py flow fileId start false s →
      BlockEnd S py flow fileId start e s := fun _ _ hs => .inl hs
  have hphase : ∀ log content, Phase (ρ := ρ) (Stage S py flow fileId start false log content AnyScope)
      (fun _ => Before S py flow fileId start false) := fun log content => stage_phase false log content AnyScope
  refine triple_bind (triple_conseq (hphase _ _).assertSafeDirectories (fun _ hs => hs) (fun _ _ hs => hs) hearly) ?_
  intro _
  refine triple_bind (triple_conseq (triple_readCompact fuel) (fun _ hs => hs) (fun _ _ hs => hs) hearly) (fun _ => ?_)
  refine triple_exists (fun compact => ?_)
  intro s hs
  obtain ⟨hcompact, hs⟩ := hs
  refine triple_bind (triple_conseq triple_openTemp (fun _ hs => hs) (fun _ _ hs => hs) hearly) (fun opened => ?_) s hs
  refine triple_bind (triple_conseq (triple_readContent fuel opened) (fun _ hs => hs) (fun _ _ hs => hs) hearly)
    (fun read => triple_exists (fun chunks => ?_))
  intro s hs
  obtain ⟨rfl, hs⟩ := hs
  refine triple_bind (triple_conseq ((hphase _ _).assertSafeChain _) (fun _ hs => hs) (fun _ _ hs => hs) hearly)
    (fun _ => triple_check (fun s hs => hearly _ s hs.toBefore) (fun hsize => ?_)) s hs
  refine triple_bind (triple_conseq triple_recheck (fun _ hs => hs) (fun _ _ hs => hs) hearly)
    (fun _ => triple_exists (fun rows' => triple_exists (fun r' => ?_)))
  intro s hs
  obtain ⟨hrefreshed, hsame, hs⟩ := hs
  refine triple_linked root key ?_ s hs
  refine ⟨client, rows, rows', compact, chunks, r, r',
    ⟨hselected, hrefreshed, hsame, rfl, Decidable.not_not.mp hsize, hcompact, hplain⟩, log, [], ?_⟩
  rw [List.append_nil, attemptAnswers, compactAnswers]
  simp only [List.append_assoc, List.cons_append, List.nil_append]

/-- What an attempt that failed leaves. -/
def Failed (S : Prop) (py : Python) (flow fileId : Text) (start : List (Origin × Node)) (e : Option Raised)
    (s : Shared (Site ρ)) : Prop :=
  Sound S py flow fileId start (here s) ∧
    (S → (here s).published = true → e = some POST_PUBLISH ∧ Open s.scope)

theorem Before.failed {s : Shared (Site ρ)} (h : Before S py flow fileId start l s) (e : Option Raised) :
    Failed S py flow fileId start e s :=
  ⟨h.sound, fun hS hpublished => absurd (hpublished.symm.trans (h.fresh hS)) nofun⟩

/-- The removal of the temporary file in the handler. -/
theorem triple_cleanupOnce {P : Shared (Site ρ) → Prop} {K : Option Raised → Shared (Site ρ) → Prop} (h : Phase P K)
    (hunlink : Triple id P unlinkTemp (fun _ => P) K) (hkeeps : ∀ e s, K e s → P s)
    (hchanged : ∀ s, P s → P (withHere s { here s with cleanupAttempted := true })) :
    Triple id P cleanupOnce (fun _ => P) (fun e s => K e s ∧ ∀ f, e = some f → ¬ IsOwn f) := by
  refine triple_bind (Q := fun _ => P) (triple_read (fun s => triple_pure (fun _ hs => hs.1))) (fun v => ?_)
  cases v.tempIdentity with
  | none => exact triple_pure (fun _ hs => hs)
  | some identity =>
      refine triple_whenever (fun _ => ?_) (fun _ _ hs => hs)
      refine triple_bind (Q := fun _ => P) (fun s hs => hchanged s hs) (fun _ => ?_)
      exact triple_bind (h.cleanupOwnedTemp hunlink hkeeps identity) (fun _ => triple_pure (fun _ hs => hs))

/-- **The handler** of an error before the link. -/
theorem triple_onError_before {e : Raised} :
    Triple id (Before (ρ := ρ) S py flow fileId start false) (onError e) (Delivered S py flow fileId start)
      (Failed S py flow fileId start) := by
  refine triple_ite (fun _ => triple_read (fun s₀ => ?_)) (fun _ => triple_raise (fun s hs => hs.failed _))
  have hphase : Phase (ρ := ρ) (Before S py flow fileId start false) (fun _ => Before S py flow fileId start false) :=
    before_phase false
  have hcleanup := triple_cleanupOnce hphase triple_unlinkTemp (fun _ _ hs => hs) (fun s hs => hs.changed _ _ _)
  refine triple_bind (triple_conseq hcleanup (fun _ hs => hs.1) (fun _ _ hs => hs)
    (fun e _ hs => hs.1.failed e)) (fun _ => ?_)
  refine triple_ite (fun _ => ?_) (fun _ => ?_)
  · exact triple_raise (fun s hs => hs.failed _)
  · exact triple_raise (fun s hs => hs.failed _)

/-- **The handler** of an error behind the link. -/
theorem triple_onError_linked {e : Raised} {bytes : Bytes} (he : S → isException e = true) :
    Triple id (Linked (ρ := ρ) S py flow fileId start bytes) (onError e) (Delivered S py flow fileId start)
      (Failed S py flow fileId start) := by
  refine triple_ite (fun _ => triple_read (fun s₀ => ?_)) (fun hnot => triple_raise (fun s hs => ⟨hs.sound, fun hS => ?_⟩))
  · have hphase : Phase (ρ := ρ) (Linked S py flow fileId start bytes) (Broken S py flow fileId start bytes) :=
      linked_phase bytes
    have hcleanup := triple_cleanupOnce hphase linked_unlinkTemp (fun _ _ hs => hs.1) (fun s hs => hs.changed _ _ _)
    rintro s ⟨hs, rfl⟩
    refine triple_bind (triple_conseq hcleanup (fun _ hs => hs) (fun _ _ hs => hs) ?_) (fun _ => ?_) s hs
    · rintro e s ⟨⟨hs, howned⟩, hnot⟩
      refine ⟨hs.sound, fun hS => ?_⟩
      obtain ⟨f, hf, hown⟩ := howned hS
      exact absurd hown (hnot f hf)
    · refine triple_ite (fun _ => ?_) (fun hlinked => absurd hs.linked hlinked)
      exact triple_raise (fun s hs => ⟨hs.sound, fun _ _ => ⟨rfl, hs.scope⟩⟩)
  · exact absurd (he hS) hnot

theorem triple_handled (fuel : Nat) (root key : Text)
    (hselected : ∃ inventory, deduplicatedUploads py client.val flow rows = .ok inventory ∧
      selectedOf fileId inventory = some r)
    (hplain : r.indexSelector = none → r.fileSize = r.uploadedSize) :
    Triple id (Stage S py flow fileId start false (log ++ [.uploads client rows]) content AnyScope)
      (handle (publish py refuse backend fuel root key flow fileId client r) onError)
      (Delivered S py flow fileId start) (Failed S py flow fileId start) := by
  refine triple_handle (H := fun e => BlockEnd S py flow fileId start (some e)) ?_ (fun e => ?_)
  · refine triple_conseq (triple_publish fuel root key hselected hplain) (fun _ hs => hs) (fun _ _ hs => hs) ?_
    intro e s hs
    cases e with
    | some e => exact hs
    | none =>
        rcases hs with hs | ⟨bytes, hs, hraised⟩
        · exact hs.failed none
        · refine ⟨hs.sound, fun hS => ?_⟩
          obtain ⟨f, hf, -⟩ := hraised hS
          exact absurd hf nofun
  · rintro s (hs | ⟨bytes, hs, hraised⟩)
    · exact triple_onError_before s hs
    · refine triple_onError_linked (fun hS => ?_) s hs
      obtain ⟨f, hf, hexception⟩ := hraised hS
      exact Option.some.inj hf ▸ hexception

theorem Phase.ensureChild {P : Shared (Site ρ) → Prop} (h : Phase P (fun _ => P)) :
    Triple id P ensureChild (fun _ => P) (fun _ => P) := by
  refine triple_bind (Q := fun _ => P) ?_ (fun _ => ?_)
  · refine triple_recover (triple_bind h.observe (fun _ => triple_pure (fun _ hs => hs))) (fun _ hs => hs) (fun e => ?_)
    exact triple_ite (fun _ => triple_pure (fun _ hs => hs)) (fun _ => triple_raise (fun _ hs => hs))
  · refine triple_bind h.observe (fun _ => triple_bind (h.check (.inr rfl)) (fun _ => ?_))
    exact triple_bind h.assertPlainPath (fun _ => h.assertContained)

theorem Phase.look {α : Type} {P : Shared (Site ρ) → Prop} (h : Phase P (fun _ => P)) (f : Nat → Local → α) :
    Triple id P (DownloadFile.observe >>= fun reading => getHere >>= fun v => pure (f reading v))
      (fun _ => P) (fun _ => P) := by
  refine triple_bind h.observe (fun _ => triple_bind (Q := fun _ => P) ?_ (fun _ => triple_pure (fun _ hs => hs)))
  exact triple_read (fun s => triple_pure (fun _ hs => hs.1))

theorem Phase.assertAbsent {P : Shared (Site ρ) → Prop} (h : Phase P (fun _ => P)) :
    Triple id P assertAbsent (fun _ => P) (fun _ => P) := by
  have hrefuse : ∀ found, Triple id P (refuseFound (ρ := ρ) found) (fun _ => P) (fun _ => P) := by
    intro found
    refine triple_whenever (fun _ => ?_) (fun _ _ hs => hs)
    refine triple_bind (h.look _) (fun there => ?_)
    refine triple_bind (P := P) (Q := fun _ => P) ?_ (fun _ => triple_raise (fun _ hs => hs))
    exact triple_whenever (fun _ => h.assertPlainFile _) (fun _ _ hs => hs)
  refine triple_bind (h.look _) (fun there => triple_ite (fun _ => hrefuse true) (fun _ => ?_))
  exact triple_bind (h.look _) hrefuse

/-- The checks before the block change nothing. -/
theorem staying_phase (l : Bool) (log : List Answer) (content : Option Bytes) :
    Phase (ρ := ρ) (Stage S py flow fileId start l log content AnyScope)
      (fun _ => Stage S py flow fileId start l log content AnyScope) where
  moved _ _ hs hmoved := hs.moved hmoved
  fault _ _ _ _ _ hs hmoved _ _ := hs.moved hmoved
  own _ _ hs _ := hs

/-- The directories, the check of the destination, and the block. -/
theorem triple_prepared (fuel : Nat) (root key : Text)
    (hselected : ∃ inventory, deduplicatedUploads py client.val flow rows = .ok inventory ∧
      selectedOf fileId inventory = some r)
    (hplain : r.indexSelector = none → r.fileSize = r.uploadedSize) :
    Triple id (Stage S py flow fileId start l (log ++ [.uploads client rows]) content AnyScope) (do
        backendCall "download_flow_file" ensureChild
        backendCall "download_flow_file" ensureChild
        assertAbsent
        setHere beginAttempt
        handle (publish py refuse backend fuel root key flow fileId client r) onError)
      (Delivered S py flow fileId start) (Failed S py flow fileId start) := by
  have hphase : Phase (ρ := ρ) (Stage S py flow fileId start l (log ++ [.uploads client rows]) content AnyScope)
      (fun _ => Stage S py flow fileId start l (log ++ [.uploads client rows]) content AnyScope) :=
    staying_phase l (log ++ [.uploads client rows]) content
  have hfailed : ∀ (e : Option Raised) (s : Shared (Site ρ)),
      Stage S py flow fileId start l (log ++ [.uploads client rows]) content AnyScope s →
      Failed S py flow fileId start e s := fun e s hs => hs.toBefore.failed e
  have hchild : Triple id (Stage (ρ := ρ) S py flow fileId start l (log ++ [.uploads client rows]) content AnyScope)
      (backendCall "download_flow_file" ensureChild)
      (fun _ => Stage S py flow fileId start l (log ++ [.uploads client rows]) content AnyScope)
      (Failed S py flow fileId start) := by
    refine triple_recover hphase.ensureChild (hfailed none) (fun e => ?_)
    exact triple_raise (hfailed _)
  refine triple_bind hchild (fun _ => triple_bind hchild (fun _ => ?_))
  refine triple_bind (triple_conseq hphase.assertAbsent (fun _ hs => hs) (fun _ _ hs => hs) hfailed) (fun _ => ?_)
  refine triple_bind (Q := fun _ => Stage S py flow fileId start false (log ++ [.uploads client rows]) none AnyScope) ?_
    (fun _ => triple_handled fuel root key hselected hplain)
  intro s hs
  exact ⟨⟨hs.sound.same rfl rfl (List.prefix_refl _) rfl, rfl, hs.fresh⟩, hs.answers, rfl, trivial⟩

/-- **One attempt** ends with its file at the destination, or failed. -/
theorem triple_attempt (fuel : Nat) (root : Text) (client : ClientId) (l : Bool) :
    Triple id (Before S py flow fileId start l) (attempt py refuse backend fuel root flow fileId client)
      (Delivered S py flow fileId start) (Failed S py flow fileId start) := by
  have hfailed : ∀ (e : Option Raised) (s : Shared (Site ρ)), Before S py flow fileId start l s →
      Failed S py flow fileId start e s := fun e s hs => hs.failed e
  intro s hs
  have hstage : Stage S py flow fileId start l (here s).answers ((here s).temp.map Node.bytes) AnyScope s :=
    { hs with answers := rfl, content := rfl, scope := trivial }
  refine triple_bind (triple_conseq (triple_fileRecords client) (fun _ hs => hs) (fun _ _ hs => hs) hfailed)
    (fun inventory => triple_exists (fun rows => ?_)) s hstage
  intro s hs
  obtain ⟨hinventory, hs⟩ := hs
  cases hr : selectedOf fileId inventory with
  | none => exact hs.toBefore.failed _
  | some r =>
      refine triple_check (fun s hs => hs.toBefore.failed _) (fun hsizes => ?_) s hs
      cases flowKey flow with
      | error e => exact triple_raise (fun s hs => hs.toBefore.failed _)
      | ok key =>
          refine triple_pre (triple_prepared fuel root key ⟨inventory, hinventory, hr⟩ (fun hindex => ?_))
            (fun s hs => hs.weaken)
          exact Decidable.not_not.mp (fun hne => hsizes ⟨hindex, hne⟩)

end Attempt

end DownloadFile
