import VeloTransfer.HostPublicationProofs

/-! # What a publication does to the two paths

    Whatever others do between its looks, a run of `publish` changes the two paths
    by one rename at most, to a destination that is not there; and a receipt means
    that the registered directory was seen at the destination with the tree of the
    manifest.  Over all runs of a journal the rename takes place once, as long as
    nobody puts the registered directory back. -/

namespace HostPublication

open EffectPrograms Program FaultScript CanonicalJson JsonLine Manifest Sha256 GuestTerminal

/-! ## The tree -/

/-- The node has the kind and the content of the entry. -/
def Matches : Kind → Node → Prop
  | .directory _, .directory _ _ => True
  | .file size sha _, .file content _ => content.length = size ∧ hexdigest content = sha
  | _, _ => False

/-- **The tree equals the manifest**: every member is an entry, every entry a member. -/
structure Exact (m : Document) (node : Node) : Prop where
  inside : ∀ p ∈ walk [] node, ∃ e ∈ m.entries, e.path = p.1 ∧ Matches e.kind p.2
  all : ∀ e ∈ m.entries, ∃ n, (e.path, n) ∈ walk [] node

theorem matches_of_checkKind {n : Nat} {k : Kind} {node : Node} (h : checkKind n k node = none) :
    Matches k node := by
  cases k with
  | directory i =>
      cases node with
      | directory i' children => exact trivial
      | file content identity => exact absurd h nofun
      | other => exact absurd h nofun
  | file size sha i =>
      cases node with
      | directory i' children => exact absurd h nofun
      | other => exact absurd h nofun
      | file content identity =>
          have h : (if content.length > n then some "logical_budget_exceeded"
            else if content.length ≠ identity.size then some "source_changed"
            else if identity.size ≠ size ∨ hexdigest content ≠ sha then some "tree_content_mismatch"
            else none) = none := h
          split_ifs at h with hlogical hsize hcontent
          rw [not_or, not_not, not_not] at hcontent
          exact ⟨(not_not.mp hsize).trans hcontent.1, hcontent.2⟩

theorem refuse_ok {e : Option String} {α : Type} {k : Except String α} {a : α}
    (h : (refuse e >>= fun _ => k) = .ok a) : e = none ∧ k = .ok a := by
  cases e with
  | none => exact ⟨rfl, h⟩
  | some code => exact absurd h nofun

theorem require_ok {c : Prop} [Decidable c] {code : String} {α : Type} {k : Except String α} {a : α}
    (h : (require c code >>= fun _ => k) = .ok a) : c ∧ k = .ok a := by
  unfold require at h
  by_cases hc : c
  · rw [if_pos hc] at h
    exact ⟨hc, h⟩
  · rw [if_neg hc] at h
    exact absurd h nofun

section Tree

variable {u : Unicode} {b : Budget} {m : Document}

/-- The walk that is accepted meets entries only. -/
theorem checkMembers_ok {ps : List (Text × Node)} {actual out : List Text}
    (h : checkMembers u b m ps actual = .ok out) :
    out = actual ++ ps.map Prod.fst ∧
      ∀ p ∈ ps, ∃ e ∈ m.entries, e.path = p.1 ∧ Matches e.kind p.2 := by
  induction ps generalizing actual with
  | nil =>
      obtain rfl := Except.ok.inj h
      exact ⟨(List.append_nil _).symm, fun _ hp => absurd hp List.not_mem_nil⟩
  | cons p ps ih =>
      obtain ⟨relative, node⟩ := p
      unfold checkMembers at h
      obtain ⟨-, h⟩ := refuse_ok h
      obtain ⟨-, h⟩ := require_ok h
      cases hfind : m.entries.find? (fun e => e.path == relative) with
      | none =>
          rw [hfind] at h
          exact absurd h nofun
      | some e =>
          rw [hfind] at h
          obtain ⟨hkind, h⟩ := refuse_ok h
          obtain ⟨hout, hall⟩ := ih h
          have hsome := List.find?_some hfind
          have hpath : e.path = relative := eq_of_beq hsome
          refine ⟨?_, List.forall_mem_cons.mpr ⟨⟨e, List.mem_of_find?_eq_some hfind, hpath,
            matches_of_checkKind hkind⟩, hall⟩⟩
          rw [hout, List.append_assoc]
          rfl

/-- **`verify_tree` accepts exact trees only.** -/
theorem exact_of_verifyTree {node : Node} (h : verifyTree u b m node = .ok ()) : Exact m node := by
  unfold verifyTree at h
  cases hmembers : checkMembers u b m (walk [] node) [] with
  | error code =>
      rw [hmembers] at h
      exact absurd h nofun
  | ok actual =>
      rw [hmembers] at h
      obtain ⟨hactual, hinside⟩ := checkMembers_ok hmembers
      have hall : m.entries.all (fun e => actual.contains e.path) = true := by
        have h : (require (m.entries.all (fun e => actual.contains e.path) = true) "missing_tree_member")
          = .ok () := h
        unfold require at h
        split at h
        next hc => exact hc
        next => exact absurd h nofun
      refine { inside := hinside, all := fun e he => ?_ }
      have hmem := List.contains_iff_mem.mp (List.all_eq_true.mp hall e he)
      rw [hactual, List.nil_append] at hmem
      obtain ⟨p, hp, hpath⟩ := List.mem_map.mp hmem
      exact ⟨p.2, hpath ▸ hp⟩

end Tree

/-! ## What happens to the area -/

/-- The area after some changes. -/
def replay (a : Area) (changes : List Change) : Area := changes.foldl Area.apply a

def renamesIn (changes : List Change) : Nat :=
  (changes.filter (fun c => match c with | .renamed => true | .outside _ => false)).length

theorem replay_append (a : Area) (cs ds : List Change) : replay a (cs ++ ds) = replay (replay a cs) ds :=
  List.foldl_append

theorem renamesIn_append (cs ds : List Change) : renamesIn (cs ++ ds) = renamesIn cs + renamesIn ds := by
  unfold renamesIn
  rw [List.filter_append, List.length_append]

/-- The part of a disk that the two paths are in. -/
structure Scene where
  area : Area
  moves : List (Area → Area)
  changes : List Change
  stage : Staging

def scene (d : Disk) : Scene :=
  { area := d.area, moves := d.moves, changes := d.changes, stage := d.journal.staging }

def Scene.outside (v : Scene) : Scene :=
  match v.moves with
  | [] => v
  | f :: rest => { v with area := f v.area, moves := rest, changes := v.changes ++ [.outside f] }

def Scene.rename (v : Scene) : Scene :=
  { v with area := v.area.renamed, changes := v.changes ++ [.renamed] }

theorem scene_outside (d : Disk) : scene d.outside = (scene d).outside := by
  obtain ⟨j, e, a, moves, changes⟩ := d
  cases moves with
  | nil => rfl
  | cons f rest => rfl

/-- What the others do does not end it. -/
def Stable (A : Scene → Prop) : Prop := ∀ v, A v → A v.outside

/-- The program keeps an assertion about the two paths, wherever it ends. -/
def Steady {α : Type} (A : Scene → Prop) (m : Host α) : Prop :=
  Triple (onDisk scene) A m (fun _ => A) (fun _ => A)

section Steady

variable {α β : Type} {A : Scene → Prop} {m : Host α} {cfg : Config}

theorem steady_bind {k : α → Host β} (hm : Steady A m) (hk : ∀ a, Steady A (k a)) : Steady A (m >>= k) :=
  triple_bind hm hk

theorem steady_fixes (hm : Fixes (onDisk scene) m) : Steady A m := triple_fixes hm (fun _ _ hv => hv)

theorem steady_pure (a : α) : Steady A (pure a : Host α) := steady_fixes (fixes_pure a)

theorem steady_raise (e : Failure) : Steady A (raise e : Host α) := steady_fixes (fixes_raise e)

theorem steady_rejectIf {c : Prop} [Decidable c] (code : String) : Steady A (rejectIf c code) :=
  steady_fixes (fixes_raiseIf _ _)

theorem steady_lift (x : Except String α) : Steady A (lift x) := by
  cases x with
  | ok a => exact steady_pure a
  | error code => exact steady_raise _

theorem steady_probe : Steady A probe := steady_fixes (fixes_onDisk fixes_probe)

theorem steady_handle {h : Failure → Host α} (hm : Steady A m) (hh : ∀ e, Steady A (h e)) :
    Steady A (handle m h) :=
  triple_recover hm (fun _ hv => hv) hh

theorem steady_ite {c : Prop} [Decidable c] {m' : Host α} (hm : Steady A m) (hm' : Steady A m') :
    Steady A (if c then m else m') :=
  triple_ite (fun _ => hm) (fun _ => hm')

/-- A look shows the area as it is then. -/
theorem triple_look {K : Option Failure → Scene → Prop} {Q : α → Scene → Prop} {k : Area → Host α}
    (hA : Stable A) (hK : ∀ e v, A v → K e v)
    (hk : ∀ a, Triple (onDisk scene) (fun v => A v ∧ a = v.area) (k a) Q K) :
    Triple (onDisk scene) A (look >>= k) Q K := by
  have hlook : Triple (onDisk scene) A look (fun a v => A v ∧ a = v.area) K := by
    intro m hm
    have hrest : Triple (onDisk scene) A (do
        probe
        let d ← getDisk
        pure d.area) (fun a v => A v ∧ a = v.area) K := by
      refine triple_skip (fixes_onDisk fixes_probe) hK (fun _ => ?_)
      refine triple_getDisk (fun d => triple_pure (fun v hv => ⟨hv.1, ?_⟩))
      rw [hv.2]
      rfl
    refine hrest { m with disk := m.disk.outside } ?_
    show A (scene m.disk.outside)
    rw [scene_outside]
    exact hA _ hm
  exact triple_bind hlook hk

theorem steady_look {k : Area → Host α} (hA : Stable A) (hk : ∀ a, Steady A (k a)) :
    Steady A (look >>= k) :=
  triple_look hA (fun _ _ hv => hv) (fun a => triple_pre (hk a) (fun _ hv => hv.1))

theorem steady_checkParent (hA : Stable A) (stage : Staging) : Steady A (checkParent stage) :=
  steady_look hA (fun _ => steady_rejectIf _)

theorem steady_budgetCheck (deadline : Nat) : Steady A (budgetCheck cfg deadline) :=
  steady_bind (steady_rejectIf _) (fun _ => steady_bind (steady_fixes (fixes_onDisk fixes_monotonic))
    (fun _ => steady_rejectIf _))

theorem steady_verifyAt (hA : Stable A) (deadline : Nat) (place : Area → Option Node) (stage : Staging) :
    Steady A (verifyAt cfg deadline place stage) := by
  refine steady_bind (steady_budgetCheck deadline) (fun _ => steady_look hA (fun a => ?_))
  refine steady_bind (steady_lift _) (fun identity => steady_bind (steady_rejectIf _) (fun _ => ?_))
  cases place a with
  | none => exact steady_raise _
  | some node => exact steady_lift _

theorem fixes_readJournal : Fixes (onDisk scene) readJournal :=
  fixes_onDisk (fixes_bind fixes_probe (fun _ => fixes_bind fixes_getDisk (fun _ => fixes_pure _)))

/-- A save that keeps the staging record. -/
theorem steady_save {set : Journal → Journal} (hset : ∀ j, (set j).staging = j.staging) :
    Steady A (save cfg set) := by
  have hread : Triple (onDisk scene) A readJournal (fun j v => A v ∧ j.staging = v.stage) (fun _ => A) := by
    refine triple_skip (fixes_onDisk fixes_probe) (fun _ _ hv => hv) (fun _ => ?_)
    refine triple_getDisk (fun d => triple_pure (fun v hv => ⟨hv.1, ?_⟩))
    rw [hv.2]
    rfl
  refine triple_bind hread (fun current => triple_at (fun v hv => ?_))
  obtain ⟨hA, hstage⟩ := hv
  have hK : ∀ e : Option Failure, ∀ w, w = v → A w := fun _ w hw => hw ▸ hA
  refine triple_check (fun w hw => hw ▸ hA) (fun _ => triple_check (fun w hw => hw ▸ hA) (fun _ =>
    triple_check (fun w hw => hw ▸ hA) (fun _ => ?_)))
  refine triple_skip (fixes_onDisk fixes_probe) (fun e w hw => hK e w hw) (fun _ => ?_)
  have hview : ∀ d : Disk, scene { d with journal := { set current with revision := current.revision + 1 } }
      = { scene d with stage := v.stage } := by
    intro d
    show ({ area := d.area, moves := d.moves, changes := d.changes, stage := (set current).staging } : Scene) = _
    rw [hset, hstage]
    rfl
  have hback : Fixes (onDisk scene) readBack := fixes_handle (fixes_onDisk (fixes_bind fixes_probe
    (fun _ => fixes_bind fixes_getDisk (fun _ => fixes_pure _)))) (fun _ => fixes_pure _)
  have hA' : A { v with stage := v.stage } := hA
  refine triple_post (triple_replaceRecord (fun w => { w with stage := v.stage }) (fun _ _ => True) hview
    (fun w hw => ?_) (fun _ => hA) hA' (fun _ _ => hA')) (fun _ w hw => hw ▸ hA')
  refine triple_post (triple_fixes hback (fun e u hu => ?_)) (fun o u hu => ⟨hu, trivial⟩)
  rw [hu]
  rcases hw with rfl | rfl
  · exact hA
  · exact hA'

theorem steady_markPublished : Steady A (markPublished cfg) :=
  steady_bind (steady_fixes fixes_readJournal)
    (fun _ => steady_ite (steady_save (fun _ => rfl)) (steady_pure ()))

theorem steady_checkStaging (hA : Stable A) (stage : Staging) : Steady A (checkStaging stage) :=
  steady_look hA (fun _ => steady_bind (steady_lift _) (fun _ => steady_bind (steady_rejectIf _)
    (fun _ => steady_checkParent hA stage)))

theorem steady_verifyDestination (hA : Stable A) (j : Journal) : Steady A (verifyDestination cfg j) := by
  refine steady_look hA (fun a => steady_bind (steady_rejectIf _) (fun _ => ?_))
  refine steady_bind (steady_checkParent hA j.staging) (fun _ => steady_look hA (fun b => ?_))
  refine steady_bind (steady_lift _) (fun identity => steady_bind (steady_rejectIf _) (fun _ => ?_))
  exact steady_bind steady_markPublished (fun _ => steady_bind (steady_verifyAt hA _ _ _)
    (fun _ => steady_checkParent hA _))

theorem steady_beforeRename (hA : Stable A) (j : Journal) : Steady A (beforeRename cfg j) := by
  refine steady_look hA (fun a => steady_bind (steady_rejectIf _) (fun _ => steady_bind (steady_rejectIf _)
    (fun _ => steady_bind (steady_checkStaging hA _) (fun _ => steady_bind (steady_rejectIf _) (fun _ => ?_)))))
  refine steady_look hA (fun b => steady_bind (steady_rejectIf _) (fun _ => ?_))
  exact steady_bind (steady_verifyAt hA _ _ _) (fun _ => steady_bind (steady_handle steady_probe
    (fun _ => steady_raise _)) (fun _ => steady_checkStaging hA _))

theorem steady_afterRename (hA : Stable A) (j : Journal) : Steady A (afterRename cfg j) := by
  refine steady_bind (steady_handle steady_probe (fun _ => steady_raise _)) (fun _ => ?_)
  refine steady_bind (steady_checkParent hA _) (fun _ => steady_look hA (fun a => ?_))
  exact steady_bind (steady_lift _) (fun _ => steady_bind (steady_rejectIf _)
    (fun _ => steady_verifyAt hA _ _ _))

theorem steady_intentOf (hA : Stable A) (j : Journal) : Steady A (intentOf cfg j) := by
  unfold intentOf
  cases j.intent with
  | some intent => exact steady_pure _
  | none =>
      refine steady_bind (steady_rejectIf _) (fun _ => steady_look hA (fun a => ?_))
      refine steady_bind (steady_rejectIf _) (fun _ => steady_bind (steady_verifyAt hA _ _ _) (fun _ => ?_))
      refine steady_bind (steady_bind (steady_fixes (fixes_onDisk fixes_observe)) (fun _ => steady_pure _))
        (fun id => steady_bind (steady_lift _) (fun publication => ?_))
      exact steady_bind (steady_save (fun _ => rfl)) (fun _ => steady_pure _)

theorem steady_writeEvidence (receipt : PublicationReceipt) : Steady A (writeEvidence cfg receipt) := by
  refine steady_bind steady_probe (fun _ => steady_bind (steady_fixes (fixes_onDisk fixes_getDisk)) (fun d => ?_))
  cases d.evidence with
  | some stored => exact steady_bind (steady_rejectIf _) (fun _ => steady_bind steady_probe
      (fun _ => steady_pure _))
  | none => exact steady_bind (steady_rejectIf _) (fun _ => steady_bind
      (steady_fixes (fixes_allOrNothing (fun _ _ => rfl))) (fun _ => steady_pure _))

/-- The journal that was loaded has the staging record of the scene. -/
theorem triple_load (hA : Stable A) : Triple (onDisk scene) A (load cfg) (fun j v => A v ∧ j.staging = v.stage)
    (fun _ => A) := by
  have hread : Triple (onDisk scene) A readJournal (fun j v => A v ∧ j.staging = v.stage) (fun _ => A) := by
    refine triple_skip (fixes_onDisk fixes_probe) (fun _ _ hv => hv) (fun _ => ?_)
    refine triple_getDisk (fun d => triple_pure (fun v hv => ⟨hv.1, ?_⟩))
    rw [hv.2]
    rfl
  refine triple_bind hread (fun j => ?_)
  have hstay : Stable (fun v => A v ∧ j.staging = v.stage) := by
    intro v hv
    refine ⟨hA v hv.1, hv.2.trans ?_⟩
    unfold Scene.outside
    cases v.moves with
    | nil => rfl
    | cons f rest => rfl
  have hsteady : Steady (fun v => A v ∧ j.staging = v.stage) (do
      lift (j.check cfg)
      let now ← monotonic
      rejectIf (j.deadlineMonotonic ≤ now) "invalid_deadline"
      let a ← look
      rejectIf (isLink a.destination = true) "link_or_reparse"
      checkParent j.staging
      probe
      lift (j.checkManifest cfg)
      lift (j.checkPublication cfg) : Host Unit) := by
    refine steady_bind (steady_lift _) (fun _ => steady_bind (steady_fixes (fixes_onDisk fixes_monotonic))
      (fun now => steady_bind (steady_rejectIf _) (fun _ => steady_look hstay (fun a => ?_))))
    exact steady_bind (steady_rejectIf _) (fun _ => steady_bind (steady_checkParent hstay _) (fun _ =>
      steady_bind steady_probe (fun _ => steady_bind (steady_lift _) (fun _ => steady_lift _))))
  have hload : (do
      lift (j.check cfg)
      let now ← monotonic
      rejectIf (j.deadlineMonotonic ≤ now) "invalid_deadline"
      let a ← look
      rejectIf (isLink a.destination = true) "link_or_reparse"
      checkParent j.staging
      probe
      lift (j.checkManifest cfg)
      lift (j.checkPublication cfg)
      pure j : Host Journal) = (do
      lift (j.check cfg)
      let now ← monotonic
      rejectIf (j.deadlineMonotonic ≤ now) "invalid_deadline"
      let a ← look
      rejectIf (isLink a.destination = true) "link_or_reparse"
      checkParent j.staging
      probe
      lift (j.checkManifest cfg)
      lift (j.checkPublication cfg) : Host Unit) >>= fun _ => pure j := by
    simp only [program_bind_assoc]
  rw [hload]
  refine triple_bind (triple_conseq hsteady (fun _ h => h) (fun _ _ h => h) (fun _ _ h => h.1))
    (fun _ => triple_pure (fun _ h => h))

end Steady

/-! ## The rename -/

section Rename

variable {α β : Type} {A B C S : Scene → Prop} {cfg : Config} {j : Journal}

/-- The assertion, for the journal that was loaded. -/
def Under (j : Journal) (A : Scene → Prop) (v : Scene) : Prop := A v ∧ j.staging = v.stage

theorem stable_under (hA : Stable A) : Stable (Under j A) := by
  intro v hv
  refine ⟨hA v hv.1, hv.2.trans ?_⟩
  unfold Scene.outside
  cases v.moves with
  | nil => rfl
  | cons f rest => rfl

theorem stable_or (hA : Stable A) (hC : Stable C) : Stable (fun v => A v ∨ C v) := by
  rintro v (hv | hv)
  · exact Or.inl (hA v hv)
  · exact Or.inr (hC v hv)

/-- A check whose value is used. -/
theorem triple_lift {K : Option Failure → Scene → Prop} {Q : β → Scene → Prop} {x : Except String α}
    {k : α → Host β} (hK : ∀ e v, A v → K e v) (hk : ∀ a, x = .ok a → Triple (onDisk scene) A (k a) Q K) :
    Triple (onDisk scene) A (lift x >>= k) Q K := by
  cases x with
  | error code => exact triple_bind (triple_raise (Q := fun _ _ => False) (fun v hv => hK _ v hv)) (fun _ _ h => h.elim)
  | ok a => exact hk a rfl

/-- **The registered directory is still at the staging path.** -/
theorem triple_checkStaging (hB : Stable B) {stage : Staging} (hA : Stable A) (hBA : ∀ v, B v → A v)
    (hAB : ∀ v, A v → identityOf v.area.staging = .ok stage.stagingIdentity → B v) :
    Triple (onDisk scene) A (checkStaging stage) (fun _ => B) (fun _ => A) := by
  refine triple_look hA (fun _ _ hv => hv) (fun a => triple_lift (fun _ _ hv => hv.1) (fun identity hid => ?_))
  refine triple_check (fun _ hv => hv.1) (fun hsame => ?_)
  refine triple_conseq (steady_checkParent hB stage) (fun v hv => ?_) (fun _ _ hv => hv) (fun _ v hv => hBA v hv)
  refine hAB v hv.1 ?_
  rw [← hv.2, hid, not_not.mp hsame]

theorem triple_beforeRename (hA : Stable A) (hB : Stable B) (hBA : ∀ v, B v → A v)
    (hAB : ∀ v, A v → identityOf v.area.staging = .ok j.staging.stagingIdentity → B v) :
    Triple (onDisk scene) A (beforeRename cfg j) (fun _ => B) (fun _ => A) := by
  refine triple_look hA (fun _ _ hv => hv) (fun a => triple_check (fun _ hv => hv.1) (fun _ =>
    triple_check (fun _ hv => hv.1) (fun _ => ?_)))
  refine triple_pre ?_ (fun _ hv => hv.1)
  refine triple_bind (steady_checkStaging hA _) (fun _ => triple_check (fun _ hv => hv) (fun _ => ?_))
  refine triple_look hA (fun _ _ hv => hv) (fun b => triple_check (fun _ hv => hv.1) (fun _ => ?_))
  refine triple_pre ?_ (fun _ hv => hv.1)
  refine triple_bind (steady_verifyAt hA _ _ _) (fun _ => triple_bind (steady_handle steady_probe
    (fun _ => steady_raise _)) (fun _ => triple_checkStaging hB hA hBA hAB))

theorem scene_rename (d : Disk) : scene d.rename = (scene d).rename := rfl

/-- **The rename meets no destination**, and takes place as a whole or not at all. -/
theorem triple_renameNoreplace (hB : Stable B)
    (hren : ∀ v, B v → v.area.destination = none → v.area.staging ≠ none → C v.rename) :
    Triple (onDisk scene) B renameNoreplace (fun _ => C) (fun _ v => B v ∨ C v) := by
  intro m hm
  have hrest : Triple (onDisk scene) B (do
      let d ← getDisk
      rejectIf (d.area.destination.isSome = true) "destination_exists"
      rejectIf (d.area.staging.isNone = true) "atomic_publish_failed"
      allOrNothing (fun _ => Disk.rename)) (fun _ => C) (fun _ v => B v ∨ C v) := by
    refine triple_getDisk (fun d => triple_check (fun _ hv => Or.inl hv.1) (fun hdest =>
      triple_check (fun _ hv => Or.inl hv.1) (fun hstage => triple_at (fun v hv => ?_))))
    have hC : C v.rename := by
      refine hren v hv.1 ?_ ?_
      · rw [hv.2]
        exact Option.not_isSome_iff_eq_none.mp hdest
      · rw [hv.2]
        intro hnone
        exact hstage (Option.isNone_iff_eq_none.mpr hnone)
    exact triple_allOrNothing (fun _ => Scene.rename) (fun _ d => scene_rename d) (fun _ => hC)
      (fun _ => Or.inl hv.1) (fun _ _ => Or.inr hC)
  refine hrest { m with disk := m.disk.outside } ?_
  show B (scene m.disk.outside)
  rw [scene_outside]
  exact hB _ hm

theorem triple_publishDirectory (hA : Stable A) (hB : Stable B) (hC : Stable C) (hBA : ∀ v, B v → A v)
    (hAB : ∀ v, A v → identityOf v.area.staging = .ok j.staging.stagingIdentity → B v)
    (hren : ∀ v, B v → v.area.destination = none → v.area.staging ≠ none → C v.rename) :
    Triple (onDisk scene) A (publishDirectory cfg j) (fun _ => C) (fun _ v => A v ∨ C v) := by
  refine triple_bind (triple_conseq (triple_beforeRename hA hB hBA hAB) (fun _ hv => hv) (fun _ _ hv => hv)
    (fun _ _ hv => Or.inl hv)) (fun _ => ?_)
  refine triple_bind (triple_conseq (triple_renameNoreplace hB hren) (fun _ hv => hv) (fun _ _ hv => hv)
    (fun _ v hv => hv.imp (hBA v) id)) (fun _ => ?_)
  refine triple_conseq (steady_handle (steady_afterRename hC j) (fun e => ?_)) (fun _ hv => hv)
    (fun _ _ hv => hv) (fun _ _ hv => Or.inr hv)
  exact steady_bind steady_markPublished (fun _ => steady_raise e)

/-- **What `_verify_destination` has seen**: the registered directory, with the
    tree of the manifest. -/
theorem triple_verifyDestination (hA : Stable A) (hS : Stable S) (hSA : ∀ v, S v → A v)
    (hseen : ∀ v node, A v → v.area.destination = some node →
      identityOf (some node) = .ok j.staging.stagingIdentity → Exact cfg.manifest node → S v) :
    Triple (onDisk scene) A (verifyDestination cfg j) (fun _ => S) (fun _ => A) := by
  have hverify : Triple (onDisk scene) A (verifyAt cfg j.deadlineMonotonic Area.destination j.staging)
      (fun _ => S) (fun _ => A) := by
    refine triple_bind (steady_budgetCheck _) (fun _ => triple_look hA (fun _ _ hv => hv) (fun a => ?_))
    refine triple_lift (fun _ _ hv => hv.1) (fun identity hid => triple_check (fun _ hv => hv.1) (fun hsame => ?_))
    cases hnode : Area.destination a with
    | none => exact triple_raise (fun _ hv => hv.1)
    | some node =>
        rw [hnode, not_not.mp hsame] at hid
        show Triple (onDisk scene) _ (lift (verifyTree cfg.unicode cfg.budget cfg.manifest node)) _ _
        cases htree : verifyTree cfg.unicode cfg.budget cfg.manifest node with
        | error code => exact triple_raise (fun _ hv => hv.1)
        | ok done =>
            refine triple_pure (fun v hv => ?_)
            exact hseen v node hv.1 (hv.2 ▸ hnode) hid (exact_of_verifyTree htree)
  refine triple_look hA (fun _ _ hv => hv) (fun a => triple_pre ?_ (fun _ hv => hv.1))
  refine triple_check (fun _ hv => hv) (fun _ => triple_bind (steady_checkParent hA j.staging) (fun _ => ?_))
  refine triple_look hA (fun _ _ hv => hv) (fun b => triple_pre ?_ (fun _ hv => hv.1))
  refine triple_lift (fun _ _ hv => hv) (fun identity _ => triple_check (fun _ hv => hv) (fun _ => ?_))
  refine triple_bind steady_markPublished (fun _ => triple_bind hverify (fun _ => ?_))
  exact triple_conseq (steady_checkParent hS _) (fun _ hv => hv) (fun _ _ hv => hv) (fun _ v hv => hSA v hv)

theorem triple_recoverDestination (hA : Stable A) (hS : Stable S) (hSA : ∀ v, S v → A v)
    (hseen : ∀ v node, A v → v.area.destination = some node →
      identityOf (some node) = .ok j.staging.stagingIdentity → Exact cfg.manifest node → S v) :
    Triple (onDisk scene) A (recover cfg j) (fun _ => S) (fun _ => A) := by
  refine triple_bind (triple_verifyDestination hA hS hSA hseen) (fun _ => ?_)
  have hrest : Steady S (do
      let a ← look
      rejectIf (a.staging.isSome = true) "publication_recovery_conflict"
      handle probe (fun _ => reject "post_publish_io_failed")
      checkParent j.staging
      let b ← look
      let identity ← lift (identityOf b.destination)
      rejectIf (identity ≠ j.staging.stagingIdentity) "destination_changed") := by
    refine steady_look hS (fun a => steady_bind (steady_rejectIf _) (fun _ => ?_))
    refine steady_bind (steady_handle steady_probe (fun _ => steady_raise _)) (fun _ => ?_)
    exact steady_bind (steady_checkParent hS _) (fun _ => steady_look hS (fun b =>
      steady_bind (steady_lift _) (fun _ => steady_rejectIf _)))
  exact triple_conseq hrest (fun _ hv => hv) (fun _ _ hv => hv) (fun _ v hv => hSA v hv)

theorem triple_advance (hA : Stable A) (hB : Stable B) (hC : Stable C) (hS : Stable S)
    (hBA : ∀ v, B v → A v) (hSC : ∀ v, S v → A v ∨ C v)
    (hAB : ∀ v, A v → identityOf v.area.staging = .ok j.staging.stagingIdentity → B v)
    (hren : ∀ v, B v → v.area.destination = none → v.area.staging ≠ none → C v.rename)
    (hseen : ∀ v node, A v ∨ C v → v.area.destination = some node →
      identityOf (some node) = .ok j.staging.stagingIdentity → Exact cfg.manifest node → S v) :
    Triple (onDisk scene) A (advance cfg j) (fun _ => S) (fun _ v => A v ∨ C v) := by
  refine triple_check (fun _ hv => Or.inl hv) (fun _ => ?_)
  refine triple_look hA (fun _ _ hv => Or.inl hv) (fun a => triple_pre ?_ (fun _ hv => hv.1))
  refine triple_check (fun _ hv => Or.inl hv) (fun _ => ?_)
  refine triple_bind (triple_publishDirectory hA hB hC hBA hAB hren) (fun _ => ?_)
  have hAC : Stable (fun v => A v ∨ C v) := stable_or hA hC
  refine triple_pre ?_ (fun v (hv : C v) => (Or.inr hv : A v ∨ C v))
  exact triple_bind steady_markPublished (fun _ => triple_verifyDestination hAC hS hSC hseen)

theorem recoverPublication_ok {i : PublishIntent} {b : Binding} {p : PrepareReceipt} {d : Destination}
    {identity parent : DirectoryIdentity} {sha : Text} {r : PublicationReceipt}
    (h : recoverPublication i b p d identity parent sha = .ok r) :
    r = i.publication ∧ r.directoryIdentity = identity := by
  unfold recoverPublication at h
  cases hcheck : firstError [validatePublication i.publication b p d,
      failsWith (i.publication.directoryIdentity ≠ identity ∨ i.parentIdentity ≠ parent ∨
        b.manifestSha256 ≠ sha) "publication_recovery_conflict"] with
  | some code =>
      rw [hcheck] at h
      exact absurd h nofun
  | none =>
      rw [hcheck] at h
      obtain rfl := Except.ok.inj h
      refine ⟨rfl, ?_⟩
      rw [firstError_cons, firstError_cons] at hcheck
      have hsame := failsWith_none.mp hcheck.2.1
      by_contra hne
      exact hsame (Or.inl hne)

/-- **A run of `publish`**, for what holds before the rename (`A`), right at it
    (`B`), after it (`C`) and once the destination was verified (`S`). -/
theorem triple_publish (hA : Stable A) (hB : Stable B) (hC : Stable C) (hS : Stable S)
    (hBA : ∀ v, B v → A v) (hSC : ∀ v, S v → A v ∨ C v)
    (hAB : ∀ v, A v → identityOf v.area.staging = .ok v.stage.stagingIdentity → B v)
    (hren : ∀ v, B v → v.area.destination = none → v.area.staging ≠ none → C v.rename)
    (hseen : ∀ v node, A v ∨ C v → v.area.destination = some node →
      identityOf (some node) = .ok v.stage.stagingIdentity → Exact cfg.manifest node → S v) :
    Triple (onDisk scene) A (publish cfg)
      (fun r v => S v ∧ r.1.directoryIdentity = v.stage.stagingIdentity) (fun _ v => A v ∨ C v) := by
  refine triple_bind (triple_conseq (triple_load hA) (fun _ hv => hv) (fun _ _ hv => hv)
    (fun _ _ hv => Or.inl hv)) (fun j => ?_)
  have hA' : Stable (Under j A) := stable_under hA
  have hS' : Stable (Under j S) := stable_under hS
  have hleft : ∀ (e : Option Failure) v, Under j A v → A v ∨ C v := fun _ v hv => Or.inl hv.1
  refine triple_bind (triple_conseq (steady_intentOf hA' j) (fun _ hv => hv) (fun _ _ hv => hv) hleft)
    (fun intent => ?_)
  refine triple_look hA' hleft (fun a => triple_pre ?_ (fun _ hv => hv.1))
  have hrun : Triple (onDisk scene) (Under j A)
      (renameOrRecover cfg j a)
      (fun _ => Under j S) (fun _ v => A v ∨ C v) := by
    have hseen' : ∀ v node, Under j A v ∨ Under j C v → v.area.destination = some node →
        identityOf (some node) = .ok j.staging.stagingIdentity → Exact cfg.manifest node → Under j S v := by
      intro v node hv hdest hid hexact
      have hstage : j.staging = v.stage := hv.elim And.right And.right
      exact ⟨hseen v node (hv.imp And.left And.left) hdest (hstage ▸ hid) hexact, hstage⟩
    refine triple_ite (fun _ => ?_) (fun _ => ?_)
    · have hS'' : Stable (fun v => Under j S v ∧ Under j A v) := fun v hv => ⟨hS' v hv.1, hA' v hv.2⟩
      exact triple_conseq (triple_recoverDestination hA' hS'' (fun _ hv => hv.2)
        (fun v node hv hdest hid hexact => ⟨hseen' v node (Or.inl hv) hdest hid hexact, hv⟩))
        (fun _ hv => hv) (fun _ _ hv => hv.1) hleft
    · have hboth : ∀ v, Under j S v → Under j A v ∨ Under j C v := by
        intro v hv
        exact (hSC v hv.1).imp (fun h => ⟨h, hv.2⟩) (fun h => ⟨h, hv.2⟩)
      exact triple_conseq (triple_advance hA' (stable_under hB) (stable_under hC) hS'
        (fun v hv => ⟨hBA v hv.1, hv.2⟩) hboth (fun v hv hid => ⟨hAB v hv.1 (hv.2 ▸ hid), hv.2⟩)
        (fun v hv hdest hstage => ⟨hren v hv.1 hdest hstage, hv.2⟩) hseen')
        (fun _ hv => hv) (fun _ _ hv => hv) (fun _ v hv => hv.imp And.left And.left)
  refine triple_bind hrun (fun _ => ?_)
  have hright : ∀ (e : Option Failure) v, Under j S v → A v ∨ C v := fun _ v hv => hSC v hv.1
  refine triple_look hS' hright (fun b => triple_pre ?_ (fun _ hv => hv.1))
  refine triple_lift hright (fun receipt hreceipt => ?_)
  refine triple_bind (triple_conseq (steady_writeEvidence receipt) (fun _ hv => hv) (fun _ _ hv => hv) hright)
    (fun reference => ?_)
  refine triple_bind (triple_conseq (steady_save (fun _ => rfl)) (fun _ hv => hv) (fun _ _ hv => hv) hright)
    (fun _ => triple_pure (fun v hv => ⟨hv.1, ?_⟩))
  rw [← hv.2]
  exact (recoverPublication_ok hreceipt).2

end Rename

/-! ## One run -/

/-- What happened since a scene. -/
structure Story (s₀ : Scene) (new : List Change) (v : Scene) : Prop where
  changes : v.changes = s₀.changes ++ new
  area : v.area = replay s₀.area new
  stage : v.stage = s₀.stage

/-- No rename meets a destination, and each has something to rename. -/
def Exclusive (a : Area) (new : List Change) : Prop :=
  ∀ pre post, new = pre ++ .renamed :: post →
    (replay a pre).destination = none ∧ (replay a pre).staging ≠ none

/-- Since the scene the code has renamed `n` times, and did nothing else. -/
def Since (s₀ : Scene) (n : Nat) (v : Scene) : Prop :=
  ∃ new, Story s₀ new v ∧ renamesIn new = n ∧ Exclusive s₀.area new

/-- **The destination was the registered directory**, with the tree of the manifest,
    at some moment since the scene. -/
def Seen (m : Document) (s₀ : Scene) (v : Scene) : Prop :=
  ∃ pre post node, Story s₀ (pre ++ post) v ∧ (replay s₀.area pre).destination = some node ∧
    identityOf (some node) = .ok s₀.stage.stagingIdentity ∧ Exact m node

section OneRun

variable {s₀ v : Scene} {new : List Change} {n : Nat} {m : Document}

/-- Another change at the end. -/
theorem Story.snoc {c : Change} {w : Scene} (h : Story s₀ new v) (hchanges : w.changes = v.changes ++ [c])
    (harea : w.area = v.area.apply c) (hstage : w.stage = v.stage) : Story s₀ (new ++ [c]) w := by
  refine { changes := ?_, area := ?_, stage := hstage.trans h.stage }
  · rw [hchanges, h.changes, List.append_assoc]
  · rw [harea, h.area, replay_append]
    rfl

theorem Story.outside (h : Story s₀ new v) :
    ∃ late, Story s₀ (new ++ late) v.outside ∧ ∀ c ∈ late, ∃ f, c = .outside f := by
  unfold Scene.outside
  cases v.moves with
  | nil => exact ⟨[], by rw [List.append_nil]; exact h, fun _ hc => absurd hc List.not_mem_nil⟩
  | cons f rest =>
      exact ⟨[.outside f], h.snoc rfl rfl rfl, fun c hc => ⟨f, List.mem_singleton.mp hc⟩⟩

theorem exclusive_nil (a : Area) : Exclusive a [] := by
  intro pre post h
  have hlength := congrArg List.length h
  rw [List.length_append] at hlength
  exact absurd hlength (by simp)

/-- A change by others renames nothing; a rename is checked at the end. -/
theorem Exclusive.snoc {a : Area} {c : Change} (h : Exclusive a new)
    (hc : c = .renamed → (replay a new).destination = none ∧ (replay a new).staging ≠ none) :
    Exclusive a (new ++ [c]) := by
  intro pre post hsplit
  rcases List.eq_nil_or_concat post with rfl | ⟨post, d, rfl⟩
  · obtain ⟨rfl, hlast⟩ := List.append_inj' hsplit rfl
    exact hc (List.singleton_inj.mp hlast)
  · rw [List.concat_eq_append, ← List.cons_append, ← List.append_assoc] at hsplit
    exact h pre post (List.append_inj' hsplit rfl).1

theorem since_refl (s₀ : Scene) : Since s₀ 0 s₀ :=
  ⟨[], ⟨(List.append_nil _).symm, rfl, rfl⟩, rfl, exclusive_nil _⟩

theorem stable_since (s₀ : Scene) (n : Nat) : Stable (Since s₀ n) := by
  rintro v ⟨new, hstory, hcount, hexclusive⟩
  unfold Scene.outside
  cases v.moves with
  | nil => exact ⟨new, hstory, hcount, hexclusive⟩
  | cons f rest =>
      refine ⟨new ++ [.outside f], hstory.snoc rfl rfl rfl, ?_, hexclusive.snoc nofun⟩
      rw [renamesIn_append, hcount]
      rfl

theorem stable_seen (m : Document) (s₀ : Scene) : Stable (Seen m s₀) := by
  rintro v ⟨pre, post, node, hstory, hseen⟩
  obtain ⟨late, hlate, -⟩ := hstory.outside
  exact ⟨pre, post ++ late, node, by rw [← List.append_assoc]; exact hlate, hseen⟩

theorem since_rename (h : Since s₀ n v) (hdest : v.area.destination = none) (hstage : v.area.staging ≠ none) :
    Since s₀ (n + 1) v.rename := by
  obtain ⟨new, hstory, hcount, hexclusive⟩ := h
  refine ⟨new ++ [.renamed], hstory.snoc rfl rfl rfl, ?_, hexclusive.snoc (fun _ => ?_)⟩
  · rw [renamesIn_append, hcount]
    rfl
  · rw [← hstory.area]
    exact ⟨hdest, hstage⟩

/-- **A run of `publish` changes the two paths by one rename at most**, and returns
    a receipt only when it has seen the registered directory at the destination. -/
theorem triple_publish_since (cfg : Config) (s₀ : Scene) :
    Triple (onDisk scene) (Since s₀ 0) (publish cfg)
      (fun r v => ((Since s₀ 0 v ∨ Since s₀ 1 v) ∧ Seen cfg.manifest s₀ v) ∧
        r.1.directoryIdentity = v.stage.stagingIdentity)
      (fun _ v => Since s₀ 0 v ∨ Since s₀ 1 v) := by
  have h0 := stable_since s₀ 0
  have h1 := stable_since s₀ 1
  have hor := stable_or h0 h1
  refine triple_publish h0 h0 h1 (fun v hv => ⟨hor v hv.1, stable_seen _ _ v hv.2⟩) (fun _ hv => hv)
    (fun _ hv => hv.1) (fun _ hv _ => hv) (fun _ hv => since_rename hv) ?_
  intro v node hv hdest hid hexact
  refine ⟨hv, ?_⟩
  have hstory : ∃ new, Story s₀ new v := hv.elim (fun ⟨new, h, _⟩ => ⟨new, h⟩) (fun ⟨new, h, _⟩ => ⟨new, h⟩)
  obtain ⟨new, hstory⟩ := hstory
  refine ⟨new, [], node, by rw [List.append_nil]; exact hstory, ?_, hstory.stage ▸ hid, hexact⟩
  rw [← hstory.area]
  exact hdest

/-- However a run ends. -/
theorem publish_since (cfg : Config) (start : Machine Failure Disk) :
    Since (scene start.disk) 0 (scene (publish cfg start).2.disk) ∨
      Since (scene start.disk) 1 (scene (publish cfg start).2.disk) := by
  have hrun := triple_publish_since cfg (scene start.disk) start (since_refl _)
  rcases hout : publish cfg start with ⟨o, m'⟩
  rw [hout] at hrun
  cases o with
  | done a => exact hrun.1.1
  | raised e => exact hrun
  | crashed => exact hrun

end OneRun

/-! ## All runs of a journal -/

/-- What others do does not bring the directory to the staging path. -/
def KeepsAway (identity : DirectoryIdentity) (f : Area → Area) : Prop :=
  ∀ a, identityOf a.staging ≠ .ok identity → identityOf (f a).staging ≠ .ok identity

/-- **Once renamed, the registered directory is away from the staging path.** -/
structure Tight (v : Scene) : Prop where
  once : renamesIn v.changes ≤ 1
  away : renamesIn v.changes = 1 → identityOf v.area.staging ≠ .ok v.stage.stagingIdentity
  others : ∀ f ∈ v.moves, KeepsAway v.stage.stagingIdentity f

theorem stable_tight : Stable Tight := by
  rintro ⟨area, moves, changes, stage⟩ h
  cases moves with
  | nil => exact h
  | cons f rest =>
      have hcount : renamesIn (changes ++ [.outside f]) = renamesIn changes := by
        rw [renamesIn_append]
        rfl
      refine { once := ?_, away := ?_, others := fun g hg => h.others g (List.mem_cons_of_mem _ hg) }
      · show renamesIn (changes ++ [.outside f]) ≤ 1
        rw [hcount]
        exact h.once
      · intro hone
        exact h.others f List.mem_cons_self area (h.away (hcount ▸ hone))

/-- **A run keeps to one rename in all.** -/
theorem steady_publish_tight (cfg : Config) : Steady Tight (publish cfg) := by
  have hB : Stable (fun v => Tight v ∧ renamesIn v.changes = 0) := by
    rintro ⟨area, moves, changes, stage⟩ ⟨htight, hzero⟩
    refine ⟨stable_tight _ htight, ?_⟩
    cases moves with
    | nil => exact hzero
    | cons f rest =>
        show renamesIn (changes ++ [.outside f]) = 0
        rw [renamesIn_append, hzero]
        rfl
  refine triple_conseq (triple_publish (A := Tight) (C := Tight) (S := Tight) stable_tight hB stable_tight
    stable_tight (fun _ hv => hv.1) (fun _ hv => Or.inl hv) ?_ ?_ (fun _ _ hv _ _ _ => hv.elim id id))
    (fun _ hv => hv) (fun _ _ hv => hv.1) (fun _ _ hv => hv.elim id id)
  · intro v hv hid
    refine ⟨hv, ?_⟩
    have hne : renamesIn v.changes ≠ 1 := fun hone => hv.away hone hid
    have honce := hv.once
    omega
  · rintro v ⟨htight, hzero⟩ - -
    have hone : renamesIn (v.changes ++ [.renamed]) = 1 := by
      rw [renamesIn_append, hzero]
      rfl
    exact { once := Nat.le_of_eq hone, away := fun _ => nofun, others := htight.others }

/-- The disk after some runs of `publish`; before each run others may decide anew
    what they will do. -/
inductive History (cfg : Config) (Allowed : (Area → Area) → Prop) (d₀ : Disk) : Disk → Prop where
  | start : History cfg Allowed d₀ d₀
  | run (d : Disk) (m : Machine Failure Disk) (hd : History cfg Allowed d₀ d)
      (hm : m.disk = { d with moves := m.disk.moves }) (hmoves : ∀ f ∈ m.disk.moves, Allowed f) :
      History cfg Allowed d₀ (publish cfg m).2.disk

section Histories

variable {cfg : Config} {d₀ d : Disk}

/-- The registration is never changed. -/
theorem history_stage {Allowed : (Area → Area) → Prop} (h : History cfg Allowed d₀ d) :
    d.journal.staging = d₀.journal.staging := by
  induction h with
  | start => rfl
  | run d m hd hm hmoves ih =>
      have hstage : (scene (publish cfg m).2.disk).stage = (scene m.disk).stage := by
        rcases publish_since cfg m with ⟨new, hstory, -⟩ | ⟨new, hstory, -⟩
        · exact hstory.stage
        · exact hstory.stage
      have hstart : (scene m.disk).stage = d.journal.staging := by
        rw [hm]
        rfl
      exact hstage.trans (hstart.trans ih)

/-- **All runs together rename once**, when others keep the registered directory
    away from the staging path once it is not there. -/
theorem history_tight (hnone : renamesIn d₀.changes = 0)
    (h : History cfg (KeepsAway d₀.journal.staging.stagingIdentity) d₀ d) :
    Tight (scene { d with moves := [] }) := by
  induction h with
  | start =>
      refine { once := ?_, away := fun hone => absurd hone ?_, others := fun _ hf => absurd hf List.not_mem_nil }
      · exact hnone ▸ Nat.zero_le 1
      · show renamesIn d₀.changes ≠ 1
        rw [hnone]
        exact Nat.zero_ne_one
  | run d m hd hm hmoves ih =>
      have hstage := history_stage hd
      have hstart : Tight (scene m.disk) := by
        rw [hm]
        refine { once := ih.once, away := ih.away, others := fun f hf => ?_ }
        rw [show (scene { d with moves := m.disk.moves }).stage = d₀.journal.staging from hstage]
        exact hmoves f hf
      have hrun := steady_publish_tight cfg m hstart
      rcases hout : publish cfg m with ⟨o, m'⟩
      rw [hout] at hrun
      have hend : Tight (scene m'.disk) := by
        cases o with
        | done a => exact hrun
        | raised e => exact hrun
        | crashed => exact hrun
      exact { once := hend.once, away := hend.away, others := fun _ hf => absurd hf List.not_mem_nil }

end Histories

end HostPublication
