import VeloTransfer.TaskStoreSafetyProofs

/-! # Histories of a task store — every interleaving of its calls

    Any number of objects call `writer`, `load` and `save` on one existing task;
    their steps interleave, any of them may die at any step, and the power may
    fail.  What a call did is stated over the shared state at its start and at its
    end. -/

namespace TaskStore

open Interleaving Thread CanonicalJson JsonLine BoundedJson JsonDict GuestTerminal
open HostJournal (textOf PyJson)

variable {st : Store} {b : Json} {w : Nat} {s t : Shared}

/-- What a load returned: the state of the task, as it was on top at some moment
    since the load began. -/
def Loaded (st : Store) (binding : Json) (s₀ : Shared) (e : Envelope) (s : Shared) : Prop :=
  st.pins binding e ∧ ∃ v, SeenSince s₀ v s ∧ st.readState v.bytes = .ok e

def Returns (st : Store) (w : Nat) (call : Call) (s₀ : Shared) (a : Answer) (s : Shared) : Prop :=
  match call, a with
  | .enterWriter, .done => s.holder = some w
  | .leaveWriter, .done => s.holder ≠ some w
  | .load binding, .envelope e => Loaded st binding.value s₀ e s
  | .save binding expected state, .envelope e => Saved st w binding.value expected state.value s₀ e s
  | _, _ => False

def Raises (st : Store) (w : Nat) (call : Call) (s₀ : Shared) (e : Raised) (s : Shared) : Prop :=
  match call with
  | .save binding expected state => Refused st w binding.value expected state.value s₀ e s
  | _ => Plain e

def During (st : Store) (w : Nat) (call : Call) (s₀ s : Shared) : Prop :=
  match call with
  | .save binding expected state => Saving st w binding.value expected state.value s₀ s
  | _ => True

/-! ## The calls -/

theorem guar_free : Guar st b w s (s.free w) := by
  by_cases hheld : s.holder = some w
  · intro hinv
    exact ⟨hinv.same rfl rfl, List.suffix_rfl, List.suffix_rfl, fun _ => Or.inr (if_pos hheld),
      fun hne => absurd hheld hne⟩
  · have hsame : s.free w = s := by
      unfold Shared.free
      rw [if_neg hheld]
    rw [hsame]
    exact guar_refl w s

/-- Letting go of the lock, held or not. -/
theorem meets_unlock {α : Type} {K : Shared → Prop} {k : Unit → Op α} {Q : α → Shared → Prop}
    {E : Raised → Shared → Prop} (hinv : Inv st b s) (hK : ∀ t, Rely st b w s t → K t)
    (hk : ∀ t, Inv st b t → t.holder ≠ some w → Meets (Rely st b w) (Guar st b w) K (k ()) Q E t) :
    Meets (Rely st b w) (Guar st b w) K (unlock w >>= k) Q E s := by
  intro t ht
  refine ⟨hK t ht, fun c => ⟨guar_free, hk _ ((ht hinv).1.same rfl rfl) ?_⟩⟩
  show (if t.holder = some w then none else t.holder) ≠ some w
  by_cases hheld : t.holder = some w
  · rw [if_pos hheld]
    exact nofun
  · rw [if_neg hheld]
    exact hheld

theorem meets_leaveWriter (hinv : Inv st b s) :
    Meets (Rely st b w) (Guar st b w) (During st w .leaveWriter s) (perform st w .leaveWriter)
      (Returns st w .leaveWriter s) (Raises st w .leaveWriter s) s := by
  refine meets_unlock hinv (fun _ _ => trivial) ?_
  intro t hinv' hfree u hu hheld
  exact hfree ((hu hinv').2.2.2.2 hheld)

/-- Taking the lock: the thread that got it is its holder. -/
theorem meets_lock {K : Shared → Prop} {Q : Unit → Shared → Prop} {E : Raised → Shared → Prop}
    (hinv : Inv st b s) (hK : ∀ t, Rely st b w s t → K t)
    (hQ : ∀ t, Inv st b t → t.holder = some w → Q () t) (hE : ∀ t, E (.error "writer_busy") t) :
    Meets (Rely st b w) (Guar st b w) K (lock w) Q E s := by
  intro t ht
  refine ⟨hK t ht, fun c => ?_⟩
  have hinv' := (ht hinv).1
  dsimp only
  by_cases hfree : c = .fine ∧ t.holder = none
  · rw [if_pos hfree, if_pos hfree]
    have htaken : Inv st b ({ t with holder := some w } : Shared) := hinv'.same rfl rfl
    refine ⟨?_, meets_ret_held htaken rfl (hQ _ htaken rfl)⟩
    intro _
    refine ⟨htaken, List.suffix_rfl, List.suffix_rfl, fun _ => Or.inl rfl, fun _ => Or.inr ⟨hfree.2, rfl⟩⟩
  · rw [if_neg hfree, if_neg hfree]
    exact ⟨guar_refl w t, fun u _ => hE u⟩

/-- `writer` returns to the holder of the lock. -/
theorem meets_enter (hinv : Inv st b s) :
    Meets (Rely st b w) (Guar st b w) (fun _ => True) (enterWriter w)
      (fun _ t => Inv st b t ∧ t.holder = some w) (fun e _ => Plain e) s := by
  have hpass : ∀ {β : Type} {P : Shared → Prop} {m : Op β} {k : β → Op Unit}, Reads st b w P m (fun _ => P) →
      ∀ u, P u → (∀ a t, P t → Meets (Rely st b w) (Guar st b w) (fun _ => True) (k a)
        (fun _ t => Inv st b t ∧ t.holder = some w) (fun e _ => Plain e) t) →
      Meets (Rely st b w) (Guar st b w) (fun _ => True) (m >>= k)
        (fun _ t => Inv st b t ∧ t.holder = some w) (fun e _ => Plain e) u :=
    fun hm u hu hk => meets_bind (rely_refl w) (hm u hu _ _ _ (fun _ _ => trivial)
      (fun a t _ ht => hk a t ht) (fun _ _ _ he => he))
  have hstable : Stable st b w (Since st b w s) := stable_since
  refine hpass (reads_look hstable (fun _ h _ hrely => hstable h hrely)) s (since_refl hinv) ?_
  intro seen t ht
  refine hpass (reads_weaken (reads_rejectIf hstable (by decide)) (fun _ _ h => h.1)) t ht ?_
  intro _ t ht
  refine hpass (reads_check hstable (by decide)) t ht (fun _ t ht => ?_)
  refine hpass (reads_check hstable (by decide)) t ht (fun _ t ht => ?_)
  refine hpass (reads_check hstable (by decide)) t ht (fun _ t ht => ?_)
  refine meets_bind (rely_refl w) (meets_lock ht.inv (fun _ _ => trivial) ?_
    (fun _ => plain_error (by decide)))
  intro u hu hheld
  -- the lock is held; a failure of the last check lets go of it
  have hsame : Stable st b w (fun v => v = u) := by
    rintro v x rfl hx
    exact (hx hu).2.1 hheld
  refine meets_handle (rely_refl w) (reads_held (reads_check hsame (by decide)) rfl hu hheld trivial
    (fun _ _ => ⟨hu, hheld⟩) (fun e he => ?_))
  refine meets_unlock hu (fun _ _ => trivial) ?_
  exact fun _ _ _ _ _ => he

theorem meets_enterWriter (hinv : Inv st b s) :
    Meets (Rely st b w) (Guar st b w) (During st w .enterWriter s) (perform st w .enterWriter)
      (Returns st w .enterWriter s) (Raises st w .enterWriter s) s := by
  refine meets_bind (rely_refl w) ((meets_enter hinv).mono ?_ (fun _ _ he => he))
  rintro - t ⟨hinv', hheld⟩
  exact meets_ret_held hinv' hheld hheld

theorem meets_load (hinv : Inv st b s) (binding : PyJson) :
    Meets (Rely st b w) (Guar st b w) (During st w (.load binding) s) (perform st w (.load binding))
      (Returns st w (.load binding) s) (Raises st w (.load binding) s) s := by
  refine meets_bind (rely_refl w) (reads_load binding.value s (since_refl hinv) _ _ _
    (fun _ _ => trivial) ?_ (fun _ _ _ he => he))
  rintro e t - ⟨hsince, -, hpins, v, hseen, he⟩ u hu
  exact ⟨hpins, v, (hsince.seen hseen hu).2, he⟩

/-- A save that has returned stays done while its thread holds the lock. -/
theorem meets_saveCall (hst : st.Sound) (hinv : Inv st b s) (binding state : PyJson) (expected : Int) :
    Meets (Rely st b w) (Guar st b w) (During st w (.save binding expected state) s)
      (perform st w (.save binding expected state)) (Returns st w (.save binding expected state) s)
      (Raises st w (.save binding expected state) s) s := by
  refine meets_bind (rely_refl w) ((meets_save hst binding.sound state.sound hinv).mono ?_
    (fun _ _ he => he))
  rintro e t ⟨hinv', hsaved⟩
  exact meets_ret_held hinv' hsaved.held.2 hsaved

/-- The calls of a store, among any others, from any state of the task on. -/
def contract (hst : st.Sound) (b : Json) : Contract (rules st) where
  inv := Inv st b
  rely := Rely st b
  guar := Guar st b
  during := During st
  returns := Returns st
  raises := Raises st
  refl := rely_refl
  trans := fun w {_ _ _} hst htu => rely_trans w hst htu
  guar_rely := fun hne h => guar_rely hne h
  guar_inv := fun h hinv => (h hinv).1
  leave_rely := fun s hne => leave_rely s hne
  leave_inv := fun _ {_} h => h.same rfl rfl
  halted_inv := fun h hinv => halted_inv h hinv
  meets := by
    intro w call s hinv
    cases call with
    | enterWriter => exact meets_enterWriter hinv
    | leaveWriter => exact meets_leaveWriter hinv
    | load binding => exact meets_load hinv binding
    | save binding expected state => exact meets_saveCall hst hinv binding state expected

/-! ## Histories -/

abbrev Threads := Pool Shared Outside Raised Call Answer

/-- A store before any object of it exists. -/
def idle (s : Shared) : Threads := { shared := s, running := fun _ => none }

/-- What is synced stays in the chain. -/
theorem synced_run (hst : st.Sound) {p q : Threads} (hp : (contract hst b).AllMeet p)
    (hrun : p.Run (rules st) q) : p.shared.synced <:+ q.shared.synced := by
  have htrans : ∀ {s t u : Shared}, s.synced <:+ t.synced → t.synced <:+ u.synced →
      s.synced <:+ u.synced := fun h h' => h.trans h'
  refine Pool.Run.related (R := fun s t => s.synced <:+ t.synced) (contract hst b)
    (fun _ => List.suffix_rfl) htrans ?_ ?_ ?_ hp hrun
  · exact fun hinv h => (h hinv).2.2.1
  · exact fun w s => List.suffix_rfl
  · intro s t _ h
    have hkept := h.kept
    rw [← h.synced] at hkept
    exact hkept

theorem rejectIf_alone {c : Prop} [Decidable c] {code : String} (hc : ¬ c) :
    (rejectIf c code).alone Outside.fine s = (.ok (), s) := by
  unfold rejectIf raiseIf
  rw [if_neg hc]
  rfl

theorem stateFile_alone {v : Version} {older : List Version} (hv : s.versions = v :: older) :
    stateFile.alone Outside.fine s = (.ok v, s) := by
  cases s
  cases hv
  rfl

theorem statState_alone {v : Version} {older : List Version} (hv : s.versions = v :: older) :
    statState.alone Outside.fine s = (.ok v, s) := by
  unfold statState
  rw [alone_handle, stateFile_alone hv]

/-- **An undisturbed load returns the state that is on top.** -/
theorem load_alone {binding : Json} {v : Version} {older : List Version} {e : Envelope}
    (hbinding : st.checkBinding binding = none) (hv : s.versions = v :: older)
    (hlength : v.bytes.length ≤ st.maxStateBytes) (he : st.readState v.bytes = .ok e)
    (hpins : st.pins binding e) : (load st binding).alone Outside.fine s = (.ok e, s) := by
  have hread : (read st).alone Outside.fine s = (.ok e, s) := by
    refine (alone_then rfl).trans ((alone_then rfl).trans ((alone_then rfl).trans ?_))
    refine (alone_then (statState_alone hv)).trans ((alone_then rfl).trans ?_)
    refine (alone_then (rejectIf_alone (Nat.not_lt.mpr hlength))).trans ?_
    refine (alone_then (stateFile_alone hv)).trans ?_
    refine (alone_then (rejectIf_alone (not_not.mpr rfl))).trans ((alone_then rfl).trans ?_)
    refine (alone_then (rejectIf_alone (Nat.not_lt.mpr hlength))).trans ?_
    refine (alone_then (statState_alone hv)).trans ?_
    refine (alone_then (rejectIf_alone (not_not.mpr rfl))).trans ?_
    rw [he]
    rfl
  unfold load
  rw [hbinding]
  refine (alone_then rfl).trans ((alone_then rfl).trans ((alone_then rfl).trans ?_))
  refine (alone_then (rejectIf_alone (by rw [hv]; exact nofun))).trans ?_
  refine (alone_then hread).trans ?_
  exact (alone_then (rejectIf_alone (not_not.mpr hpins))).trans rfl

/-- Wherever a save is, in the middle or at its end. -/
theorem saving_anywhere (hst : st.Sound) {p : Threads} (hp : (contract hst b).AllMeet p)
    {r : Running Shared Outside Raised Call Answer} (hw : p.running w = some r)
    {binding state : PyJson} {expected : Int} (hcall : r.call = .save binding expected state) :
    Saving st w binding.value expected state.value r.start p.shared := by
  cases hnow : r.now with
  | step put next =>
      have hinside : During st w r.call r.start p.shared := hp.inside hw (by rw [hnow]; rfl)
      rw [hcall] at hinside
      exact hinside
  | raised e =>
      have hraised : Raises st w r.call r.start e p.shared := hp.failed hw hnow
      rw [hcall] at hraised
      exact fun hheld => (hraised.either hheld).2
  | ret a =>
      have hreturned : Returns st w r.call r.start a p.shared := hp.returned hw hnow
      rw [hcall] at hreturned
      cases a with
      | done => exact absurd hreturned id
      | envelope e => exact fun _ => Or.inr (Saved.own hreturned)

/-- **No update is lost.**  A task that exists is used by any number of objects, in
    any order of their steps, and each of them may die, or all of them stop, at
    any step.

    * a save returns only if the version it replaced had the revision it was given,
      and then its state is on top and synced;
    * a load that begins later finds a version that was put on top of everything
      that was synced, each one built on the one below it;
    * wherever a save is cut off, the state file is the one before it or its own,
      and an undisturbed load returns whichever is there;
    * `storage_write_failed` means that it is the one before, and
      `storage_durability_unknown` that it is its own, until the lock is let go. -/
theorem no_lost_update (st : Store) (hst : st.Sound) (b : PyJson) (hb : st.checkBinding b.value = none)
    (s : Shared) (hs : Inv st b.value s) (p : Threads) (hp : (idle s).Run (rules st) p) :
    (∀ w r binding expected state e, p.running w = some r → r.call = .save binding expected state →
      r.now = .ret (.envelope e) → Saved st w binding.value expected state.value r.start e p.shared) ∧
    (∀ q u w r binding e, p.Run (rules st) q → q.Run (rules st) u → u.running w = some r →
      r.start = q.shared → r.call = .load binding → r.now = .ret (.envelope e) →
      ∃ v older, st.readState v.bytes = .ok e ∧ p.shared.synced <:+ v :: older ∧
        v :: older <:+ u.shared.versions ∧ (v :: older).IsChain (BuiltOn st)) ∧
    (∀ w r binding expected state, p.running w = some r → r.call = .save binding expected state →
      Saving st w binding.value expected state.value r.start ((rules st).leave w p.shared)) ∧
    (∃ v older e, p.shared.versions = v :: older ∧ st.readState v.bytes = .ok e ∧
      (load st b.value).alone Outside.fine p.shared = (.ok e, p.shared)) ∧
    (∀ w r binding expected state e, p.running w = some r → r.call = .save binding expected state →
      r.now = .raised e → Refused st w binding.value expected state.value r.start e p.shared) := by
  have hall : (contract hst b.value).AllMeet p :=
    Contract.allMeet_run (Contract.allMeet_idle (c := contract hst b.value) hs) hp
  refine ⟨?_, ?_, ?_, ?_, ?_⟩
  · intro w r binding expected state e hw hcall hnow
    have hreturned : Returns st w r.call r.start (.envelope e) p.shared := hall.returned hw hnow
    rw [hcall] at hreturned
    exact hreturned
  · intro q u w r binding e hpq hqu hw hstart hcall hnow
    have hq : (contract hst b.value).AllMeet q := Contract.allMeet_run hall hpq
    have hu : (contract hst b.value).AllMeet u := Contract.allMeet_run hq hqu
    have hreturned : Returns st w r.call r.start (.envelope e) u.shared := hu.returned hw hnow
    rw [hcall, hstart] at hreturned
    obtain ⟨-, v, ⟨older, hsince, htop⟩, he⟩ := hreturned
    have hsynced := synced_run hst hall hpq
    have hinv : Inv st b.value u.shared := hu.inv
    have hinvq : Inv st b.value q.shared := hq.inv
    exact ⟨v, older, he, (hsynced.trans hinvq.back).trans hsince, htop, hinv.chain.suffix htop⟩
  · intro w r binding expected state hw hcall
    exact saving_anywhere hst hall hw hcall
  · have hinv : Inv st b.value p.shared := hall.inv
    cases hv : p.shared.versions with
    | nil => exact absurd hv hinv.versions
    | cons v older =>
        obtain ⟨hlength, e, he, hpins⟩ := hinv.good v (hv ▸ List.mem_cons_self)
        exact ⟨v, older, e, rfl, he, load_alone hb hv hlength he hpins⟩
  · intro w r binding expected state e hw hcall hnow
    have hraised : Raises st w r.call r.start e p.shared := hall.failed hw hnow
    rw [hcall] at hraised
    exact hraised

/-! ## A sample history -/

/-- A call that runs alone, from where no call of its object runs. -/
theorem call_alone {p : Threads} {call : Call} {x : Except Raised Answer} (hidle : p.running w = none)
    (h : (perform st w call).alone Outside.fine p.shared = (x, t)) :
    p.Run (rules st) (p.set t w (some { call := call, start := p.shared, now := ofResult x })) := by
  have hrun : (p.set p.shared w (some { call := call, start := p.shared, now := perform st w call })).Run
      (rules st) _ := Pool.Run.alone Outside.fine p w call p.shared (perform st w call) p.shared
  rw [h] at hrun
  exact (Pool.Run.refl.step (.begin call hidle)).trans hrun

/-- A second call of the same object, after one that returned. -/
theorem calls_alone {s₁ : Shared} {call call' : Call} {a : Answer} {x : Except Raised Answer}
    (h : (perform st w call).alone Outside.fine s = (.ok a, s₁))
    (h' : (perform st w call').alone Outside.fine s₁ = (x, t)) :
    ∃ p : Threads, (idle s).Run (rules st) p ∧ p.shared = t ∧
      p.running w = some { call := call', start := s₁, now := ofResult x } := by
  have hfirst : (idle s).Run (rules st) (((idle s).set s₁ w _).set s₁ w none) :=
    (call_alone (p := idle s) rfl h).step (.finish (if_pos rfl) rfl)
  exact ⟨_, hfirst.trans (call_alone (if_pos rfl) h'), rfl, if_pos rfl⟩

theorem pins_envelope {binding state : Json} {n : Nat} (hbinding : Value binding) :
    st.pins binding (st.envelope w binding n state).sorted :=
  ⟨rfl, HostJournal.canonical_sortKeys hbinding⟩

/-- The task of one version that was written. -/
theorem inv_created (hst : st.Sound) {inode : Nat} {raw : Bytes} (binding state : PyJson) (n : Nat)
    (h : st.Written w binding.value n state.value raw) (hv : s.versions = [⟨inode, raw⟩])
    (hs : s.synced = [⟨inode, raw⟩]) :
    Inv st binding.value s := by
  refine { kept := by rw [hs]; exact List.cons_ne_nil _ _
           back := by rw [hs, hv]
           good := ?_
           chain := by rw [hv]; exact List.isChain_singleton _ }
  intro u hu
  rw [hv] at hu
  obtain rfl := List.mem_singleton.mp hu
  exact ⟨h.dumped.2, _, readState_written hst binding.sound state.sound h, pins_envelope binding.sound⟩

def sampleStore : Store :=
  { transferId := ascii "t1", policyId := ascii "p", expectedVmUuid := ascii "vm", maxStateBytes := 4096
    maxDigits := 4300, owner := fun w => .obj [(ascii "pid", .int w)], floatIs := fun _ _ => false }

theorem pyText_short {s : Text} (h : s.all (fun c => c < 127) = true) : PyText s :=
  fun c hc => Nat.lt_trans (of_decide_eq_true (List.all_eq_true.mp h c hc)) (by decide)

theorem sound_sampleStore : sampleStore.Sound :=
  { transferId := pyText_short (by decide)
    owner := fun _ => ⟨rfl, ⟨pyText_short (by decide), trivial⟩, trivial⟩
    ownerDict := fun _ => rfl }

def sampleBinding : PyJson :=
  { value := .obj [(ascii "request_digest", .str (List.replicate 64 97)), (ascii "policy_id", .str (ascii "p")),
      (ascii "vm_uuid", .str (ascii "vm")), (ascii "boot_identity", .str (ascii "b")),
      (ascii "vm_epoch", .str (ascii "1"))]
    sound := ⟨by decide, ⟨pyText_short (by decide), pyText_short (s := List.replicate 64 97) (by decide)⟩,
      ⟨pyText_short (by decide), pyText_short (s := ascii "p") (by decide)⟩,
      ⟨pyText_short (by decide), pyText_short (s := ascii "vm") (by decide)⟩,
      ⟨pyText_short (by decide), pyText_short (s := ascii "b") (by decide)⟩,
      ⟨pyText_short (by decide), pyText_short (s := ascii "1") (by decide)⟩, trivial⟩ }

def sampleState (n : Int) : PyJson :=
  { value := .obj [(ascii "n", .int n)], sound := ⟨rfl, ⟨pyText_short (by decide), trivial⟩, trivial⟩ }

def sampleRaw : Bytes :=
  ((sampleStore.encode 0 sampleBinding.value 0 (sampleState 0).value).toOption).getD []

theorem written_sampleRaw : sampleStore.Written 0 sampleBinding.value 0 (sampleState 0).value sampleRaw := by
  have hsome : (sampleStore.encode 0 sampleBinding.value 0 (sampleState 0).value).toOption.isSome = true := by
    decide +kernel
  refine { admitted := by decide +kernel, encoded := ?_ }
  unfold sampleRaw
  cases h : sampleStore.encode 0 sampleBinding.value 0 (sampleState 0).value with
  | error e =>
      rw [h] at hsome
      exact absurd hsome nofun
  | ok raw => rfl

/-- A task that was just created. -/
def sampleShared : Shared :=
  { holder := none, versions := [⟨1, sampleRaw⟩], synced := [⟨1, sampleRaw⟩], temporaries := []
    nextInode := 2 }

theorem inv_sampleShared : Inv sampleStore sampleBinding.value sampleShared :=
  inv_created sound_sampleStore sampleBinding (sampleState 0) 0 written_sampleRaw rfl rfl

def sampleSave : Call := .save sampleBinding 0 (sampleState 1)

def isEnvelope : Except Raised Answer → Bool
  | .ok (.envelope _) => true
  | _ => false

/-- One object takes the lock and saves the next state. -/
theorem no_lost_update_sample :
    ∃ p r e, (idle sampleShared).Run (rules sampleStore) p ∧ p.running 1 = some r ∧
      r.call = sampleSave ∧ r.now = .ret (.envelope e) ∧
      Saved sampleStore 1 sampleBinding.value 0 (sampleState 1).value r.start e p.shared := by
  have hlock : (perform sampleStore 1 .enterWriter).alone Outside.fine sampleShared
      = (.ok .done, { sampleShared with holder := some 1 }) := rfl
  have hsaved : isEnvelope ((perform sampleStore 1 sampleSave).alone Outside.fine
      { sampleShared with holder := some 1 }).1 = true := by decide +kernel
  generalize hx : (perform sampleStore 1 sampleSave).alone Outside.fine
      { sampleShared with holder := some 1 } = result at hsaved
  obtain ⟨x, t⟩ := result
  obtain ⟨p, hrun, -, hrunning⟩ := calls_alone hlock hx
  cases x with
  | error e => exact absurd hsaved nofun
  | ok a =>
      cases a with
      | done => exact absurd hsaved nofun
      | envelope e =>
          have hresult := (no_lost_update sampleStore sound_sampleStore sampleBinding (by decide +kernel)
            sampleShared inv_sampleShared p hrun).1 1 _ sampleBinding 0 (sampleState 1) e hrunning rfl rfl
          exact ⟨p, _, e, hrun, hrunning, rfl, rfl, hresult⟩

end TaskStore
