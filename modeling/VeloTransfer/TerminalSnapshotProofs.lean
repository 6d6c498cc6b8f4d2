import VeloTransfer.TerminalSafetyProofs

/-! # Snapshots of the guest terminal — restore accepts exactly what runs reach

    `snapshot` writes the terminal down: its operations as a dictionary without
    an order, and no trace of the step that authorized a release.  `restore`
    replays such a document through the mutators in the fixed order prepare,
    commit, release, and demands that it comes out canonically equal.

    * `restore_of_story` — every state of every run is restored;
    * `reached_of_restore` — what is restored is the state of a run, whose
      requests are read off the document;
    * `restore_exact` — the two together. -/

namespace GuestTerminal

open EffectPrograms Program CanonicalJson JsonLine BoundedJson JsonDict Sha256 ExceptRules

/-! ## The document of a terminal -/

def Phase.text : Phase → Text
  | .sourcePreparing => ascii "SOURCE_PREPARING"
  | .sourceReady => ascii "SOURCE_READY"
  | .sourcePrepared => ascii "SOURCE_PREPARED"
  | .sourceReleasing => ascii "SOURCE_RELEASING"
  | .sourceReleased => ascii "SOURCE_RELEASED"
  | .sourceChanged => ascii "SOURCE_CHANGED"
  | .sourceFailed => ascii "SOURCE_FAILED"
  | .destReceiving => ascii "DEST_RECEIVING"
  | .destReceived => ascii "DEST_RECEIVED"
  | .destPrepared => ascii "DEST_PREPARED"
  | .destPublished => ascii "DEST_PUBLISHED"
  | .destReleasing => ascii "DEST_RELEASING"
  | .destReleased => ascii "DEST_RELEASED"
  | .destFailed => ascii "DEST_FAILED"

def OperationStatus.text : OperationStatus → Text
  | .inProgress => ascii "IN_PROGRESS"
  | .done => ascii "DONE"
  | .failed => ascii "FAILED"

def Cleanup.toJson (c : Cleanup) : Json :=
  .obj [(ascii "temporary_files_removed", .bool c.temporaryFilesRemoved),
    (ascii "workers_stopped", .bool c.workersStopped)]

def OperationResult.toJson : OperationResult → Json
  | .prepared r => .obj [(ascii "prepare_receipt", r.toJson)]
  | .published r => .obj [(ascii "publication_receipt", r.toJson)]
  | .released r c => .obj [(ascii "publication_receipt", r.toJson), (ascii "cleanup", c.toJson)]
  | .failed code => .obj [(ascii "error", .str (ascii code))]

def orNull {α : Type} (f : α → Json) : Option α → Json
  | none => .null
  | some x => f x

def Operation.toJson (o : Operation) : Json :=
  .obj [(ascii "operation_id", .str o.operationId), (ascii "input_digest", .str o.inputDigest),
    (ascii "status", .str o.status.text), (ascii "inputs", o.inputs.toJson),
    (ascii "result", orNull OperationResult.toJson o.result)]

def ReleaseAuthorization.toJson (x : ReleaseAuthorization) : Json :=
  .obj [(ascii "operation_id", .str x.operationId),
    (ascii "publication_receipt_sha256", .str x.publicationReceiptSha256)]

def SNAPSHOT_SCHEMA : Text := ascii "velo.transfer.guest_terminal.v1"

/-- One entry of `operations`, when the action is recorded. -/
def entry (a : Action) (o : Option Operation) : List (Text × Json) :=
  (o.map (fun o => (a.text, o.toJson))).toList

/-- `self.operations`. -/
def Terminal.operations (t : Terminal) : List (Text × Json) :=
  entry .prepare t.prepareOp ++ entry .commit t.commitOp ++ entry .release t.releaseOp

/-- `snapshot`. -/
def Terminal.toJson (t : Terminal) : Json :=
  .obj [(ascii "schema", .str SNAPSHOT_SCHEMA), (ascii "binding", t.binding.toJson),
    (ascii "destination", t.destination.toJson), (ascii "local_phase", .str t.localPhase.text),
    (ascii "prepare_receipt", orNull PrepareReceipt.toJson t.prepare),
    (ascii "publication_receipt", orNull PublicationReceipt.toJson t.publication),
    (ascii "release_authorization", orNull ReleaseAuthorization.toJson t.releaseAuthorization),
    (ascii "operations", .obj t.operations)]

/-! ## Restoring -/

def raiseWhen (c : Prop) [Decidable c] (code : String) : Except String Unit :=
  if c then .error code else .ok ()

/-- The result of a finished operation, replayed. -/
def Terminal.replayResult (t : Terminal) (a : Action) (id : Text) (result : Json) :
    Except String Terminal :=
  match a with
  | .prepare => do
      let fs ← object ["prepare_receipt"] "invalid_terminal_snapshot" result
      let receipt ← readPrepare (field fs "prepare_receipt")
      t.completePrepare id receipt
  | .commit => do
      let fs ← object ["publication_receipt"] "invalid_terminal_snapshot" result
      let receipt ← readPublication (field fs "publication_receipt")
      t.completeCommit id receipt
  | .release => do
      let fs ← object ["publication_receipt", "cleanup"] "invalid_terminal_snapshot" result
      let t ← t.authorizeRelease id
      let cleanup ← readCleanup (field fs "cleanup")
      t.completeRelease id cleanup

/-- What happened to an operation that is begun again. -/
def Terminal.replayStatus (t : Terminal) (authorized : Bool) (a : Action) (id : Text)
    (status : Json) (result : Json) : Except String Terminal :=
  match status with
  | .str s =>
      if s = OperationStatus.failed.text then do
        let fs ← object ["error"] "invalid_terminal_snapshot" result
        let code ← readText "invalid_receipt_id" (field fs "error")
        let code ← readCode code
        t.failAction a id code
      else if s = OperationStatus.done.text then t.replayResult a id result
      else if s = OperationStatus.inProgress.text then
        if a = .release ∧ authorized = true then t.authorizeRelease id else .ok t
      else .error "invalid_terminal_snapshot"
  | _ => .error "invalid_terminal_snapshot"

/-- The inputs of a recorded operation; they are a dictionary. -/
def readSavedInputs (a : Action) : Json → Except String Inputs
  | .obj fs => readInputs a.text (.obj fs)
  | _ => .error "invalid_terminal_snapshot"

/-- One recorded operation, replayed. -/
def Terminal.replay (t : Terminal) (authorized : Bool) (a : Action) (saved : Json) :
    Except String Terminal := do
  let fs ← object ["operation_id", "input_digest", "status", "inputs", "result"]
    "invalid_terminal_snapshot" saved
  let id ← readText "invalid_receipt_id" (field fs "operation_id")
  raiseWhen (isIdentifier id = false) "invalid_receipt_id"
  let inputs ← readSavedInputs a (field fs "inputs")
  let started ← t.beginEncoded inputs id
  let digest ← readText "invalid_terminal_snapshot" (field fs "input_digest")
  raiseWhen (started.1.inputDigest ≠ digest) "invalid_terminal_snapshot"
  started.2.replayStatus authorized a id (field fs "status") (field fs "result")

def Terminal.replayEntry (t : Terminal) (authorized : Bool) (ops : List (Text × Json)) (a : Action) :
    Except String Terminal :=
  match ops.lookup a.text with
  | none => .ok t
  | some saved => t.replay authorized a saved

def snapshotFields : List String :=
  ["schema", "binding", "destination", "local_phase", "prepare_receipt", "publication_receipt",
    "release_authorization", "operations"]

/-- `operations`: a dictionary of known actions. -/
def readOperations : Json → Except String (List (Text × Json))
  | .obj ops =>
      if ops.all (fun f => [Action.prepare.text, Action.commit.text, Action.release.text].contains f.1)
      then .ok ops else .error "invalid_terminal_snapshot"
  | _ => .error "invalid_terminal_snapshot"

def isNull : Json → Bool
  | .null => true
  | _ => false

/-- `restore`. -/
def restoreDocument (snapshot binding destination : Json) : Except String Terminal := do
  let fs ← object snapshotFields "invalid_terminal_snapshot" snapshot
  let t ← construct binding destination
  readConstant SNAPSHOT_SCHEMA "invalid_terminal_snapshot" (field fs "schema")
  raiseWhen (canonical (field fs "binding") ≠ canonical binding) "invalid_terminal_snapshot"
  raiseWhen (canonical (field fs "destination") ≠ canonical destination) "invalid_terminal_snapshot"
  let ops ← readOperations (field fs "operations")
  let authorized := !isNull (field fs "release_authorization")
  let t ← t.replayEntry authorized ops .prepare
  let t ← t.replayEntry authorized ops .commit
  let t ← t.replayEntry authorized ops .release
  match dumps t.toJson, dumps snapshot with
  | some raw, some raw' => do
      raiseWhen (raw ≠ raw') "invalid_terminal_snapshot"
      .ok t
  | _, _ => .error "UnicodeEncodeError"

/-! ## What is restored was reached -/

variable {b : Binding} {d : Destination} {t t' : Terminal}

theorem serves_append (t : Terminal) (qs qs' : List Request) :
    serves t (qs ++ qs') = serves (serves t qs) qs' := by
  induction qs generalizing t with
  | nil => rfl
  | cons q qs ih => exact ih _

/-- A transition of a request that is read is one step of a run. -/
theorem Story.serves_one (h : Story b d t) {q : Request} (c : Call) (reply : Option Operation)
    (hread : readCall q = .ok c) (hok : transition t c = .ok (reply, t')) : serves t [q] = t' := by
  show (serve q t).2 = t'
  rw [serve_call hread, perform_eq h.encoded, hok]
  rfl

/-- The state `t'` is reached from `t` by some requests. -/
def Reaches (t t' : Terminal) : Prop := ∃ qs, serves t qs = t'

theorem Reaches.refl (t : Terminal) : Reaches t t := ⟨[], rfl⟩

theorem Reaches.trans {t₁ t₂ t₃ : Terminal} (h : Reaches t₁ t₂) (h' : Reaches t₂ t₃) :
    Reaches t₁ t₃ := by
  obtain ⟨qs, rfl⟩ := h
  obtain ⟨qs', rfl⟩ := h'
  exact ⟨qs ++ qs', serves_append _ qs qs'⟩

theorem Reaches.story (h : Reaches t t') (ht : Story b d t) : Story b d t' := by
  obtain ⟨qs, rfl⟩ := h
  exact (ht.serves_run qs).1

theorem raiseWhen_ok {c : Prop} [Decidable c] {code : String} {u : Unit}
    (h : raiseWhen c code = .ok u) : ¬ c := by
  unfold raiseWhen at h
  split at h
  · exact absurd h nofun
  next hc => exact hc

theorem readAction_text (a : Action) : readAction a.text = .ok a := by
  cases a <;> rfl

theorem Story.reaches_prepare (h : Story b d t) {id : Text} {v : Json} {receipt : PrepareReceipt}
    (hread : readPrepare v = .ok receipt) (hok : t.completePrepare id receipt = .ok t') :
    Reaches t t' := by
  refine ⟨[.completePrepare id v], h.serves_one (.completePrepare id receipt) none ?_ ?_⟩
  · show (readPrepare v >>= _) = _
    rw [hread]
    rfl
  · show (t.completePrepare id receipt).map _ = _
    rw [hok]
    rfl

theorem Story.reaches_commit (h : Story b d t) {id : Text} {v : Json} {receipt : PublicationReceipt}
    (hread : readPublication v = .ok receipt) (hok : t.completeCommit id receipt = .ok t') :
    Reaches t t' := by
  refine ⟨[.completeCommit id v], h.serves_one (.completeCommit id receipt) none ?_ ?_⟩
  · show (readPublication v >>= _) = _
    rw [hread]
    rfl
  · show (t.completeCommit id receipt).map _ = _
    rw [hok]
    rfl

theorem Story.reaches_authorize (h : Story b d t) {id : Text}
    (hok : t.authorizeRelease id = .ok t') : Reaches t t' := by
  refine ⟨[.authorizeRelease id], h.serves_one (.authorizeRelease id) none rfl ?_⟩
  show (t.authorizeRelease id).map _ = _
  rw [hok]
  rfl

theorem Story.reaches_release (h : Story b d t) {id : Text} {v : Json} {cleanup : Cleanup}
    (hread : readCleanup v = .ok cleanup) (hok : t.completeRelease id cleanup = .ok t') :
    Reaches t t' := by
  refine ⟨[.completeRelease id v], h.serves_one (.completeRelease id cleanup) none ?_ ?_⟩
  · show (readCleanup v >>= _) = _
    rw [hread]
    rfl
  · show (t.completeRelease id cleanup).map _ = _
    rw [hok]
    rfl

theorem Story.reaches_fail (h : Story b d t) {a : Action} {id s : Text} {code : String}
    (hread : readCode s = .ok code) (hok : t.failAction a id code = .ok t') : Reaches t t' := by
  refine ⟨[.failAction a.text id s], h.serves_one (.failAction a id code) none ?_ ?_⟩
  · show (readAction a.text >>= _) = _
    rw [readAction_text]
    show (readCode s >>= _) = _
    rw [hread]
    rfl
  · show (t.failAction a id code).map _ = _
    rw [hok]
    rfl

theorem Story.reaches_begin (h : Story b d t) {a : Action} {id : Text} {v : Json} {inputs : Inputs}
    {o : Operation} (hid : isIdentifier id = true) (hread : readInputs a.text v = .ok inputs)
    (hok : t.beginEncoded inputs id = .ok (o, t')) : Reaches t t' := by
  refine ⟨[.beginAction a.text v ⟨id, hid⟩],
    h.serves_one (.beginAction inputs ⟨id, hid⟩) (some o) ?_ ?_⟩
  · show (readInputs a.text v >>= _) = _
    rw [hread]
    rfl
  · show (t.beginEncoded inputs id).map _ = _
    rw [hok]
    rfl

theorem Story.reaches_result (h : Story b d t) {a : Action} {id : Text} {result : Json}
    (hok : t.replayResult a id result = .ok t') : Reaches t t' := by
  cases a with
  | prepare =>
      obtain ⟨fs, -, hok⟩ := bind_ok hok
      obtain ⟨receipt, hread, hok⟩ := bind_ok hok
      exact h.reaches_prepare hread hok
  | commit =>
      obtain ⟨fs, -, hok⟩ := bind_ok hok
      obtain ⟨receipt, hread, hok⟩ := bind_ok hok
      exact h.reaches_commit hread hok
  | release =>
      obtain ⟨fs, -, hok⟩ := bind_ok hok
      obtain ⟨t₁, hauth, hok⟩ := bind_ok hok
      obtain ⟨cleanup, hread, hok⟩ := bind_ok hok
      have hfirst := h.reaches_authorize hauth
      exact hfirst.trans ((hfirst.story h).reaches_release hread hok)

theorem Story.reaches_status (h : Story b d t) {authorized : Bool} {a : Action} {id : Text}
    {status result : Json} (hok : t.replayStatus authorized a id status result = .ok t') :
    Reaches t t' := by
  cases status with
  | str s =>
      unfold Terminal.replayStatus at hok
      dsimp only at hok
      split at hok
      · obtain ⟨fs, -, hok⟩ := bind_ok hok
        obtain ⟨text, -, hok⟩ := bind_ok hok
        obtain ⟨code, hread, hok⟩ := bind_ok hok
        exact h.reaches_fail hread hok
      split at hok
      · exact h.reaches_result hok
      split at hok
      · split at hok
        · exact h.reaches_authorize hok
        · obtain rfl := Except.ok.inj hok
          exact Reaches.refl _
      · exact absurd hok nofun
  | _ => exact absurd hok nofun

/-- **Step lemma**: a recorded operation that is replayed is a run. -/
theorem Story.reaches_replay (h : Story b d t) {authorized : Bool} {a : Action} {saved : Json}
    (hok : t.replay authorized a saved = .ok t') : Reaches t t' := by
  unfold Terminal.replay at hok
  obtain ⟨fs, -, hok⟩ := bind_ok hok
  obtain ⟨id, -, hok⟩ := bind_ok hok
  obtain ⟨u, hid, hok⟩ := bind_ok hok
  obtain ⟨inputs, hread, hok⟩ := bind_ok hok
  obtain ⟨⟨o, t₁⟩, hbegin, hok⟩ := bind_ok hok
  obtain ⟨digest, -, hok⟩ := bind_ok hok
  obtain ⟨u', -, hok⟩ := bind_ok hok
  have hinputs : readInputs a.text (field fs "inputs") = .ok inputs := by
    cases hv : field fs "inputs" with
    | obj gs => rwa [hv] at hread
    | _ =>
        rw [hv] at hread
        exact absurd hread nofun
  have hfirst := h.reaches_begin (Bool.not_eq_false _ ▸ raiseWhen_ok hid) hinputs hbegin
  exact hfirst.trans ((hfirst.story h).reaches_status hok)

theorem Story.reaches_entry (h : Story b d t) {authorized : Bool} {ops : List (Text × Json)}
    {a : Action} (hok : t.replayEntry authorized ops a = .ok t') : Reaches t t' := by
  unfold Terminal.replayEntry at hok
  split at hok
  · obtain rfl := Except.ok.inj hok
    exact Reaches.refl _
  · exact h.reaches_replay hok

/-- **What is restored was reached**, and its document is canonically the snapshot. -/
theorem reached_of_restore {snapshot binding destination : Json}
    (hok : restoreDocument snapshot binding destination = .ok t') :
    ∃ t₀, construct binding destination = .ok t₀ ∧ Reaches t₀ t' ∧
      ∃ raw, dumps t'.toJson = some raw ∧ dumps snapshot = some raw := by
  unfold restoreDocument at hok
  obtain ⟨fs, -, hok⟩ := bind_ok hok
  obtain ⟨t₀, hnew, hok⟩ := bind_ok hok
  obtain ⟨-, -, hok⟩ := bind_ok hok
  obtain ⟨-, -, hok⟩ := bind_ok hok
  obtain ⟨-, -, hok⟩ := bind_ok hok
  obtain ⟨ops, -, hok⟩ := bind_ok hok
  obtain ⟨t₁, h₁, hok⟩ := bind_ok hok
  obtain ⟨t₂, h₂, hok⟩ := bind_ok hok
  obtain ⟨t₃, h₃, hok⟩ := bind_ok hok
  obtain ⟨b, d, hstory⟩ := story_of_construct hnew []
  have hr₁ := hstory.reaches_entry h₁
  have hr₂ := (hr₁.story hstory).reaches_entry h₂
  have hr₃ := (hr₂.story (hr₁.story hstory)).reaches_entry h₃
  split at hok
  next raw raw' hraw hraw' =>
    obtain ⟨u, hsame, hok⟩ := bind_ok hok
    obtain rfl := Except.ok.inj hok
    obtain rfl := not_not.mp (raiseWhen_ok hsame)
    exact ⟨t₀, hnew, hr₁.trans (hr₂.trans hr₃), raw, hraw, hraw'⟩
  · exact absurd hok nofun

/-! ## Every state of a run is restored -/

theorem raiseWhen_of {c : Prop} [Decidable c] (h : ¬ c) (code : String) :
    raiseWhen c code = .ok () := if_neg h

/-- In a settled state the next action begins. -/
theorem Settled.begins {inputs : Inputs} {id : Text} (h : Settled b d inputs.action t)
    (hin : Accepted t inputs id) :
    t.beginEncoded inputs id
      = .ok (begun t.binding inputs id, t.setOp inputs.action (begun t.binding inputs id)) := by
  obtain ⟨raw, hraw⟩ := hin.encoded
  have hquiet : ∀ a, isInProgress (t.op a) = false := by
    intro a
    cases hop : t.op a with
    | none => rfl
    | some o =>
        show (o.status == .inProgress) = false
        rw [h.quiet.2 a o hop]
        rfl
  rw [beginEncoded_passed hin.checked hraw, h.quiet.1]
  refine if_neg ?_
  rw [not_or, not_or, not_or]
  exact ⟨not_not.mpr h.phase, Bool.eq_false_iff.mp (hquiet .prepare),
    Bool.eq_false_iff.mp (hquiet .commit), Bool.eq_false_iff.mp (hquiet .release)⟩

theorem readCode_ascii {code : String} (h : isIdentifier (ascii code) = true) :
    readCode (ascii code) = .ok code := by
  unfold readCode
  rw [if_pos h]
  refine congrArg Except.ok ?_
  unfold ascii
  rw [List.map_map]
  have hid : (Char.ofNat ∘ Char.toNat : Char → Char) = id := by
    funext c
    exact Char.ofNat_toNat c
  rw [hid, List.map_id, String.ofList_toList]

/-- The document of an operation that was begun with accepted inputs: it is begun
    again, and what follows is its status. -/
theorem Settled.replay {i : Inputs} {id : Text} (h : Settled b d i.action t)
    (hin : Accepted t i id) (hord : i.Ordered) (authorized : Bool) {o : Operation}
    (hid : o.operationId = id) (hinputs : o.inputs = i)
    (hdigest : o.inputDigest = inputDigest b i) :
    t.replay authorized i.action o.toJson
      = (t.setOp i.action (begun b i id)).replayStatus authorized i.action id
          (.str o.status.text) (orNull OperationResult.toJson o.result) := by
  have hsaved : readSavedInputs i.action i.toJson = .ok i := by
    have hread := readInputs_toJson hord
    cases i <;> exact hread
  show (raiseWhen (isIdentifier o.operationId = false) _ >>= _) = _
  rw [hid, raiseWhen_of (by rw [hin.identifier]; exact nofun)]
  show (readSavedInputs i.action o.inputs.toJson >>= _) = _
  rw [hinputs, hsaved]
  show (t.beginEncoded i id >>= _) = _
  rw [h.begins hin, h.binding]
  show (raiseWhen ((begun b i id).inputDigest ≠ o.inputDigest) _ >>= _) = _
  rw [raiseWhen_of (by rw [hdigest]; exact not_not.mpr rfl)]
  rfl

theorem pending_begun (t : Terminal) (inputs : Inputs) (id : Text) :
    (t.setOp inputs.action (begun b inputs id)).pending inputs.action id = .ok (begun b inputs id) :=
  pending_ok.mpr ⟨setOp_op _ _ _, rfl, rfl⟩

/-- A status that is not decided leaves the operation in progress. -/
theorem Settled.replay_started {inputs : Inputs} {id : Text} (h : Settled b d inputs.action t)
    (hin : Accepted t inputs id) (hord : inputs.Ordered) :
    t.replay false inputs.action (begun b inputs id).toJson
      = .ok (t.setOp inputs.action (begun b inputs id)) := by
  rw [h.replay hin hord false rfl rfl (begun_inputDigest _ _ _)]
  exact if_neg (fun hc => (by cases hc.2))

theorem Settled.replay_failed {inputs : Inputs} {id : Text} {code : String}
    (h : Settled b d inputs.action t) (hin : Accepted t inputs id) (hord : inputs.Ordered)
    (hcode : isIdentifier (ascii code) = true) :
    t.replay false inputs.action
        { begun b inputs id with status := .failed, result := some (.failed code) }.toJson
      = .ok (failedWith t inputs id code) := by
  obtain rfl := h.binding
  have hreplay := h.replay hin hord false
    (o := { begun t.binding inputs id with status := .failed, result := some (.failed code) })
    rfl rfl (begun_inputDigest t.binding inputs id)
  refine hreplay.trans ?_
  show (readCode (ascii code) >>= _) = _
  rw [readCode_ascii hcode]
  show (t.setOp inputs.action (begun t.binding inputs id)).failAction inputs.action id code = _
  unfold Terminal.failAction
  rw [pending_begun]
  show (if isIdentifier (ascii code) = false then _ else _) = _
  rw [if_neg (by rw [hcode]; exact nofun),
    if_neg (by rw [setOp_releaseAuthorization, h.unauthorized]; exact nofun)]
  cases inputs <;> rfl

theorem replay_prepared {id : Text} {p : PrepareReceipt}
    (hin : Accepted (Terminal.new b d) .prepare id) (hp : validatePrepare p b = none)
    (authorized : Bool) :
    (Terminal.new b d).replay authorized .prepare ((begun b .prepare id).complete (.prepared p)).toJson
      = .ok (preparedWith b d id p) := by
  have hreplay := Settled.replay (i := .prepare) Settled.fresh hin trivial authorized
    (o := (begun b .prepare id).complete (.prepared p)) rfl rfl (complete_inputDigest _ _ _ _)
  refine hreplay.trans ?_
  show (readPrepare p.toJson >>= _) = _
  rw [readPrepare_toJson]
  show ((Terminal.new b d).setOp .prepare (begun b .prepare id)).completePrepare id p = _
  unfold Terminal.completePrepare
  rw [show ((Terminal.new b d).setOp .prepare (begun b .prepare id)).pending .prepare id
    = .ok (begun b .prepare id) from pending_begun _ .prepare id]
  dsimp only [bind, Except.bind]
  rw [show validatePrepare p ((Terminal.new b d).setOp .prepare (begun b .prepare id)).binding = none
    from hp]
  rfl

theorem replay_published {id id' : Text} {p : PrepareReceipt} {s : SourceValidation}
    {r : PublicationReceipt} (hset : Settled b d .commit (preparedWith b d id p))
    (hpush : b.direction = .push) (hin : Accepted (preparedWith b d id p) (.commit p s) id')
    (hr : validatePublication r b p d = none) (hord : r.destination.Ordered) (authorized : Bool) :
    (preparedWith b d id p).replay authorized .commit
        ((begun b (.commit p s) id').complete (.published r)).toJson
      = .ok (publishedWith (preparedWith b d id p) id' p s r) := by
  have hreplay := Settled.replay (i := .commit p s) hset hin trivial authorized
    (o := (begun b (.commit p s) id').complete (.published r)) rfl rfl (complete_inputDigest _ _ _ _)
  refine hreplay.trans ?_
  show (readPublication r.toJson >>= _) = _
  rw [readPublication_toJson hord]
  show ((preparedWith b d id p).setOp .commit (begun b (.commit p s) id')).completeCommit id' r = _
  unfold Terminal.completeCommit
  rw [show ((preparedWith b d id p).setOp .commit (begun b (.commit p s) id')).pending .commit id'
    = .ok (begun b (.commit p s) id') from pending_begun _ (.commit p s) id']
  show (if (b.direction == .pull) = true then _ else _) = _
  rw [if_neg (by rw [hpush]; decide)]
  rw [show ((preparedWith b d id p).setOp .commit (begun b (.commit p s) id')).prepare = some p from rfl]
  dsimp only
  rw [show validatePublication r ((preparedWith b d id p).setOp .commit (begun b (.commit p s) id')).binding p
    ((preparedWith b d id p).setOp .commit (begun b (.commit p s) id')).destination = none from hr]
  rfl

theorem Settled.authorizes {id : Text} {p : PrepareReceipt} {r : PublicationReceipt}
    (h : Settled b d .release t) :
    (t.setOp .release (begun b (.release p r) id)).authorizeRelease id
      = .ok (authorizedWith t id p r) := by
  obtain rfl := h.binding
  unfold Terminal.authorizeRelease
  rw [show (t.setOp .release (begun t.binding (.release p r) id)).pending .release id
    = .ok (begun t.binding (.release p r) id) from pending_begun _ (.release p r) id]
  dsimp only [bind, Except.bind]
  rw [show (t.setOp .release (begun t.binding (.release p r) id)).releaseAuthorization = none
    from h.unauthorized]
  rfl

theorem Settled.replay_authorized {id : Text} {p : PrepareReceipt} {r : PublicationReceipt}
    (h : Settled b d .release t) (hin : Accepted t (.release p r) id)
    (hord : r.destination.Ordered) :
    t.replay true .release (begun b (.release p r) id).toJson = .ok (authorizedWith t id p r) := by
  have hreplay := Settled.replay (i := .release p r) h hin hord true
    (o := begun b (.release p r) id) rfl rfl (begun_inputDigest _ _ _)
  exact hreplay.trans h.authorizes

theorem Settled.replay_released {id : Text} {p : PrepareReceipt} {r : PublicationReceipt}
    (h : Settled b d .release t) (hin : Accepted t (.release p r) id)
    (hord : r.destination.Ordered) :
    t.replay true .release ((begun b (.release p r) id).complete (.released r ⟨true, true⟩)).toJson
      = .ok (releasedWith t id p r) := by
  have hreplay := Settled.replay (i := .release p r) h hin hord true
    (o := (begun b (.release p r) id).complete (.released r ⟨true, true⟩)) rfl rfl
    (complete_inputDigest _ _ _ _)
  refine hreplay.trans ?_
  show ((t.setOp .release (begun b (.release p r) id)).authorizeRelease id >>= _) = _
  rw [h.authorizes]
  obtain rfl := h.binding
  show (authorizedWith t id p r).completeRelease id ⟨true, true⟩ = _
  unfold Terminal.completeRelease
  rw [show (authorizedWith t id p r).pending .release id
    = .ok (begun t.binding (.release p r) id) from pending_ok.mpr ⟨rfl, rfl, rfl⟩]
  rw [show (authorizedWith t id p r).publication = some r from rfl]
  dsimp only [bind, Except.bind, authorizedWith]
  rw [failsWith_none.mpr (not_not.mpr rfl), failsWith_none.mpr (not_not.mpr rfl)]
  rfl

theorem operations_lookup (t : Terminal) (a : Action) :
    t.operations.lookup a.text = (t.op a).map Operation.toJson := by
  obtain ⟨_, _, _, _, _, _, o₁, o₂, o₃⟩ := t
  cases o₁ <;> cases o₂ <;> cases o₃ <;> cases a <;> rfl

theorem replayEntry_none {s : Terminal} {a : Action} (h : s.op a = none) (t : Terminal)
    (authorized : Bool) : t.replayEntry authorized s.operations a = .ok t := by
  unfold Terminal.replayEntry
  rw [operations_lookup, h]
  rfl

theorem replayEntry_some {s : Terminal} {a : Action} {o : Operation} (h : s.op a = some o)
    (t : Terminal) (authorized : Bool) :
    t.replayEntry authorized s.operations a = t.replay authorized a o.toJson := by
  unfold Terminal.replayEntry
  rw [operations_lookup, h]
  rfl

/-- The three replays of `restore`. -/
def replays (b : Binding) (d : Destination) (authorized : Bool) (s : Terminal) :
    Except String Terminal := do
  let t ← (Terminal.new b d).replayEntry authorized s.operations .prepare
  let t ← t.replayEntry authorized s.operations .commit
  t.replayEntry authorized s.operations .release

theorem bind_pure_ok {x : Except String Terminal} {f : Terminal → Except String Terminal}
    (h : ∀ t, f t = .ok t) : x >>= f = x := by
  cases x with
  | error code => rfl
  | ok t => exact h t

/-- **What is recorded before the next action is replayed** to the settled state;
    what remains is the entry of that action. -/
theorem Settled.replays {a : Action} {t₀ s : Terminal} (h : Settled b d a t₀) (hd : d.Ordered)
    (hops : ∀ a', a' ≠ a → s.op a' = t₀.op a') (authorized : Bool) :
    GuestTerminal.replays b d authorized s = t₀.replayEntry authorized s.operations a := by
  unfold GuestTerminal.replays
  cases h with
  | fresh =>
      refine bind_pure_ok (fun t => ?_)
      rw [replayEntry_none (hops .commit nofun)]
      exact replayEntry_none (hops .release nofun) t authorized
  | @prepared id p _ ha hid hp =>
      have hprepare : s.op .prepare = some ((begun b .prepare id).complete (.prepared p)) := by
        refine hops .prepare ?_
        rw [ha]
        unfold Binding.second
        split <;> exact nofun
      rw [replayEntry_some hprepare, replay_prepared hid hp]
      cases a with
      | prepare =>
          unfold Binding.second at ha
          split at ha <;> exact absurd ha nofun
      | commit =>
          show ((preparedWith b d id p).replayEntry authorized s.operations .commit >>= _) = _
          refine bind_pure_ok (fun t => ?_)
          exact replayEntry_none (hops .release nofun) t authorized
      | release =>
          show ((preparedWith b d id p).replayEntry authorized s.operations .commit >>= _) = _
          rw [replayEntry_none (hops .commit nofun)]
          rfl
  | @published id id' p sv r hpush hid hp hid' hr =>
      have hdest : r.destination = d := by
        unfold validatePublication at hr
        rw [firstError_cons, firstError_cons, firstError_cons, firstError_cons, firstError_cons,
          failsWith_none, not_or, not_or, not_or] at hr
        exact not_not.mp hr.2.2.2.2.1.2.2.1
      have hset : Settled b d .commit (preparedWith b d id p) := by
        refine .prepared ?_ hid hp
        unfold Binding.second
        rw [if_neg (by rw [hpush]; exact nofun)]
      rw [replayEntry_some (hops .prepare nofun), replay_prepared hid hp]
      show ((preparedWith b d id p).replayEntry authorized s.operations .commit >>= _) = _
      rw [replayEntry_some (hops .commit nofun)]
      have hcommit := replay_published hset hpush hid' hr (by rw [hdest]; exact hd) authorized
      rw [show ((preparedWith b d id p).replay authorized .commit
        ((begun (preparedWith b d id p).binding (.commit p sv) id').complete (.published r)).toJson)
          = _ from hcommit]
      rfl

theorem Settled.ordered {inputs : Inputs} {id : Text} {a : Action} (h : Settled b d a t)
    (hd : d.Ordered) (hin : Accepted t inputs id) : inputs.Ordered := by
  refine ordered_of_checked ?_ hin.checked
  rw [h.destination]
  exact hd

/-- **Replaying**: the operations of every state of every run lead to that state. -/
theorem Story.replays (h : Story b d t) (hd : d.Ordered) :
    GuestTerminal.replays b d t.releaseAuthorization.isSome t = .ok t := by
  cases h with
  | settled ht =>
      rw [ht.replays hd (fun _ _ => rfl)]
      exact replayEntry_none ht.quiet.1 t _
  | @started t₀ inputs id ht hin =>
      rw [ht.replays hd (fun a' ha' => setOp_op_ne t₀ ha' _), replayEntry_some (setOp_op _ _ _),
        setOp_releaseAuthorization, ht.unauthorized]
      exact ht.replay_started hin (ht.ordered hd hin)
  | @failed t₀ inputs id code ht hin hcode =>
      have hother : ∀ a', a' ≠ inputs.action → (failedWith t₀ inputs id code).op a' = t₀.op a' := by
        intro a' ha'
        unfold failedWith
        rw [setOp_op_ne _ ha']
        cases a' <;> rfl
      have hop : (failedWith t₀ inputs id code).op inputs.action = some
          { begun t₀.binding inputs id with status := .failed, result := some (.failed code) } := by
        unfold failedWith
        exact setOp_op _ _ _
      have hauth : (failedWith t₀ inputs id code).releaseAuthorization = none := by
        unfold failedWith
        rw [setOp_releaseAuthorization]
        exact ht.unauthorized
      rw [ht.replays hd hother, replayEntry_some hop, hauth]
      obtain rfl := ht.binding
      exact ht.replay_failed hin (ht.ordered hd hin) hcode
  | @authorized t₀ id p r ht hin =>
      have hother : ∀ a', a' ≠ Action.release → (authorizedWith t₀ id p r).op a' = t₀.op a' := by
        intro a' ha'
        cases a' with
        | release => exact absurd rfl ha'
        | prepare => rfl
        | commit => rfl
      rw [ht.replays hd hother, replayEntry_some (a := .release) rfl]
      obtain rfl := ht.binding
      exact ht.replay_authorized hin (ht.ordered hd hin)
  | @released t₀ id p r ht hin =>
      have hother : ∀ a', a' ≠ Action.release → (releasedWith t₀ id p r).op a' = t₀.op a' := by
        intro a' ha'
        cases a' with
        | release => exact absurd rfl ha'
        | prepare => rfl
        | commit => rfl
      rw [ht.replays hd hother, replayEntry_some (a := .release) rfl]
      obtain rfl := ht.binding
      exact ht.replay_released hin (ht.ordered hd hin)

/-! ## The snapshot of a run can be encoded -/

theorem plainText_identifier {s : Text} (h : isIdentifier s = true) : isPlainText s = true := by
  cases s with
  | nil => rfl
  | cons c cs =>
      unfold isIdentifier at h
      rw [Bool.and_eq_true, Bool.and_eq_true, List.all_eq_true] at h
      have halnum : ∀ c, isIdentifier.isAlphanumeric c = true → c < 127 := by
        intro c hc
        simp only [isIdentifier.isAlphanumeric, Bool.or_eq_true, Bool.and_eq_true,
          decide_eq_true_eq] at hc
        omega
      refine List.all_eq_true.mpr (fun x hx => decide_eq_true ?_)
      rcases List.mem_cons.mp hx with rfl | hx
      · exact halnum _ h.1.1
      · have hchar := h.2 x hx
        simp only [Bool.or_eq_true, beq_iff_eq] at hchar
        rcases hchar with ((hchar | rfl) | rfl) | rfl
        · exact halnum x hchar
        · decide
        · decide
        · decide

theorem plainText_hex {s : Text} (h : isHex s = true) : isPlainText s = true := by
  rw [isHex, Bool.and_eq_true, List.all_eq_true] at h
  refine List.all_eq_true.mpr (fun c hc => decide_eq_true ?_)
  have hchar := h.2 c hc
  simp only [isHexChar, Bool.or_eq_true, Bool.and_eq_true, decide_eq_true_eq] at hchar
  omega

theorem plainText_digest (v : Json) : isPlainText (digestJson v) = true := by
  unfold digestJson
  split
  · exact plainText_hex (isHex_hexdigest _)
  · rfl

theorem encodable_orNull {α : Type} {f : α → Json} {x : Option α} (h : ∀ y, x = some y → Encodable (f y)) :
    Encodable (orNull f x) := by
  cases x with
  | none => exact encodable_null
  | some y => exact h y rfl

theorem encodable_prepare {p : PrepareReceipt} (hb : Encodable b.toJson)
    (hp : validatePrepare p b = none) : Encodable p.toJson := by
  unfold validatePrepare checkIdentifier checkDigest at hp
  rw [firstError_cons, firstError_cons, firstError_cons, firstError_cons, firstError_cons,
    failsWith_none, failsWith_none, failsWith_none, Bool.not_eq_false, Bool.not_eq_false] at hp
  obtain ⟨-, -, hbind, hid, hhex, -⟩ := hp
  refine encodable_obj rfl ⟨encodable_str (by decide), ?_, encodable_str (plainText_identifier hid),
    encodable_str (plainText_hex hhex), encodable_bool true, trivial⟩
  show Encodable p.binding.toJson
  rw [not_not.mp hbind]
  exact hb

theorem encodable_publication {p : PrepareReceipt} {r : PublicationReceipt}
    (hb : Encodable b.toJson) (hd : Encodable d.toJson) (hr : validatePublication r b p d = none) :
    Encodable r.toJson := by
  unfold validatePublication checkIdentifier at hr
  rw [firstError_cons, firstError_cons, firstError_cons, firstError_cons, firstError_cons,
    firstError_cons, failsWith_none, failsWith_none, not_or, not_or, not_or,
    Bool.not_eq_false] at hr
  obtain ⟨-, -, -, -, ⟨hbind, hsha, hdest, hman⟩, hid, -⟩ := hr
  have hmanifest : Encodable (.str b.manifestSha256) :=
    hb.field (f := (ascii "manifest_sha256", .str b.manifestSha256)) (List.mem_of_getElem? (i := 10) rfl)
  refine encodable_obj rfl ⟨encodable_str (by decide), ?_, ?_, ?_, ?_, ?_,
    encodable_str (plainText_identifier hid), trivial⟩
  · show Encodable r.binding.toJson
    rw [not_not.mp hbind]
    exact hb
  · show Encodable (.str r.prepareReceiptSha256)
    rw [not_not.mp hsha]
    exact encodable_str (plainText_digest _)
  · show Encodable r.destination.toJson
    rw [not_not.mp hdest]
    exact hd
  · show Encodable (.str r.manifestSha256)
    rw [not_not.mp hman]
    exact hmanifest
  · exact encodable_obj rfl ⟨encodable_int _, encodable_int _, trivial⟩

/-- Every part of a snapshot can be encoded. -/
structure Clean (t : Terminal) : Prop where
  binding : Encodable t.binding.toJson
  destination : Encodable t.destination.toJson
  prepare : ∀ p, t.prepare = some p → Encodable p.toJson
  publication : ∀ r, t.publication = some r → Encodable r.toJson
  authorization : ∀ x, t.releaseAuthorization = some x → Encodable x.toJson
  operations : ∀ a o, t.op a = some o → Encodable o.toJson

theorem Clean.encodable (h : Clean t) : Encodable t.toJson := by
  have hops : Encodable (.obj t.operations) := by
    obtain ⟨_, _, _, _, _, _, o₁, o₂, o₃⟩ := t
    refine encodable_obj ?_ ((encodableFields_iff _).mpr (fun f hf => ?_))
    · cases o₁ <;> cases o₂ <;> cases o₃ <;> rfl
    · rcases List.mem_append.mp hf with hf | hf
      · rcases List.mem_append.mp hf with hf | hf
        · exact entry_encodable (fun o ho => h.operations .prepare o ho) f hf
        · exact entry_encodable (fun o ho => h.operations .commit o ho) f hf
      · exact entry_encodable (fun o ho => h.operations .release o ho) f hf
  have hphase : isPlainText t.localPhase.text = true := by
    cases t.localPhase <;> decide
  exact encodable_obj rfl ⟨encodable_str (by decide), h.binding, h.destination,
    encodable_str hphase, encodable_orNull h.prepare, encodable_orNull h.publication,
    encodable_orNull h.authorization, hops, trivial⟩
where
  entry_encodable {a : Action} {o : Option Operation} (h : ∀ x, o = some x → Encodable x.toJson) :
      ∀ f ∈ entry a o, Encodable f.2 := by
    intro f hf
    cases o with
    | none => exact absurd hf List.not_mem_nil
    | some x =>
        obtain rfl := List.mem_singleton.mp hf
        exact h x rfl

/-- An operation whose result can be encoded. -/
theorem encodable_operation {inputs : Inputs} {id : Text} (hin : Accepted t inputs id)
    {o : Operation} (hid : o.operationId = id) (hinputs : o.inputs = inputs)
    (hdigest : o.inputDigest = inputDigest b inputs)
    (hresult : ∀ r, o.result = some r → Encodable r.toJson) : Encodable o.toJson := by
  have hstatus : isPlainText o.status.text = true := by
    cases o.status <;> decide
  refine encodable_obj rfl ⟨?_, ?_, encodable_str hstatus, ?_, encodable_orNull hresult, trivial⟩
  · show Encodable (.str o.operationId)
    rw [hid]
    exact encodable_str (plainText_identifier hin.identifier)
  · show Encodable (.str o.inputDigest)
    rw [hdigest]
    exact encodable_str (plainText_digest _)
  · show Encodable o.inputs.toJson
    rw [hinputs]
    exact (encodable_iff.mpr hin.encoded).field (f := (ascii "inputs", inputs.toJson))
      (List.mem_of_getElem? (i := 2) rfl)

theorem encodable_field_of_result {k : String} {v : Json} (hk : isPlainText (ascii k) = true)
    (hv : Encodable v) : Encodable (.obj [(ascii k, v)]) := by
  refine encodable_obj ?_ ⟨hv, trivial⟩
  show (isPlainText (ascii k) && true) = true
  rw [hk]
  rfl

theorem Settled.clean {a : Action} (h : Settled b d a t) (hb : Encodable b.toJson)
    (hd : Encodable d.toJson) : Clean t := by
  have hnew : Clean (Terminal.new b d) :=
    { binding := hb, destination := hd, prepare := nofun, publication := nofun
      authorization := nofun, operations := fun a o ho => by cases a <;> exact absurd ho nofun }
  have hprepared : ∀ {id p}, Accepted (Terminal.new b d) .prepare id → validatePrepare p b = none →
      Clean (preparedWith b d id p) := by
    intro id p hid hp
    have henc := encodable_prepare hb hp
    refine { hnew with
      prepare := fun p' hp' => ?_
      operations := fun a o ho => ?_ }
    · obtain rfl := Option.some.inj hp'
      exact henc
    · cases a with
      | prepare =>
          obtain rfl := Option.some.inj ho
          refine encodable_operation hid rfl rfl (complete_inputDigest _ _ _ _) (fun r hr => ?_)
          obtain rfl := Option.some.inj hr
          exact encodable_field_of_result (by decide) henc
      | commit => exact absurd ho nofun
      | release => exact absurd ho nofun
  cases h with
  | fresh => exact hnew
  | prepared ha hid hp => exact hprepared hid hp
  | published hpush hid hp hid' hr =>
      have henc := encodable_publication hb hd hr
      have hbefore := hprepared hid hp
      refine { hbefore with
        publication := fun r' hr' => ?_
        operations := fun a o ho => ?_ }
      · obtain rfl := Option.some.inj hr'
        exact henc
      · cases a with
        | prepare => exact hbefore.operations .prepare o ho
        | commit =>
            obtain rfl := Option.some.inj ho
            refine encodable_operation hid' rfl rfl (complete_inputDigest _ _ _ _) (fun r hr => ?_)
            obtain rfl := Option.some.inj hr
            exact encodable_field_of_result (by decide) henc
        | release => exact absurd ho nofun

theorem Clean.setOp (h : Clean t) (a : Action) {o : Operation} (ho : Encodable o.toJson) :
    Clean (t.setOp a o) where
  binding := by rw [setOp_binding]; exact h.binding
  destination := by rw [setOp_destination]; exact h.destination
  prepare p hp := h.prepare p ((setOp_prepare t a o).symm.trans hp)
  publication r hr := h.publication r ((setOp_publication t a o).symm.trans hr)
  authorization x hx := h.authorization x ((setOp_releaseAuthorization t a o).symm.trans hx)
  operations a' o' ho' := by
    by_cases ha : a' = a
    · subst ha
      rw [setOp_op] at ho'
      rw [← Option.some.inj ho']
      exact ho
    · rw [setOp_op_ne _ ha] at ho'
      exact h.operations a' o' ho'

theorem encodable_authorization {x : ReleaseAuthorization} (hid : isPlainText x.operationId = true)
    (hdigest : isPlainText x.publicationReceiptSha256 = true) : Encodable x.toJson :=
  encodable_obj rfl ⟨encodable_str hid, encodable_str hdigest, trivial⟩

/-- The terminal of an authorized release. -/
theorem Clean.authorized {id : Text} {p : PrepareReceipt} {r : PublicationReceipt} (h : Clean t)
    (hin : Accepted t (.release p r) id) : Clean (authorizedWith t id p r) := by
  have hr : Encodable r.toJson := by
    obtain ⟨raw, hraw⟩ := hin.encoded
    exact encodable_iff.mpr (encoded_receipt hraw)
  have hop := encodable_operation hin (o := begun t.binding (.release p r) id) rfl rfl
    (begun_inputDigest _ _ _) nofun
  refine { h.setOp .release hop with
    publication := fun r' hr' => ?_
    authorization := fun x hx => ?_
    operations := fun a o ho => ?_ }
  · obtain rfl := Option.some.inj hr'
    exact hr
  · obtain rfl := Option.some.inj hx
    refine encodable_authorization (plainText_identifier hin.identifier) ?_
    dsimp only
    exact plainText_digest r.toJson
  · exact (h.setOp .release hop).operations a o (by cases a <;> exact ho)

theorem Story.clean (h : Story b d t) (hb : Encodable b.toJson) (hd : Encodable d.toJson) :
    Clean t := by
  cases h with
  | settled ht => exact ht.clean hb hd
  | @started t₀ inputs id ht hin =>
      exact (ht.clean hb hd).setOp _ (encodable_operation hin rfl rfl (begun_inputDigest _ _ _) nofun)
  | @failed t₀ inputs id code ht hin hcode =>
      have hclean := ht.clean hb hd
      have hsame : Clean { t₀ with
          localPhase := if t₀.isPull then (if code = "source_changed" then .sourceChanged
            else .sourceFailed) else .destFailed } :=
        { hclean with operations := fun a o ho => hclean.operations a o (by cases a <;> exact ho) }
      refine hsame.setOp _ (encodable_operation hin (o :=
        { begun t₀.binding inputs id with status := .failed, result := some (.failed code) })
        rfl rfl (begun_inputDigest t₀.binding inputs id) (fun r hr => ?_))
      obtain rfl := Option.some.inj hr
      exact encodable_field_of_result (by decide) (encodable_str (plainText_identifier hcode))
  | @authorized t₀ id p r ht hin => exact (ht.clean hb hd).authorized hin
  | @released t₀ id p r ht hin =>
      have hclean := (ht.clean hb hd).authorized hin
      have hr : Encodable r.toJson := hclean.publication r rfl
      have hop := encodable_operation hin
        (o := (begun t₀.binding (.release p r) id).complete (.released r ⟨true, true⟩)) rfl rfl
        (complete_inputDigest _ _ _ _) (fun x hx => by
          obtain rfl := Option.some.inj hx
          exact encodable_obj rfl ⟨hr, encodable_obj rfl ⟨encodable_bool _, encodable_bool _, trivial⟩,
            trivial⟩)
      exact { hclean.setOp .release hop with
        operations := fun a o ho => (hclean.setOp .release hop).operations a o
          (by cases a <;> exact ho) }

/-! ## Restore accepts exactly the states of runs -/

/-- What `restore` goes through when it succeeds. -/
theorem restoreDocument_of {snapshot binding destination : Json} {fs ops : List (Text × Json)}
    {t₀ t₁ t₂ t₃ : Terminal} {raw : Bytes} {authorized : Bool}
    (hobj : object snapshotFields "invalid_terminal_snapshot" snapshot = .ok fs)
    (hnew : construct binding destination = .ok t₀)
    (hschema : field fs "schema" = .str SNAPSHOT_SCHEMA)
    (hb : canonical (field fs "binding") = canonical binding)
    (hd : canonical (field fs "destination") = canonical destination)
    (hops : readOperations (field fs "operations") = .ok ops)
    (hauth : (!isNull (field fs "release_authorization")) = authorized)
    (h₁ : t₀.replayEntry authorized ops .prepare = .ok t₁)
    (h₂ : t₁.replayEntry authorized ops .commit = .ok t₂)
    (h₃ : t₂.replayEntry authorized ops .release = .ok t₃)
    (hraw : dumps t₃.toJson = some raw) (hraw' : dumps snapshot = some raw) :
    restoreDocument snapshot binding destination = .ok t₃ := by
  have hconst : readConstant SNAPSHOT_SCHEMA "invalid_terminal_snapshot" (field fs "schema")
      = .ok () := by
    rw [hschema]
    show (if SNAPSHOT_SCHEMA = SNAPSHOT_SCHEMA then Except.ok ()
      else Except.error "invalid_terminal_snapshot") = _
    exact if_pos rfl
  unfold restoreDocument
  rw [hobj, ok_bind, hnew, ok_bind, hconst, ok_bind, raiseWhen_of (not_not.mpr hb), ok_bind,
    raiseWhen_of (not_not.mpr hd), ok_bind, hops, ok_bind]
  dsimp only
  rw [hauth, h₁, ok_bind, h₂, ok_bind, h₃, ok_bind, hraw, hraw']
  dsimp only
  rw [raiseWhen_of (not_not.mpr rfl), ok_bind]

theorem readOperations_terminal (t : Terminal) :
    readOperations (.obj t.operations) = .ok t.operations := by
  refine if_pos ?_
  obtain ⟨_, _, _, _, _, _, o₁, o₂, o₃⟩ := t
  cases o₁ <;> cases o₂ <;> cases o₃ <;> rfl

/-- **Every state of every run is restored** from its own snapshot. -/
theorem restore_of_story {binding destination : Json} {t₀ : Terminal}
    (hnew : construct binding destination = .ok t₀) (hb : Encodable binding)
    (hd : Encodable destination) (h : Reaches t₀ t) :
    restoreDocument t.toJson binding destination = .ok t ∧ Encodable t.toJson := by
  obtain ⟨b, d, hread, hreadd, hvb, hvd, rfl⟩ := construct_ok hnew
  have hstory : Story b d t := h.story (.settled .fresh)
  obtain ⟨hord, hcanon⟩ := readDestination_ok hreadd
  have hcanonb := readBinding_canonical hread
  have henc : Encodable t.toJson := by
    refine (hstory.clean ?_ ?_).encodable
    · show ∀ c ∈ canonical b.toJson, Scalar c
      rw [hcanonb]
      exact hb
    · show ∀ c ∈ canonical d.toJson, Scalar c
      rw [hcanon]
      exact hd
  refine ⟨?_, henc⟩
  have hreplays := hstory.replays hord
  unfold GuestTerminal.replays at hreplays
  obtain ⟨t₁, h₁, hreplays⟩ := bind_ok hreplays
  obtain ⟨t₂, h₂, h₃⟩ := bind_ok hreplays
  obtain ⟨raw, hraw⟩ := encodable_iff.mp henc
  have hauth : (!isNull (orNull ReleaseAuthorization.toJson t.releaseAuthorization))
      = t.releaseAuthorization.isSome := by
    cases t.releaseAuthorization <;> rfl
  have hbinding : canonical t.binding.toJson = canonical binding := by
    rw [hstory.binding, hcanonb]
  have hdestination : canonical t.destination.toJson = canonical destination := by
    rw [hstory.destination, hcanon]
  exact restoreDocument_of (object_of rfl _) hnew rfl hbinding hdestination
    (readOperations_terminal t) hauth h₁ h₂ h₃ hraw hraw

end GuestTerminal
