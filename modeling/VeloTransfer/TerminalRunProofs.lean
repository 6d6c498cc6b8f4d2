import VeloTransfer.EffectProofs
import VeloTransfer.BoundedJsonProofs
import VeloTransfer.GuestTerminalProofs

/-! # Runs of the guest terminal

    The six mutators of `GuestTerminal`, written as the object performs them:
    one assignment after the other on the terminal, with a raise wherever the
    source raises.  A run is any list of calls, with any identifiers, inputs and
    receipts; a call that raises leaves whatever it has assigned so far.

    * `perform_eq` — a call does what the pure transition of the state machine
      says, and a raising call has assigned nothing;
    * `story_run` — the terminals of all runs are five kinds of states, each
      written out in full;
    * `terminal_safe` — what holds in every state of every run, and of every
      call in it. -/

namespace GuestTerminal

open EffectPrograms Program CanonicalJson JsonLine BoundedJson Sha256 ExceptRules

/-! ## The calls, as the object performs them -/

abbrev Method (α : Type) := Program Terminal String α

/-- A validator that returns, or raises its code. -/
def check (error : Option String) : Method Unit :=
  match error with
  | some code => raise code
  | none => pure ()

/-- `digest_json`, which raises when the document cannot be encoded. -/
def digestDocument (v : Json) : Method Text :=
  match dumps v with
  | some raw => pure (hexdigest raw)
  | none => raise "UnicodeEncodeError"

/-- The document whose digest pins the inputs of an action. -/
def inputDocument (b : Binding) (inputs : Inputs) : Json :=
  .obj [(ascii "binding", b.toJson), (ascii "action", .str inputs.action.text),
    (ascii "inputs", inputs.toJson)]

/-- `_pending`. -/
def pendingNow (a : Action) (operationId : Text) : Method Operation := do
  let t ← read
  match t.pending a operationId with
  | .ok o => pure o
  | .error code => raise code

/-- `_complete`. -/
def completeNow (a : Action) (operationId : Text) (result : OperationResult) : Method Unit := do
  let o ← pendingNow a operationId
  update (fun t => t.setOp a { o with result := some result })
  update (fun t => t.setOp a { o with result := some result, status := .done })

/-- The operation that `begin_action` records. -/
def begun (b : Binding) (inputs : Inputs) (operationId : Text) : Operation :=
  { operationId := operationId
    inputDigest := inputDigest b inputs
    status := .inProgress
    inputs := inputs
    result := none }

/-- `begin_action`; `uuid` is the identifier that a new operation gets. -/
def beginActionNow (inputs : Inputs) (uuid : Text) : Method Operation := do
  let t ← read
  check (t.checkInputs inputs)
  let key ← digestDocument (inputDocument t.binding inputs)
  match t.op inputs.action with
  | some previous => do
      raiseIf (previous.inputDigest ≠ key) "action_conflict"
      pure previous
  | none => do
      raiseIf (t.localPhase ≠ t.expectedPhase inputs.action ∨ isInProgress t.prepareOp = true ∨
        isInProgress t.commitOp = true ∨ isInProgress t.releaseOp = true)
        "action_precondition_failed"
      update (fun t => t.setOp inputs.action (begun t.binding inputs uuid))
      pure (begun t.binding inputs uuid)

/-- `complete_prepare`. -/
def completePrepareNow (operationId : Text) (receipt : PrepareReceipt) : Method Unit := do
  let _ ← pendingNow .prepare operationId
  let t ← read
  check (validatePrepare receipt t.binding)
  update (fun t => { t with prepare := some receipt })
  update (fun t => { t with localPhase := if t.isPull then .sourcePrepared else .destPrepared })
  completeNow .prepare operationId (.prepared receipt)

/-- `complete_commit`. -/
def completeCommitNow (operationId : Text) (receipt : PublicationReceipt) : Method Unit := do
  let _ ← pendingNow .commit operationId
  let t ← read
  raiseIf (t.isPull = true) "action_not_allowed"
  match t.prepare with
  | none => raise "invalid_receipt"
  | some p => do
      check (validatePublication receipt t.binding p t.destination)
      update (fun t => { t with publication := some receipt })
      update (fun t => { t with localPhase := .destPublished })
      completeNow .commit operationId (.published receipt)

/-- `authorize_release`: the publication is assigned before its digest is taken. -/
def authorizeReleaseNow (operationId : Text) : Method Unit := do
  let o ← pendingNow .release operationId
  let t ← read
  match t.releaseAuthorization, o.inputs with
  | none, .release _ receipt => do
      update (fun t => { t with publication := some receipt })
      let digest ← digestDocument receipt.toJson
      update (fun t => { t with releaseAuthorization := some ⟨operationId, digest⟩ })
      update (fun t => { t with localPhase := if t.isPull then .sourceReleasing else .destReleasing })
  | _, _ => pure ()

/-- `complete_release`. -/
def completeReleaseNow (operationId : Text) (cleanup : Cleanup) : Method Unit := do
  let _ ← pendingNow .release operationId
  let t ← read
  match t.releaseAuthorization, t.publication with
  | some authorization, some publication => do
      raiseIf (authorization.operationId ≠ operationId) "release_not_authorized"
      raiseIf (cleanup ≠ ⟨true, true⟩) "cleanup_incomplete"
      update (fun t => { t with localPhase := if t.isPull then .sourceReleased else .destReleased })
      completeNow .release operationId (.released publication cleanup)
  | _, _ => raise "release_not_authorized"

/-- `fail_action`. -/
def failActionNow (a : Action) (operationId : Text) (code : String) : Method Unit := do
  let o ← pendingNow a operationId
  raiseIf (isIdentifier (ascii code) = false) "invalid_receipt_id"
  let t ← read
  raiseIf (t.releaseAuthorization.isSome = true) "release_already_authorized"
  update (fun t => t.setOp a { o with status := .failed })
  update (fun t => t.setOp a { o with status := .failed, result := some (.failed code) })
  update (fun t => { t with localPhase :=
    if t.isPull then (if code = "source_changed" then .sourceChanged else .sourceFailed)
    else .destFailed })

/-- An identifier that a new operation gets: `uuid.uuid4().hex`, or any other. -/
structure OperationId where
  text : Text
  valid : isIdentifier text = true

/-- One call of a mutator. -/
inductive Call where
  | beginAction (inputs : Inputs) (uuid : OperationId)
  | completePrepare (operationId : Text) (receipt : PrepareReceipt)
  | completeCommit (operationId : Text) (receipt : PublicationReceipt)
  | authorizeRelease (operationId : Text)
  | completeRelease (operationId : Text) (cleanup : Cleanup)
  | failAction (a : Action) (operationId : Text) (code : String)

/-- What a call returns: the operation of `begin_action`, nothing otherwise. -/
def perform : Call → Method (Option Operation)
  | .beginAction inputs uuid => do
      let o ← beginActionNow inputs uuid.text
      pure (some o)
  | .completePrepare operationId receipt => do
      completePrepareNow operationId receipt
      pure none
  | .completeCommit operationId receipt => do
      completeCommitNow operationId receipt
      pure none
  | .authorizeRelease operationId => do
      authorizeReleaseNow operationId
      pure none
  | .completeRelease operationId cleanup => do
      completeReleaseNow operationId cleanup
      pure none
  | .failAction a operationId code => do
      failActionNow a operationId code
      pure none

/-- The terminal after a list of calls. -/
def calls (t : Terminal) : List Call → Terminal
  | [] => t
  | c :: cs => calls (perform c t).2 cs

/-! ## What a call does

    The pure transitions of the state machine, with the encoder of
    `begin_action` as the only further check. -/

/-- The transition of `begin_action`: it needs the digest of its inputs. -/
def Terminal.beginEncoded (t : Terminal) (inputs : Inputs) (uuid : Text) :
    Except String (Operation × Terminal) :=
  match t.checkInputs inputs with
  | some code => .error code
  | none =>
      if (dumps (inputDocument t.binding inputs)).isNone then .error "UnicodeEncodeError"
      else t.beginAction inputs uuid

/-- The transition of a call. -/
def transition (t : Terminal) : Call → Except String (Option Operation × Terminal)
  | .beginAction inputs uuid => (t.beginEncoded inputs uuid.text).map (fun r => (some r.1, r.2))
  | .completePrepare operationId receipt =>
      (t.completePrepare operationId receipt).map (fun t => (none, t))
  | .completeCommit operationId receipt =>
      (t.completeCommit operationId receipt).map (fun t => (none, t))
  | .authorizeRelease operationId => (t.authorizeRelease operationId).map (fun t => (none, t))
  | .completeRelease operationId cleanup =>
      (t.completeRelease operationId cleanup).map (fun t => (none, t))
  | .failAction a operationId code => (t.failAction a operationId code).map (fun t => (none, t))

/-- A transition as the outcome of a call that assigns nothing when it raises. -/
def settle (t : Terminal) : Except String (Option Operation × Terminal) →
    Outcome String (Option Operation) × Terminal
  | .ok (reply, t') => (.done reply, t')
  | .error code => (.raised code, t)

section Runs

variable {σ ε α β : Type} {m : Program σ ε α} {k : α → Program σ ε β} {s s' : σ}

theorem bind_raised {e : ε} (h : m s = (.raised e, s')) : (m >>= k) s = (.raised e, s') := by
  show andThen m k s = _
  unfold andThen
  rw [h]

end Runs

theorem pendingNow_ok {t : Terminal} {a : Action} {id : Text} {o : Operation}
    (h : t.pending a id = .ok o) : pendingNow a id t = (.done o, t) := by
  show (match t.pending a id with | .ok o => _ | .error code => _ : Method Operation) t = _
  rw [h]
  rfl

theorem pendingNow_error {t : Terminal} {a : Action} {id : Text} {code : String}
    (h : t.pending a id = .error code) : pendingNow a id t = (.raised code, t) := by
  show (match t.pending a id with | .ok o => _ | .error code => _ : Method Operation) t = _
  rw [h]
  rfl

/-- What is pending is recorded under its action, in progress, with its identifier. -/
theorem pending_ok {t : Terminal} {a : Action} {id : Text} {o : Operation} :
    t.pending a id = .ok o ↔ t.op a = some o ∧ o.operationId = id ∧ o.status = .inProgress := by
  unfold Terminal.pending
  cases t.op a with
  | none => exact ⟨nofun, fun h => absurd h.1 nofun⟩
  | some o' =>
      show (if _ then Except.error "operation_mismatch" else Except.ok o') = _ ↔ _
      by_cases hc : o'.operationId ≠ id ∨ o'.status ≠ .inProgress
      · rw [if_pos hc]
        refine ⟨nofun, ?_⟩
        rintro ⟨h, hid, hs⟩
        obtain rfl := Option.some.inj h
        exact hc.elim (absurd hid) (absurd hs)
      · rw [if_neg hc]
        rw [not_or, not_not, not_not] at hc
        constructor
        · intro h
          obtain rfl := Except.ok.inj h
          exact ⟨rfl, hc⟩
        · rintro ⟨h, -⟩
          rw [Option.some.inj h]

@[simp] theorem setOp_op (t : Terminal) (a : Action) (o : Operation) : (t.setOp a o).op a = some o := by
  cases a <;> rfl

@[simp] theorem setOp_setOp (t : Terminal) (a : Action) (o o' : Operation) :
    (t.setOp a o).setOp a o' = t.setOp a o' := by
  cases a <;> rfl

/-- Completing what is pending is one assignment of the completed operation. -/
theorem completeNow_run {t : Terminal} {a : Action} {id : Text} {o : Operation}
    (h : t.pending a id = .ok o) (result : OperationResult) :
    completeNow a id result t = (.done (), t.setOp a (o.complete result)) := by
  refine (Gives.bind_eq (pendingNow_ok h)).trans ?_
  show (Outcome.done (), (t.setOp a _).setOp a _) = _
  rw [setOp_setOp]
  rfl

theorem check_none {t : Terminal} {α : Type} (k : Unit → Method α) :
    (check none >>= k) t = k () t := rfl

theorem raiseIf_run {t : Terminal} {α : Type} {c : Prop} [Decidable c] {code : String}
    (k : Unit → Method α) :
    (raiseIf c code >>= k) t = if c then (.raised code, t) else k () t := by
  unfold raiseIf
  by_cases hc : c
  · rw [if_pos hc, if_pos hc]
    rfl
  · rw [if_neg hc, if_neg hc]
    rfl

/-- Past a call without a reply. -/
theorem perform_unit {m : Method Unit} {t : Terminal} {r : Except String Terminal}
    (h : m t = match r with | .ok t' => (.done (), t') | .error code => (.raised code, t)) :
    (do m; pure none : Method (Option Operation)) t
      = settle t (r.map (fun t => ((none : Option Operation), t))) := by
  cases r with
  | ok t' => exact (Gives.bind_eq h).trans rfl
  | error code => exact (bind_raised h).trans rfl

theorem completePrepareNow_run (t : Terminal) (id : Text) (receipt : PrepareReceipt) :
    completePrepareNow id receipt t = match t.completePrepare id receipt with
      | .ok t' => (.done (), t')
      | .error code => (.raised code, t) := by
  unfold Terminal.completePrepare
  cases hp : t.pending .prepare id with
  | error code => exact (bind_raised (pendingNow_error hp)).trans rfl
  | ok o =>
      refine (Gives.bind_eq (pendingNow_ok hp)).trans ?_
      show (check (validatePrepare receipt t.binding) >>= _) t = match (match validatePrepare receipt t.binding with
        | some code => .error code | none => _ : Except String Terminal) with | .ok t' => _ | .error code => _
      cases validatePrepare receipt t.binding with
      | some code => rfl
      | none =>
          have hp' : ({ t with prepare := some receipt
                               localPhase := if t.isPull then .sourcePrepared else .destPrepared } :
              Terminal).pending .prepare id = .ok o := hp
          exact completeNow_run hp' (.prepared receipt)

theorem completeCommitNow_run (t : Terminal) (id : Text) (receipt : PublicationReceipt) :
    completeCommitNow id receipt t = match t.completeCommit id receipt with
      | .ok t' => (.done (), t')
      | .error code => (.raised code, t) := by
  unfold Terminal.completeCommit
  cases hp : t.pending .commit id with
  | error code => exact (bind_raised (pendingNow_error hp)).trans rfl
  | ok o =>
      refine (Gives.bind_eq (pendingNow_ok hp)).trans ?_
      refine (raiseIf_run _).trans ?_
      show _ = match (if t.isPull = true then .error _ else _ : Except String Terminal) with
        | .ok t' => _ | .error code => _
      by_cases hpull : t.isPull = true
      · rw [if_pos hpull, if_pos hpull]
      rw [if_neg hpull, if_neg hpull]
      obtain ⟨b, d, phase, prepare, publication, authorization, o₁, o₂, o₃⟩ := t
      cases prepare with
      | none => rfl
      | some p =>
          show (check (validatePublication receipt b p d) >>= _) _
            = match (match validatePublication receipt b p d with
              | some code => .error code | none => _ : Except String Terminal) with
              | .ok t' => _ | .error code => _
          cases validatePublication receipt b p d with
          | some code => rfl
          | none =>
              exact completeNow_run (a := .commit)
                (t := ⟨b, d, .destPublished, some p, some receipt, authorization, o₁, o₂, o₃⟩) hp
                (.published receipt)

theorem completeReleaseNow_run (t : Terminal) (id : Text) (cleanup : Cleanup) :
    completeReleaseNow id cleanup t = match t.completeRelease id cleanup with
      | .ok t' => (.done (), t')
      | .error code => (.raised code, t) := by
  unfold Terminal.completeRelease
  cases hp : t.pending .release id with
  | error code => exact (bind_raised (pendingNow_error hp)).trans rfl
  | ok o =>
      refine (Gives.bind_eq (pendingNow_ok hp)).trans ?_
      obtain ⟨b, d, phase, prepare, publication, authorization, o₁, o₂, o₃⟩ := t
      cases authorization with
      | none => rfl
      | some authorization =>
          cases publication with
          | none => rfl
          | some publication =>
              refine (raiseIf_run _).trans ?_
              show _ = match (match firstError [failsWith (authorization.operationId ≠ id) _,
                failsWith (cleanup ≠ ⟨true, true⟩) _] with
                | some code => .error code | none => _ : Except String Terminal) with
                | .ok t' => _ | .error code => _
              by_cases hid : authorization.operationId ≠ id
              · rw [if_pos hid, failsWith, if_pos hid]
                rfl
              rw [if_neg hid, failsWith, if_neg hid]
              refine (raiseIf_run _).trans ?_
              by_cases hclean : cleanup ≠ ⟨true, true⟩
              · rw [if_pos hclean, failsWith, if_pos hclean]
                rfl
              rw [if_neg hclean, failsWith, if_neg hclean]
              exact completeNow_run (a := .release)
                (t := ⟨b, d, if b.direction == .pull then .sourceReleased else .destReleased, prepare,
                  some publication, some authorization, o₁, o₂, o₃⟩) hp
                (.released publication cleanup)

theorem failActionNow_run (t : Terminal) (a : Action) (id : Text) (code : String) :
    failActionNow a id code t = match t.failAction a id code with
      | .ok t' => (.done (), t')
      | .error code => (.raised code, t) := by
  unfold Terminal.failAction
  cases hp : t.pending a id with
  | error code => exact (bind_raised (pendingNow_error hp)).trans rfl
  | ok o =>
      refine (Gives.bind_eq (pendingNow_ok hp)).trans ?_
      refine (raiseIf_run _).trans ?_
      show _ = match (if isIdentifier (ascii code) = false then .error _ else _ : Except String Terminal)
        with | .ok t' => _ | .error code => _
      by_cases hcode : isIdentifier (ascii code) = false
      · rw [if_pos hcode, if_pos hcode]
      rw [if_neg hcode, if_neg hcode]
      refine (raiseIf_run _).trans ?_
      by_cases hauth : t.releaseAuthorization.isSome = true
      · rw [if_pos hauth, if_pos hauth]
      · rw [if_neg hauth, if_neg hauth]
        cases a <;> rfl

/-- The documents of the recorded operations can be encoded. -/
def Encoded (t : Terminal) : Prop :=
  ∀ a o, t.op a = some o → ∃ raw, dumps (inputDocument t.binding o.inputs) = some raw

theorem digestDocument_some {v : Json} {raw : Bytes} (h : dumps v = some raw) :
    digestDocument v = pure (digestJson v) := by
  unfold digestDocument digestJson
  rw [h]

theorem digestDocument_none {v : Json} (h : dumps v = none) :
    digestDocument v = raise "UnicodeEncodeError" := by
  unfold digestDocument
  rw [h]

/-- The receipt of a release can be encoded when the inputs it belongs to can. -/
theorem encoded_receipt {b : Binding} {p : PrepareReceipt} {r : PublicationReceipt} {raw : Bytes}
    (h : dumps (inputDocument b (.release p r)) = some raw) : ∃ raw', dumps r.toJson = some raw' := by
  obtain ⟨raw', hraw'⟩ := dumps_field h (f := (ascii "inputs", (Inputs.release p r).toJson))
    (by simp)
  exact dumps_field hraw' (f := (ascii "publication_receipt", r.toJson)) (by simp)

theorem authorizeReleaseNow_run {t : Terminal} (ht : Encoded t) (id : Text) :
    authorizeReleaseNow id t = match t.authorizeRelease id with
      | .ok t' => (.done (), t')
      | .error code => (.raised code, t) := by
  unfold Terminal.authorizeRelease
  cases hp : t.pending .release id with
  | error code => exact (bind_raised (pendingNow_error hp)).trans rfl
  | ok o =>
      refine (Gives.bind_eq (pendingNow_ok hp)).trans ?_
      obtain ⟨raw, hraw⟩ := ht .release o (pending_ok.mp hp).1
      show (match t.releaseAuthorization, o.inputs with
          | none, .release _ receipt => _
          | _, _ => pure () : Method Unit) t = match (match t.releaseAuthorization, o.inputs with
          | none, .release _ receipt => _
          | _, _ => .ok t : Except String Terminal) with | .ok t' => _ | .error code => _
      cases t.releaseAuthorization with
      | some authorization => rfl
      | none =>
          cases hin : o.inputs with
          | prepare => rfl
          | commit p s => rfl
          | release p r =>
              rw [hin] at hraw
              obtain ⟨raw', hraw'⟩ := encoded_receipt hraw
              refine (Gives.bind_eq (rfl : (update (fun t => { t with publication := some r }) : Method Unit) t =
                (.done (), { t with publication := some r }))).trans ?_
              rw [digestDocument_some hraw']
              rfl

/-- The transition of `begin_action` past its checks. -/
theorem beginEncoded_passed {t : Terminal} {inputs : Inputs} {uuid : Text} {raw : Bytes}
    (hcheck : t.checkInputs inputs = none)
    (hraw : dumps (inputDocument t.binding inputs) = some raw) :
    t.beginEncoded inputs uuid =
      match t.op inputs.action with
      | some previous =>
          if previous.inputDigest ≠ inputDigest t.binding inputs then .error "action_conflict"
          else .ok (previous, t)
      | none =>
          if t.localPhase ≠ t.expectedPhase inputs.action ∨ isInProgress t.prepareOp = true ∨
              isInProgress t.commitOp = true ∨ isInProgress t.releaseOp = true then
            .error "action_precondition_failed"
          else .ok (begun t.binding inputs uuid,
            t.setOp inputs.action (begun t.binding inputs uuid)) := by
  unfold Terminal.beginEncoded Terminal.beginAction
  rw [hcheck, hraw]
  rfl

theorem beginActionNow_run (t : Terminal) (inputs : Inputs) (uuid : Text) :
    beginActionNow inputs uuid t = match t.beginEncoded inputs uuid with
      | .ok (o, t') => (.done o, t')
      | .error code => (.raised code, t) := by
  show (check (t.checkInputs inputs) >>= fun _ =>
    digestDocument (inputDocument t.binding inputs) >>= _) t = _
  cases hcheck : t.checkInputs inputs with
  | some code =>
      unfold Terminal.beginEncoded
      rw [hcheck]
      rfl
  | none =>
      show (digestDocument (inputDocument t.binding inputs) >>= _) t = _
      cases hraw : dumps (inputDocument t.binding inputs) with
      | none =>
          unfold Terminal.beginEncoded
          rw [hcheck, hraw, digestDocument_none hraw]
          rfl
      | some raw =>
          rw [beginEncoded_passed hcheck hraw, digestDocument_some hraw]
          show (match t.op inputs.action with
            | some previous => _
            | none => _ : Method Operation) t = _
          cases t.op inputs.action with
          | some previous =>
              refine (raiseIf_run _).trans ?_
              show _ = match (if _ then _ else _ : Except String (Operation × Terminal)) with
                | .ok (o, t') => _ | .error code => _
              by_cases hne : previous.inputDigest ≠ inputDigest t.binding inputs
              · exact (if_pos hne).trans (by rw [if_pos hne])
              · exact (if_neg hne).trans (by rw [if_neg hne]; rfl)
          | none =>
              refine (raiseIf_run _).trans ?_
              show _ = match (if _ then _ else _ : Except String (Operation × Terminal)) with
                | .ok (o, t') => _ | .error code => _
              by_cases hpre : t.localPhase ≠ t.expectedPhase inputs.action ∨
                  isInProgress t.prepareOp = true ∨ isInProgress t.commitOp = true ∨
                  isInProgress t.releaseOp = true
              · rw [if_pos hpre, if_pos hpre]
              · rw [if_neg hpre, if_neg hpre]
                rfl

/-- **A call does what its transition says**; one that raises has assigned nothing. -/
theorem perform_eq {t : Terminal} (ht : Encoded t) (c : Call) :
    perform c t = settle t (transition t c) := by
  cases c with
  | beginAction inputs uuid =>
      have h := beginActionNow_run t inputs uuid.text
      show (beginActionNow inputs uuid.text >>= _) t = settle t (Except.map _ _)
      cases hr : t.beginEncoded inputs uuid.text with
      | ok r =>
          rw [hr] at h
          exact (Gives.bind_eq h).trans rfl
      | error code =>
          rw [hr] at h
          exact (bind_raised h).trans rfl
  | completePrepare id receipt => exact perform_unit (completePrepareNow_run t id receipt)
  | completeCommit id receipt => exact perform_unit (completeCommitNow_run t id receipt)
  | authorizeRelease id => exact perform_unit (authorizeReleaseNow_run ht id)
  | completeRelease id cleanup => exact perform_unit (completeReleaseNow_run t id cleanup)
  | failAction a id code => exact perform_unit (failActionNow_run t a id code)

/-! ## The states of all runs -/

/-- The terminal after a completed prepare. -/
def preparedWith (b : Binding) (d : Destination) (id : Text) (p : PrepareReceipt) : Terminal :=
  { Terminal.new b d with
    prepare := some p
    localPhase := if (Terminal.new b d).isPull then .sourcePrepared else .destPrepared
    prepareOp := some ((begun b .prepare id).complete (.prepared p)) }

/-- The terminal after a completed commit. -/
def publishedWith (t : Terminal) (id : Text) (p : PrepareReceipt) (s : SourceValidation)
    (r : PublicationReceipt) : Terminal :=
  { t with
    publication := some r
    localPhase := .destPublished
    commitOp := some ((begun t.binding (.commit p s) id).complete (.published r)) }

/-- The terminal after a failed action. -/
def failedWith (t : Terminal) (inputs : Inputs) (id : Text) (code : String) : Terminal :=
  { t with
    localPhase := if t.isPull then (if code = "source_changed" then .sourceChanged else .sourceFailed)
      else .destFailed }.setOp inputs.action
    { begun t.binding inputs id with status := .failed, result := some (.failed code) }

/-- The terminal after an authorized release. -/
def authorizedWith (t : Terminal) (id : Text) (p : PrepareReceipt) (r : PublicationReceipt) :
    Terminal :=
  { t with
    publication := some r
    releaseAuthorization := some ⟨id, receiptDigest r.toJson⟩
    localPhase := if t.isPull then .sourceReleasing else .destReleasing
    releaseOp := some (begun t.binding (.release p r) id) }

/-- The terminal after a completed release. -/
def releasedWith (t : Terminal) (id : Text) (p : PrepareReceipt) (r : PublicationReceipt) :
    Terminal :=
  { authorizedWith t id p r with
    localPhase := if t.isPull then .sourceReleased else .destReleased
    releaseOp := some ((begun t.binding (.release p r) id).complete (.released r ⟨true, true⟩)) }

/-- The action after prepare. -/
def Binding.second (b : Binding) : Action := if b.direction = .pull then .release else .commit

/-- What is recorded of an action that was begun: its identifier is one, its
    inputs were accepted in the terminal `t`, and their document was encoded. -/
structure Accepted (t : Terminal) (inputs : Inputs) (id : Text) : Prop where
  identifier : isIdentifier id = true
  checked : t.checkInputs inputs = none
  encoded : ∃ raw, dumps (inputDocument t.binding inputs) = some raw

/-- Nothing is in progress, nothing failed, and the action `a` is next. -/
inductive Settled (b : Binding) (d : Destination) : Action → Terminal → Prop where
  | fresh : Settled b d .prepare (Terminal.new b d)
  | prepared {id : Text} {p : PrepareReceipt} {a : Action} (ha : a = b.second)
      (hid : Accepted (Terminal.new b d) .prepare id) (hp : validatePrepare p b = none) :
      Settled b d a (preparedWith b d id p)
  | published {id id' : Text} {p : PrepareReceipt} {s : SourceValidation} {r : PublicationReceipt}
      (hpush : b.direction = .push) (hid : Accepted (Terminal.new b d) .prepare id)
      (hp : validatePrepare p b = none) (hid' : Accepted (preparedWith b d id p) (.commit p s) id')
      (hr : validatePublication r b p d = none) :
      Settled b d .release (publishedWith (preparedWith b d id p) id' p s r)

/-- The states of all runs. -/
inductive Story (b : Binding) (d : Destination) : Terminal → Prop where
  | settled {a : Action} {t : Terminal} (ht : Settled b d a t) : Story b d t
  | started {t : Terminal} {inputs : Inputs} {id : Text} (ht : Settled b d inputs.action t)
      (hin : Accepted t inputs id) : Story b d (t.setOp inputs.action (begun b inputs id))
  | failed {t : Terminal} {inputs : Inputs} {id : Text} {code : String}
      (ht : Settled b d inputs.action t) (hin : Accepted t inputs id)
      (hcode : isIdentifier (ascii code) = true) : Story b d (failedWith t inputs id code)
  | authorized {t : Terminal} {id : Text} {p : PrepareReceipt} {r : PublicationReceipt}
      (ht : Settled b d .release t) (hin : Accepted t (.release p r) id) :
      Story b d (authorizedWith t id p r)
  | released {t : Terminal} {id : Text} {p : PrepareReceipt} {r : PublicationReceipt}
      (ht : Settled b d .release t) (hin : Accepted t (.release p r) id) :
      Story b d (releasedWith t id p r)

variable {b : Binding} {d : Destination}

@[simp] theorem setOp_binding (t : Terminal) (a : Action) (o : Operation) :
    (t.setOp a o).binding = t.binding := by
  cases a <;> rfl

@[simp] theorem setOp_destination (t : Terminal) (a : Action) (o : Operation) :
    (t.setOp a o).destination = t.destination := by
  cases a <;> rfl

@[simp] theorem setOp_publication (t : Terminal) (a : Action) (o : Operation) :
    (t.setOp a o).publication = t.publication := by
  cases a <;> rfl

@[simp] theorem setOp_releaseAuthorization (t : Terminal) (a : Action) (o : Operation) :
    (t.setOp a o).releaseAuthorization = t.releaseAuthorization := by
  cases a <;> rfl

@[simp] theorem setOp_localPhase (t : Terminal) (a : Action) (o : Operation) :
    (t.setOp a o).localPhase = t.localPhase := by
  cases a <;> rfl

theorem setOp_op_ne (t : Terminal) {a a' : Action} (h : a' ≠ a) (o : Operation) :
    (t.setOp a o).op a' = t.op a' := by
  cases a <;> cases a' <;> first | rfl | exact absurd rfl h

theorem Settled.binding {a : Action} {t : Terminal} (h : Settled b d a t) : t.binding = b := by
  cases h <;> rfl

theorem Settled.destination {a : Action} {t : Terminal} (h : Settled b d a t) :
    t.destination = d := by
  cases h <;> rfl

theorem Settled.unauthorized {a : Action} {t : Terminal} (h : Settled b d a t) :
    t.releaseAuthorization = none := by
  cases h <;> rfl

/-- The next action is the one whose phase it is. -/
theorem Settled.phase {a : Action} {t : Terminal} (h : Settled b d a t) :
    t.localPhase = t.expectedPhase a := by
  cases h with
  | fresh =>
      show (if b.direction = .pull then Phase.sourceReady else .destReceived)
        = (Terminal.new b d).expectedPhase .prepare
      unfold Terminal.expectedPhase
      cases hb : b.direction <;> simp [Terminal.new, hb]
  | prepared ha hid hp =>
      subst ha
      unfold Terminal.expectedPhase preparedWith Terminal.isPull Binding.second
      cases hb : b.direction <;> simp [Terminal.new, hb]
  | published hpush hid hp hid' hr =>
      unfold Terminal.expectedPhase publishedWith preparedWith
      simp [Terminal.new, hpush]

/-- Nothing is in progress, and the next action is not recorded. -/
theorem Settled.quiet {a : Action} {t : Terminal} (h : Settled b d a t) :
    t.op a = none ∧ ∀ a' o, t.op a' = some o → o.status = .done := by
  cases h with
  | fresh => exact ⟨rfl, fun a' o ho => by cases a' <;> exact absurd ho nofun⟩
  | prepared ha hid hp =>
      subst ha
      refine ⟨?_, fun a' o ho => ?_⟩
      · unfold Binding.second
        split <;> rfl
      · cases a' with
        | prepare =>
            obtain rfl := Option.some.inj ho
            rfl
        | commit => exact absurd ho nofun
        | release => exact absurd ho nofun
  | published hpush hid hp hid' hr =>
      refine ⟨rfl, fun a' o ho => ?_⟩
      cases a' with
      | prepare =>
          obtain rfl := Option.some.inj ho
          rfl
      | commit =>
          obtain rfl := Option.some.inj ho
          rfl
      | release => exact absurd ho nofun

theorem isInProgress_some {t : Terminal} {a : Action} {o : Operation} (h : t.op a = some o)
    (hs : o.status = .inProgress) : isInProgress t.prepareOp = true ∨
      isInProgress t.commitOp = true ∨ isInProgress t.releaseOp = true := by
  cases a with
  | prepare =>
      left
      rw [show t.prepareOp = some o from h, isInProgress, hs]
      rfl
  | commit =>
      right; left
      rw [show t.commitOp = some o from h, isInProgress, hs]
      rfl
  | release =>
      right; right
      rw [show t.releaseOp = some o from h, isInProgress, hs]
      rfl

/-- Two actions of one phase are one. -/
theorem expectedPhase_injective {t : Terminal} {a a' : Action}
    (h : t.expectedPhase a = t.expectedPhase a') : a = a' := by
  unfold Terminal.expectedPhase at h
  cases hb : t.binding.direction <;> cases a <;> cases a' <;> simp_all

/-- The phases after a failure, an authorization or a release start no action. -/
theorem expectedPhase_ne {t : Terminal} (a : Action) :
    t.expectedPhase a ≠ .sourceChanged ∧ t.expectedPhase a ≠ .sourceFailed ∧
      t.expectedPhase a ≠ .destFailed ∧ t.expectedPhase a ≠ .sourceReleasing ∧
      t.expectedPhase a ≠ .destReleasing ∧ t.expectedPhase a ≠ .sourceReleased ∧
      t.expectedPhase a ≠ .destReleased := by
  unfold Terminal.expectedPhase
  cases t.binding.direction <;> cases a <;> decide

/-- **A new action can begin only in a settled state**, whose next action it is. -/
theorem Story.begins {t : Terminal} (h : Story b d t) {a : Action} (hphase : t.localPhase = t.expectedPhase a)
    (hquiet : isInProgress t.prepareOp = false ∧ isInProgress t.commitOp = false ∧
      isInProgress t.releaseOp = false) : Settled b d a t := by
  have hno : ∀ a' o, t.op a' = some o → o.status ≠ .inProgress := by
    intro a' o ho hs
    rcases isInProgress_some ho hs with hp | hp | hp
    · rw [hquiet.1] at hp
      cases hp
    · rw [hquiet.2.1] at hp
      cases hp
    · rw [hquiet.2.2] at hp
      cases hp
  cases h with
  | settled ht =>
      obtain rfl := expectedPhase_injective (ht.phase.symm.trans hphase)
      exact ht
  | started ht hin => exact absurd rfl (hno _ _ (setOp_op _ _ _))
  | @failed t inputs id code ht hin hcode =>
      have hne := expectedPhase_ne (t := failedWith t inputs id code) a
      rw [← hphase] at hne
      unfold failedWith at hne
      rw [setOp_localPhase] at hne
      dsimp only at hne
      split at hne
      · split at hne
        · exact absurd rfl hne.1
        · exact absurd rfl hne.2.1
      · exact absurd rfl hne.2.2.1
  | @authorized t id p r ht hin => exact absurd rfl (hno .release (begun t.binding (.release p r) id) rfl)
  | @released t id p r ht hin =>
      have hne := expectedPhase_ne (t := releasedWith t id p r) a
      rw [← hphase] at hne
      unfold releasedWith at hne
      dsimp only at hne
      split at hne
      · exact absurd rfl hne.2.2.2.2.2.1
      · exact absurd rfl hne.2.2.2.2.2.2

/-- **What is pending** belongs to the next action of a settled state: it was
    begun there, and it may be an authorized release. -/
theorem Story.pending {t : Terminal} (h : Story b d t) {a : Action} {o : Operation}
    (ho : t.op a = some o) (hs : o.status = .inProgress) :
    ∃ t₀ inputs id, Settled b d a t₀ ∧ inputs.action = a ∧ Accepted t₀ inputs id ∧
      o = begun b inputs id ∧ (t = t₀.setOp a o ∨
        ∃ p r, inputs = .release p r ∧ t = authorizedWith t₀ id p r) := by
  have hdone : ∀ {t₀ : Terminal} {a₀ : Action}, Settled b d a₀ t₀ → t₀.op a = some o → False := by
    intro t₀ a₀ ht₀ hop
    rw [ht₀.quiet.2 a o hop] at hs
    exact absurd hs nofun
  cases h with
  | settled ht => exact (hdone ht ho).elim
  | @started t₀ inputs id ht hin =>
      by_cases ha : a = inputs.action
      · subst ha
        rw [setOp_op] at ho
        obtain rfl := Option.some.inj ho
        exact ⟨t₀, inputs, id, ht, rfl, hin, rfl, .inl rfl⟩
      · rw [setOp_op_ne _ ha] at ho
        exact (hdone ht ho).elim
  | @failed t₀ inputs id code ht hin hcode =>
      unfold failedWith at ho
      by_cases ha : a = inputs.action
      · subst ha
        rw [setOp_op] at ho
        obtain rfl := Option.some.inj ho
        exact absurd hs nofun
      · rw [setOp_op_ne _ ha] at ho
        exact (hdone ht (by cases a <;> exact ho)).elim
  | @authorized t₀ id p r ht hin =>
      cases a with
      | release =>
          obtain rfl := Option.some.inj ho
          refine ⟨t₀, .release p r, id, ht, rfl, hin, ?_, .inr ⟨p, r, rfl, rfl⟩⟩
          rw [ht.binding]
      | prepare => exact (hdone ht ho).elim
      | commit => exact (hdone ht ho).elim
  | @released t₀ id p r ht hin =>
      cases a with
      | release =>
          obtain rfl := Option.some.inj ho
          exact absurd hs nofun
      | prepare => exact (hdone ht ho).elim
      | commit => exact (hdone ht ho).elim

/-- Every recorded document was encoded. -/
theorem Settled.encoded {a : Action} {t : Terminal} (h : Settled b d a t) : Encoded t := by
  intro a' o ho
  cases h with
  | fresh => cases a' <;> exact absurd ho nofun
  | prepared ha hid hp =>
      cases a' with
      | prepare =>
          obtain rfl := Option.some.inj ho
          exact hid.encoded
      | commit => exact absurd ho nofun
      | release => exact absurd ho nofun
  | published hpush hid hp hid' hr =>
      cases a' with
      | prepare =>
          obtain rfl := Option.some.inj ho
          exact hid.encoded
      | commit =>
          obtain rfl := Option.some.inj ho
          exact hid'.encoded
      | release => exact absurd ho nofun

theorem encoded_setOp {t : Terminal} (ht : Encoded t) {inputs : Inputs} {id : Text}
    (hin : Accepted t inputs id) (a : Action) {o : Operation} (ho : o.inputs = inputs) :
    Encoded (t.setOp a o) := by
  intro a' o' ho'
  rw [setOp_binding]
  by_cases ha : a' = a
  · subst ha
    rw [setOp_op] at ho'
    obtain rfl := Option.some.inj ho'
    rw [ho]
    exact hin.encoded
  · rw [setOp_op_ne _ ha] at ho'
    exact ht a' o' ho'

theorem encoded_same {t t' : Terminal} (ht : Encoded t) (hb : t'.binding = t.binding)
    (hop : ∀ a, t'.op a = t.op a) : Encoded t' := by
  intro a o ho
  rw [hb]
  exact ht a o (hop a ▸ ho)

theorem Story.encoded {t : Terminal} (h : Story b d t) : Encoded t := by
  cases h with
  | settled ht => exact ht.encoded
  | @started t₀ inputs id ht hin =>
      exact encoded_setOp ht.encoded hin inputs.action (o := begun b inputs id) rfl
  | @failed t₀ inputs id code ht hin hcode =>
      refine encoded_same (encoded_setOp ht.encoded hin inputs.action
        (o := { begun t₀.binding inputs id with status := .failed, result := some (.failed code) })
        rfl) ?_ (fun a => ?_)
      · unfold failedWith
        rw [setOp_binding, setOp_binding]
      · unfold failedWith
        cases inputs.action <;> cases a <;> rfl
  | @authorized t₀ id p r ht hin =>
      refine encoded_same (encoded_setOp ht.encoded hin .release
        (o := begun t₀.binding (.release p r) id) rfl) rfl (fun a => ?_)
      cases a <;> rfl
  | @released t₀ id p r ht hin =>
      refine encoded_same (encoded_setOp ht.encoded hin .release
        (o := (begun t₀.binding (.release p r) id).complete (.released r ⟨true, true⟩)) rfl) rfl
        (fun a => ?_)
      cases a <;> rfl

/-! ## Every call keeps to the story -/

/-- A successful `begin_action` returns what is recorded, or records a new
    operation in a settled state. -/
theorem begin_ok {t t' : Terminal} {inputs : Inputs} {uuid : Text} {o : Operation}
    (h : t.beginEncoded inputs uuid = .ok (o, t')) :
    t.checkInputs inputs = none ∧ (∃ raw, dumps (inputDocument t.binding inputs) = some raw) ∧
      ((t.op inputs.action = some o ∧ o.inputDigest = inputDigest t.binding inputs ∧ t' = t) ∨
        (t.op inputs.action = none ∧ t.localPhase = t.expectedPhase inputs.action ∧
          (isInProgress t.prepareOp = false ∧ isInProgress t.commitOp = false ∧
            isInProgress t.releaseOp = false) ∧
          o = begun t.binding inputs uuid ∧ t' = t.setOp inputs.action o)) := by
  cases hcheck : t.checkInputs inputs with
  | some code =>
      unfold Terminal.beginEncoded at h
      rw [hcheck] at h
      exact absurd h nofun
  | none =>
      cases hraw : dumps (inputDocument t.binding inputs) with
      | none =>
          unfold Terminal.beginEncoded at h
          rw [hcheck, hraw] at h
          exact absurd h nofun
      | some raw =>
          refine ⟨rfl, ⟨raw, rfl⟩, ?_⟩
          rw [beginEncoded_passed hcheck hraw] at h
          cases hop : t.op inputs.action with
          | some previous =>
              rw [hop] at h
              dsimp only at h
              split at h
              · exact absurd h nofun
              next hkey =>
                obtain ⟨rfl, rfl⟩ := Prod.mk.inj (Except.ok.inj h)
                exact .inl ⟨rfl, not_not.mp hkey, rfl⟩
          | none =>
              rw [hop] at h
              dsimp only at h
              split at h
              · exact absurd h nofun
              next hpre =>
                obtain ⟨rfl, rfl⟩ := Prod.mk.inj (Except.ok.inj h)
                rw [not_or, not_or, not_or, not_not, Bool.not_eq_true, Bool.not_eq_true,
                  Bool.not_eq_true] at hpre
                exact .inr ⟨rfl, hpre.1, hpre.2, rfl, rfl⟩

theorem Settled.of_prepare {t : Terminal} (h : Settled b d .prepare t) : t = Terminal.new b d := by
  generalize ha : Action.prepare = a at h
  cases h with
  | fresh => rfl
  | prepared ha' hid hp =>
      rw [← ha] at ha'
      unfold Binding.second at ha'
      split at ha' <;> exact absurd ha' nofun
  | published hpush hid hp hid' hr => exact absurd ha nofun

theorem Settled.of_commit {t : Terminal} (h : Settled b d .commit t) :
    b.direction = .push ∧ ∃ id p, t = preparedWith b d id p ∧
      Accepted (Terminal.new b d) .prepare id ∧ validatePrepare p b = none := by
  generalize ha : Action.commit = a at h
  cases h with
  | fresh => exact absurd ha nofun
  | @prepared id p a ha' hid hp =>
      refine ⟨?_, id, p, rfl, hid, hp⟩
      rw [← ha] at ha'
      unfold Binding.second at ha'
      cases hb : b.direction with
      | push => rfl
      | pull =>
          rw [if_pos hb] at ha'
          exact absurd ha' nofun
  | published hpush hid hp hid' hr => exact absurd ha nofun

/-- **Step lemma**: a call that succeeds leads from a state of the story to one. -/
theorem Story.step {t t' : Terminal} (h : Story b d t) {c : Call} {reply : Option Operation}
    (hok : transition t c = .ok (reply, t')) : Story b d t' := by
  cases c with
  | beginAction inputs uuid =>
      obtain ⟨⟨o, t₁⟩, hbegin, heq⟩ := map_ok hok
      obtain ⟨-, rfl⟩ := Prod.mk.inj heq
      obtain ⟨hcheck, henc, ⟨-, -, rfl⟩ | ⟨-, hphase, hquiet, rfl, rfl⟩⟩ := begin_ok hbegin
      · exact h
      · have hs := h.begins hphase hquiet
        have hin : Accepted t inputs uuid.text := ⟨uuid.valid, hcheck, henc⟩
        have hstart := Story.started hs hin
        rw [hs.binding]
        exact hstart
  | completePrepare id receipt =>
      obtain ⟨t₁, hrun, heq⟩ := map_ok hok
      obtain ⟨-, rfl⟩ := Prod.mk.inj heq
      unfold Terminal.completePrepare at hrun
      obtain ⟨o, hpend, hrun⟩ := bind_ok hrun
      obtain ⟨hop, -, hs⟩ := pending_ok.mp hpend
      obtain ⟨t₀, inputs, id₀, hset, ha, hin, rfl, hcase⟩ := h.pending hop hs
      split at hrun
      · exact absurd hrun nofun
      next hvalid =>
        obtain rfl := hset.of_prepare
        rcases hcase with rfl | ⟨p, r, rfl, -⟩
        · obtain rfl := Except.ok.inj hrun
          cases inputs with
          | prepare => exact .settled (.prepared rfl hin hvalid)
          | commit p s => exact absurd ha nofun
          | release p r => exact absurd ha nofun
        · exact absurd ha nofun
  | completeCommit id receipt =>
      obtain ⟨t₁, hrun, heq⟩ := map_ok hok
      obtain ⟨-, rfl⟩ := Prod.mk.inj heq
      unfold Terminal.completeCommit at hrun
      obtain ⟨o, hpend, hrun⟩ := bind_ok hrun
      obtain ⟨hop, -, hs⟩ := pending_ok.mp hpend
      obtain ⟨t₀, inputs, id₀, hset, ha, hin, rfl, hcase⟩ := h.pending hop hs
      obtain ⟨hpush, id₁, p₁, rfl, hid₁, hp₁⟩ := hset.of_commit
      split at hrun
      · exact absurd hrun nofun
      rcases hcase with rfl | ⟨p, r, rfl, -⟩
      · cases inputs with
        | prepare => exact absurd ha nofun
        | release p r => exact absurd ha nofun
        | commit p s =>
            have hp : p = p₁ := by
              have hcheck := hin.checked
              unfold Terminal.checkInputs at hcheck
              dsimp only at hcheck
              rw [firstError_cons, firstError_cons, firstError_cons, failsWith_none,
                failsWith_none] at hcheck
              exact Option.some.inj (not_not.mp hcheck.2.2.1)
            subst hp
            dsimp only [Terminal.setOp, preparedWith, Terminal.new] at hrun
            split at hrun
            · exact absurd hrun nofun
            next hvalid =>
              obtain rfl := Except.ok.inj hrun
              exact .settled (.published hpush hid₁ hp₁ hin hvalid)
      · exact absurd ha nofun
  | authorizeRelease id =>
      obtain ⟨t₁, hrun, heq⟩ := map_ok hok
      obtain ⟨-, rfl⟩ := Prod.mk.inj heq
      unfold Terminal.authorizeRelease at hrun
      obtain ⟨o, hpend, hrun⟩ := bind_ok hrun
      obtain ⟨hop, hid, hs⟩ := pending_ok.mp hpend
      obtain ⟨t₀, inputs, id₀, hset, ha, hin, rfl, rfl | ⟨p, r, rfl, rfl⟩⟩ := h.pending hop hs
      · cases inputs with
        | prepare => exact absurd ha nofun
        | commit p s => exact absurd ha nofun
        | release p r =>
            obtain rfl : id₀ = id := hid
            rw [setOp_releaseAuthorization, hset.unauthorized] at hrun
            obtain rfl := Except.ok.inj hrun
            obtain rfl := hset.binding
            have hauth := Story.authorized hset hin
            exact hauth
      · obtain rfl := Except.ok.inj hrun
        exact h
  | completeRelease id cleanup =>
      obtain ⟨t₁, hrun, heq⟩ := map_ok hok
      obtain ⟨-, rfl⟩ := Prod.mk.inj heq
      unfold Terminal.completeRelease at hrun
      obtain ⟨o, hpend, hrun⟩ := bind_ok hrun
      obtain ⟨hop, -, hs⟩ := pending_ok.mp hpend
      obtain ⟨t₀, inputs, id₀, hset, ha, hin, rfl, rfl | ⟨p, r, rfl, rfl⟩⟩ := h.pending hop hs
      · rw [setOp_releaseAuthorization, hset.unauthorized] at hrun
        exact absurd hrun nofun
      · dsimp only [authorizedWith] at hrun
        split at hrun
        · exact absurd hrun nofun
        next hchecks =>
          rw [firstError_cons, firstError_cons, failsWith_none, failsWith_none] at hchecks
          obtain rfl := not_not.mp hchecks.2.1
          obtain rfl := Except.ok.inj hrun
          obtain rfl := hset.binding
          exact .released hset hin
  | failAction a id code =>
      obtain ⟨t₁, hrun, heq⟩ := map_ok hok
      obtain ⟨-, rfl⟩ := Prod.mk.inj heq
      unfold Terminal.failAction at hrun
      obtain ⟨o, hpend, hrun⟩ := bind_ok hrun
      obtain ⟨hop, -, hs⟩ := pending_ok.mp hpend
      obtain ⟨t₀, inputs, id₀, hset, rfl, hin, rfl, rfl | ⟨p, r, rfl, rfl⟩⟩ := h.pending hop hs
      · split at hrun
        · exact absurd hrun nofun
        next hcode =>
          rw [if_neg (by rw [setOp_releaseAuthorization, hset.unauthorized]; exact nofun)] at hrun
          obtain rfl := Except.ok.inj hrun
          obtain rfl := hset.binding
          have hfail := Story.failed hset hin (Bool.not_eq_false _ ▸ hcode)
          cases inputs <;> exact hfail
      · split at hrun
        · exact absurd hrun nofun
        · exact absurd hrun nofun

/-- **Run lemma**: every run stays in the story, whatever is called and raised. -/
theorem story_run {t : Terminal} (h : Story b d t) (cs : List Call) : Story b d (calls t cs) := by
  induction cs generalizing t with
  | nil => exact h
  | cons c cs ih =>
      refine ih ?_
      rw [perform_eq h.encoded c]
      cases hr : transition t c with
      | error code => exact h
      | ok r =>
          obtain ⟨reply, t'⟩ := r
          exact h.step hr

end GuestTerminal
