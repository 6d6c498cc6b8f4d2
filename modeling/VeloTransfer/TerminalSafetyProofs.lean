import VeloTransfer.TerminalDocumentProofs

/-! # Safety of the guest terminal — every state, every request

    The states of all runs are known in full (`Story`), so what holds of each of
    them is read off, and what one request does to them is one case analysis
    over the transitions (`Story.grows`).  A request that raises has assigned
    nothing; one that returns keeps the publication, the authorization and every
    operation that is finished. -/

namespace GuestTerminal

open EffectPrograms Program CanonicalJson JsonLine BoundedJson JsonDict Sha256 ExceptRules

variable {b : Binding} {d : Destination} {t t' : Terminal}

/-- `SOURCE_RELEASED` or `DEST_RELEASED`. -/
def Terminal.isReleased (t : Terminal) : Prop :=
  t.localPhase = .sourceReleased ∨ t.localPhase = .destReleased

/-! ## What is recorded of each operation -/

/-- The check of inputs reads four fields of the terminal. -/
theorem checkInputs_congr (hb : t'.binding = t.binding) (hd : t'.destination = t.destination)
    (hp : t'.prepare = t.prepare) {inputs : Inputs}
    (hr : inputs.action = .release → t'.publication = t.publication) :
    t'.checkInputs inputs = t.checkInputs inputs := by
  unfold Terminal.checkInputs
  cases inputs with
  | prepare => rfl
  | commit p s => dsimp only; rw [hb, hp]
  | release p r => dsimp only; rw [hb, hd, hp, hr rfl]

@[simp] theorem setOp_prepare (t : Terminal) (a : Action) (o : Operation) :
    (t.setOp a o).prepare = t.prepare := by
  cases a <;> rfl

theorem checkInputs_setOp (a : Action) (o : Operation) (inputs : Inputs) :
    (t.setOp a o).checkInputs inputs = t.checkInputs inputs :=
  checkInputs_congr (setOp_binding t a o) (setOp_destination t a o) (setOp_prepare t a o)
    (fun _ => setOp_publication t a o)

/-- The record of an operation: its action, its digest, and inputs that are
    still accepted. -/
structure Recorded (t : Terminal) (a : Action) (o : Operation) : Prop where
  action : o.inputs.action = a
  digest : o.inputDigest = inputDigest t.binding o.inputs
  checked : t.checkInputs o.inputs = none

/-- A change elsewhere keeps the record of an operation. -/
theorem Recorded.transfer {a : Action} {o : Operation} (h : Recorded t a o)
    (hb : t'.binding = t.binding) (hd : t'.destination = t.destination)
    (hp : t'.prepare = t.prepare) (hr : a = .release → t'.publication = t.publication) :
    Recorded t' a o where
  action := h.action
  digest := by rw [hb]; exact h.digest
  checked := (checkInputs_congr hb hd hp (fun hact => hr (h.action.symm.trans hact))).trans h.checked

theorem begun_inputDigest (b : Binding) (i : Inputs) (id : Text) :
    (begun b i id).inputDigest = inputDigest b i := by
  unfold begun
  rfl

theorem complete_inputDigest (b : Binding) (i : Inputs) (id : Text) (r : OperationResult) :
    ((begun b i id).complete r).inputDigest = inputDigest b i := by
  unfold Operation.complete
  exact begun_inputDigest b i id

/-- The record of an operation that was begun, whatever became of it. -/
theorem Recorded.of_begun {i : Inputs} {o : Operation} (hb : t.binding = b) (hin : o.inputs = i)
    (hdigest : o.inputDigest = inputDigest b i) (hcheck : t.checkInputs i = none) :
    Recorded t i.action o where
  action := congrArg Inputs.action hin
  digest := by rw [hin, hb]; exact hdigest
  checked := by rw [hin]; exact hcheck

theorem Settled.recorded {a₀ : Action} (h : Settled b d a₀ t) {a : Action} {o : Operation}
    (ho : t.op a = some o) : Recorded t a o := by
  cases h with
  | fresh => cases a <;> exact absurd ho nofun
  | @prepared id p _ ha hid hp =>
      cases a with
      | prepare =>
          obtain rfl := Option.some.inj ho
          exact .of_begun (i := .prepare) rfl rfl (complete_inputDigest _ _ _ _) rfl
      | commit => exact absurd ho nofun
      | release => exact absurd ho nofun
  | @published id id' p s r hpush hid hp hid' hr =>
      cases a with
      | prepare =>
          obtain rfl := Option.some.inj ho
          exact .of_begun (i := .prepare) rfl rfl (complete_inputDigest _ _ _ _) rfl
      | commit =>
          obtain rfl := Option.some.inj ho
          refine .of_begun (i := .commit p s) rfl rfl (complete_inputDigest _ _ _ _) (Eq.trans ?_ hid'.checked)
          exact checkInputs_congr rfl rfl rfl (fun hact => absurd hact nofun)
      | release => exact absurd ho nofun

/-- A release of a settled state is for the publication that there is, if any. -/
theorem Accepted.publication {id : Text} {p : PrepareReceipt} {r : PublicationReceipt}
    (h : Accepted t (.release p r) id) : t.binding.direction = .push → t.publication = some r := by
  intro hpush
  have hcheck := h.checked
  unfold Terminal.checkInputs at hcheck
  dsimp only at hcheck
  rw [firstError_cons, firstError_cons, firstError_cons, firstError_cons, failsWith_none,
    failsWith_none] at hcheck
  exact (not_not.mp (fun hne => hcheck.2.2.2.1 ⟨hpush, hne⟩)).symm

theorem Accepted.prepare {id : Text} {p : PrepareReceipt} {r : PublicationReceipt}
    (h : Accepted t (.release p r) id) : t.prepare = some p := by
  have hcheck := h.checked
  unfold Terminal.checkInputs at hcheck
  dsimp only at hcheck
  rw [firstError_cons, firstError_cons, failsWith_none] at hcheck
  exact (not_not.mp hcheck.2.1).symm

/-- With the publication of the release in place, its inputs are accepted. -/
theorem Accepted.checked_authorized {id : Text} {p : PrepareReceipt} {r : PublicationReceipt}
    (h : Accepted t (.release p r) id) (hb : t'.binding = t.binding)
    (hd : t'.destination = t.destination) (hp : t'.prepare = t.prepare)
    (hr : t'.publication = some r) : t'.checkInputs (.release p r) = none := by
  have hcheck := h.checked
  unfold Terminal.checkInputs at hcheck ⊢
  dsimp only at hcheck ⊢
  rw [firstError_cons, firstError_cons, firstError_cons, firstError_cons] at hcheck ⊢
  rw [hb, hd, hp, hr]
  refine ⟨hcheck.1, hcheck.2.1, hcheck.2.2.1, ?_, rfl⟩
  exact failsWith_none.mpr (fun hne => hne.2 rfl)

theorem Story.recorded (h : Story b d t) {a : Action} {o : Operation} (ho : t.op a = some o) :
    Recorded t a o := by
  cases h with
  | settled ht => exact ht.recorded ho
  | @started t₀ inputs id ht hin =>
      by_cases ha : a = inputs.action
      · subst ha
        rw [setOp_op] at ho
        obtain rfl := Option.some.inj ho
        exact .of_begun ((setOp_binding _ _ _).trans ht.binding) rfl (begun_inputDigest _ _ _)
          ((checkInputs_setOp _ _ _).trans hin.checked)
      · rw [setOp_op_ne _ ha] at ho
        exact (ht.recorded ho).transfer (setOp_binding _ _ _) (setOp_destination _ _ _)
          (setOp_prepare _ _ _) (fun _ => setOp_publication _ _ _)
  | @failed t₀ inputs id code ht hin hcode =>
      obtain ⟨b₀, d₀, phase, p₀, r₀, auth, o₁, o₂, o₃⟩ := t₀
      have hrec : ∀ a o, (failedWith ⟨b₀, d₀, phase, p₀, r₀, auth, o₁, o₂, o₃⟩ inputs id code).op a
          = some o → a ≠ inputs.action → Recorded ⟨b₀, d₀, phase, p₀, r₀, auth, o₁, o₂, o₃⟩ a o := by
        intro a o ho ha
        unfold failedWith at ho
        rw [setOp_op_ne _ ha] at ho
        exact ht.recorded (by cases a <;> exact ho)
      by_cases ha : a = inputs.action
      · subst ha
        unfold failedWith at ho ⊢
        rw [setOp_op] at ho
        obtain rfl := Option.some.inj ho
        exact .of_begun (setOp_binding _ _ _) rfl (begun_inputDigest b₀ inputs id)
          ((checkInputs_setOp _ _ _).trans
            ((checkInputs_congr rfl rfl rfl (fun _ => rfl)).trans hin.checked))
      · refine (hrec a o ho ha).transfer ?_ ?_ ?_ (fun _ => ?_) <;> unfold failedWith
        · rw [setOp_binding]
        · rw [setOp_destination]
        · rw [setOp_prepare]
        · rw [setOp_publication]
  | @authorized t₀ id p r ht hin =>
      cases a with
      | release =>
          obtain rfl := Option.some.inj ho
          exact .of_begun (i := .release p r) rfl rfl (begun_inputDigest _ _ _)
            (hin.checked_authorized rfl rfl rfl rfl)
      | prepare => exact (ht.recorded (a := .prepare) ho).transfer rfl rfl rfl nofun
      | commit => exact (ht.recorded (a := .commit) ho).transfer rfl rfl rfl nofun
  | @released t₀ id p r ht hin =>
      cases a with
      | release =>
          obtain rfl := Option.some.inj ho
          exact .of_begun (i := .release p r) rfl rfl (complete_inputDigest _ _ _ _)
            (hin.checked_authorized rfl rfl rfl rfl)
      | prepare => exact (ht.recorded (a := .prepare) ho).transfer rfl rfl rfl nofun
      | commit => exact (ht.recorded (a := .commit) ho).transfer rfl rfl rfl nofun

theorem Story.binding (h : Story b d t) : t.binding = b := by
  cases h with
  | settled ht => exact ht.binding
  | started ht hin => exact (setOp_binding _ _ _).trans ht.binding
  | failed ht hin hcode =>
      unfold failedWith
      exact (setOp_binding _ _ _).trans ht.binding
  | authorized ht hin => exact ht.binding
  | released ht hin => exact ht.binding

theorem Story.destination (h : Story b d t) : t.destination = d := by
  cases h with
  | settled ht => exact ht.destination
  | started ht hin => exact (setOp_destination _ _ _).trans ht.destination
  | failed ht hin hcode =>
      unfold failedWith
      exact (setOp_destination _ _ _).trans ht.destination
  | authorized ht hin => exact ht.destination
  | released ht hin => exact ht.destination

/-! ## What is in progress, authorized, released -/

/-- **At most one operation is in progress.** -/
theorem Story.only_one (h : Story b d t) {a a' : Action} {o o' : Operation} (ho : t.op a = some o)
    (hs : o.status = .inProgress) (ho' : t.op a' = some o') (hs' : o'.status = .inProgress) :
    a' = a := by
  by_contra hne
  obtain ⟨t₀, inputs, id, hset, rfl, hin, rfl, rfl | ⟨p, r, rfl, rfl⟩⟩ := h.pending ho hs
  · rw [setOp_op_ne _ hne] at ho'
    rw [hset.quiet.2 a' o' ho'] at hs'
    exact absurd hs' nofun
  · have hold : t₀.op a' = some o' := by
      cases a' with
      | release => exact absurd rfl hne
      | prepare => exact ho'
      | commit => exact ho'
    rw [hset.quiet.2 a' o' hold] at hs'
    exact absurd hs' nofun

theorem Settled.not_released {a : Action} (h : Settled b d a t) : ¬ t.isReleased := by
  have hne := expectedPhase_ne (t := t) a
  rw [← h.phase] at hne
  exact fun hr => hr.elim hne.2.2.2.2.2.1 hne.2.2.2.2.2.2

/-- A released terminal was authorized, for the release that is done. -/
theorem Story.released_inv (h : Story b d t) (hr : t.isReleased) :
    ∃ t₀ id p r, Settled b d .release t₀ ∧ Accepted t₀ (.release p r) id ∧
      t = releasedWith t₀ id p r := by
  cases h with
  | settled ht => exact absurd hr ht.not_released
  | started ht hin =>
      refine absurd ?_ ht.not_released
      unfold Terminal.isReleased at hr ⊢
      rwa [setOp_localPhase] at hr
  | @failed t₀ inputs id code ht hin hcode =>
      unfold Terminal.isReleased failedWith at hr
      rw [setOp_localPhase] at hr
      dsimp only at hr
      split at hr
      · split at hr <;> exact hr.elim nofun nofun
      · exact hr.elim nofun nofun
  | @authorized t₀ id p r ht hin =>
      unfold Terminal.isReleased authorizedWith at hr
      dsimp only at hr
      split at hr <;> exact hr.elim nofun nofun
  | @released t₀ id p r ht hin => exact ⟨t₀, id, p, r, ht, hin, rfl⟩

/-- With an authorization the release is in progress or done. -/
theorem Story.authorized_inv (h : Story b d t) {authorization : ReleaseAuthorization}
    (ha : t.releaseAuthorization = some authorization) :
    ∃ t₀ id p r, Settled b d .release t₀ ∧ Accepted t₀ (.release p r) id ∧
      (t = authorizedWith t₀ id p r ∨ t = releasedWith t₀ id p r) := by
  cases h with
  | settled ht =>
      rw [ht.unauthorized] at ha
      exact absurd ha nofun
  | started ht hin =>
      rw [setOp_releaseAuthorization, ht.unauthorized] at ha
      exact absurd ha nofun
  | failed ht hin hcode =>
      unfold failedWith at ha
      rw [setOp_releaseAuthorization] at ha
      exact absurd (ht.unauthorized.symm.trans ha) nofun
  | @authorized t₀ id p r ht hin => exact ⟨t₀, id, p, r, ht, hin, .inl rfl⟩
  | @released t₀ id p r ht hin => exact ⟨t₀, id, p, r, ht, hin, .inr rfl⟩

/-- In a settled state whose next action is the release, everything before it is done. -/
theorem Settled.before_release (h : Settled b d .release t) {p : PrepareReceipt}
    (hp : t.prepare = some p) :
    (∃ o, t.prepareOp = some o ∧ o.status = .done ∧ o.result = some (.prepared p)) ∧
      (t.binding.direction = .push → ∃ r o, t.publication = some r ∧ t.commitOp = some o ∧
        o.status = .done ∧ o.result = some (.published r)) := by
  generalize ha : Action.release = a at h
  cases h with
  | fresh => exact absurd ha nofun
  | prepared ha' hid hp' =>
      obtain rfl := Option.some.inj hp
      refine ⟨⟨_, rfl, rfl, rfl⟩, fun hpush => ?_⟩
      rw [← ha] at ha'
      unfold Binding.second at ha'
      rw [if_neg (fun hpull => absurd (hpull.symm.trans hpush) nofun)] at ha'
      exact absurd ha' nofun
  | published hpush hid hp' hid' hr =>
      obtain rfl := Option.some.inj hp
      exact ⟨⟨_, rfl, rfl, rfl⟩, fun _ => ⟨_, _, rfl, rfl, rfl, rfl⟩⟩

theorem Story.not_released (h : Story b d t) {a : Action} {o : Operation} (ho : t.op a = some o)
    (hs : o.status = .inProgress) : ¬ t.isReleased := by
  intro hr
  obtain ⟨t₀, id, p, r, hset, hin, rfl⟩ := h.released_inv hr
  cases a with
  | release =>
      obtain rfl := Option.some.inj ho
      exact absurd hs nofun
  | prepare =>
      rw [hset.quiet.2 .prepare o ho] at hs
      exact absurd hs nofun
  | commit =>
      rw [hset.quiet.2 .commit o ho] at hs
      exact absurd hs nofun

/-! ## What a request keeps -/

/-- What a later state keeps of an earlier one. -/
structure Grows (t t' : Terminal) : Prop where
  /-- The publication never changes. -/
  publication : ∀ r, t.publication = some r → t'.publication = some r
  /-- An authorization never changes. -/
  authorization : ∀ x, t.releaseAuthorization = some x → t'.releaseAuthorization = some x
  /-- An operation that is done or failed stays as it is. -/
  finished : ∀ a o, t.op a = some o → o.status ≠ .inProgress → t'.op a = some o
  /-- An operation keeps its identifier and its inputs. -/
  kept : ∀ a o, t.op a = some o →
    ∃ o', t'.op a = some o' ∧ o'.operationId = o.operationId ∧ o'.inputs = o.inputs
  /-- A released terminal is final. -/
  final : t.isReleased → t' = t

theorem Grows.refl (t : Terminal) : Grows t t where
  publication _ h := h
  authorization _ h := h
  finished _ _ h _ := h
  kept _ o h := ⟨o, h, rfl, rfl⟩
  final _ := rfl

theorem Grows.trans {t₁ t₂ t₃ : Terminal} (h : Grows t₁ t₂) (h' : Grows t₂ t₃) : Grows t₁ t₃ where
  publication r hr := h'.publication r (h.publication r hr)
  authorization x hx := h'.authorization x (h.authorization x hx)
  finished a o ho hs := h'.finished a o (h.finished a o ho hs) hs
  kept a o ho := by
    obtain ⟨o₂, ho₂, hid₂, hin₂⟩ := h.kept a o ho
    obtain ⟨o₃, ho₃, hid₃, hin₃⟩ := h'.kept a o₂ ho₂
    exact ⟨o₃, ho₃, hid₃.trans hid₂, hin₃.trans hin₂⟩
  final hr := (h'.final ((h.final hr).symm ▸ hr)).trans (h.final hr)

/-- A change of the operation in progress, and of nothing else that is recorded. -/
theorem Story.grows_pending (h : Story b d t) {a : Action} {o o' : Operation}
    (ho : t.op a = some o) (hs : o.status = .inProgress) (ho' : t'.op a = some o')
    (hid : o'.operationId = o.operationId) (hin : o'.inputs = o.inputs)
    (hother : ∀ a', a' ≠ a → t'.op a' = t.op a')
    (hpub : ∀ r, t.publication = some r → t'.publication = some r)
    (hauth : ∀ x, t.releaseAuthorization = some x → t'.releaseAuthorization = some x) :
    Grows t t' where
  publication := hpub
  authorization := hauth
  finished a₁ o₁ ho₁ hs₁ := by
    refine (hother a₁ (fun ha => hs₁ ?_)).trans ho₁
    rw [ha, ho] at ho₁
    rw [← Option.some.inj ho₁]
    exact hs
  kept a₁ o₁ ho₁ := by
    by_cases ha : a₁ = a
    · rw [ha, ho] at ho₁
      obtain rfl := Option.some.inj ho₁
      exact ⟨o', ha ▸ ho', hid, hin⟩
    · exact ⟨o₁, (hother a₁ ha).trans ho₁, rfl, rfl⟩
  final hr := absurd hr (h.not_released ho hs)

/-- A release in progress that is not yet authorized is for the publication that
    there is, if any. -/
theorem Settled.publication_of_release (h : Settled b d .release t) {id : Text}
    {p : PrepareReceipt} {r r' : PublicationReceipt} (hin : Accepted t (.release p r) id)
    (hr : t.publication = some r') : r' = r := by
  have hpush := hin.publication
  generalize ha : Action.release = a at h
  cases h with
  | fresh => exact absurd ha nofun
  | prepared ha' hid hp => exact absurd hr nofun
  | published hdir hid hp hid' hr' => exact Option.some.inj (hr.symm.trans (hpush hdir))

/-- **Step lemma**: what a request that returns keeps. -/
theorem Story.grows (h : Story b d t) {c : Call} {reply : Option Operation}
    (hok : transition t c = .ok (reply, t')) : Grows t t' := by
  cases c with
  | beginAction inputs uuid =>
      obtain ⟨⟨o, t₁⟩, hbegin, heq⟩ := map_ok hok
      obtain ⟨-, rfl⟩ := Prod.mk.inj heq
      obtain ⟨hcheck, henc, ⟨-, -, rfl⟩ | ⟨hnone, hphase, hquiet, rfl, rfl⟩⟩ := begin_ok hbegin
      · exact Grows.refl _
      · have hset := h.begins hphase hquiet
        have hop : ∀ a o, t.op a = some o →
            (t.setOp inputs.action (begun t.binding inputs uuid.text)).op a = some o := by
          intro a o ho
          refine (setOp_op_ne t (fun ha => ?_) _).trans ho
          rw [ha, hnone] at ho
          exact absurd ho nofun
        exact {
          publication := fun r hr => (setOp_publication t _ _).trans hr
          authorization := fun x hx => (setOp_releaseAuthorization t _ _).trans hx
          finished := fun a o ho _ => hop a o ho
          kept := fun a o ho => ⟨o, hop a o ho, rfl, rfl⟩
          final := fun hr => absurd hr hset.not_released }
  | completePrepare id receipt =>
      obtain ⟨t₁, hrun, heq⟩ := map_ok hok
      obtain ⟨-, rfl⟩ := Prod.mk.inj heq
      unfold Terminal.completePrepare at hrun
      obtain ⟨o, hpend, hrun⟩ := bind_ok hrun
      obtain ⟨hop, -, hs⟩ := pending_ok.mp hpend
      split at hrun
      · exact absurd hrun nofun
      · obtain rfl := Except.ok.inj hrun
        refine h.grows_pending hop hs rfl rfl rfl (fun a' ha' => ?_) (fun r hr => hr) (fun x hx => hx)
        cases a' with
        | prepare => exact absurd rfl ha'
        | commit => rfl
        | release => rfl
  | completeCommit id receipt =>
      obtain ⟨t₁, hrun, heq⟩ := map_ok hok
      obtain ⟨-, rfl⟩ := Prod.mk.inj heq
      unfold Terminal.completeCommit at hrun
      obtain ⟨o, hpend, hrun⟩ := bind_ok hrun
      obtain ⟨hop, -, hs⟩ := pending_ok.mp hpend
      have hpub : t.publication = none := by
        obtain ⟨t₀, inputs, id₀, hset, ha, hin, rfl, rfl | ⟨p, r, rfl, rfl⟩⟩ := h.pending hop hs
        · obtain ⟨-, id₁, p₁, rfl, -, -⟩ := hset.of_commit
          exact setOp_publication _ _ _
        · exact absurd ha nofun
      split at hrun
      · exact absurd hrun nofun
      split at hrun
      · exact absurd hrun nofun
      split at hrun
      · exact absurd hrun nofun
      · obtain rfl := Except.ok.inj hrun
        refine h.grows_pending hop hs rfl rfl rfl (fun a' ha' => ?_) (fun r hr => ?_) (fun x hx => hx)
        · cases a' with
          | commit => exact absurd rfl ha'
          | prepare => rfl
          | release => rfl
        · exact absurd (hpub.symm.trans hr) nofun
  | authorizeRelease id =>
      obtain ⟨t₁, hrun, heq⟩ := map_ok hok
      obtain ⟨-, rfl⟩ := Prod.mk.inj heq
      unfold Terminal.authorizeRelease at hrun
      obtain ⟨o, hpend, hrun⟩ := bind_ok hrun
      obtain ⟨hop, -, hs⟩ := pending_ok.mp hpend
      split at hrun
      next hauth hinputs =>
        obtain ⟨t₀, inputs, id₀, hset, ha, hin, rfl, rfl | ⟨p', r', rfl, rfl⟩⟩ := h.pending hop hs
        · obtain rfl : inputs = .release _ _ := hinputs
          obtain rfl := Except.ok.inj hrun
          refine h.grows_pending hop hs rfl rfl rfl (fun a' ha' => ?_) (fun r hr => ?_) (fun x hx => ?_)
          · cases a' with
            | release => exact absurd rfl ha'
            | prepare => rfl
            | commit => rfl
          · rw [setOp_publication] at hr
            rw [hset.publication_of_release hin hr]
          · exact absurd (hauth.symm.trans hx) nofun
        · exact absurd hauth nofun
      · obtain rfl := Except.ok.inj hrun
        exact Grows.refl t
  | completeRelease id cleanup =>
      obtain ⟨t₁, hrun, heq⟩ := map_ok hok
      obtain ⟨-, rfl⟩ := Prod.mk.inj heq
      unfold Terminal.completeRelease at hrun
      obtain ⟨o, hpend, hrun⟩ := bind_ok hrun
      obtain ⟨hop, -, hs⟩ := pending_ok.mp hpend
      split at hrun
      · split at hrun
        · exact absurd hrun nofun
        · obtain rfl := Except.ok.inj hrun
          refine h.grows_pending hop hs rfl rfl rfl (fun a' ha' => ?_) (fun r hr => hr) (fun x hx => hx)
          cases a' with
          | release => exact absurd rfl ha'
          | prepare => rfl
          | commit => rfl
      · exact absurd hrun nofun
  | failAction a id code =>
      obtain ⟨t₁, hrun, heq⟩ := map_ok hok
      obtain ⟨-, rfl⟩ := Prod.mk.inj heq
      unfold Terminal.failAction at hrun
      obtain ⟨o, hpend, hrun⟩ := bind_ok hrun
      obtain ⟨hop, -, hs⟩ := pending_ok.mp hpend
      split at hrun
      · exact absurd hrun nofun
      split at hrun
      · exact absurd hrun nofun
      · obtain rfl := Except.ok.inj hrun
        refine h.grows_pending hop hs (setOp_op _ _ _) rfl rfl (fun a' ha' => ?_) (fun r hr => ?_)
          (fun x hx => ?_)
        · rw [setOp_op_ne _ ha']
          cases a' <;> rfl
        · exact (setOp_publication _ _ _).trans hr
        · exact (setOp_releaseAuthorization _ _ _).trans hx

/-! ## Requests -/

theorem serve_call {q : Request} {c : Call} (h : readCall q = .ok c) : serve q = perform c := by
  unfold serve
  rw [h]

theorem serve_refused {q : Request} {code : String} (h : readCall q = .error code) :
    serve q t = (.raised code, t) := by
  unfold serve
  rw [h]
  rfl

/-- What a request can do: raise and leave the terminal, or make a transition. -/
theorem Story.serve_cases (h : Story b d t) (q : Request) :
    (∃ code, serve q t = (.raised code, t)) ∨
      ∃ c reply t', readCall q = .ok c ∧ transition t c = .ok (reply, t') ∧
        serve q t = (.done reply, t') := by
  cases hq : readCall q with
  | error code => exact .inl ⟨code, serve_refused hq⟩
  | ok c =>
      rw [serve_call hq, perform_eq h.encoded c]
      cases hr : transition t c with
      | error code => exact .inl ⟨code, rfl⟩
      | ok r =>
          obtain ⟨reply, t'⟩ := r
          exact .inr ⟨c, reply, t', rfl, hr, rfl⟩

/-- **Step lemma** for requests. -/
theorem Story.serve_step (h : Story b d t) (q : Request) :
    Story b d (serve q t).2 ∧ Grows t (serve q t).2 := by
  rcases h.serve_cases q with ⟨code, hq⟩ | ⟨c, reply, t', -, hok, hq⟩
  · rw [hq]
    exact ⟨h, Grows.refl t⟩
  · rw [hq]
    exact ⟨h.step hok, h.grows hok⟩

/-- **Run lemma** for requests. -/
theorem Story.serves_run (h : Story b d t) (qs : List Request) :
    Story b d (serves t qs) ∧ Grows t (serves t qs) := by
  induction qs generalizing t with
  | nil => exact ⟨h, Grows.refl t⟩
  | cons q qs ih =>
      obtain ⟨hstory, hgrows⟩ := h.serve_step q
      obtain ⟨hlast, hrest⟩ := ih hstory
      exact ⟨hlast, hgrows.trans hrest⟩

/-- The terminals that the constructor makes start the story. -/
theorem construct_ok {binding destination : Json} (h : construct binding destination = .ok t) :
    ∃ b d, readBinding binding = .ok b ∧ readDestination destination = .ok d ∧
      validateBinding b = none ∧ validateDestination d b.direction = none ∧ t = Terminal.new b d := by
  unfold construct at h
  obtain ⟨b, hb, h⟩ := bind_ok h
  split at h
  · exact absurd h nofun
  next hvb =>
    obtain ⟨d, hd, h⟩ := bind_ok h
    split at h
    · exact absurd h nofun
    next hvd => exact ⟨b, d, hb, hd, hvb, hvd, (Except.ok.inj h).symm⟩

theorem story_of_construct {binding destination : Json}
    (h : construct binding destination = .ok t) (qs : List Request) :
    ∃ b d, Story b d (serves t qs) := by
  obtain ⟨b, d, -, -, -, -, rfl⟩ := construct_ok h
  exact ⟨b, d, ((Story.settled Settled.fresh).serves_run qs).1⟩

/-! ## The same inputs again, and others -/

/-- Two input documents with different bytes and one SHA-256 digest. -/
def Collision (b : Binding) (inputs inputs' : Inputs) : Prop :=
  ∃ raw raw', dumps (inputDocument b inputs) = some raw ∧
    dumps (inputDocument b inputs') = some raw' ∧ raw ≠ raw' ∧ hexdigest raw = hexdigest raw'

theorem inputDigest_eq {b : Binding} {inputs : Inputs} {raw : Bytes}
    (h : dumps (inputDocument b inputs) = some raw) : inputDigest b inputs = hexdigest raw := by
  have hdigest : digestJson (inputDocument b inputs) = hexdigest raw := by
    unfold digestJson
    rw [h]
  exact hdigest

/-- The inputs of a recorded action return what is recorded. -/
theorem Story.begin_again (h : Story b d t) {a : Action} {o : Operation} (ho : t.op a = some o)
    (uuid : Text) : t.beginEncoded o.inputs uuid = .ok (o, t) := by
  obtain ⟨raw, hraw⟩ := h.encoded a o ho
  have hrec := h.recorded ho
  rw [beginEncoded_passed hrec.checked hraw, hrec.action, ho]
  show (if _ then _ else _) = _
  rw [if_neg (not_not.mpr hrec.digest)]

/-! ## Different inputs have different documents -/

theorem Binding.plain (b : Binding) : b.toJson.Plain := by
  refine ⟨rfl, ?_⟩
  exact ⟨trivial, trivial, trivial, trivial, trivial, trivial, trivial, trivial, trivial, trivial,
    trivial, trivial⟩

theorem Destination.plain {d : Destination} (h : d.Ordered) : d.toJson.Plain := by
  refine ⟨rfl, trivial, ⟨hasDuplicate_of_inOrder h, (plainFields_iff _).mpr (fun f hf => ?_)⟩,
    trivial, trivial⟩
  obtain ⟨kv, -, rfl⟩ := List.mem_map.mp hf
  exact trivial

theorem DirectoryIdentity.plain (i : DirectoryIdentity) : i.toJson.Plain :=
  ⟨rfl, trivial, trivial, trivial⟩

theorem PrepareReceipt.plain (r : PrepareReceipt) : r.toJson.Plain :=
  ⟨rfl, trivial, r.binding.plain, trivial, trivial, trivial, trivial⟩

theorem SourceValidation.plain (r : SourceValidation) : r.toJson.Plain :=
  ⟨rfl, trivial, r.binding.plain, trivial, trivial, trivial⟩

theorem PublicationReceipt.plain {r : PublicationReceipt} (h : r.destination.Ordered) :
    r.toJson.Plain :=
  ⟨rfl, trivial, r.binding.plain, trivial, Destination.plain h, trivial,
    r.directoryIdentity.plain, trivial, trivial⟩

theorem Inputs.plain {inputs : Inputs} (h : inputs.Ordered) : inputs.toJson.Plain := by
  cases inputs with
  | prepare => exact ⟨rfl, trivial⟩
  | commit p s => exact ⟨rfl, p.plain, s.plain, trivial⟩
  | release p r => exact ⟨rfl, p.plain, PublicationReceipt.plain h, trivial⟩

theorem inputDocument_plain (b : Binding) {inputs : Inputs} (h : inputs.Ordered) :
    (inputDocument b inputs).Plain :=
  ⟨rfl, b.plain, trivial, Inputs.plain h, trivial⟩

/-- The parts of accepted inputs that the terminal does not determine. -/
theorem checked_commit {p : PrepareReceipt} {s : SourceValidation}
    (h : t.checkInputs (.commit p s) = none) :
    t.prepare = some p ∧ s.binding = t.binding ∧ s.prepareReceiptSha256 = receiptDigest p.toJson := by
  unfold Terminal.checkInputs at h
  dsimp only at h
  rw [firstError_cons, firstError_cons, firstError_cons, firstError_cons, failsWith_none,
    failsWith_none] at h
  obtain ⟨-, -, hp, hs, -⟩ := h
  unfold validateSourceValidation at hs
  rw [firstError_cons, firstError_cons, firstError_cons, failsWith_none, not_or, not_or] at hs
  exact ⟨(not_not.mp hp).symm, not_not.mp hs.2.2.1.2.1, not_not.mp hs.2.2.1.2.2⟩

theorem checked_release {p : PrepareReceipt} {r : PublicationReceipt}
    (h : t.checkInputs (.release p r) = none) :
    t.prepare = some p ∧ r.binding = t.binding ∧ r.prepareReceiptSha256 = receiptDigest p.toJson ∧
      r.destination = t.destination ∧ r.manifestSha256 = t.binding.manifestSha256 := by
  unfold Terminal.checkInputs at h
  dsimp only at h
  rw [firstError_cons, firstError_cons, firstError_cons, failsWith_none] at h
  obtain ⟨-, hp, hr, -⟩ := h
  unfold validatePublication at hr
  rw [firstError_cons, firstError_cons, firstError_cons, firstError_cons, firstError_cons,
    failsWith_none, not_or, not_or, not_or] at hr
  obtain ⟨-, -, -, -, ⟨h1, h2, h3, h4⟩, -⟩ := hr
  exact ⟨(not_not.mp hp).symm, not_not.mp h1, not_not.mp h2, not_not.mp h3, not_not.mp h4⟩

theorem ordered_of_checked (hd : t.destination.Ordered) {inputs : Inputs}
    (h : t.checkInputs inputs = none) : inputs.Ordered := by
  cases inputs with
  | prepare => trivial
  | commit p s => trivial
  | release p r =>
      show r.destination.Ordered
      rw [(checked_release h).2.2.2.1]
      exact hd

/-- **Accepted inputs of one action with one document are the same.** -/
theorem checked_injective {inputs inputs' : Inputs}
    (h : t.checkInputs inputs = none) (h' : t.checkInputs inputs' = none)
    (ha : inputs.action = inputs'.action)
    (hdoc : (inputDocument t.binding inputs).sortKeys = (inputDocument t.binding inputs').sortKeys) :
    inputs = inputs' := by
  have hin : inputs.toJson.sortKeys = inputs'.toJson.sortKeys := by
    injection hdoc with hfields
    injection hfields with _ hfields
    injection hfields with _ hfields
    injection hfields with hfield _
    injection hfield
  cases inputs with
  | prepare =>
      cases inputs' with
      | prepare => rfl
      | commit p s => exact absurd ha nofun
      | release p r => exact absurd ha nofun
  | commit p s =>
      cases inputs' with
      | prepare => exact absurd ha nofun
      | release p r => exact absurd ha nofun
      | commit p' s' =>
          obtain ⟨hp, hb, hsha⟩ := checked_commit h
          obtain ⟨hp', hb', hsha'⟩ := checked_commit h'
          obtain rfl := Option.some.inj (hp.symm.trans hp')
          injection hin with hfields
          injection hfields with _ hfields
          injection hfields with hfield _
          injection hfield with _ hs
          injection hs with hfields
          injection hfields with _ hfields
          injection hfields with hfield _
          injection hfield with _ hid
          injection hid with hid
          obtain ⟨sb, ssha, sid⟩ := s
          obtain ⟨sb', ssha', sid'⟩ := s'
          obtain rfl : sb = sb' := hb.trans hb'.symm
          obtain rfl : ssha = ssha' := hsha.trans hsha'.symm
          obtain rfl : sid = sid' := hid
          rfl
  | release p r =>
      cases inputs' with
      | prepare => exact absurd ha nofun
      | commit p s => exact absurd ha nofun
      | release p' r' =>
          obtain ⟨hp, hb, hsha, hdest, hman⟩ := checked_release h
          obtain ⟨hp', hb', hsha', hdest', hman'⟩ := checked_release h'
          obtain rfl := Option.some.inj (hp.symm.trans hp')
          injection hin with hfields
          injection hfields with _ hfields
          injection hfields with hfield _
          injection hfield with _ hs
          injection hs with hfields
          injection hfields with _ hfields
          injection hfields with _ hfields
          injection hfields with hfield hfields
          injection hfield with _ hdir
          injection hfields with _ hfields
          injection hfields with _ hfields
          injection hfields with hfield _
          injection hfield with _ hid
          injection hid with hid
          injection hdir with hfields
          injection hfields with hfield hfields
          injection hfield with _ hdev
          injection hfields with hfield _
          injection hfield with _ hino
          injection hdev with hdev
          injection hino with hino
          obtain ⟨rb, rsha, rd, rm, ⟨dev, ino⟩, pid⟩ := r
          obtain ⟨rb', rsha', rd', rm', ⟨dev', ino'⟩, pid'⟩ := r'
          obtain rfl : rb = rb' := hb.trans hb'.symm
          obtain rfl : rsha = rsha' := hsha.trans hsha'.symm
          obtain rfl : rd = rd' := hdest.trans hdest'.symm
          obtain rfl : rm = rm' := hman.trans hman'.symm
          obtain rfl : dev = dev' := Int.ofNat.inj hdev
          obtain rfl : ino = ino' := Int.ofNat.inj hino
          obtain rfl : pid = pid' := hid
          rfl

/-- Other inputs of a recorded action are refused, unless their document has the
    digest of the recorded one. -/
theorem Story.begin_other (h : Story b d t) (hd : d.Ordered) {a : Action} {o : Operation}
    (ho : t.op a = some o) {inputs : Inputs} (ha : inputs.action = a) (hne : inputs ≠ o.inputs)
    (uuid : Text) :
    (∃ code, t.beginEncoded inputs uuid = .error code) ∨ Collision t.binding inputs o.inputs := by
  have hdest : t.destination.Ordered := by
    rw [h.destination]
    exact hd
  have hrec := h.recorded ho
  obtain ⟨raw', hraw'⟩ := h.encoded a o ho
  cases hcheck : t.checkInputs inputs with
  | some code =>
      refine .inl ⟨code, ?_⟩
      unfold Terminal.beginEncoded
      rw [hcheck]
  | none =>
      cases hraw : dumps (inputDocument t.binding inputs) with
      | none =>
          refine .inl ⟨"UnicodeEncodeError", ?_⟩
          unfold Terminal.beginEncoded
          rw [hcheck, hraw]
          rfl
      | some raw =>
          rw [beginEncoded_passed hcheck hraw, ha, ho]
          by_cases hdigest : o.inputDigest ≠ inputDigest t.binding inputs
          · exact .inl ⟨"action_conflict", if_pos hdigest⟩
          · refine .inr ⟨raw, raw', hraw, hraw', fun heq => hne ?_, ?_⟩
            · refine checked_injective hcheck hrec.checked (ha.trans hrec.action.symm) ?_
              exact dumps_injective (inputDocument_plain _ (ordered_of_checked hdest hcheck))
                (inputDocument_plain _ (ordered_of_checked hdest hrec.checked)) hraw (heq ▸ hraw')
            · rw [← inputDigest_eq hraw, ← inputDigest_eq hraw', ← hrec.digest]
              exact (not_not.mp hdigest).symm

/-! ## Safety -/

/-- A release was authorized: its publication is the one that there is, prepare
    is done, a push was committed, and the release did not fail. -/
structure AuthorizedRelease (t : Terminal) (x : ReleaseAuthorization) (p : PrepareReceipt)
    (r : PublicationReceipt) : Prop where
  prepare : t.prepare = some p
  prepared : ∃ o, t.prepareOp = some o ∧ o.status = .done ∧ o.result = some (.prepared p)
  publication : t.publication = some r
  digest : x.publicationReceiptSha256 = receiptDigest r.toJson
  committed : t.binding.direction = .push →
    ∃ o, t.commitOp = some o ∧ o.status = .done ∧ o.result = some (.published r)
  release : ∃ o, t.releaseOp = some o ∧ o.operationId = x.operationId ∧
    o.inputs = .release p r ∧ o.status ≠ .failed

/-- What holds in every state of every run. -/
structure SafeState (t : Terminal) : Prop where
  onlyOne : ∀ a a' o o', t.op a = some o → o.status = .inProgress → t.op a' = some o' →
    o'.status = .inProgress → a' = a
  authorized : ∀ x, t.releaseAuthorization = some x → ∃ p r, AuthorizedRelease t x p r
  released : t.isReleased → ∃ o x, t.releaseOp = some o ∧ o.status = .done ∧
    t.releaseAuthorization = some x ∧ x.operationId = o.operationId
  again : ∀ a o inputs uuid, t.op a = some o → readInputs a.text inputs = .ok o.inputs →
    serve (.beginAction a.text inputs uuid) t = (.done (some o), t)
  other : ∀ a o inputs uuid, t.op a = some o → readInputs a.text inputs ≠ .ok o.inputs →
    (∃ code, serve (.beginAction a.text inputs uuid) t = (.raised code, t)) ∨
      ∃ i, readInputs a.text inputs = .ok i ∧ Collision t.binding i o.inputs

/-- What every request does in such a state. -/
structure SafeRequest (t : Terminal) (q : Request) : Prop where
  raised : ∀ code, (serve q t).1 = .raised code → (serve q t).2 = t
  keeps : Grows t (serve q t).2
  releases : ¬ t.isReleased → (serve q t).2.isReleased → ∃ id cleanup x,
    q = .completeRelease id cleanup ∧ t.releaseAuthorization = some x ∧ x.operationId = id
  fails : t.releaseAuthorization.isSome = true → ∀ action id code,
    q = .failAction action id code → ∃ code', serve q t = (.raised code', t)

theorem Story.authorizedRelease (h : Story b d t) {x : ReleaseAuthorization}
    (hx : t.releaseAuthorization = some x) : ∃ p r, AuthorizedRelease t x p r := by
  obtain ⟨t₀, id, p, r, hset, hin, rfl | rfl⟩ := h.authorized_inv hx
  · obtain rfl := Option.some.inj hx
    obtain ⟨hprep, hcommit⟩ := hset.before_release hin.prepare
    refine ⟨p, r, hin.prepare, hprep, rfl, by dsimp only, fun hpush => ?_, ⟨_, rfl, rfl, rfl, nofun⟩⟩
    obtain ⟨r', o, hr', ho, hs, hres⟩ := hcommit hpush
    obtain rfl := hset.publication_of_release hin hr'
    exact ⟨o, ho, hs, hres⟩
  · obtain rfl := Option.some.inj hx
    obtain ⟨hprep, hcommit⟩ := hset.before_release hin.prepare
    refine ⟨p, r, hin.prepare, hprep, rfl, by dsimp only, fun hpush => ?_, ⟨_, rfl, rfl, rfl, nofun⟩⟩
    obtain ⟨r', o, hr', ho, hs, hres⟩ := hcommit hpush
    obtain rfl := hset.publication_of_release hin hr'
    exact ⟨o, ho, hs, hres⟩

theorem readInputs_action {a : Action} {v : Json} {inputs : Inputs}
    (h : readInputs a.text v = .ok inputs) : inputs.action = a := by
  cases a with
  | prepare =>
      obtain ⟨fs, -, h⟩ := bind_ok h
      obtain rfl := Except.ok.inj h
      rfl
  | commit =>
      obtain ⟨fs, -, h⟩ := bind_ok h
      obtain ⟨p, -, h⟩ := bind_ok h
      obtain ⟨s, -, h⟩ := bind_ok h
      obtain rfl := Except.ok.inj h
      rfl
  | release =>
      obtain ⟨fs, -, h⟩ := bind_ok h
      obtain ⟨p, -, h⟩ := bind_ok h
      obtain ⟨r, -, h⟩ := bind_ok h
      obtain rfl := Except.ok.inj h
      rfl

/-- A request that begins an action, once its inputs are read. -/
theorem Story.serve_begin (h : Story b d t) {action : Text} {v : Json} {inputs : Inputs}
    (hin : readInputs action v = .ok inputs) (uuid : OperationId) :
    serve (.beginAction action v uuid) t = settle t (transition t (.beginAction inputs uuid)) := by
  have hcall : readCall (.beginAction action v uuid) = .ok (.beginAction inputs uuid) := by
    show (readInputs action v >>= _) = _
    rw [hin]
    rfl
  rw [serve_call hcall, perform_eq h.encoded]

theorem Story.safeState (h : Story b d t) (hd : d.Ordered) : SafeState t where
  onlyOne _ _ _ _ ho hs ho' hs' := h.only_one ho hs ho' hs'
  authorized _ hx := h.authorizedRelease hx
  released hr := by
    obtain ⟨t₀, id, p, r, hset, hin, rfl⟩ := h.released_inv hr
    exact ⟨_, _, rfl, rfl, rfl, rfl⟩
  again a o inputs uuid ho hin := by
    rw [h.serve_begin hin]
    show settle t ((t.beginEncoded o.inputs uuid.text).map _) = _
    rw [h.begin_again ho]
    rfl
  other a o inputs uuid ho hne := by
    cases hin : readInputs a.text inputs with
    | error code =>
        refine .inl ⟨code, serve_refused ?_⟩
        show (readInputs a.text inputs >>= _) = _
        rw [hin]
        rfl
    | ok i =>
        have hne' : i ≠ o.inputs := fun heq => hne (by rw [hin, heq])
        rcases h.begin_other hd ho (readInputs_action hin) hne' uuid.text with ⟨code, hcode⟩ | hcoll
        · refine .inl ⟨code, ?_⟩
          rw [h.serve_begin hin]
          show settle t ((t.beginEncoded i uuid.text).map _) = _
          rw [hcode]
          rfl
        · exact .inr ⟨i, rfl, hcoll⟩

/-- A transition releases only by completing an authorized release. -/
theorem Story.releases (h : Story b d t) {c : Call} {reply : Option Operation}
    (hok : transition t c = .ok (reply, t')) (hnot : ¬ t.isReleased) (hr : t'.isReleased) :
    ∃ id cleanup x, c = .completeRelease id cleanup ∧ t.releaseAuthorization = some x ∧
      x.operationId = id := by
  cases c with
  | completeRelease id cleanup =>
      obtain ⟨t₁, hrun, -⟩ := map_ok hok
      unfold Terminal.completeRelease at hrun
      obtain ⟨o, -, hrun⟩ := bind_ok hrun
      split at hrun
      next x r hx hpub =>
        split at hrun
        · exact absurd hrun nofun
        next hchecks =>
          rw [firstError_cons, failsWith_none] at hchecks
          exact ⟨id, cleanup, x, rfl, hx, not_not.mp hchecks.1⟩
      · exact absurd hrun nofun
  | beginAction inputs uuid =>
      obtain ⟨⟨o, t₁⟩, hbegin, heq⟩ := map_ok hok
      obtain ⟨-, rfl⟩ := Prod.mk.inj heq
      obtain ⟨-, -, ⟨-, -, rfl⟩ | ⟨-, -, -, -, rfl⟩⟩ := begin_ok hbegin
      · exact absurd hr hnot
      · unfold Terminal.isReleased at hr
        rw [setOp_localPhase] at hr
        exact absurd hr hnot
  | completePrepare id receipt =>
      obtain ⟨t₁, hrun, heq⟩ := map_ok hok
      obtain ⟨-, rfl⟩ := Prod.mk.inj heq
      unfold Terminal.completePrepare at hrun
      obtain ⟨o, -, hrun⟩ := bind_ok hrun
      split at hrun
      · exact absurd hrun nofun
      · obtain rfl := Except.ok.inj hrun
        unfold Terminal.isReleased at hr
        dsimp only at hr
        split at hr <;> exact hr.elim nofun nofun
  | completeCommit id receipt =>
      obtain ⟨t₁, hrun, heq⟩ := map_ok hok
      obtain ⟨-, rfl⟩ := Prod.mk.inj heq
      unfold Terminal.completeCommit at hrun
      obtain ⟨o, -, hrun⟩ := bind_ok hrun
      split at hrun
      · exact absurd hrun nofun
      split at hrun
      · exact absurd hrun nofun
      split at hrun
      · exact absurd hrun nofun
      · obtain rfl := Except.ok.inj hrun
        exact hr.elim nofun nofun
  | authorizeRelease id =>
      obtain ⟨t₁, hrun, heq⟩ := map_ok hok
      obtain ⟨-, rfl⟩ := Prod.mk.inj heq
      unfold Terminal.authorizeRelease at hrun
      obtain ⟨o, -, hrun⟩ := bind_ok hrun
      split at hrun
      · obtain rfl := Except.ok.inj hrun
        unfold Terminal.isReleased at hr
        dsimp only at hr
        split at hr <;> exact hr.elim nofun nofun
      · obtain rfl := Except.ok.inj hrun
        exact absurd hr hnot
  | failAction a id code =>
      obtain ⟨t₁, hrun, heq⟩ := map_ok hok
      obtain ⟨-, rfl⟩ := Prod.mk.inj heq
      unfold Terminal.failAction at hrun
      obtain ⟨o, -, hrun⟩ := bind_ok hrun
      split at hrun
      · exact absurd hrun nofun
      split at hrun
      · exact absurd hrun nofun
      · obtain rfl := Except.ok.inj hrun
        unfold Terminal.isReleased at hr
        rw [setOp_localPhase] at hr
        dsimp only at hr
        split at hr
        · split at hr <;> exact hr.elim nofun nofun
        · exact hr.elim nofun nofun

/-- Only a request to complete a release is read as that call. -/
theorem readCall_completeRelease {q : Request} {id : Text} {cleanup : Cleanup}
    (h : readCall q = .ok (.completeRelease id cleanup)) :
    ∃ document, q = .completeRelease id document := by
  cases q with
  | completeRelease id' document =>
      obtain ⟨c, -, h⟩ := bind_ok h
      injection h with h
      injection h with hid _
      exact ⟨document, by rw [hid]⟩
  | beginAction action inputs uuid =>
      obtain ⟨i, -, h⟩ := bind_ok h
      exact absurd h nofun
  | completePrepare id' receipt =>
      obtain ⟨r, -, h⟩ := bind_ok h
      exact absurd h nofun
  | completeCommit id' receipt =>
      obtain ⟨r, -, h⟩ := bind_ok h
      exact absurd h nofun
  | authorizeRelease id' => exact absurd h nofun
  | failAction action id' code =>
      obtain ⟨a, -, h⟩ := bind_ok h
      obtain ⟨c, -, h⟩ := bind_ok h
      exact absurd h nofun

theorem Story.safeRequest (h : Story b d t) (q : Request) : SafeRequest t q where
  raised code hraised := by
    rcases h.serve_cases q with ⟨code', hq⟩ | ⟨c, reply, t', -, -, hq⟩
    · rw [hq]
    · rw [hq] at hraised
      exact absurd hraised nofun
  keeps := (h.serve_step q).2
  releases hnot hr := by
    rcases h.serve_cases q with ⟨code', hq⟩ | ⟨c, reply, t', hcall, hok, hq⟩
    · rw [hq] at hr
      exact absurd hr hnot
    · rw [hq] at hr
      obtain ⟨id, cleanup, x, rfl, hx, hid⟩ := h.releases hok hnot hr
      obtain ⟨document, rfl⟩ := readCall_completeRelease hcall
      exact ⟨id, document, x, rfl, hx, hid⟩
  fails hauth action id code hq := by
    rcases h.serve_cases q with hraised | ⟨c, reply, t', hcall, hok, -⟩
    · exact hraised
    · subst hq
      obtain ⟨a, -, hcall⟩ := bind_ok hcall
      obtain ⟨code', -, hcall⟩ := bind_ok hcall
      obtain rfl := Except.ok.inj hcall
      obtain ⟨t₁, hrun, -⟩ := map_ok hok
      unfold Terminal.failAction at hrun
      obtain ⟨o, -, hrun⟩ := bind_ok hrun
      split at hrun
      · exact absurd hrun nofun
      · exact absurd hrun nofun

/-- **Safety over all runs**: whatever requests a terminal has served, its state
    is safe, every further request is, and every later state keeps what this one has. -/
theorem terminal_safe {binding destination : Json} {t₀ : Terminal}
    (h : construct binding destination = .ok t₀) (qs : List Request) :
    SafeState (serves t₀ qs) ∧ (∀ q, SafeRequest (serves t₀ qs) q) ∧
      ∀ qs', Grows (serves t₀ qs) (serves (serves t₀ qs) qs') := by
  obtain ⟨b, d, -, hd, -, -, rfl⟩ := construct_ok h
  have hstory := ((Story.settled (Settled.fresh (b := b) (d := d))).serves_run qs).1
  exact ⟨hstory.safeState (readDestination_ok hd).1, hstory.safeRequest,
    fun qs' => (hstory.serves_run qs').2⟩

/-- A push of one package, and where it goes. -/
def sampleBinding : Json :=
  .obj [(ascii "protocol_version", .str PROTOCOL_VERSION), (ascii "transfer_id", .str (ascii "t1")),
    (ascii "request_digest", .str (List.replicate 64 97)), (ascii "direction", .str (ascii "push")),
    (ascii "vm_uuid", .str (ascii "vm")), (ascii "boot_identity", .str (ascii "boot")),
    (ascii "vm_epoch", .str (ascii "1")), (ascii "policy_id", .str (ascii "p")),
    (ascii "package_size", .int 5), (ascii "package_sha256", .str (List.replicate 64 98)),
    (ascii "manifest_sha256", .str (List.replicate 64 99))]

def sampleDestination : Json :=
  .obj [(ascii "endpoint", .str (ascii "guest")),
    (ascii "identity", .obj [(ascii "volume", .str (ascii "v"))]),
    (ascii "canonical_path", .str (ascii "/data"))]

/-- The terminal of the sample. -/
def sampleTerminal : Terminal :=
  Terminal.new
    { transferId := ascii "t1", requestDigest := List.replicate 64 97, direction := .push
      vmUuid := ascii "vm", bootIdentity := ascii "boot", vmEpoch := ascii "1", policyId := ascii "p"
      packageSize := 5, packageSha256 := List.replicate 64 98, manifestSha256 := List.replicate 64 99 }
    { endpoint := ascii "guest", identity := [(ascii "volume", ascii "v")]
      canonicalPath := ascii "/data" }

theorem sample_constructed : construct sampleBinding sampleDestination = .ok sampleTerminal := by
  decide +kernel

/-- A sample run: prepare is begun, a document of the wrong shape is refused. -/
def sampleRequests : List Request :=
  [.beginAction (ascii "prepare") (.obj []) ⟨ascii "op", by decide⟩,
    .completePrepare (ascii "op") (.obj [])]

theorem terminal_safe_sample :
    SafeState (serves sampleTerminal sampleRequests) ∧
      (∀ q, SafeRequest (serves sampleTerminal sampleRequests) q) ∧
      ∀ qs, Grows (serves sampleTerminal sampleRequests)
        (serves (serves sampleTerminal sampleRequests) qs) :=
  terminal_safe sample_constructed sampleRequests

end GuestTerminal
