import VeloTransfer.AttemptLedgerRunProofs

/-! # Laws of the attempt ledger — what holds in every run

    * `moves_step` — an attempt goes from one state to the next, whatever the event;
    * `opened` — a ledger that was opened has its first row, and nothing else;
    * `ledger_lawful` — the counters, the catalog and the attempts, in every run. -/

namespace AttemptLedger

open CanonicalJson JsonLine BoundedJson JsonLimits JsonDict ExceptRules AttemptCatalog
open ArchiveCodec hiding Walk Verdict encode_spec
open RequestJournal (World Journal Object Reply Call fileName expectedRef acknowledges)

/-! ## How an attempt moves -/

/-- What may become of an attempt. -/
structure Moved (unknown : Bool) (a a' : Attempt) : Prop where
  state : Edge a.state a'.state ∨ a.reason ≠ none ∧ a.state = .begun ∧ a'.state = .ended
  returned : a.state = .finishing → a'.state = .accepted → a.phase = .reopening
  found : a'.phase = .reopening → a.phase = .reopening ∨ unknown = true ∨
    ∃ j, a.journal = some j ∧ j.journal.closed = false

/-- What an event may do to a ledger. -/
structure Moves (b : Budgets) (w w' : Ledger) : Prop where
  unknown : w.unknown = true → w'.unknown = true
  written : w'.disk = w.disk ∨ ∃ kind payload raw, w.due = some (kind, payload) ∧
    w.raw b kind payload = .ok raw ∧ w'.disk = w.disk ++ [raw]
  attempt : ∀ (i : Nat) (a : Attempt), w.attempts[i]? = some a → ∃ a', w'.attempts[i]? = some a' ∧
    Moved w'.unknown a a'
  fresh : ∀ (i : Nat) (a : Attempt), w.attempts[i]? = none → w'.attempts[i]? = some a → a.state = .begun

section Moves

variable {b : Budgets} {w w' : Ledger} {i : Nat} {a a' : Attempt} {u : Bool}

/-- An attempt that stays in its state. -/
theorem Moved.stays (hstate : a'.state = a.state) (hphase : a'.phase = .reopening → a.phase = .reopening) :
    Moved u a a' where
  state := .inl (hstate ▸ .stays a.state)
  returned h h' := absurd (h.symm.trans (hstate.symm.trans h')) nofun
  found h := .inl (hphase h)

/-- A phase that is another name of the same state. -/
theorem Moved.rename (phase : Phase) (hstate : phase.state = a.phase.state) (hphase : phase ≠ .reopening) :
    Moved u a { a with phase } :=
  .stays hstate fun h => absurd h hphase

theorem Shifted.moved {c : Codec} {troubled : Bool} (h : Shifted c a a' troubled) : Moved (u || troubled) a a' where
  state := .inl h.edge
  returned hbefore hbehind := by
    unfold Attempt.state at hbefore hbehind
    cases h with
    | reopened hphase => exact hphase
    | called w hw call => exact absurd (hbefore.symm.trans hbehind) nofun
    | returned hphase =>
        rw [hphase] at hbefore
        exact absurd hbefore nofun
    | _ => exact absurd hbehind nofun
  found hphase := (h.found hphase).imp_right (Or.imp_left fun htroubled => by rw [htroubled, Bool.or_true])

/-- The attempts stay as they are. -/
theorem moves_same (hattempts : w'.attempts = w.attempts) (hunknown : w.unknown = true → w'.unknown = true)
    (hwritten : w'.disk = w.disk ∨ ∃ kind payload raw, w.due = some (kind, payload) ∧
      w.raw b kind payload = .ok raw ∧ w'.disk = w.disk ++ [raw]) : Moves b w w' := by
  refine ⟨hunknown, hwritten, fun i a ha => ⟨a, hattempts ▸ ha, .stays rfl id⟩, fun i a hnone ha => ?_⟩
  rw [hattempts] at ha
  exact absurd (hnone.symm.trans ha) nofun

/-- One of them moves. -/
theorem moves_set (ha : w.attempts[i]? = some a) (hmoved : Moved w'.unknown a a')
    (hattempts : w'.attempts = w.attempts.set i a') (hunknown : w.unknown = true → w'.unknown = true)
    (hwritten : w'.disk = w.disk ∨ ∃ kind payload raw, w.due = some (kind, payload) ∧
      w.raw b kind payload = .ok raw ∧ w'.disk = w.disk ++ [raw]) : Moves b w w' := by
  obtain ⟨hlt, -⟩ := List.getElem?_eq_some_iff.mp ha
  refine ⟨hunknown, hwritten, fun j x hx => ?_, fun j x hnone hx => ?_⟩
  · rw [hattempts]
    by_cases hsame : i = j
    · subst hsame
      obtain rfl := Option.some.inj (ha.symm.trans hx)
      exact ⟨a', List.getElem?_set_self hlt, hmoved⟩
    · exact ⟨x, (List.getElem?_set_ne hsame).trans hx, .stays rfl id⟩
  · rw [hattempts] at hx
    obtain ⟨hj, -⟩ := List.getElem?_eq_some_iff.mp hx
    rw [List.length_set] at hj
    exact absurd (List.getElem?_eq_none_iff.mp hnone) (Nat.not_le_of_lt hj)

theorem leave_attempts (ha : w.attempts[i]? = some a) (hattempts : w'.attempts = w.attempts) (phase : Phase) :
    (w'.leave i phase).attempts = w.attempts.set i { a with phase } := by
  show w'.attempts.modify i _ = _
  rw [hattempts, modify_of_get ha]

/-- The attempt of the lock's holder goes on behind its publication. -/
theorem moves_published (hheld : Held b w) (hattempts : w'.attempts = w.attempts) (hholder : w'.holder = w.holder)
    (hunknown : w'.unknown = w.unknown)
    (hwritten : w'.disk = w.disk ∨ ∃ kind payload raw, w.due = some (kind, payload) ∧
      w.raw b kind payload = .ok raw ∧ w'.disk = w.disk ++ [raw]) : Moves b w w'.published := by
  have hu : w.unknown = true → w'.unknown = true := fun h => hunknown.trans h
  unfold Held at hheld
  rw [← hholder] at hheld
  unfold Ledger.published
  split
  next i hbeginning =>
    rw [hbeginning] at hheld
    obtain ⟨-, a, ha, hphase, -⟩ := hheld
    split
    · exact moves_set ha (.rename .begun (hphase ▸ rfl) nofun) (leave_attempts ha hattempts .begun) hu hwritten
    · exact moves_same hattempts hu hwritten
  next i hrejecting =>
    rw [hrejecting] at hheld
    obtain ⟨a, ha, hphase, hreason, -⟩ := hheld
    have hbegun : a.state = .begun := congrArg Phase.state hphase
    have hmoved : Moved w'.unknown a { a with phase := .refused } :=
      ⟨.inr ⟨hreason, hbegun, rfl⟩, fun h => absurd (hbegun.symm.trans h) nofun, nofun⟩
    exact moves_set ha hmoved (leave_attempts ha hattempts .refused) hu hwritten
  next i hacking =>
    rw [hacking] at hheld
    obtain ⟨a, ha, hphase⟩ := hheld
    exact moves_set ha (.rename .acked (hphase ▸ rfl) nofun) (leave_attempts ha hattempts .acked) hu hwritten
  next i hending =>
    rw [hending] at hheld
    obtain ⟨a, ha, outcome, failed, events, hphase⟩ := hheld
    exact moves_set ha (.rename .recorded (hphase ▸ rfl) nofun) (leave_attempts ha hattempts .recorded) hu hwritten
  next => exact moves_same hattempts hu hwritten
  next => exact moves_same hattempts hu hwritten

theorem moves_unpublished (hheld : Held b w) (hattempts : w'.attempts = w.attempts) (hholder : w'.holder = w.holder)
    (hu : w.unknown = true → w'.unknown = true)
    (hwritten : w'.disk = w.disk ∨ ∃ kind payload raw, w.due = some (kind, payload) ∧
      w.raw b kind payload = .ok raw ∧ w'.disk = w.disk ++ [raw]) : Moves b w w'.unpublished := by
  unfold Held at hheld
  rw [← hholder] at hheld
  unfold Ledger.unpublished
  split
  next => exact moves_same hattempts (fun _ => rfl) hwritten
  next => exact moves_same hattempts (fun _ => rfl) hwritten
  next i hacking =>
    rw [hacking] at hheld
    obtain ⟨a, ha, hphase⟩ := hheld
    exact moves_set ha (.rename .acceptFailed (hphase ▸ rfl) nofun) (leave_attempts ha hattempts .acceptFailed) hu hwritten
  next i hending =>
    rw [hending] at hheld
    obtain ⟨a, ha, outcome, failed, events, hphase⟩ := hheld
    exact moves_set ha (.rename .finishFailed (hphase ▸ rfl) nofun) (leave_attempts ha hattempts .finishFailed) hu hwritten
  next => exact moves_same hattempts (fun _ => rfl) hwritten
  next => exact moves_same hattempts hu hwritten

/-- **Every event moves the attempts** along their states, and writes at most the row that
    is due. -/
theorem moves_step (hheld : Held b w) (event : Event) : Moves b w (w.step b event) := by
  cases event with
  | begin key tool argumentsSha256 =>
      simp only [Ledger.step]
      split
      · exact moves_same rfl id (.inl rfl)
      · exact moves_same rfl id (.inl rfl)
  | reserve =>
      simp only [Ledger.step]
      split
      next parent reason hholder =>
        refine ⟨id, .inl rfl, fun i a ha => ⟨a, ?_, .stays rfl id⟩, fun i a hnone ha => ?_⟩
        · obtain ⟨hlt, -⟩ := List.getElem?_eq_some_iff.mp ha
          exact (List.getElem?_append_left hlt).trans ha
        · rcases append_get ha with hbefore | ⟨-, rfl⟩
          · cases hnone.symm.trans hbefore
          · rfl
      · exact moves_same rfl id (.inl rfl)
  | publish answer =>
      simp only [Ledger.step]
      split
      next kind payload hdue =>
        have hcases := publish_cases (b := b) w kind payload answer
        generalize w.publish b kind payload answer = result at hcases
        cases hcases with
        | @confirmed raw hraw hbytes =>
            exact moves_published hheld rfl rfl rfl (.inr ⟨kind, payload, raw, hdue, hraw, rfl⟩)
        | @doubted raw hraw hbytes written e =>
            have hwritten : (w.doubt raw written).disk = w.disk ∨ ∃ kind payload raw', w.due = some (kind, payload) ∧
                w.raw b kind payload = .ok raw' ∧ (w.doubt raw written).disk = w.disk ++ [raw'] := by
              cases written with
              | false => exact .inl rfl
              | true => exact .inr ⟨kind, payload, raw, hdue, hraw, rfl⟩
            exact moves_unpublished hheld rfl rfl (fun _ => rfl) hwritten
        | refused e => exact moves_unpublished hheld rfl rfl id (.inl rfl)
      · exact moves_same rfl id (.inl rfl)
  | abandon =>
      simp only [Ledger.step]
      split
      · split
        next a ha =>
          have hmoved : Moved w.unknown a { a with active := false, phase := a.phase } := .stays rfl id
          exact moves_set ha hmoved rfl id (.inl rfl)
        · exact moves_same rfl id (.inl rfl)
      · exact moves_same rfl id (.inl rfl)
  | attempt i event =>
      simp only [Ledger.step]
      split
      next a ha =>
        split
        next a' troubled hstep =>
          refine moves_set ha (shifted hstep).moved rfl (fun hu => ?_) (.inl rfl)
          show (w.unknown || troubled) = true
          rw [hu]
          rfl
        · exact moves_same rfl id (.inl rfl)
      · exact moves_same rfl id (.inl rfl)
  | lock i =>
      simp only [Ledger.step]
      split
      next hnone hphase =>
        obtain ⟨a, ha, hphase⟩ := Option.map_eq_some_iff.mp hphase
        split
        · exact moves_same rfl id (.inl rfl)
        · exact moves_set ha (.rename .acceptFailed (hphase ▸ rfl) (by intro h; cases h)) (leave_attempts ha rfl _) id (.inl rfl)
      next hnone hphase =>
        obtain ⟨a, ha, hphase⟩ := Option.map_eq_some_iff.mp hphase
        split
        · exact moves_same rfl id (.inl rfl)
        · exact moves_set ha (.rename .finishFailed (hphase ▸ rfl) (by intro h; cases h)) (leave_attempts ha rfl _) id (.inl rfl)
      · exact moves_same rfl id (.inl rfl)
  | retire i =>
      simp only [Ledger.step]
      split
      next a ha =>
        have hretired : ∀ {phase : Phase}, phase.state = a.phase.state → phase ≠ .reopening →
            Moves b w (w.retire i a phase) := fun {phase} hstate hphase => by
          have hmoved : Moved w.unknown a { a with active := false, phase } := .stays hstate fun h => absurd h hphase
          exact moves_set ha hmoved rfl id (.inl rfl)
        split
        next hphase => exact hretired (hphase ▸ rfl) (by intro h; cases h)
        next hphase => exact hretired (hphase ▸ rfl) (by intro h; cases h)
        next hphase => exact hretired (hphase ▸ rfl) (by intro h; cases h)
        · exact moves_same rfl id (.inl rfl)
      · exact moves_same rfl id (.inl rfl)
  | close =>
      simp only [Ledger.step]
      split
      · exact moves_same rfl id (.inl rfl)
      · exact moves_same rfl id (.inl rfl)
  | certify =>
      simp only [Ledger.step]
      split
      · split
        · exact moves_same rfl id (.inl rfl)
        · exact moves_same rfl (fun _ => rfl) (.inl rfl)
      · exact moves_same rfl id (.inl rfl)
  | leave fails =>
      simp only [Ledger.step]
      split
      · refine moves_same rfl (fun hu => ?_) (.inl rfl)
        show (w.unknown || fails) = true
        rw [hu]
        rfl
      · exact moves_same rfl id (.inl rfl)

end Moves

/-! ## What holds in every run -/

/-- What a ledger keeps from its opening on. -/
structure Kept (b : Budgets) (w : Ledger) : Prop where
  steady : Steady b w
  held : Held b w
  synced : Synced b w

section Runs

variable {b : Budgets} {w : Ledger}

theorem Kept.step (h : Kept b w) (event : Event) : Kept b (w.step b event) := by
  obtain ⟨hsteady, hheld⟩ := h.steady.step h.held event
  exact ⟨hsteady, hheld, h.synced.step h.steady h.held event⟩

theorem Kept.run (h : Kept b w) (events : List Event) : Kept b (w.run b events) := by
  induction events generalizing w with
  | nil => exact h
  | cons event rest ih => exact ih (h.step event)

/-- **A ledger that was opened** has its first row. -/
theorem opened {instanceId : Text} {opening : Opening} {answer : Answer}
    (h : openApproved b instanceId opening answer = .ok w) : Kept b w := by
  obtain ⟨_, hid, h⟩ := bind_ok h
  obtain ⟨_, -, h⟩ := bind_ok h
  have htext : PyText instanceId := pyText_isHexOf (require_iff.mp hid)
  have hv : Value (rowJson instanceId 0 none INSTANCE_BEGIN opening.payload) :=
    value_row 0 htext (pyText_kinds _ (by decide)) nofun opening.value_payload
  have hcases := publish_cases (b := b) (blank instanceId) INSTANCE_BEGIN opening.payload answer
  generalize (blank instanceId).publish b INSTANCE_BEGIN opening.payload answer = result at hcases h
  cases hcases with
  | @confirmed raw hraw hbytes =>
      obtain rfl := Except.ok.inj h
      obtain ⟨hpositive, hlong, -⟩ := encode_spec hv hraw
      have hcounts := b.counts
      have htake := take_row (c := b.catalog) (w := AttemptCatalog.Walk.start) hv trivial hraw
        (show 0 + 1 ≤ b.maxCatalogRecords by omega) rfl hbytes nofun
      rw [entry_instanceBegin, ok_bind] at htake
      have hwalk : [raw].foldlM (Walk.take b.catalog) AttemptCatalog.Walk.start = .ok { AttemptCatalog.Walk.start with
          count := 1, total := 0 + raw.length, instanceId := some instanceId, head := some (refOf raw) } := by
        rw [List.foldlM_cons, htake, ok_bind]
        rfl
      have hempty : ∀ {P : Prop} {i : Nat} {a : Attempt}, ([] : List Attempt)[i]? = some a → P := fun ha =>
        absurd (List.getElem?_nil.symm.trans ha) nofun
      have hsteady : Steady b ((blank instanceId).confirm raw) :=
        ⟨rfl, rfl, Nat.zero_le _, Nat.zero_le _, fun _ _ ha => hempty ha⟩
      have hwalked : Walked b ((blank instanceId).confirm raw) { AttemptCatalog.Walk.start with
          count := 1, total := 0 + raw.length, instanceId := some instanceId, head := some (refOf raw) } := by
        refine ⟨hwalk, rfl, rfl, rfl, rfl, rfl, rfl, fun r hr => ?_, htext, Nat.one_pos, Nat.le_refl _, ?_⟩
        · obtain rfl := Option.some.inj hr
          exact sound_refOf hpositive
        · show 0 + raw.length ≤ 1 * b.maxCatalogRecordBytes
          rw [Nat.zero_add, Nat.one_mul]
          exact hlong
      exact ⟨hsteady, trivial, .inl ⟨_, hwalked, ⟨rfl, fun _ _ ha => hempty ha⟩, rfl, rfl⟩⟩
  | doubted hraw hbytes written e => exact absurd h nofun
  | refused e => exact absurd h nofun

end Runs

/-! ## The laws -/

/-- What is true of a ledger at any moment of a run. -/
structure Lawful (b : Budgets) (w : Ledger) : Prop where
  counted : w.attemptCount = w.attempts.length
  active : w.active = w.attempts.countP Attempt.active
  limit : w.active ≤ b.maxActive
  verified : ∃ v, Verified b w v
  certified : ∀ payload, w.due = some (INSTANCE_END, payload) → w.unknown = false ∧
    ∀ (i : Nat) (a : Attempt), w.attempts[i]? = some a → a.state = .ended
  room : ∀ kind payload, w.due = some (kind, payload) → w.catalogCount < b.maxCatalogRecords ∧
    ∀ raw, w.raw b kind payload = .ok raw → w.catalogBytes + raw.length ≤ b.catalog.maxTotalBytes

section Laws

variable {b : Budgets} {w : Ledger}

/-- Only the end of the instance is one. -/
theorem due_certifying {payload : Json} (h : w.due = some (INSTANCE_END, payload)) : w.holder = some .certifying := by
  have hkinds : ATTEMPT_BEGIN ≠ INSTANCE_END ∧ ATTEMPT_END ≠ INSTANCE_END ∧ ACCEPT_ACK ≠ INSTANCE_END := by
    decide
  obtain ⟨hbegin, hend, hack⟩ := hkinds
  rcases due_holder h with ⟨i, hholder⟩ | ⟨i, hholder⟩ | ⟨i, hholder⟩ | ⟨i, hholder⟩ | hholder
  · unfold Ledger.due at h
    rw [hholder] at h
    obtain ⟨a, -, h⟩ := Option.map_eq_some_iff.mp h
    exact absurd (congrArg Prod.fst h) hbegin
  · unfold Ledger.due at h
    rw [hholder] at h
    exact absurd (congrArg Prod.fst (Option.some.inj h)) hend
  · unfold Ledger.due at h
    rw [hholder] at h
    obtain ⟨a, -, h⟩ := Option.bind_eq_some_iff.mp h
    obtain ⟨j, -, h⟩ := Option.bind_eq_some_iff.mp h
    obtain ⟨raw, -, h⟩ := Option.map_eq_some_iff.mp h
    exact absurd (congrArg Prod.fst h) hack
  · unfold Ledger.due at h
    rw [hholder] at h
    obtain ⟨a, -, h⟩ := Option.bind_eq_some_iff.mp h
    split at h
    · obtain ⟨r, -, h⟩ := Option.map_eq_some_iff.mp h
      exact absurd (congrArg Prod.fst h) hend
    · exact absurd h nofun
  · exact hholder

theorem Kept.lawful (h : Kept b w) : Lawful b w where
  counted := h.steady.counted
  active := h.steady.active
  limit := h.steady.limit
  verified := h.synced.verified h.steady
  certified payload hdue := by
    have hheld := h.held
    unfold Held at hheld
    rw [due_certifying hdue] at hheld
    exact hheld
  room kind payload hdue := h.synced.room h.steady hdue

/-- An attempt that is unknown stays so. -/
theorem Moved.unknown {u : Bool} {a a' : Attempt} (h : Moved u a a') (hunknown : a.state = .unknown) :
    a'.state = .unknown := by
  rcases h.state with hedge | ⟨-, hbegun, -⟩
  · rw [hunknown] at hedge
    generalize a'.state = state at hedge
    cases hedge
    rfl
  · exact absurd (hunknown.symm.trans hbegun) nofun

theorem Kept.unknown (h : Kept b w) (events : List Event) {i : Nat} {a : Attempt} (ha : w.attempts[i]? = some a)
    (hunknown : a.state = .unknown) : ∃ a', (w.run b events).attempts[i]? = some a' ∧ a'.state = .unknown := by
  induction events generalizing w a with
  | nil => exact ⟨a, ha, hunknown⟩
  | cons event rest ih =>
      obtain ⟨a', ha', hmoved⟩ := (moves_step h.held event).attempt i a ha
      exact ih (h.step event) ha' (hmoved.unknown hunknown)

/-- **The laws of the ledger**, in every run of a ledger that was opened: whatever is begun,
    accepted, finished, fails or is lost, in whatever order. -/
theorem ledger_lawful {instanceId : Text} {opening : Opening} {answer : Answer}
    (h : openApproved b instanceId opening answer = .ok w) (events : List Event) :
    Lawful b (w.run b events) ∧
      (∀ event, Moves b (w.run b events) ((w.run b events).step b event)) ∧
      ∀ (later : List Event) (i : Nat) (a : Attempt), (w.run b events).attempts[i]? = some a → a.state = .unknown →
        ∃ a', ((w.run b events).run b later).attempts[i]? = some a' ∧ a'.state = .unknown := by
  have hkept := (opened h).run events
  exact ⟨hkept.lawful, fun event => moves_step hkept.held event,
    fun later i a ha hunknown => hkept.unknown later ha hunknown⟩

end Laws

/-! ## A begin whose publication fails -/

section Begins

variable {b : Budgets} {w : Ledger} {instanceId : Text} {opening : Opening} {answer : Answer} {line raw : Bytes}

/-- A ledger is opened where both its rows can be encoded and the first one is confirmed. -/
theorem openApproved_confirmed (hid : isHexOf 32 instanceId = true)
    (hlast : b.catalog.encode (rowJson instanceId 1 (some ⟨1, List.replicate 64 48⟩) INSTANCE_END
      (instanceEndJson 0 0 0)) = .ok line)
    (hraw : (blank instanceId).raw b INSTANCE_BEGIN opening.payload = .ok raw)
    (hcount : 0 < b.maxCatalogRecords) (hbytes : raw.length ≤ b.catalog.maxTotalBytes)
    (hconfirms : answer.confirms raw (blank instanceId).catalogCount = true) :
    openApproved b instanceId opening answer = .ok ((blank instanceId).confirm raw) := by
  have hroom : (blank instanceId).catalogCount < b.maxCatalogRecords ∧
      (blank instanceId).catalogBytes + raw.length ≤ b.catalog.maxTotalBytes :=
    ⟨hcount, (Nat.zero_add _).symm ▸ hbytes⟩
  have hpublished : (blank instanceId).publish b INSTANCE_BEGIN opening.payload answer =
      ((blank instanceId).confirm raw, .ok ()) := by
    unfold Ledger.publish
    rw [hraw]
    dsimp only
    rw [if_pos hroom, if_pos hconfirms]
  unfold openApproved
  rw [require_of hid, ok_bind, hlast, ok_bind, hpublished]

/-- A publication before which the directory has changed fails, writes no row and counts nothing. -/
theorem publish_before (w : Ledger) (kind : Text) (payload : Json) (hbefore : answer.before = false) :
    ∃ w' e, w.publish b kind payload answer = (w', .error e) ∧ w'.disk = w.disk ∧
      w'.attemptCount = w.attemptCount := by
  unfold Ledger.publish
  cases w.raw b kind payload with
  | error e => exact ⟨w, e, rfl, rfl, rfl⟩
  | ok raw =>
      have hconfirms : ¬ answer.confirms raw w.catalogCount = true := by
        rw [Answer.confirms, hbefore]
        exact Bool.noConfusion
      have hleaves : answer.leaves raw w.catalogCount = false := by
        rw [Answer.leaves, hbefore]
        rfl
      dsimp only
      rw [if_neg hconfirms, hleaves]
      by_cases hroom : w.catalogCount < b.maxCatalogRecords ∧
          w.catalogBytes + raw.length ≤ b.catalog.maxTotalBytes
      · rw [if_pos hroom]
        exact ⟨_, _, rfl, rfl, rfl⟩
      · rw [if_neg hroom]
        exact ⟨_, _, rfl, rfl, rfl⟩

theorem step_before (w : Ledger) (hbefore : answer.before = false) :
    (w.step b (.publish answer)).disk = w.disk ∧ (w.step b (.publish answer)).attemptCount = w.attemptCount := by
  simp only [Ledger.step]
  cases w.due with
  | none => exact ⟨rfl, rfl⟩
  | some due =>
      obtain ⟨kind, payload⟩ := due
      obtain ⟨w', e, hpublish, hdisk, hcount⟩ := publish_before (b := b) w kind payload hbefore
      obtain ⟨hdisk', hcount', -⟩ := unpublished_frame w'
      dsimp only
      rw [hpublish]
      exact ⟨hdisk'.trans hdisk, hcount'.trans hcount⟩

theorem abandon_frame : (w.step b .abandon).disk = w.disk ∧ (w.step b .abandon).attemptCount = w.attemptCount := by
  simp only [Ledger.step]
  split
  · split
    · exact ⟨rfl, rfl⟩
    · exact ⟨rfl, rfl⟩
  · exact ⟨rfl, rfl⟩

/-- **A begin whose row is not written** is counted as an attempt. -/
theorem begin_lost {key tool argumentsSha256 : Object} {parent : Parent} {reason : Option Reason}
    (hfree : w.holder = none)
    (hdecide : w.decide b key tool argumentsSha256 = some (.deciding parent reason)) (hbefore : answer.before = false) :
    (w.run b [.begin key tool argumentsSha256, .reserve, .publish answer, .abandon]).attemptCount = w.attemptCount + 1 ∧
      (w.run b [.begin key tool argumentsSha256, .reserve, .publish answer, .abandon]).disk = w.disk := by
  have hbegun : w.step b (.begin key tool argumentsSha256) = { w with holder := some (.deciding parent reason) } := by
    simp only [Ledger.step, hfree, hdecide]
  have hreserved : ({ w with holder := some (.deciding parent reason) } : Ledger).step b .reserve =
      Ledger.reserve b { w with holder := some (.deciding parent reason) } parent reason := rfl
  obtain ⟨hdisk, hcount⟩ := step_before (b := b)
    (Ledger.reserve b { w with holder := some (.deciding parent reason) } parent reason) hbefore
  unfold Ledger.run
  rw [List.foldl_cons, List.foldl_cons, List.foldl_cons, List.foldl_cons, List.foldl_nil, hbegun, hreserved]
  exact ⟨abandon_frame.2.trans hcount, abandon_frame.1.trans hdisk⟩

end Begins

def sampleBudgets : Budgets where
  maxAttempts := 1
  maxActive := 1
  maxCatalogRecords := 5
  maxCatalogRecordBytes := 2048
  maxTotalArchiveBytes := 100000
  maxKeyBytes := 1024
  maxSeenKeyBytes := 1024
  maxJsonDepth := 8
  codec := RequestJournal.sampleCodec
  positive := by decide
  request := by decide
  counts := by decide
  reserve := by decide

def sampleId : Text := List.replicate 32 48

def sampleRef : Json :=
  .obj [(ascii "path", .str (ascii "f")), (ascii "size", .int 1), (ascii "sha256", .str (List.replicate 64 48))]

def sampleIdentity : Json :=
  .obj [(ascii "platform", .str (ascii "windows")), (ascii "volume_serial", .str (List.replicate 16 48)),
    (ascii "file_id", .str (List.replicate 32 48)), (ascii "owner_sid", .str (ascii "S-1-5-18")),
    (ascii "principal_sid", .str (ascii "S-1-5-18")), (ascii "acl_sha256", .str (List.replicate 64 48))]

theorem sample_values : Value sampleRef ∧ Value sampleRef ∧ Value sampleIdentity := by
  have hplain : ∀ s ∈ [ascii "path", ascii "f", ascii "size", ascii "sha256", List.replicate 64 48, ascii "platform",
      ascii "windows", ascii "volume_serial", List.replicate 16 48, ascii "file_id", List.replicate 32 48,
      ascii "owner_sid", ascii "S-1-5-18", ascii "principal_sid", ascii "acl_sha256"],
      ∀ c ∈ s, c < 0x110000 := by decide
  simp only [List.forall_mem_cons] at hplain
  obtain ⟨h1, h2, h3, h4, h5, h6, h7, h8, h9, h10, h11, h12, h13, h14, h15, -⟩ := hplain
  have href : Value sampleRef := ⟨rfl, ⟨h1, h2⟩, ⟨h3, trivial⟩, ⟨h4, h5⟩, trivial⟩
  exact ⟨href, href, rfl, ⟨h6, h7⟩, ⟨h8, h9⟩, ⟨h10, h11⟩, ⟨h12, h13⟩, ⟨h14, h13⟩, ⟨h15, h5⟩, trivial⟩

def sampleOpening : Opening := ⟨sampleRef, sampleRef, sampleIdentity, sample_values⟩

/-- The first row of the sample. -/
def sampleRow : Bytes :=
  ((blank sampleId).raw sampleBudgets INSTANCE_BEGIN sampleOpening.payload).toOption.getD []

def sampleAnswer : Answer := ⟨true, RequestJournal.acknowledgment sampleRow 0, true⟩

def sampleLedger : Ledger := (blank sampleId).confirm sampleRow

theorem sample_opened : openApproved sampleBudgets sampleId sampleOpening sampleAnswer = .ok sampleLedger := by
  have hlast : (sampleBudgets.catalog.encode (rowJson sampleId 1 (some ⟨1, List.replicate 64 48⟩) INSTANCE_END
      (instanceEndJson 0 0 0))).toOption.isSome = true := by decide +kernel
  have hfirst : ((blank sampleId).raw sampleBudgets INSTANCE_BEGIN sampleOpening.payload).toOption.isSome = true := by
    decide +kernel
  cases hencode : sampleBudgets.catalog.encode (rowJson sampleId 1 (some ⟨1, List.replicate 64 48⟩) INSTANCE_END
      (instanceEndJson 0 0 0)) with
  | error e =>
      rw [hencode] at hlast
      exact absurd hlast nofun
  | ok line =>
      cases hraw : (blank sampleId).raw sampleBudgets INSTANCE_BEGIN sampleOpening.payload with
      | error e =>
          rw [hraw] at hfirst
          exact absurd hfirst nofun
      | ok raw =>
          have hrow : sampleRow = raw := by
            unfold sampleRow
            rw [hraw]
            rfl
          have hlong : raw.length ≤ 2048 := encode_bytes hraw
          have hconfirms : sampleAnswer.confirms raw (blank sampleId).catalogCount = true := by
            unfold Answer.confirms sampleAnswer
            rw [hrow]
            exact congrArg (true && · && true) (RequestJournal.acknowledges_own raw 0)
          unfold sampleLedger
          rw [hrow]
          exact openApproved_confirmed (by decide +kernel) hencode hraw (by decide) (hlong.trans (by decide)) hconfirms

def sampleKey : Json :=
  .obj [(ascii "instance_id", .str sampleId), (ascii "session_id", .str (ascii "s")),
    (ascii "request_id_type", .str (ascii "integer")), (ascii "request_id", .int 1)]

theorem value_sampleKey : Value sampleKey := by
  have hplain : ∀ s ∈ [ascii "instance_id", sampleId, ascii "session_id", ascii "s", ascii "request_id_type",
      ascii "integer", ascii "request_id"], ∀ c ∈ s, c < 0x110000 := by decide
  simp only [List.forall_mem_cons] at hplain
  obtain ⟨h1, h2, h3, h4, h5, h6, h7, -⟩ := hplain
  exact ⟨rfl, ⟨h1, h2⟩, ⟨h3, h4⟩, ⟨h5, h6⟩, ⟨h7, trivial⟩, trivial⟩

theorem value_sampleTool : PyText (ascii "t") := by
  unfold PyText
  decide

theorem value_sampleSha : PyText (List.replicate 64 48) := by
  unfold PyText
  decide

/-- An attempt is begun, and the directory of the catalog has changed before its row is
    written. -/
def sampleEvents : List Event :=
  [.begin (.json sampleKey value_sampleKey) (.json (.str (ascii "t")) value_sampleTool)
      (.json (.str (List.replicate 64 48)) value_sampleSha),
    .reserve, .publish ⟨false, ⟨none, false⟩, false⟩, .abandon]

theorem sample_lost : (sampleLedger.run sampleBudgets sampleEvents).attemptCount = 1 ∧
    (sampleLedger.run sampleBudgets sampleEvents).disk = sampleLedger.disk := by
  have hsome : (sampleLedger.decide sampleBudgets (.json sampleKey value_sampleKey)
      (.json (.str (ascii "t")) value_sampleTool) (.json (.str (List.replicate 64 48)) value_sampleSha)).isSome =
      true := by decide +kernel
  obtain ⟨holder, hdecide⟩ := Option.isSome_iff_exists.mp hsome
  obtain ⟨parent, rfl, -, -⟩ := decide_spec hdecide
  exact begin_lost rfl hdecide rfl

theorem ledger_lawful_sample : Lawful sampleBudgets (sampleLedger.run sampleBudgets sampleEvents) :=
  (ledger_lawful sample_opened sampleEvents).1

/-- **The ledger may count an attempt that its catalog has not.** -/
theorem counters_run_ahead : ¬ ∀ (b : Budgets) (instanceId : Text) (opening : Opening) (answer : Answer) (w : Ledger)
    (events : List Event) (v : AttemptCatalog.Verdict), openApproved b instanceId opening answer = .ok w →
    b.catalog.verify (w.run b events).disk = .ok v → (w.run b events).attemptCount = v.attemptCount := by
  intro hall
  obtain ⟨hcount, hdisk⟩ := sample_lost
  have hkept := opened sample_opened
  obtain ⟨v, hv⟩ := hkept.synced.verified hkept.steady
  obtain ⟨hattempts, -, -⟩ := hv.exact rfl rfl
  have hverify : sampleBudgets.catalog.verify (sampleLedger.run sampleBudgets sampleEvents).disk = .ok v := by
    rw [hdisk]
    exact hv.verify
  have hclaim := hall sampleBudgets sampleId sampleOpening sampleAnswer sampleLedger sampleEvents v sample_opened
    hverify
  rw [hcount, hattempts] at hclaim
  exact absurd hclaim nofun

end AttemptLedger
