import VeloTransfer.AttemptLedgerProofs

/-! # Runs of the attempt ledger — what the catalog has of them

    The verifier is run beside the ledger: its locals after the records on the disk are
    those that the phases of the attempts and the counters of the ledger tell.

    * `publish_due` — they agree behind a publication that was confirmed, and a ledger whose
      publication was not publishes no more;
    * `Synced.step` — they agree after every event, or the ledger publishes no more;
    * `Synced.room` — a row that is due has its place in the budgets;
    * `Synced.verified` — the verifier accepts the catalog, with the ledger's numbers. -/

namespace AttemptLedger

open CanonicalJson JsonLine BoundedJson JsonLimits JsonDict ExceptRules AttemptCatalog
open ArchiveCodec hiding Walk Verdict encode_spec
open RequestJournal (World Journal Object Reply Call fileName expectedRef acknowledges)

/-! ## What the verifier has read -/

/-- The catalog has of the attempts what their phases tell. -/
structure Agree (attempts : List Attempt) (cw : Walk) : Prop where
  length : cw.attempts.length = attempts.length
  entry : ∀ (i : Nat) (a : Attempt), attempts[i]? = some a → ∃ e, cw.attempts[i]? = some e ∧
    e.new = a.reason.isNone ∧ e.directory = a.directory i ∧
    ∀ acked ended, a.phase.marks = some (acked, ended) → e.acked = acked ∧ e.ended = ended

/-- The locals of the verifier after the records on the disk. -/
structure Walked (b : Budgets) (w : Ledger) (cw : Walk) : Prop where
  walk : w.disk.foldlM (Walk.take b.catalog) Walk.start = .ok cw
  count : cw.count = w.catalogCount
  total : cw.total = w.catalogBytes
  head : cw.head = w.head
  instanceId : cw.instanceId = some w.instanceId
  unended : cw.ended = false
  accepted : cw.accepted = w.accepted
  sound : ∀ r, cw.head = some r → r.Sound
  text : PyText w.instanceId
  positive : 0 < cw.count
  few : cw.count ≤ 1 + rows cw.attempts
  bytes : cw.total ≤ cw.count * b.maxCatalogRecordBytes

/-- They agree with the ledger, up to what the holder of the lock is about. -/
def Aligned (w : Ledger) (cw : Walk) : Prop :=
  match w.holder with
  | some (.beginning i) => ∃ front a, w.attempts = front ++ [a] ∧ front.length = i ∧ a.phase = .entering ∧
      Agree front cw ∧ (a.reason = some .duplicate ↔ a.parent.line ∈ cw.seen) ∧
      w.seen = (if cw.seen.contains a.parent.line then cw.seen else a.parent.line :: cw.seen) ∧
      cw.rejected = w.rejected
  | some (.rejecting _) => Agree w.attempts cw ∧ cw.seen = w.seen ∧ cw.rejected = w.rejected + 1
  | some (.abandoning _) | some .leaving => False
  | _ => Agree w.attempts cw ∧ cw.seen = w.seen ∧ cw.rejected = w.rejected

/-- The verifier has the ledger's numbers, up to one row. -/
structure Near (w : Ledger) (cw : Walk) : Prop where
  attempts : cw.attempts.length ≤ w.attemptCount ∧ w.attemptCount ≤ cw.attempts.length + 1
  accepted : w.accepted ≤ cw.accepted ∧ cw.accepted ≤ w.accepted + 1
  rejected : w.rejected ≤ cw.rejected ∧ cw.rejected ≤ w.rejected + 1

/-- The verifier has the ledger's numbers. -/
structure Same (w : Ledger) (cw : Walk) : Prop where
  attempts : cw.attempts.length = w.attemptCount
  accepted : cw.accepted = w.accepted
  rejected : cw.rejected = w.rejected

theorem Same.near {w : Ledger} {cw : Walk} (h : Same w cw) : Near w cw := by
  obtain ⟨h1, h2, h3⟩ := h
  constructor <;> omega

/-- Nobody is about to publish, and nobody will be. -/
def Quiet (w : Ledger) : Prop :=
  match w.holder with
  | none => w.unknown = true ∨ w.closed = true
  | some (.abandoning _) | some .closing => w.unknown = true
  | some .leaving => True
  | _ => False

/-- A ledger that publishes no more. -/
structure Stopped (b : Budgets) (w : Ledger) : Prop where
  walk : ∃ cw, w.disk.foldlM (Walk.take b.catalog) Walk.start = .ok cw ∧ 0 < cw.count ∧ Near w cw ∧
    (w.unknown = false → Same w cw)
  quiet : Quiet w

section Catalog

variable {b : Budgets} {w : Ledger} {cw : Walk} {i : Nat} {a : Attempt}

theorem Agree.put {attempts : List Attempt} (h : Agree attempts cw) (ha : attempts[i]? = some a) {a' : Attempt}
    (hparent : a'.parent = a.parent) (hreason : a'.reason = a.reason)
    (hmarks : a'.phase.marks = none ∨ a'.phase.marks = a.phase.marks) : Agree (attempts.set i a') cw := by
  refine ⟨h.length.trans List.length_set.symm, fun j x hx => ?_⟩
  rcases get_set ha hx with ⟨rfl, rfl⟩ | ⟨-, hx⟩
  · obtain ⟨e, he, hnew, hdirectory, htold⟩ := h.entry i a ha
    refine ⟨e, he, hreason ▸ hnew, ?_, fun acked ended hm => ?_⟩
    · unfold Attempt.directory
      rw [hparent]
      exact hdirectory
    · rcases hmarks with hnone | hsame
      · exact absurd (hm.symm.trans hnone) nofun
      · exact htold acked ended (hsame.symm.trans hm)
  · exact h.entry j x hx

/-- A row of an attempt, and the phase behind it. -/
theorem Agree.mark {attempts : List Attempt} (h : Agree attempts cw) (ha : attempts[i]? = some a) {a' : Attempt}
    {e e' : Entry} (he : cw.attempts[i]? = some e) {cw' : Walk} (hattempts : cw'.attempts = cw.attempts.set i e')
    (hparent : a'.parent = a.parent) (hreason : a'.reason = a.reason) (hnew : e'.new = e.new)
    (hdirectory : e'.directory = e.directory)
    (hmarks : ∀ acked ended, a'.phase.marks = some (acked, ended) → e'.acked = acked ∧ e'.ended = ended) :
    Agree (attempts.set i a') cw' := by
  obtain ⟨hlt, -⟩ := List.getElem?_eq_some_iff.mp he
  refine ⟨?_, fun j x hx => ?_⟩
  · rw [hattempts, List.length_set, List.length_set]
    exact h.length
  · rw [hattempts]
    rcases get_set ha hx with ⟨rfl, rfl⟩ | ⟨hne, hx⟩
    · obtain ⟨e₀, he₀, hnew₀, hdirectory₀, -⟩ := h.entry i a ha
      obtain rfl := Option.some.inj (he.symm.trans he₀)
      refine ⟨e', List.getElem?_set_self hlt, ?_, ?_, hmarks⟩
      · rw [hnew, hreason]
        exact hnew₀
      · unfold Attempt.directory
        rw [hdirectory, hparent]
        exact hdirectory₀
    · obtain ⟨e₀, he₀, hrest⟩ := h.entry j x hx
      exact ⟨e₀, (List.getElem?_set_ne hne).trans he₀, hrest⟩

/-- The row of the next attempt. -/
theorem Agree.snoc {front : List Attempt} (h : Agree front cw) {cw' : Walk}
    (hattempts : cw'.attempts = cw.attempts ++ [⟨a.reason.isNone, a.directory front.length, false, false⟩])
    (hphase : a.phase = .entering) : Agree (front ++ [a]) cw' := by
  have hlength := h.length
  refine ⟨?_, fun j x hx => ?_⟩
  · rw [hattempts, List.length_append, List.length_append, hlength]
    rfl
  · rw [hattempts]
    rcases append_get hx with hx | ⟨rfl, rfl⟩
    · obtain ⟨e, he, hrest⟩ := h.entry j x hx
      obtain ⟨hlt, -⟩ := List.getElem?_eq_some_iff.mp he
      exact ⟨e, (List.getElem?_append_left hlt).trans he, hrest⟩
    · refine ⟨⟨a.reason.isNone, a.directory front.length, false, false⟩, ?_, rfl, rfl, fun acked ended hm => ?_⟩
      · rw [List.getElem?_append_right (Nat.le_of_eq hlength), hlength, Nat.sub_self]
        rfl
      · rw [hphase] at hm
        obtain ⟨rfl, rfl⟩ := Prod.mk.inj (Option.some.inj hm)
        exact ⟨rfl, rfl⟩

/-! ## A row is published -/

/-- The locals of the verifier once it has read a row, before its kind. -/
def grown (cw : Walk) (instanceId : Text) (raw : Bytes) : Walk :=
  { cw with count := cw.count + 1, total := cw.total + raw.length, instanceId := some instanceId }

/-- **Every row that is due has its place** in the budgets. -/
theorem Walked.room (h : Walked b w cw) (hlength : cw.attempts.length ≤ b.maxAttempts) {raw : Bytes}
    (hraw : raw.length ≤ b.maxCatalogRecordBytes) : w.catalogCount < b.maxCatalogRecords ∧
      w.catalogBytes + raw.length ≤ b.catalog.maxTotalBytes := by
  have hfew := h.few
  have hrows := rows_le cw.attempts
  have hcounts := b.counts.2.1
  have hlt : cw.count < b.maxCatalogRecords := by omega
  refine ⟨h.count ▸ hlt, ?_⟩
  rw [← h.total]
  calc cw.total + raw.length
      ≤ cw.count * b.maxCatalogRecordBytes + b.maxCatalogRecordBytes := Nat.add_le_add h.bytes hraw
    _ = (cw.count + 1) * b.maxCatalogRecordBytes := (Nat.succ_mul _ _).symm
    _ ≤ b.maxCatalogRecords * b.maxCatalogRecordBytes := Nat.mul_le_mul_right _ hlt

/-- The row of a payload, as a value. -/
theorem Walked.value_row (h : Walked b w cw) {kind : Text} {payload : Json} (hkind : PyText kind)
    (hv : Value payload) : Value (rowJson w.instanceId w.catalogCount w.head kind payload) :=
  AttemptCatalog.value_row _ h.text hkind (fun r hr => h.sound r (h.head.trans hr)) hv

/-- The verifier goes on with the row. -/
theorem Walked.next (h : Walked b w cw) {kind : Text} {payload : Json} (hkind : PyText kind) (hv : Value payload)
    (hlength : cw.attempts.length ≤ b.maxAttempts) {raw : Bytes} (hraw : w.raw b kind payload = .ok raw) {cw' : Walk}
    (hentry : (grown cw w.instanceId raw).entry kind payload.sortKeys = .ok cw') :
    (w.disk ++ [raw]).foldlM (Walk.take b.catalog) Walk.start = .ok { cw' with head := some (refOf raw) } := by
  have hrow := h.value_row hkind hv
  obtain ⟨-, hbytes, -⟩ := encode_spec hrow hraw
  obtain ⟨hcount, htotal⟩ := h.room hlength hbytes
  have hencoded : b.catalog.encode (rowJson w.instanceId cw.count cw.head kind payload) = .ok raw := by
    rw [h.count, h.head]
    exact hraw
  rw [← h.count, ← h.head] at hrow
  rw [← h.count] at hcount
  rw [← h.total] at htotal
  have hinstance : ∀ i, cw.instanceId = some i → i = w.instanceId := fun i hi =>
    Option.some.inj (hi.symm.trans h.instanceId)
  rw [foldlM_snoc h.walk, take_row hrow (value_previous h.sound) hencoded hcount h.unended htotal hinstance]
  show ((grown cw w.instanceId raw).entry kind payload.sortKeys >>= _) = _
  rw [hentry, ok_bind]

/-- The locals of the verifier after a row that was confirmed. -/
theorem Walked.confirm (h : Walked b w cw) {kind : Text} {payload : Json} (hkind : PyText kind) (hv : Value payload)
    (hlength : cw.attempts.length ≤ b.maxAttempts) {raw : Bytes} (hraw : w.raw b kind payload = .ok raw)
    {attempts : List Entry} {seen : List Bytes} {accepted rejected : Nat}
    (hentry : (grown cw w.instanceId raw).entry kind payload.sortKeys =
      .ok { grown cw w.instanceId raw with attempts, seen, accepted, rejected })
    (hrows : rows cw.attempts + 1 ≤ rows attempts) {w' : Ledger} (hdisk : w'.disk = w.disk ++ [raw])
    (hcount : w'.catalogCount = w.catalogCount + 1) (hbytes : w'.catalogBytes = w.catalogBytes + raw.length)
    (hhead : w'.head = some (refOf raw)) (hid : w'.instanceId = w.instanceId) (haccepted : w'.accepted = accepted) :
    Walked b w' { grown cw w.instanceId raw with
      head := some (refOf raw), attempts, seen, accepted, rejected } := by
  obtain ⟨hpositive, hlong, -⟩ := encode_spec (h.value_row hkind hv) hraw
  have hfew := h.few
  constructor
  · rw [hdisk]
    exact h.next hkind hv hlength hraw hentry
  · exact (congrArg (· + 1) h.count).trans hcount.symm
  · exact (congrArg (· + raw.length) h.total).trans hbytes.symm
  · exact hhead.symm
  · exact congrArg some hid.symm
  · exact h.unended
  · exact haccepted.symm
  · intro r hr
    obtain rfl := Option.some.inj hr
    exact sound_refOf hpositive
  · rw [hid]
    exact h.text
  · exact Nat.succ_pos _
  · show cw.count + 1 ≤ 1 + rows attempts
    omega
  · show cw.total + raw.length ≤ (cw.count + 1) * b.maxCatalogRecordBytes
    rw [Nat.succ_mul]
    exact Nat.add_le_add h.bytes hlong

/-- A ledger that became unknown in a publication. -/
theorem stopped_of {w' : Ledger} {cw' : Walk}
    (hwalk : w'.disk.foldlM (Walk.take b.catalog) Walk.start = .ok cw') (hpositive : 0 < cw'.count)
    (hnear : Near w' cw') (hunknown : w'.unknown = true) (hquiet : Quiet w') : Stopped b w' :=
  ⟨⟨cw', hwalk, hpositive, hnear, fun hknown => absurd (hunknown.symm.trans hknown) nofun⟩, hquiet⟩

/-- They agree, or the ledger publishes no more. -/
def Synced (b : Budgets) (w : Ledger) : Prop := (∃ cw, Walked b w cw ∧ Aligned w cw) ∨ Stopped b w

/-- What the holder does behind a publication. -/
def settle : Ledger × Except String Unit → Ledger
  | (w, .ok ()) => w.published
  | (w, .error _) => w.unpublished

theorem pyText_kinds : ∀ kind ∈ [INSTANCE_BEGIN, ATTEMPT_BEGIN, ACCEPT_ACK, ATTEMPT_END, INSTANCE_END],
    ∀ x ∈ kind, x < 0x110000 := by decide

theorem published_beginning (hholder : w.holder = some (.beginning i)) (ha : w.attempts[i]? = some a) :
    w.published = if a.reason.isNone then w.leave i .begun else { w with holder := some (.rejecting i) } := by
  unfold Ledger.published
  rw [hholder]
  dsimp only
  rw [ha]
  rfl

theorem unpublished_beginning (hholder : w.holder = some (.beginning i)) :
    w.unpublished = { w with unknown := true, holder := some (.abandoning i) } := by
  unfold Ledger.unpublished
  rw [hholder]

/-- **The begin of an attempt is published.** -/
theorem publish_begin (hw : Steady b w) (hwalk : Walked b w cw) {front : List Attempt}
    (hholder : w.holder = some (.beginning i)) (hattempts : w.attempts = front ++ [a]) (hlength : front.length = i)
    (hphase : a.phase = .entering) (hagree : Agree front cw)
    (hduplicate : a.reason = some .duplicate ↔ a.parent.line ∈ cw.seen)
    (hseen : w.seen = if cw.seen.contains a.parent.line then cw.seen else a.parent.line :: cw.seen)
    (hrejected : cw.rejected = w.rejected) {result : Ledger × Except String Unit}
    (h : Published b w ATTEMPT_BEGIN
      (beginJson (i + 1) a.parent.key a.parent.tool a.parent.argumentsSha256 a.reason) result) :
    Synced b (settle result) := by
  have hcount : w.attemptCount = i + 1 := by
    rw [hw.counted, hattempts, List.length_append, hlength]
    rfl
  have hcw : cw.attempts.length = i := hagree.length.trans hlength
  have hadmitted := hw.admitted
  have hroom : cw.attempts.length ≤ b.maxAttempts := by omega
  have hkind : PyText ATTEMPT_BEGIN := pyText_kinds _ (by decide)
  have hv := value_beginJson (i + 1) a.reason a.parent.held a.parent.toolText a.parent.shaText
  have ha : w.attempts[i]? = some a := by
    rw [hattempts, List.getElem?_append_right (Nat.le_of_eq hlength), hlength, Nat.sub_self]
    rfl
  -- The verifier's number of a rejected attempt runs ahead of the ledger's until its end.
  have hentry : ∀ raw, (grown cw w.instanceId raw).entry ATTEMPT_BEGIN
      (beginJson (i + 1) a.parent.key a.parent.tool a.parent.argumentsSha256 a.reason).sortKeys =
      .ok { grown cw w.instanceId raw with
        attempts := cw.attempts ++ [⟨a.reason.isNone, a.directory i, false, false⟩]
        seen := w.seen
        accepted := cw.accepted
        rejected := if a.reason.isNone then cw.rejected else cw.rejected + 1 } := by
    intro raw
    have hbegin := entry_begin (w := grown cw w.instanceId raw) a.parent.held
      a.parent.toolText a.parent.shaText a.parent.encodes hduplicate
    have hnumber : (grown cw w.instanceId raw).attempts.length = i := hcw
    rw [hnumber] at hbegin
    rw [hbegin, hseen]
    rfl
  have hnear : ∀ {w' : Ledger}, w'.attemptCount = w.attemptCount → w'.accepted = w.accepted →
      w'.rejected = w.rejected → Near w' cw := by
    intro w' h1 h2 h3
    have haccepted := hwalk.accepted
    constructor <;> omega
  cases h with
  | @confirmed raw hraw hbytes =>
      have hrows : rows cw.attempts + 1 ≤
          rows (cw.attempts ++ [⟨a.reason.isNone, a.directory i, false, false⟩]) := by
        rw [rows_append]
        exact Nat.le_refl _
      have hsnoc : ∀ {cw' : Walk}, cw'.attempts = cw.attempts ++ [⟨a.reason.isNone, a.directory i, false, false⟩] →
          Agree w.attempts cw' := fun hcw' => by
        rw [hattempts]
        exact hagree.snoc (hlength ▸ hcw') hphase
      left
      refine ⟨{ grown cw w.instanceId raw with
        head := some (refOf raw)
        attempts := cw.attempts ++ [⟨a.reason.isNone, a.directory i, false, false⟩]
        seen := w.seen
        accepted := cw.accepted
        rejected := if a.reason.isNone then cw.rejected else cw.rejected + 1 }, ?_⟩
      show Walked b (w.confirm raw).published _ ∧ Aligned (w.confirm raw).published _
      have hnext : (w.confirm raw).published =
          if a.reason.isNone then (w.confirm raw).leave i .begun
          else { w.confirm raw with holder := some (.rejecting i) } := published_beginning hholder ha
      rw [hnext]
      by_cases hnew : a.reason.isNone = true
      · rw [if_pos hnew, if_pos hnew, leave_of (w := w.confirm raw) ha]
        rw [if_pos hnew] at hentry
        refine ⟨hwalk.confirm hkind hv hroom hraw (hentry raw) hrows rfl rfl rfl rfl rfl hwalk.accepted.symm,
          Agree.put (hsnoc rfl) ha rfl rfl (.inr ?_), rfl, hrejected⟩
        rw [hphase]
        rfl
      · rw [if_neg hnew, if_neg hnew]
        rw [if_neg hnew] at hentry
        exact ⟨hwalk.confirm hkind hv hroom hraw (hentry raw) hrows rfl rfl rfl rfl rfl hwalk.accepted.symm,
          hsnoc rfl, rfl, congrArg (· + 1) hrejected⟩
  | @doubted raw hraw hbytes written e =>
      right
      show Stopped b (w.doubt raw written).unpublished
      rw [unpublished_beginning (w := w.doubt raw written) hholder]
      cases written with
      | false => exact stopped_of hwalk.walk hwalk.positive (hnear rfl rfl rfl) rfl rfl
      | true =>
          refine stopped_of (hwalk.next hkind hv hroom hraw (hentry raw)) (Nat.succ_pos _) ?_ rfl rfl
          have haccepted := hwalk.accepted
          refine ⟨?_, ?_, ?_⟩
          · show (cw.attempts ++ [_]).length ≤ w.attemptCount ∧ w.attemptCount ≤ (cw.attempts ++ [_]).length + 1
            rw [List.length_append, hcw, hcount]
            exact ⟨Nat.le_refl _, Nat.le_succ _⟩
          · show w.accepted ≤ cw.accepted ∧ cw.accepted ≤ w.accepted + 1
            omega
          · show w.rejected ≤ (if a.reason.isNone then cw.rejected else cw.rejected + 1) ∧
              (if a.reason.isNone then cw.rejected else cw.rejected + 1) ≤ w.rejected + 1
            split <;> omega
  | refused e =>
      right
      show Stopped b w.unpublished
      rw [unpublished_beginning hholder]
      exact stopped_of hwalk.walk hwalk.positive (hnear rfl rfl rfl) rfl rfl

/-- The entry of an attempt whose phase tells what the catalog has of it. -/
theorem Agree.told {attempts : List Attempt} (h : Agree attempts cw) (ha : attempts[i]? = some a)
    {acked ended : Bool} (hmarks : a.phase.marks = some (acked, ended)) :
    cw.attempts[i]? = some ⟨a.reason.isNone, a.directory i, acked, ended⟩ := by
  obtain ⟨e, he, hnew, hdirectory, htold⟩ := h.entry i a ha
  obtain ⟨hacked, hended⟩ := htold acked ended hmarks
  rw [he]
  cases e
  cases hnew
  cases hdirectory
  cases hacked
  cases hended
  rfl

/-- A row of an attempt that is in the catalog, and what the verifier makes of it. -/
structure Row (w : Ledger) (cw : Walk) (i : Nat) (kind : Text) (payload : Json) (e e' : Entry)
    (accepted : Nat) : Prop where
  present : cw.attempts[i]? = some e
  text : PyText kind
  value : Value payload
  entry : ∀ raw, (grown cw w.instanceId raw).entry kind payload.sortKeys = .ok { grown cw w.instanceId raw with
    attempts := cw.attempts.set i e', seen := cw.seen, accepted := accepted, rejected := cw.rejected }
  new : e'.new = e.new
  directory : e'.directory = e.directory
  rows : e'.rows = e.rows + 1

theorem Agree.room (h : Agree w.attempts cw) (hw : Steady b w) : cw.attempts.length = w.attemptCount ∧
    cw.attempts.length ≤ b.maxAttempts := by
  have hadmitted := hw.admitted
  have hcounted := hw.counted
  have hlength := h.length
  omega

/-- **A row that was confirmed**: the phase behind it tells of it. -/
theorem Row.confirm {kind : Text} {payload : Json} {e e' : Entry} {accepted : Nat}
    (h : Row w cw i kind payload e e' accepted) (hw : Steady b w) (hwalk : Walked b w cw)
    (hagree : Agree w.attempts cw) (hseen : cw.seen = w.seen) (ha : w.attempts[i]? = some a) {phase : Phase}
    (hmarks : ∀ acked ended, phase.marks = some (acked, ended) → e'.acked = acked ∧ e'.ended = ended)
    {raw : Bytes} (hraw : w.raw b kind payload = .ok raw) {rejected : Nat} (hrejected : cw.rejected = rejected) :
    Synced b { (w.confirm raw).leave i phase with accepted, rejected } := by
  obtain ⟨-, hroom⟩ := hagree.room hw
  have hmore : AttemptCatalog.rows cw.attempts + 1 ≤ AttemptCatalog.rows (cw.attempts.set i e') := by
    have hset := rows_set h.present e'
    have hone := h.rows
    omega
  left
  rw [leave_of (w := w.confirm raw) ha]
  exact ⟨_, hwalk.confirm h.text h.value hroom hraw (h.entry raw) hmore rfl rfl rfl rfl rfl rfl,
    hagree.mark ha h.present rfl rfl rfl h.new h.directory hmarks, hseen, hrejected⟩

/-- **A row in doubt**: the ledger publishes no more. -/
theorem Row.doubt {kind : Text} {payload : Json} {e e' : Entry} {accepted : Nat}
    (h : Row w cw i kind payload e e' accepted) (hw : Steady b w) (hwalk : Walked b w cw)
    (hagree : Agree w.attempts cw) (haccepted : w.accepted ≤ accepted ∧ accepted ≤ w.accepted + 1)
    (hrejected : w.rejected ≤ cw.rejected ∧ cw.rejected ≤ w.rejected + 1) {raw : Bytes}
    (hraw : w.raw b kind payload = .ok raw) (written : Bool) {w' : Ledger} (hattempts : w'.attemptCount = w.attemptCount)
    (haccepted' : w'.accepted = w.accepted) (hrejected' : w'.rejected = w.rejected)
    (hdisk : w'.disk = if written then w.disk ++ [raw] else w.disk)
    (hunknown : w'.unknown = true) (hquiet : Quiet w') : Stopped b w' := by
  obtain ⟨hlength, hroom⟩ := hagree.room hw
  have hsame := hwalk.accepted
  cases written with
  | false =>
      rw [if_neg Bool.false_ne_true] at hdisk
      refine stopped_of (hdisk ▸ hwalk.walk) hwalk.positive ⟨?_, ?_, ?_⟩ hunknown hquiet <;> omega
  | true =>
      rw [if_pos rfl] at hdisk
      refine stopped_of (hdisk ▸ hwalk.next h.text h.value hroom hraw (h.entry raw)) (Nat.succ_pos _) ⟨?_, ?_, ?_⟩
        hunknown hquiet
      · show (cw.attempts.set i e').length ≤ w'.attemptCount ∧ w'.attemptCount ≤ (cw.attempts.set i e').length + 1
        rw [List.length_set]
        omega
      · rw [haccepted']
        exact haccepted
      · rw [hrejected']
        exact hrejected

/-- The end of an attempt that was rejected. -/
theorem row_rejection (hagree : Agree w.attempts cw) (ha : w.attempts[i]? = some a) (hphase : a.phase = .entering)
    (hreason : a.reason ≠ none) : Row w cw i ATTEMPT_END (rejectionJson (i + 1))
      ⟨a.reason.isNone, a.directory i, false, false⟩ ⟨a.reason.isNone, a.directory i, false, true⟩ cw.accepted := by
  have hmarks : a.phase.marks = some (false, false) := by
    rw [hphase]
    rfl
  have he := hagree.told ha hmarks
  have hnew : a.reason.isNone = false := by
    cases h : a.reason with
    | none => exact absurd h hreason
    | some r => rfl
  exact ⟨he, pyText_kinds _ (by decide), value_rejectionJson _,
    fun raw => entry_rejection (w := grown cw w.instanceId raw) he hnew rfl, rfl, rfl, rfl⟩

/-- The acceptance of an attempt. -/
theorem row_ack (hagree : Agree w.attempts cw) (ha : w.attempts[i]? = some a)
    (hmarks : a.phase.marks = some (false, false)) (hnew : a.reason = none) (raw : Bytes) :
    Row w cw i ACCEPT_ACK (ackJson (i + 1) (a.directory i ++ 47 :: fileName 0) (refOf raw))
      ⟨a.reason.isNone, a.directory i, false, false⟩ ⟨a.reason.isNone, a.directory i, true, false⟩
      (cw.accepted + 1) := by
  have he := hagree.told ha hmarks
  have hisnew : a.reason.isNone = true := by
    rw [hnew]
    rfl
  have hpath : PyText (a.directory i) := pyText_directory _ _
  have hsha : PyText (refOf raw).sha256 := pyText_printable (printable_isHex (Sha256.isHex_hexdigest raw))
  refine ⟨he, pyText_kinds _ (by decide), value_ackJson _ (pyText_file hpath 0) hsha, ?_, rfl, rfl, rfl⟩
  intro line
  exact entry_ack (w := grown cw w.instanceId line) (a := ⟨a.reason.isNone, a.directory i, false, false⟩)
    (r := refOf raw) he hisnew rfl rfl hpath hsha

/-- The end of an attempt that was accepted. -/
theorem row_end (hagree : Agree w.attempts cw) (ha : w.attempts[i]? = some a)
    (hmarks : a.phase.marks = some (true, false)) (hnew : a.reason = none) {r : Ref} (hsha : PyText r.sha256)
    (failed : Bool) (outcome : Outcome) (records events bytes : Nat) :
    Row w cw i ATTEMPT_END
      (endJson (i + 1) failed outcome (a.directory i ++ 47 :: fileName (records - 1)) r records events bytes)
      ⟨a.reason.isNone, a.directory i, true, false⟩ ⟨a.reason.isNone, a.directory i, true, true⟩ cw.accepted := by
  have he := hagree.told ha hmarks
  have hisnew : a.reason.isNone = true := by
    rw [hnew]
    rfl
  have hpath : PyText (a.directory i) := pyText_directory _ _
  have hv := value_endJson (i + 1) failed outcome records events bytes (pyText_file hpath (records - 1)) hsha
  refine ⟨he, pyText_kinds _ (by decide), hv, fun line => ?_, rfl, rfl, rfl⟩
  exact entry_end (w := grown cw w.instanceId line) (a := ⟨a.reason.isNone, a.directory i, true, false⟩) (r := r)
    he hisnew rfl rfl hpath hsha

/-- The verifier's locals are about the catalog, not about the threads. -/
theorem Walked.congr (h : Walked b w cw) {w' : Ledger} (hdisk : w'.disk = w.disk)
    (hcount : w'.catalogCount = w.catalogCount) (hbytes : w'.catalogBytes = w.catalogBytes)
    (hhead : w'.head = w.head) (hid : w'.instanceId = w.instanceId) (haccepted : w'.accepted = w.accepted) :
    Walked b w' cw := by
  obtain ⟨h1, h2, h3, h4, h5, h6, h7, h8, h9, h10, h11, h12⟩ := h
  refine ⟨?_, ?_, ?_, ?_, ?_, h6, ?_, h8, ?_, h10, h11, h12⟩
  · rw [hdisk, h1]
  · rw [hcount, h2]
  · rw [hbytes, h3]
  · rw [hhead, h4]
  · rw [hid, h5]
  · rw [haccepted, h7]
  · rw [hid]
    exact h9

/-- A thread fails with the lock in its hands, and nothing written. -/
theorem Walked.failed (hwalk : Walked b w cw) (hagree : Agree w.attempts cw) (hseen : cw.seen = w.seen)
    (hrejected : cw.rejected = w.rejected) (ha : w.attempts[i]? = some a) {phase : Phase}
    (hphase : phase.marks = none) : Synced b (w.leave i phase) := by
  left
  rw [leave_of ha]
  exact ⟨cw, hwalk.congr rfl rfl rfl rfl rfl rfl, hagree.put ha rfl rfl (.inl hphase), hseen, hrejected⟩

/-- The digest of a journal's last record. -/
theorem sound_head {c : Codec} {j : World} (hj : RequestJournal.Sound c j) {r : Ref} (hr : j.journal.head = some r) :
    PyText r.sha256 := by
  obtain ⟨records, status, outcome, hrecorded, -, -⟩ := hj.recorded
  have hhead := hrecorded.head.trans hr
  obtain ⟨raw, -, rfl⟩ := Option.map_eq_some_iff.mp hhead
  exact pyText_printable (printable_isHex (Sha256.isHex_hexdigest raw))

/-- What a failed publication leaves as it is. -/
theorem unpublished_frame (w : Ledger) : w.unpublished.disk = w.disk ∧ w.unpublished.attemptCount = w.attemptCount ∧
    w.unpublished.accepted = w.accepted ∧ w.unpublished.rejected = w.rejected ∧
    (w.unknown = true → w.unpublished.unknown = true) := by
  unfold Ledger.unpublished
  split
  · exact ⟨rfl, rfl, rfl, rfl, fun _ => rfl⟩
  · exact ⟨rfl, rfl, rfl, rfl, fun _ => rfl⟩
  · exact ⟨rfl, rfl, rfl, rfl, id⟩
  · exact ⟨rfl, rfl, rfl, rfl, id⟩
  · exact ⟨rfl, rfl, rfl, rfl, fun _ => rfl⟩
  · exact ⟨rfl, rfl, rfl, rfl, id⟩

/-- A thread that holds the lock for its own row, and leaves it with or without the row. -/
theorem Row.publish {kind : Text} {payload : Json} {e e' : Entry} {accepted : Nat}
    (hrow : Row w cw i kind payload e e' accepted) (hw : Steady b w) (hwalk : Walked b w cw)
    (hagree : Agree w.attempts cw) (hseen : cw.seen = w.seen) (hrejected : cw.rejected = w.rejected)
    (ha : w.attempts[i]? = some a) (haccepted : w.accepted ≤ accepted ∧ accepted ≤ w.accepted + 1) (reached failed : Phase)
    (hmarks : ∀ acked ended, reached.marks = some (acked, ended) → e'.acked = acked ∧ e'.ended = ended)
    (hnone : failed.marks = none)
    (hdone : ∀ w' : Ledger, w'.holder = w.holder → w'.accepted = w.accepted →
      w'.published = { w'.leave i reached with accepted })
    (hfailed : ∀ w' : Ledger, w'.holder = w.holder → w'.unpublished = w'.leave i failed)
    {result : Ledger × Except String Unit} (h : Published b w kind payload result) : Synced b (settle result) := by
  cases h with
  | @confirmed raw hraw hbytes =>
      show Synced b (w.confirm raw).published
      rw [hdone (w.confirm raw) rfl rfl]
      exact hrow.confirm hw hwalk hagree hseen ha hmarks hraw hrejected
  | @doubted raw hraw hbytes written e =>
      right
      show Stopped b (w.doubt raw written).unpublished
      obtain ⟨hdisk, hattempts, haccepted', hrejected', hunknown⟩ := unpublished_frame (w.doubt raw written)
      refine hrow.doubt hw hwalk hagree haccepted ⟨Nat.le_of_eq hrejected.symm, Nat.le_succ_of_le (Nat.le_of_eq hrejected)⟩
        hraw written hattempts haccepted' hrejected' hdisk (hunknown rfl) ?_
      rw [hfailed (w.doubt raw written) rfl]
      exact .inl rfl
  | refused e =>
      show Synced b w.unpublished
      rw [hfailed w rfl]
      exact hwalk.failed hagree hseen hrejected ha hnone

/-- **The acceptance of an attempt is published.** -/
theorem publish_ack (hw : Steady b w) (hheld : Held b w) (hwalk : Walked b w cw) (haligned : Aligned w cw)
    (hholder : w.holder = some (.acking i)) {kind : Text} {payload : Json} (hdue : w.due = some (kind, payload))
    {result : Ledger × Except String Unit} (h : Published b w kind payload result) : Synced b (settle result) := by
  unfold Held at hheld
  unfold Aligned at haligned
  unfold Ledger.due at hdue
  rw [hholder] at hheld haligned hdue
  obtain ⟨a, ha, hphase⟩ := hheld
  obtain ⟨hagree, hseen, hrejected⟩ := haligned
  obtain ⟨a', ha', hdue⟩ := Option.bind_eq_some_iff.mp hdue
  obtain rfl := Option.some.inj (ha.symm.trans ha')
  obtain ⟨j, -, hdue⟩ := Option.bind_eq_some_iff.mp hdue
  obtain ⟨raw, -, hdue⟩ := Option.map_eq_some_iff.mp hdue
  obtain ⟨rfl, rfl⟩ := Prod.mk.inj hdue
  have hnew : a.reason = none := (hw.calm i a ha).new (hphase ▸ nofun) (hphase ▸ nofun)
  have hrow := row_ack hagree ha (hphase ▸ rfl) hnew raw
  have haccepted := hwalk.accepted
  have hmarks : ∀ acked ended, Phase.acked.marks = some (acked, ended) → true = acked ∧ false = ended := fun _ _ hm =>
    Prod.mk.inj (Option.some.inj hm)
  refine hrow.publish hw hwalk hagree hseen hrejected ha (by omega) .acked .acceptFailed hmarks rfl
    (fun w' hw' hsame => ?_) (fun w' hw' => ?_) h
  · unfold Ledger.published
    rw [hw', hholder, haccepted, ← hsame]
  · unfold Ledger.unpublished
    rw [hw', hholder]

/-- **The end of an accepted attempt is published.** -/
theorem publish_end (hw : Steady b w) (hheld : Held b w) (hwalk : Walked b w cw) (haligned : Aligned w cw)
    (hholder : w.holder = some (.ending i)) {kind : Text} {payload : Json} (hdue : w.due = some (kind, payload))
    {result : Ledger × Except String Unit} (h : Published b w kind payload result) : Synced b (settle result) := by
  unfold Held at hheld
  unfold Aligned at haligned
  unfold Ledger.due at hdue
  rw [hholder] at hheld haligned hdue
  obtain ⟨a, ha, outcome, failed, events, hphase⟩ := hheld
  obtain ⟨hagree, hseen, hrejected⟩ := haligned
  obtain ⟨a', ha', hdue⟩ := Option.bind_eq_some_iff.mp hdue
  obtain rfl := Option.some.inj (ha.symm.trans ha')
  have hcalm := hw.calm i a ha
  rw [hphase] at hdue
  cases hjournal : a.journal with
  | none =>
      rw [hjournal] at hdue
      exact absurd hdue nofun
  | some j =>
      rw [hjournal] at hdue
      obtain ⟨r, hr, hdue⟩ := Option.map_eq_some_iff.mp hdue
      obtain ⟨rfl, rfl⟩ := Prod.mk.inj hdue
      have hnew : a.reason = none := hcalm.new (hphase ▸ nofun) (hphase ▸ nofun)
      have hrow := row_end hagree ha (hphase ▸ rfl) hnew (sound_head (hcalm.sound j hjournal) hr) failed outcome
        j.journal.count events j.journal.bytes
      have haccepted := hwalk.accepted
      have hmarks : ∀ acked ended, Phase.recorded.marks = some (acked, ended) → true = acked ∧ true = ended :=
        fun _ _ hm => Prod.mk.inj (Option.some.inj hm)
      refine hrow.publish hw hwalk hagree hseen hrejected ha (by omega) .recorded .finishFailed hmarks rfl
        (fun w' hw' hsame => ?_) (fun w' hw' => ?_) h
      · unfold Ledger.published
        rw [hw', hholder, haccepted, ← hsame]
        rfl
      · unfold Ledger.unpublished
        rw [hw', hholder]

/-- **The end of a rejected attempt is published.** -/
theorem publish_rejection (hw : Steady b w) (hheld : Held b w) (hwalk : Walked b w cw) (haligned : Aligned w cw)
    (hholder : w.holder = some (.rejecting i)) {result : Ledger × Except String Unit}
    (h : Published b w ATTEMPT_END (rejectionJson (i + 1)) result) : Synced b (settle result) := by
  unfold Held at hheld
  unfold Aligned at haligned
  rw [hholder] at hheld haligned
  obtain ⟨a, ha, hphase, hreason, -⟩ := hheld
  obtain ⟨hagree, hseen, hrejected⟩ := haligned
  have hrow := row_rejection hagree ha hphase hreason
  have haccepted := hwalk.accepted
  have hlost : ∀ w' : Ledger, w'.holder = w.holder →
      w'.unpublished = { w' with unknown := true, holder := some (.abandoning i) } := fun w' hw' => by
    unfold Ledger.unpublished
    rw [hw', hholder]
  have hkept : ∀ {w' : Ledger} (raw : Bytes) (written : Bool), w.raw b ATTEMPT_END (rejectionJson (i + 1)) = .ok raw →
      w'.attemptCount = w.attemptCount → w'.accepted = w.accepted → w'.rejected = w.rejected →
      (w'.disk = if written then w.disk ++ [raw] else w.disk) → w'.unknown = true → Quiet w' → Stopped b w' :=
    fun raw written hraw h1 h2 h3 h4 => hrow.doubt hw hwalk hagree (by omega) (by omega) hraw written h1 h2 h3 h4
  cases h with
  | @confirmed raw hraw hbytes =>
      have hnext : (w.confirm raw).published = { (w.confirm raw).leave i .refused with rejected := w.rejected + 1 } := by
        unfold Ledger.published
        rw [show (w.confirm raw).holder = w.holder from rfl, hholder]
        rfl
      show Synced b (w.confirm raw).published
      rw [hnext]
      have hmarks : ∀ acked ended, Phase.refused.marks = some (acked, ended) → false = acked ∧ true = ended :=
        fun _ _ hm => Prod.mk.inj (Option.some.inj hm)
      have hconfirmed := hrow.confirm hw hwalk hagree hseen ha hmarks hraw hrejected
      rw [haccepted] at hconfirmed
      exact hconfirmed
  | @doubted raw hraw hbytes written e =>
      right
      show Stopped b (w.doubt raw written).unpublished
      rw [hlost (w.doubt raw written) rfl]
      exact hkept raw written hraw rfl rfl rfl rfl rfl rfl
  | refused e =>
      right
      show Stopped b w.unpublished
      rw [hlost w rfl]
      refine stopped_of hwalk.walk hwalk.positive ⟨?_, ?_, ?_⟩ rfl rfl
      · obtain ⟨hlength, -⟩ := hagree.room hw
        exact ⟨Nat.le_of_eq hlength, Nat.le_succ_of_le (Nat.le_of_eq hlength.symm)⟩
      · show w.accepted ≤ cw.accepted ∧ cw.accepted ≤ w.accepted + 1
        omega
      · show w.rejected ≤ cw.rejected ∧ cw.rejected ≤ w.rejected + 1
        omega

/-- An attempt that has ended has its end in the catalog. -/
theorem ended_marks (h : a.state = .ended) : ∃ acked, a.phase.marks = some (acked, true) := by
  unfold Attempt.state at h
  cases hphase : a.phase with
  | refused => exact ⟨false, rfl⟩
  | ended => exact ⟨true, rfl⟩
  | done => exact ⟨true, rfl⟩
  | _ =>
      rw [hphase] at h
      exact absurd h nofun

/-- **The end of the instance is published**, and the ledger publishes no more. -/
theorem publish_certify (hheld : Held b w) (hw : Steady b w) (hwalk : Walked b w cw) (haligned : Aligned w cw)
    (hholder : w.holder = some .certifying) {result : Ledger × Except String Unit}
    (h : Published b w INSTANCE_END (instanceEndJson w.attemptCount w.accepted w.rejected) result) :
    Synced b (settle result) := by
  unfold Held at hheld
  unfold Aligned at haligned
  rw [hholder] at hheld haligned
  obtain ⟨-, hstates⟩ := hheld
  obtain ⟨hagree, -, hrejected⟩ := haligned
  obtain ⟨hlength, hroom⟩ := hagree.room hw
  have haccepted := hwalk.accepted
  have hended : ∀ e ∈ cw.attempts, e.ended = true := by
    intro e he
    obtain ⟨k, hk, rfl⟩ := List.getElem_of_mem he
    have hlt : k < w.attempts.length := hagree.length ▸ hk
    obtain ⟨e, he, -, -, htold⟩ := hagree.entry k w.attempts[k] (List.getElem?_eq_getElem hlt)
    obtain rfl := Option.some.inj ((List.getElem?_eq_getElem hk).symm.trans he)
    obtain ⟨acked, hmarks⟩ := ended_marks (hstates k w.attempts[k] (List.getElem?_eq_getElem hlt))
    exact (htold acked true hmarks).2
  have hentry : ∀ raw, (grown cw w.instanceId raw).entry INSTANCE_END
      (instanceEndJson w.attemptCount w.accepted w.rejected).sortKeys =
      .ok { grown cw w.instanceId raw with ended := true } := by
    intro raw
    rw [← hlength, ← haccepted, ← hrejected]
    exact entry_instanceEnd (w := grown cw w.instanceId raw) hended
  have hkind : PyText INSTANCE_END := pyText_kinds _ (by decide)
  have hv := value_instanceEndJson w.attemptCount w.accepted w.rejected
  have hlost : ∀ w' : Ledger, w'.holder = w.holder →
      w'.unpublished = { w' with unknown := true, holder := some .leaving } := fun w' hw' => by
    unfold Ledger.unpublished
    rw [hw', hholder]
  right
  cases h with
  | @confirmed raw hraw hbytes =>
      have hnext : (w.confirm raw).published = { w.confirm raw with holder := some .leaving } := by
        unfold Ledger.published
        rw [show (w.confirm raw).holder = w.holder from rfl, hholder]
      show Stopped b (w.confirm raw).published
      rw [hnext]
      have hsame : Same { w.confirm raw with holder := some .leaving }
          { grown cw w.instanceId raw with ended := true, head := some (refOf raw) } := ⟨hlength, haccepted, hrejected⟩
      exact ⟨⟨_, hwalk.next hkind hv hroom hraw (hentry raw), Nat.succ_pos _, hsame.near, fun _ => hsame⟩, trivial⟩
  | @doubted raw hraw hbytes written e =>
      show Stopped b (w.doubt raw written).unpublished
      rw [hlost (w.doubt raw written) rfl]
      cases written with
      | false => exact stopped_of hwalk.walk hwalk.positive (Same.near ⟨hlength, haccepted, hrejected⟩) rfl trivial
      | true =>
          exact stopped_of (hwalk.next hkind hv hroom hraw (hentry raw)) (Nat.succ_pos _)
            (Same.near ⟨hlength, haccepted, hrejected⟩) rfl trivial
  | refused e =>
      show Stopped b w.unpublished
      rw [hlost w rfl]
      exact stopped_of hwalk.walk hwalk.positive (Same.near ⟨hlength, haccepted, hrejected⟩) rfl trivial

/-- Whoever has a row to publish, publishes it. -/
theorem publish_due (hw : Steady b w) (hheld : Held b w) (hwalk : Walked b w cw) (haligned : Aligned w cw)
    {kind : Text} {payload : Json} (hdue : w.due = some (kind, payload)) {result : Ledger × Except String Unit}
    (h : Published b w kind payload result) : Synced b (settle result) := by
  rcases due_holder hdue with ⟨i, hholder⟩ | ⟨i, hholder⟩ | ⟨i, hholder⟩ | ⟨i, hholder⟩ | hholder
  · unfold Aligned at haligned
    unfold Ledger.due at hdue
    rw [hholder] at haligned hdue
    obtain ⟨front, a, hattempts, hlength, hphase, hagree, hduplicate, hseen, hrejected⟩ := haligned
    obtain ⟨a', ha', hdue⟩ := Option.map_eq_some_iff.mp hdue
    rw [hattempts, List.getElem?_append_right (Nat.le_of_eq hlength), hlength, Nat.sub_self] at ha'
    obtain rfl := Option.some.inj ha'
    obtain ⟨rfl, rfl⟩ := Prod.mk.inj hdue
    exact publish_begin hw hwalk hholder hattempts hlength hphase hagree hduplicate hseen hrejected h
  · have hrejection : w.due = some (ATTEMPT_END, rejectionJson (i + 1)) := by
      unfold Ledger.due
      rw [hholder]
    obtain ⟨rfl, rfl⟩ := Prod.mk.inj (Option.some.inj (hdue.symm.trans hrejection))
    exact publish_rejection hw hheld hwalk haligned hholder h
  · exact publish_ack hw hheld hwalk haligned hholder hdue h
  · exact publish_end hw hheld hwalk haligned hholder hdue h
  · have hcertify : w.due = some (INSTANCE_END, instanceEndJson w.attemptCount w.accepted w.rejected) := by
      unfold Ledger.due
      rw [hholder]
    obtain ⟨rfl, rfl⟩ := Prod.mk.inj (Option.some.inj (hdue.symm.trans hcertify))
    exact publish_certify hheld hw hwalk haligned hholder h

/-! ## Every other event leaves the catalog as it is -/

/-- An attempt goes on, the holder of the lock waits. -/
theorem Aligned.put (h : Aligned w cw) (ha : w.attempts[i]? = some a) {a' : Attempt}
    (hparent : a'.parent = a.parent) (hreason : a'.reason = a.reason)
    (hmarks : a'.phase.marks = none ∨ a'.phase.marks = a.phase.marks)
    (hentering : a.phase = .entering → a'.phase = .entering) {w' : Ledger}
    (hattempts : w'.attempts = w.attempts.set i a') (hseen : w'.seen = w.seen) (hrejected : w'.rejected = w.rejected)
    (hholder : w'.holder = w.holder) : Aligned w' cw := by
  unfold Aligned at h ⊢
  rw [hholder, hattempts, hseen, hrejected]
  cases hsame : w.holder with
  | none =>
      rw [hsame] at h
      exact ⟨h.1.put ha hparent hreason hmarks, h.2⟩
  | some holder =>
      rw [hsame] at h
      cases holder with
      | beginning k =>
          obtain ⟨front, x, hfront, hlength, hphase, hagree, hduplicate, hrest⟩ := h
          rw [hfront] at ha ⊢
          rcases append_get ha with ha | ⟨hlast, rfl⟩
          · obtain ⟨hlt, -⟩ := List.getElem?_eq_some_iff.mp ha
            exact ⟨front.set i a', x, List.set_append_left _ _ hlt, List.length_set.trans hlength, hphase,
              hagree.put ha hparent hreason hmarks, hduplicate, hrest⟩
          · refine ⟨front, a', ?_, hlength, hentering hphase, hagree, ?_, ?_⟩
            · rw [hlast, List.set_append_right _ _ (Nat.le_refl _), Nat.sub_self]
              rfl
            · rw [hreason, hparent]
              exact hduplicate
            · rw [hparent]
              exact hrest
      | abandoning k => exact h
      | leaving => exact h
      | _ => exact ⟨h.1.put ha hparent hreason hmarks, h.2⟩

theorem Stopped.congr (h : Stopped b w) {w' : Ledger} (hdisk : w'.disk = w.disk)
    (hcount : w'.attemptCount = w.attemptCount) (haccepted : w'.accepted = w.accepted)
    (hrejected : w'.rejected = w.rejected) (hunknown : w.unknown = true → w'.unknown = true) (hquiet : Quiet w') :
    Stopped b w' := by
  obtain ⟨⟨cw, hwalk, hpositive, hnear, hsame⟩, -⟩ := h
  refine ⟨⟨cw, hdisk ▸ hwalk, hpositive, ⟨hcount ▸ hnear.attempts, haccepted ▸ hnear.accepted,
    hrejected ▸ hnear.rejected⟩, fun hknown => ?_⟩, hquiet⟩
  have hbefore : w.unknown = false := Bool.eq_false_iff.mpr fun hu => absurd ((hunknown hu).symm.trans hknown) nofun
  obtain ⟨h1, h2, h3⟩ := hsame hbefore
  exact ⟨h1.trans hcount.symm, h2.trans haccepted.symm, h3.trans hrejected.symm⟩

/-- What is quiet stays so while its holder does nothing. -/
theorem Quiet.congr (h : Quiet w) {w' : Ledger} (hholder : w'.holder = w.holder) (hclosed : w'.closed = w.closed)
    (hunknown : w.unknown = true → w'.unknown = true) : Quiet w' := by
  unfold Quiet at h ⊢
  rw [hholder, hclosed]
  cases hsame : w.holder with
  | none =>
      rw [hsame] at h
      exact h.imp_left hunknown
  | some holder =>
      rw [hsame] at h
      cases holder with
      | abandoning k => exact hunknown h
      | closing => exact hunknown h
      | leaving => trivial
      | _ => exact h

theorem Quiet.unavailable (h : Quiet w) (hholder : w.holder = none) : w.available = false := by
  unfold Quiet at h
  rw [hholder] at h
  unfold Ledger.available
  rcases h with h | h
  · rw [h, Bool.or_true]
    rfl
  · rw [h]
    rfl

theorem Quiet.due (h : Quiet w) : w.due = none := by
  cases hdue : w.due with
  | none => rfl
  | some row =>
      unfold Quiet at h
      rcases due_holder hdue with ⟨i, hholder⟩ | ⟨i, hholder⟩ | ⟨i, hholder⟩ | ⟨i, hholder⟩ | hholder
      · rw [hholder] at h
        exact h.elim
      · rw [hholder] at h
        exact h.elim
      · rw [hholder] at h
        exact h.elim
      · rw [hholder] at h
        exact h.elim
      · rw [hholder] at h
        exact h.elim

/-- A ledger that publishes no more never does. -/
theorem Stopped.step (h : Stopped b w) (event : Event) : Stopped b (w.step b event) := by
  have hquiet := h.quiet
  cases event with
  | begin key tool argumentsSha256 =>
      simp only [Ledger.step]
      split
      next holder hnone hdecide =>
        obtain ⟨parent, -, havailable, -⟩ := decide_spec hdecide
        cases (hquiet.unavailable hnone).symm.trans havailable
      · exact h
  | reserve =>
      simp only [Ledger.step]
      split
      next parent reason hholder =>
        unfold Quiet at hquiet
        rw [hholder] at hquiet
        exact hquiet.elim
      · exact h
  | publish answer =>
      simp only [Ledger.step]
      split
      next kind payload hdue => cases hquiet.due.symm.trans hdue
      · exact h
  | abandon =>
      simp only [Ledger.step]
      split
      next k hholder =>
        split
        next a ha =>
          unfold Quiet at hquiet
          rw [hholder] at hquiet
          exact h.congr rfl rfl rfl rfl id (.inl hquiet)
        · exact h
      · exact h
  | attempt i event =>
      simp only [Ledger.step]
      split
      next a ha =>
        split
        next a' troubled hstep =>
          have hunknown : w.unknown = true → (w.unknown || troubled) = true := fun hu => by
            rw [hu]
            rfl
          exact h.congr rfl rfl rfl rfl hunknown (hquiet.congr rfl rfl hunknown)
        · exact h
      · exact h
  | lock i =>
      simp only [Ledger.step]
      split
      next hnone hphase =>
        rw [hquiet.unavailable hnone, if_neg Bool.false_ne_true]
        unfold Quiet at hquiet
        rw [hnone] at hquiet
        exact h.congr rfl rfl rfl rfl id hquiet
      next hnone hphase =>
        rw [hquiet.unavailable hnone, if_neg Bool.false_ne_true]
        unfold Quiet at hquiet
        rw [hnone] at hquiet
        exact h.congr rfl rfl rfl rfl id hquiet
      · exact h
  | retire i =>
      simp only [Ledger.step]
      split
      next a ha =>
        split
        · exact h.congr rfl rfl rfl rfl id (hquiet.congr rfl rfl id)
        · exact h.congr rfl rfl rfl rfl id (hquiet.congr rfl rfl id)
        · exact h.congr rfl rfl rfl rfl id (hquiet.congr rfl rfl id)
        · exact h
      · exact h
  | close =>
      simp only [Ledger.step]
      split
      next hready =>
        rw [Bool.and_eq_true, Bool.and_eq_true, Bool.not_eq_true', Option.isNone_iff_eq_none] at hready
        obtain ⟨⟨hnone, hopen⟩, -⟩ := hready
        unfold Quiet at hquiet
        rw [hnone] at hquiet
        refine h.congr rfl rfl rfl rfl id ?_
        rcases hquiet with hunknown | hclosed
        · exact hunknown
        · cases hclosed.symm.trans hopen
      · exact h
  | certify =>
      simp only [Ledger.step]
      split
      next hholder =>
        unfold Quiet at hquiet
        rw [hholder] at hquiet
        rw [show w.unknown = true from hquiet]
        exact h.congr rfl rfl rfl rfl (fun _ => rfl) trivial
      · exact h
  | leave fails =>
      simp only [Ledger.step]
      split
      next hholder =>
        refine h.congr rfl rfl rfl rfl (fun hu => ?_) (.inr rfl)
        show (w.unknown || fails) = true
        rw [hu]
        rfl
      · exact h

/-- **Every event keeps the catalog and the ledger together**, or the ledger publishes no
    more. -/
theorem Synced.step (hw : Steady b w) (hheld : Held b w) (h : Synced b w) (event : Event) :
    Synced b (w.step b event) := by
  rcases h with ⟨cw, hwalk, haligned⟩ | hstopped
  case inr => exact .inr (hstopped.step event)
  cases event with
  | begin key tool argumentsSha256 =>
      simp only [Ledger.step]
      split
      next holder hnone hdecide =>
        obtain ⟨parent, rfl, -, -⟩ := decide_spec hdecide
        unfold Aligned at haligned
        rw [hnone] at haligned
        exact .inl ⟨cw, hwalk.congr rfl rfl rfl rfl rfl rfl, haligned⟩
      · exact .inl ⟨cw, hwalk, haligned⟩
  | reserve =>
      simp only [Ledger.step]
      split
      next parent reason hholder =>
        unfold Held at hheld
        unfold Aligned at haligned
        rw [hholder] at hheld haligned
        obtain ⟨-, -, hduplicate⟩ := hheld
        obtain ⟨hagree, hseen, hrejected⟩ := haligned
        refine .inl ⟨cw, hwalk.congr rfl rfl rfl rfl rfl rfl, w.attempts, fresh parent reason, rfl, rfl, rfl, hagree,
          ?_, ?_, hrejected⟩
        · rw [hseen]
          exact hduplicate
        · rw [hseen]
          rfl
      · exact .inl ⟨cw, hwalk, haligned⟩
  | publish answer =>
      simp only [Ledger.step]
      split
      next kind payload hdue =>
        exact publish_due hw hheld hwalk haligned hdue (publish_cases w kind payload answer)
      · exact .inl ⟨cw, hwalk, haligned⟩
  | abandon =>
      simp only [Ledger.step]
      split
      next k hholder =>
        unfold Aligned at haligned
        rw [hholder] at haligned
        exact haligned.elim
      · exact .inl ⟨cw, hwalk, haligned⟩
  | attempt i event =>
      simp only [Ledger.step]
      split
      next a ha =>
        split
        next a' troubled hstep =>
          have hshift := shifted hstep
          obtain ⟨hparent, hreason, -⟩ := hshift.frame
          exact .inl ⟨cw, hwalk.congr rfl rfl rfl rfl rfl rfl, haligned.put ha hparent hreason hshift.marks
            (fun hphase => (hshift.stays (.inl hphase)).trans hphase) rfl rfl rfl rfl⟩
        · exact .inl ⟨cw, hwalk, haligned⟩
      · exact .inl ⟨cw, hwalk, haligned⟩
  | lock i =>
      simp only [Ledger.step]
      split
      next hnone hphase =>
        obtain ⟨a, ha, -⟩ := Option.map_eq_some_iff.mp hphase
        unfold Aligned at haligned
        rw [hnone] at haligned
        split
        · exact .inl ⟨cw, hwalk.congr rfl rfl rfl rfl rfl rfl, haligned⟩
        · exact hwalk.failed haligned.1 haligned.2.1 haligned.2.2 ha rfl
      next hnone hphase =>
        obtain ⟨a, ha, -⟩ := Option.map_eq_some_iff.mp hphase
        unfold Aligned at haligned
        rw [hnone] at haligned
        split
        · exact .inl ⟨cw, hwalk.congr rfl rfl rfl rfl rfl rfl, haligned⟩
        · exact hwalk.failed haligned.1 haligned.2.1 haligned.2.2 ha rfl
      · exact .inl ⟨cw, hwalk, haligned⟩
  | retire i =>
      simp only [Ledger.step]
      split
      next a ha =>
        have hretired : ∀ {phase : Phase}, phase.marks = none ∨ phase.marks = a.phase.marks → a.phase ≠ .entering →
            Synced b (w.retire i a phase) := fun {phase} hmarks hphase => by
          have hput : Aligned (w.retire i a phase) cw := @Aligned.put _ _ _ _ haligned ha { a with active := false, phase } rfl
            rfl hmarks (fun h => absurd h hphase) _ rfl rfl rfl rfl
          exact .inl ⟨cw, hwalk.congr rfl rfl rfl rfl rfl rfl, hput⟩
        split
        next hphase => exact hretired (.inl rfl) (by rw [hphase]; intro h; cases h)
        next hphase => exact hretired (.inl rfl) (by rw [hphase]; intro h; cases h)
        next hphase => exact hretired (.inr (hphase ▸ rfl)) (by rw [hphase]; intro h; cases h)
        · exact .inl ⟨cw, hwalk, haligned⟩
      · exact .inl ⟨cw, hwalk, haligned⟩
  | close =>
      simp only [Ledger.step]
      split
      next hready =>
        rw [Bool.and_eq_true, Bool.and_eq_true, Option.isNone_iff_eq_none] at hready
        unfold Aligned at haligned
        rw [hready.1.1] at haligned
        exact .inl ⟨cw, hwalk.congr rfl rfl rfl rfl rfl rfl, haligned⟩
      · exact .inl ⟨cw, hwalk, haligned⟩
  | certify =>
      simp only [Ledger.step]
      split
      next hholder =>
        unfold Aligned at haligned
        rw [hholder] at haligned
        obtain ⟨hagree, hseen, hrejected⟩ := haligned
        split
        · exact .inl ⟨cw, hwalk.congr rfl rfl rfl rfl rfl rfl, hagree, hseen, hrejected⟩
        · obtain ⟨hlength, -⟩ := hagree.room hw
          exact .inr (stopped_of hwalk.walk hwalk.positive (Same.near ⟨hlength, hwalk.accepted, hrejected⟩) rfl trivial)
      · exact .inl ⟨cw, hwalk, haligned⟩
  | leave fails =>
      simp only [Ledger.step]
      split
      next hholder =>
        unfold Aligned at haligned
        rw [hholder] at haligned
        exact haligned.elim
      · exact .inl ⟨cw, hwalk, haligned⟩

/-- The ledger's numbers run ahead of the verifier's, or behind them, by the row that is due. -/
theorem Aligned.near (h : Aligned w cw) (hw : Steady b w) (hwalk : Walked b w cw) :
    Near w cw ∧ (w.due = none → Same w cw) := by
  have hcounted := hw.counted
  have haccepted := hwalk.accepted
  have hsame : Agree w.attempts cw → cw.rejected = w.rejected → Near w cw ∧ (w.due = none → Same w cw) :=
    fun hagree hrejected => by
      have hall : Same w cw := ⟨hagree.length.trans hcounted.symm, haccepted, hrejected⟩
      exact ⟨hall.near, fun _ => hall⟩
  unfold Aligned at h
  cases hholder : w.holder with
  | none =>
      rw [hholder] at h
      exact hsame h.1 h.2.2
  | some holder =>
      rw [hholder] at h
      cases holder with
      | beginning i =>
          obtain ⟨front, a, hattempts, hlength, -, hagree, -, -, hrejected⟩ := h
          have hcw := hagree.length
          have hcount : w.attempts.length = front.length + 1 := by
            rw [hattempts, List.length_append]
            rfl
          refine ⟨⟨by omega, by omega, by omega⟩, fun hdue => ?_⟩
          unfold Ledger.due at hdue
          rw [hholder] at hdue
          have hnone := List.getElem?_eq_none_iff.mp (Option.map_eq_none_iff.mp hdue)
          omega
      | rejecting i =>
          obtain ⟨hagree, -, hrejected⟩ := h
          have hcw := hagree.length
          refine ⟨⟨by omega, by omega, by omega⟩, fun hdue => ?_⟩
          unfold Ledger.due at hdue
          rw [hholder] at hdue
          exact absurd hdue nofun
      | abandoning i => exact h.elim
      | leaving => exact h.elim
      | _ => exact hsame h.1 h.2.2

/-- **A row that is due is not refused** for the budgets of the catalog. -/
theorem Synced.room (h : Synced b w) (hw : Steady b w) {kind : Text} {payload : Json}
    (hdue : w.due = some (kind, payload)) : w.catalogCount < b.maxCatalogRecords ∧
      ∀ raw, w.raw b kind payload = .ok raw → w.catalogBytes + raw.length ≤ b.catalog.maxTotalBytes := by
  rcases h with ⟨cw, hwalk, haligned⟩ | hstopped
  · have hlength : cw.attempts.length ≤ b.maxAttempts := by
      have hadmitted := hw.admitted
      have hcounted := hw.counted
      obtain ⟨⟨hnear, -⟩, -⟩ := haligned.near hw hwalk
      omega
    have hempty : ([] : Bytes).length ≤ b.maxCatalogRecordBytes := Nat.zero_le _
    exact ⟨(hwalk.room hlength hempty).1, fun raw hraw => (hwalk.room hlength (encode_bytes hraw)).2⟩
  · exact absurd (hstopped.quiet.due.symm.trans hdue) nofun

/-- The catalog of a ledger, as the verifier reads it. -/
structure Verified (b : Budgets) (w : Ledger) (v : AttemptCatalog.Verdict) : Prop where
  verify : b.catalog.verify w.disk = .ok v
  attempts : v.attemptCount ≤ w.attemptCount ∧ w.attemptCount ≤ v.attemptCount + 1
  accepted : w.accepted ≤ v.acceptedCount ∧ v.acceptedCount ≤ w.accepted + 1
  rejected : w.rejected ≤ v.rejectedCount ∧ v.rejectedCount ≤ w.rejected + 1
  exact : w.due = none → w.unknown = false →
    v.attemptCount = w.attemptCount ∧ v.acceptedCount = w.accepted ∧ v.rejectedCount = w.rejected

theorem verify_of (hwalk : w.disk.foldlM (Walk.take b.catalog) Walk.start = .ok cw) (hpositive : 0 < cw.count) :
    b.catalog.verify w.disk = .ok cw.verdict := by
  unfold CatalogCodec.verify
  rw [hwalk, ok_bind, require_of (decide_eq_true hpositive), ok_bind]

/-- **The verifier accepts the catalog** that is written so far. -/
theorem Synced.verified (h : Synced b w) (hw : Steady b w) : ∃ v, Verified b w v := by
  rcases h with ⟨cw, hwalk, haligned⟩ | ⟨⟨cw, hwalk, hpositive, ⟨h1, h2, h3⟩, hsame⟩, -⟩
  · obtain ⟨⟨h1, h2, h3⟩, hsame⟩ := haligned.near hw hwalk
    refine ⟨cw.verdict, verify_of hwalk.walk hwalk.positive, h1, h2, h3, fun hdue _ => ?_⟩
    obtain ⟨hattempts, haccepted, hrejected⟩ := hsame hdue
    exact ⟨hattempts, haccepted, hrejected⟩
  · refine ⟨cw.verdict, verify_of hwalk hpositive, h1, h2, h3, fun _ hknown => ?_⟩
    obtain ⟨hattempts, haccepted, hrejected⟩ := hsame hknown
    exact ⟨hattempts, haccepted, hrejected⟩

end Catalog

end AttemptLedger
