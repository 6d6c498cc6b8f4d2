import VeloTransfer.JournalRecoveryProofs
import VeloTransfer.JsonLimitsProofs

/-! # The ledger of a push — what `_send` saves

    The journal of a push holds one record for each acknowledged chunk, and the
    chunks that were announced and not yet acknowledged.  Every save validates the
    whole state anew, so the ledger has room for as many chunks as the nodes and the
    bytes of a state admit (`ledger_kept`), whatever the size of the package. -/

namespace PushLedger

open EffectPrograms Program FaultScript FileNodes CanonicalJson JsonLine BoundedJson JsonDict
open JsonLimits Sha256 GuestTerminal HostJournal

/-! ## The data of the journal -/

/-- One record of `push_ledger`. -/
structure Record where
  offset : Nat
  count : Nat
  sha256 : Text
deriving Repr, DecidableEq

def Record.toJson (r : Record) : Json :=
  .obj [(ascii "offset", .int r.offset), (ascii "count", .int r.count), (ascii "sha256", .str r.sha256)]

/-- `pending_chunk`. -/
structure Pending where
  offset : Nat
  records : List Record
deriving Repr, DecidableEq

def Pending.toJson (p : Pending) : Json :=
  .obj [(ascii "offset", .int p.offset), (ascii "records", .arr (p.records.map Record.toJson))]

/-- The data of the journal while `_send` runs: the three fields that are its own,
    each of them absent before it was first saved, and the other fields. -/
structure Sending where
  other : List (Text × Json)
  ledger : Option (List Record)
  pushOffset : Option Nat
  pending : Option (Option Pending)

def pendingJson : Option Pending → Json
  | none => .null
  | some p => p.toJson

/-- The fields of `_send`. -/
def Sending.bookkeeping (s : Sending) : List (Text × Json) :=
  (s.ledger.map (fun rs => (ascii "push_ledger", Json.arr (rs.map Record.toJson)))).toList ++
    (s.pushOffset.map (fun n : Nat => (ascii "push_offset", Json.int n))).toList ++
    (s.pending.map (fun p => (ascii "pending_chunk", pendingJson p))).toList

def Sending.data (s : Sending) : Json := .obj (s.other ++ s.bookkeeping)

/-- The nodes of the data: four for each record. -/
def Sending.nodes (s : Sending) : Nat :=
  1 + nodesFields s.other + (s.ledger.map (fun rs => 1 + 4 * rs.length)).getD 0 +
    (s.pushOffset.map (fun _ => 1)).getD 0 +
    (s.pending.map (fun p => (p.map (fun q => 3 + 4 * q.records.length)).getD 1)).getD 0

/-- `data.update(updates)` on the other fields. -/
def noted (fs updates : List (Text × Json)) : List (Text × Json) :=
  fs.filter (fun f => !updates.any (fun u => u.1 == f.1)) ++ updates

/-! ## The loop -/

/-- What `_send` reads once: the package, and the bytes of a chunk. -/
structure Package where
  content : Bytes
  maximum : Nat

/-- The records of the next chunks, at most `batch` of them. -/
def chunksFrom (p : Package) : Nat → Nat → List Record
  | 0, _ => []
  | batch + 1, offset =>
      if offset < p.content.length then
        { offset := offset, count := min p.maximum (p.content.length - offset)
          sha256 := hexdigest ((p.content.drop offset).take (min p.maximum (p.content.length - offset))) } ::
          chunksFrom p batch (offset + min p.maximum (p.content.length - offset))
      else []

def counts (rs : List Record) : Nat := (rs.map Record.count).sum

/-- Where a round of the loop stands. -/
inductive Stage where
  | ready
  | announced (records : List Record)
  | called (records : List Record)
  | answered (records : List Record)

structure Loop where
  offset : Nat
  batch : Nat
  stage : Stage
  state : Sending

/-- The proof of a prefix, as the guest reports it. -/
structure Proof where
  verifiedOffset : Nat
  chunkCount : Nat
  ledgerSha256 : Text

/-- The line of a record in the ledger of the guest. -/
def Record.line (r : Record) : Bytes := (dumps r.toJson).getD [] ++ [10]

/-- The loop of `_reverify_push` over the records that were sent. -/
def acceptPrefix (p : Proof) : List Record → Nat → Bytes → List Record → Option (List Record)
  | [], _, _, accepted =>
      if p.verifiedOffset = 0 ∧ p.chunkCount = 0 ∧ p.ledgerSha256 = hexdigest [] then some accepted else none
  | r :: rs, offset, raw, accepted =>
      if r.offset ≠ offset then none
      else if offset + r.count = p.verifiedOffset ∧ accepted.length + 1 = p.chunkCount ∧
          hexdigest (raw ++ r.line) = p.ledgerSha256 then some (accepted ++ [r])
      else acceptPrefix p rs (offset + r.count) (raw ++ r.line) (accepted ++ [r])

/-- What was sent: the acknowledged records, and the announced ones. -/
def Sending.sent (s : Sending) : List Record :=
  s.ledger.getD [] ++ ((s.pending.bind id).map Pending.records).getD []

/-- The fields that the journal compares, and those of `_send`. -/
def reservedKeys : List String :=
  ["phase", "published_ever", "begin_attempted", "last_phase", "channel", "publication_receipt", "completion",
    "push_ledger", "push_offset", "pending_chunk"] ++ IMMUTABLE

/-- What leads to the next save. -/
inductive Event where
  /-- Other fields: evidence, what a status brings, the bytes that were resumed. -/
  | note (updates : List (Text × Json))
  | announce
  /-- The intent of a call. -/
  | call (operation arguments channel : Text)
  | answer (digest : Text)
  | acknowledge
  /-- The adapter refuses a batch. -/
  | degrade
  | reverify (proof : Proof)

/-- `data.get("io_sequence", 0) + 1`. -/
def nextSequence (fs : List (Text × Json)) : Int :=
  match fs.lookup (ascii "io_sequence") with
  | some (.int n) => n + 1
  | _ => 1

/-- The intent that `_call` saves. -/
def intent (fs : List (Text × Json)) (operation arguments channel : Text) : List (Text × Json) :=
  [(ascii "io_sequence", .int (nextSequence fs)),
    (ascii "io_intent", .obj [(ascii "sequence", .int (nextSequence fs)), (ascii "operation", .str operation),
      (ascii "arguments_sha256", .str arguments), (ascii "channel", .str channel)])]

/-- The result that `_call` saves. -/
def result (fs : List (Text × Json)) (digest : Text) : List (Text × Json) :=
  [(ascii "io_result", .obj [(ascii "sequence", .int (nextSequence fs - 1)), (ascii "sha256", .str digest)])]

def Sending.note (s : Sending) (updates : List (Text × Json)) : Sending :=
  { s with other := noted s.other updates }

/-- `_save(pending_chunk=...)`. -/
def Loop.announce (l : Loop) (records : List Record) : Loop :=
  { l with
    stage := .announced records
    state := { l.state with pending := some (some { offset := l.offset, records := records }) } }

/-- A save of other fields. -/
def Loop.record (l : Loop) (stage : Stage) (updates : List (Text × Json)) : Loop :=
  { l with stage := stage, state := l.state.note updates }

/-- The records move into the ledger. -/
def Loop.acknowledge (l : Loop) (records : List Record) : Loop :=
  { l with
    offset := l.offset + counts records
    stage := .ready
    state := { l.state with
      pushOffset := some (l.offset + counts records), pending := some none
      ledger := some (l.state.ledger.getD [] ++ records) } }

/-- The save at the end of `_reverify_push`. -/
def Loop.reverified (l : Loop) (proof : Proof) : Option Loop :=
  match acceptPrefix proof l.state.sent 0 [] [] with
  | none => none
  | some accepted =>
      some { l with
        offset := proof.verifiedOffset
        stage := .ready
        state := { l.state with
          ledger := some (if proof.verifiedOffset = 0 then [] else accepted)
          pushOffset := some proof.verifiedOffset, pending := some none } }

/-- The next save of `_send`, when the loop may do it. -/
def next (p : Package) (l : Loop) : Event → Option Loop
  | .note updates =>
      if updates.all (fun u => !(reservedKeys.map ascii).contains u.1) = true ∧ hasDuplicate updates = false then
        some (l.record l.stage updates)
      else none
  | .announce =>
      match l.stage with
      | .ready =>
          if l.offset < p.content.length then some (l.announce (chunksFrom p l.batch l.offset)) else none
      | _ => none
  | .call operation arguments channel =>
      match l.stage with
      | .announced records =>
          some (l.record (.called records) (intent l.state.other operation arguments channel))
      | _ => none
  | .answer digest =>
      match l.stage with
      | .called records => some (l.record (.answered records) (result l.state.other digest))
      | _ => none
  | .acknowledge =>
      match l.stage with
      | .answered records => some (l.acknowledge records)
      | _ => none
  | .degrade =>
      match l.stage with
      | .called _ =>
          if 1 < l.batch then
            some { l with batch := 1, stage := .ready, state := { l.state with pending := some none } }
          else none
      | _ => none
  | .reverify proof =>
      match l.stage with
      | .ready => if l.offset < p.content.length then none else l.reverified proof
      | .called _ => l.reverified proof
      | _ => none

/-- The states that a run saves, one after the other. -/
def run (p : Package) : Loop → List Event → List Sending
  | _, [] => []
  | l, event :: events =>
      match next p l event with
      | none => []
      | some l' => l'.state :: run p l' events

/-! ## Well-formed states -/

/-- The fields of the journal other than those of `_send`, and records whose digests
    can be stored. -/
structure Sending.Sound (s : Sending) : Prop where
  other : Value (.obj s.other)
  apart : ∀ f ∈ s.other, f.1 ∉ ["push_ledger", "push_offset", "pending_chunk"].map ascii
  records : ∀ r ∈ s.sent, isHex r.sha256 = true

/-- The updates of an event are values that Python can hold. -/
def Event.Sound : Event → Prop
  | .note updates => Value (.obj updates)
  | .call operation arguments channel => PyText operation ∧ PyText arguments ∧ PyText channel
  | .answer digest => PyText digest
  | _ => True

theorem value_record {r : Record} (h : isHex r.sha256 = true) : Value r.toJson :=
  ⟨rfl, ⟨pyText_plain rfl, trivial⟩, ⟨pyText_plain rfl, trivial⟩, ⟨pyText_plain rfl, pyText_hex h⟩, trivial⟩

theorem value_records {rs : List Record} (h : ∀ r ∈ rs, isHex r.sha256 = true) :
    Value (.arr (rs.map Record.toJson)) := by
  refine (valueItems_iff _).mpr (fun v hv => ?_)
  obtain ⟨r, hr, rfl⟩ := List.mem_map.mp hv
  exact value_record (h r hr)

theorem mem_bookkeeping {s : Sending} {f : Text × Json} (hf : f ∈ s.bookkeeping) :
    (∃ rs, s.ledger = some rs ∧ f = (ascii "push_ledger", .arr (rs.map Record.toJson))) ∨
      (∃ n, s.pushOffset = some n ∧ f = (ascii "push_offset", .int n)) ∨
      ∃ q, s.pending = some q ∧ f = (ascii "pending_chunk", pendingJson q) := by
  unfold Sending.bookkeeping at hf
  simp only [List.mem_append, Option.mem_toList, Option.map_eq_some_iff] at hf
  obtain (⟨rs, h, rfl⟩ | ⟨n, h, rfl⟩) | ⟨q, h, rfl⟩ := hf
  · exact Or.inl ⟨rs, h, rfl⟩
  · exact Or.inr (Or.inl ⟨n, h, rfl⟩)
  · exact Or.inr (Or.inr ⟨q, h, rfl⟩)

theorem nodup_bookkeeping (s : Sending) : (s.bookkeeping.map Prod.fst).Nodup := by
  have hkeys : ∀ (a b c : Text), a ≠ b → a ≠ c → b ≠ c → ∀ (x y z : Option Json),
      (((x.map (a, ·)).toList ++ (y.map (b, ·)).toList ++ (z.map (c, ·)).toList).map Prod.fst).Nodup := by
    intro a b c hab hac hbc x y z
    cases x <;> cases y <;> cases z <;>
      simp [hab, hac, hbc]
  have h := hkeys (ascii "push_ledger") (ascii "push_offset") (ascii "pending_chunk") (by decide) (by decide)
    (by decide) (s.ledger.map (fun rs => Json.arr (rs.map Record.toJson)))
    (s.pushOffset.map (fun n : Nat => Json.int n)) (s.pending.map pendingJson)
  simp only [Option.map_map] at h
  exact h

theorem keys_bookkeeping {s : Sending} {f : Text × Json} (hf : f ∈ s.bookkeeping) :
    f.1 ∈ ["push_ledger", "push_offset", "pending_chunk"].map ascii := by
  rcases mem_bookkeeping hf with ⟨_, -, rfl⟩ | ⟨_, -, rfl⟩ | ⟨_, -, rfl⟩
  · exact List.mem_cons_self
  · exact List.mem_cons_of_mem _ List.mem_cons_self
  · exact List.mem_cons_of_mem _ (List.mem_cons_of_mem _ List.mem_cons_self)

/-- The data of a sound state is a dictionary. -/
theorem value_data {s : Sending} (h : s.Sound) : Value s.data := by
  obtain ⟨hother, hapart, hrecords⟩ := h
  refine ⟨?_, (valueFields_iff _).mpr (fun f hf => ?_)⟩
  · rw [hasDuplicate_false, List.map_append, List.nodup_append]
    refine ⟨(hasDuplicate_false _).mp hother.1, nodup_bookkeeping s, ?_⟩
    rintro k hk k' hk' rfl
    obtain ⟨f, hf, rfl⟩ := List.mem_map.mp hk
    obtain ⟨g, hg, hkey⟩ := List.mem_map.mp hk'
    exact hapart f hf (hkey ▸ keys_bookkeeping hg)
  rcases List.mem_append.mp hf with hf | hf
  · exact (valueFields_iff _).mp hother.2 f hf
  rcases mem_bookkeeping hf with ⟨rs, hrs, rfl⟩ | ⟨n, -, rfl⟩ | ⟨q, hq, rfl⟩
  · refine ⟨pyText_plain rfl, value_records (fun r hr => hrecords r ?_)⟩
    unfold Sending.sent
    rw [hrs]
    exact List.mem_append_left _ hr
  · exact ⟨pyText_plain rfl, trivial⟩
  · refine ⟨pyText_plain rfl, ?_⟩
    cases q with
    | none => exact trivial
    | some q =>
        refine ⟨rfl, ⟨pyText_plain rfl, trivial⟩, ⟨pyText_plain rfl, value_records (fun r hr => hrecords r ?_)⟩,
          trivial⟩
        unfold Sending.sent
        rw [hq]
        exact List.mem_append_right _ hr

/-! ## The nodes of the data -/

theorem nodes_records (rs : List Record) : nodes (.arr (rs.map Record.toJson)) = 1 + 4 * rs.length := by
  refine congrArg (1 + ·) ?_
  induction rs with
  | nil => rfl
  | cons r rs ih =>
      show 4 + nodesItems (rs.map Record.toJson) = _
      rw [ih, List.length_cons]
      omega

theorem nodes_pending (q : Option Pending) :
    nodes (pendingJson q) = (q.map (fun q => 3 + 4 * q.records.length)).getD 1 := by
  cases q with
  | none => rfl
  | some q =>
      show 1 + (1 + (nodes (.arr (q.records.map Record.toJson)) + 0)) = _
      rw [nodes_records]
      show _ = 3 + 4 * q.records.length
      omega

theorem nodes_data (s : Sending) : nodes s.data = s.nodes := by
  obtain ⟨other, ledger, pushOffset, pending⟩ := s
  unfold Sending.data Sending.nodes Sending.bookkeeping
  dsimp only
  show 1 + nodesFields _ = _
  rw [nodesFields_eq, List.map_append, List.map_append, List.map_append, List.sum_append, List.sum_append,
    List.sum_append, ← nodesFields_eq]
  have hl : ((ledger.map (fun rs => (ascii "push_ledger", Json.arr (rs.map Record.toJson)))).toList.map
      (fun f => nodes f.2)).sum = (ledger.map (fun rs => 1 + 4 * rs.length)).getD 0 := by
    cases ledger with
    | none => rfl
    | some rs => exact nodes_records rs
  have ho : ((pushOffset.map (fun n : Nat => (ascii "push_offset", Json.int n))).toList.map
      (fun f => nodes f.2)).sum = (pushOffset.map (fun _ => 1)).getD 0 := by
    cases pushOffset <;> rfl
  have hp : ((pending.map (fun p => (ascii "pending_chunk", pendingJson p))).toList.map
      (fun f => nodes f.2)).sum =
        (pending.map (fun p => (p.map (fun q => 3 + 4 * q.records.length)).getD 1)).getD 0 := by
    cases pending with
    | none => rfl
    | some q => exact nodes_pending q
  show _ = 1 + nodesFields other + (ledger.map (fun rs => 1 + 4 * rs.length)).getD 0 +
    (pushOffset.map (fun _ => 1)).getD 0 +
    (pending.map (fun p => (p.map (fun q => 3 + 4 * q.records.length)).getD 1)).getD 0
  rw [hl, ho, hp]
  omega

/-! ## The other fields do not tell the saves apart -/

/-- The fields that the journal compares. -/
def factKeys : List String :=
  ["phase", "published_ever", "begin_attempted", "last_phase", "channel", "publication_receipt", "completion"] ++
    IMMUTABLE

/-- Data with the facts of a state may follow that state. -/
theorem phaseData_follows {d d' : Json} (hd : Value d) (hsame : ∀ key ∈ factKeys, get d' key = get d key)
    (h : phaseData d none false = none) : phaseData d' (some d.sortKeys) false = none := by
  have hfact : ∀ key ∈ ["phase", "published_ever", "begin_attempted", "last_phase", "channel",
      "publication_receipt", "completion"], get d' key = get d key :=
    fun key hkey => hsame key (List.mem_append_left _ hkey)
  have hkept : keptFacts d.sortKeys d' = none := by
    unfold keptFacts
    rw [hfact "published_ever" (by decide), hfact "begin_attempted" (by decide), hfact "channel" (by decide),
      get_sortKeys hd, get_sortKeys hd, get_sortKeys hd, flag_sortKeys, flag_sortKeys, textOf_sortKeys]
    simp only [firstError_cons, failsWith_none, firstError_nil, and_true]
    refine ⟨?_, ?_, ?_, ?_⟩
    · rintro ⟨h1, h2⟩
      exact absurd (h1.symm.trans h2) nofun
    · rintro ⟨h1, h2⟩
      exact absurd (h1.symm.trans h2) nofun
    · rintro ⟨-, h2⟩
      exact h2 rfl
    · rw [not_not, List.all_eq_true]
      intro key hkey
      unfold keptFact
      rw [get_sortKeys hd, hsame key (List.mem_append_right _ hkey)]
      cases hv : get d key with
      | none => rfl
      | some v =>
          rw [Option.map_some]
          split
          · rfl
          · rfl
          next w hw hnull =>
            obtain rfl := Option.some.inj hnull
            rw [canonical_sortKeys (value_get hd hv)]
            exact beq_self_eq_true _
  unfold phaseData at h ⊢
  rw [hfact "phase" (by decide), hfact "published_ever" (by decide), hfact "begin_attempted" (by decide),
    hfact "last_phase" (by decide), hfact "channel" (by decide), hfact "publication_receipt" (by decide),
    hfact "completion" (by decide)]
  simp only [firstError_cons] at h ⊢
  obtain ⟨h1, h2, h3, h4, h5, -, h6⟩ := h
  exact ⟨h1, h2, h3, h4, h5, hkept, h6⟩

/-- A field that is not one of `_send`. -/
theorem get_data (s : Sending) {key : String}
    (hkey : ascii key ∉ ["push_ledger", "push_offset", "pending_chunk"].map ascii) :
    get s.data key = s.other.lookup (ascii key) := by
  show (s.other ++ s.bookkeeping).lookup (ascii key) = _
  rw [List.lookup_append]
  have hnone : s.bookkeeping.lookup (ascii key) = none := by
    rw [List.lookup_eq_none_iff]
    intro f hf
    rw [bne_iff_ne]
    exact fun heq => hkey (heq ▸ keys_bookkeeping hf)
  rw [hnone, Option.or_none]

/-- An update of other keys leaves a field as it was. -/
theorem lookup_noted {fs updates : List (Text × Json)} {k : Text} (h : ∀ u ∈ updates, u.1 ≠ k) :
    (noted fs updates).lookup k = fs.lookup k := by
  have hupdates : updates.lookup k = none := by
    rw [List.lookup_eq_none_iff]
    intro u hu
    rw [bne_iff_ne]
    exact (h u hu).symm
  unfold noted
  rw [List.lookup_append, hupdates, Option.or_none]
  induction fs with
  | nil => rfl
  | cons f fs ih =>
      obtain ⟨k', v⟩ := f
      by_cases hk : k' = k
      · obtain rfl := hk
        rw [List.filter_cons_of_pos, List.lookup_cons_self, List.lookup_cons_self]
        rw [Bool.not_eq_true', List.any_eq_false]
        intro u hu heq
        exact h u hu (beq_iff_eq.mp heq)
      · have hne : (k == k') = false := beq_eq_false_iff_ne.mpr (fun heq => hk heq.symm)
        rw [List.lookup_cons, hne, List.filter_cons]
        split
        · rw [List.lookup_cons, hne]
          exact ih
        · exact ih

/-- An update of a dictionary is a dictionary. -/
theorem value_noted {fs updates : List (Text × Json)} (hfs : Value (.obj fs)) (hu : Value (.obj updates)) :
    Value (.obj (noted fs updates)) := by
  refine ⟨?_, (valueFields_iff _).mpr (fun f hf => ?_)⟩
  · unfold noted
    rw [hasDuplicate_false, List.map_append, List.nodup_append]
    refine ⟨((hasDuplicate_false fs).mp hfs.1).sublist (List.filter_sublist.map _),
      (hasDuplicate_false updates).mp hu.1, ?_⟩
    rintro k hk k' hk' rfl
    obtain ⟨f, hf, rfl⟩ := List.mem_map.mp hk
    obtain ⟨u, hu, hkey⟩ := List.mem_map.mp hk'
    have hnone := (List.mem_filter.mp hf).2
    rw [Bool.not_eq_true', List.any_eq_false] at hnone
    exact hnone u hu (beq_iff_eq.mpr hkey)
  · rcases List.mem_append.mp hf with hf | hf
    · exact (valueFields_iff _).mp hfs.2 f (List.mem_filter.mp hf).1
    · exact (valueFields_iff _).mp hu.2 f hf

/-! ## One step of the loop -/

section Step

variable {p : Package} {l l' : Loop}

/-- The records of a round. -/
def Stage.records : Stage → List Record
  | .ready => []
  | .announced records => records
  | .called records => records
  | .answered records => records

structure Loop.Sound (l : Loop) : Prop where
  state : l.state.Sound
  records : ∀ r ∈ l.stage.records, isHex r.sha256 = true

theorem isHex_chunksFrom (batch offset : Nat) : ∀ r ∈ chunksFrom p batch offset, isHex r.sha256 = true := by
  induction batch generalizing offset with
  | zero => exact fun r hr => absurd hr List.not_mem_nil
  | succ batch ih =>
      intro r hr
      unfold chunksFrom at hr
      split at hr
      · rcases List.mem_cons.mp hr with rfl | hr
        · exact isHex_hexdigest _
        · exact ih _ r hr
      · exact absurd hr List.not_mem_nil

/-- What a proof accepts was sent. -/
theorem acceptPrefix_sent {proof : Proof} {rs accepted accepted' : List Record} {offset : Nat} {raw : Bytes}
    (h : acceptPrefix proof rs offset raw accepted = some accepted') :
    ∀ r ∈ accepted', r ∈ accepted ∨ r ∈ rs := by
  induction rs generalizing offset raw accepted with
  | nil =>
      unfold acceptPrefix at h
      split at h
      · obtain rfl := Option.some.inj h
        exact fun r hr => Or.inl hr
      · exact absurd h nofun
  | cons r rs ih =>
      unfold acceptPrefix at h
      split at h
      · exact absurd h nofun
      · split at h
        · obtain rfl := Option.some.inj h
          intro x hx
          rcases List.mem_append.mp hx with hx | hx
          · exact Or.inl hx
          · exact Or.inr (List.mem_singleton.mp hx ▸ List.mem_cons_self)
        · intro x hx
          rcases ih h x hx with hx | hx
          · rcases List.mem_append.mp hx with hx | hx
            · exact Or.inl hx
            · exact Or.inr (List.mem_singleton.mp hx ▸ List.mem_cons_self)
          · exact Or.inr (List.mem_cons_of_mem _ hx)

/-- What a save of `_send` keeps: the state is sound, and its facts are the same. -/
structure Follows (l l' : Loop) : Prop where
  sound : l'.Sound
  facts : ∀ key ∈ factKeys, get l'.state.data key = get l.state.data key

theorem facts_apart {key : String} (hkey : key ∈ factKeys) :
    ascii key ∉ ["push_ledger", "push_offset", "pending_chunk"].map ascii := by
  have hall : ∀ key ∈ factKeys, ascii key ∉ ["push_ledger", "push_offset", "pending_chunk"].map ascii := by
    decide
  exact hall key hkey

theorem follows_same {l l' : Loop} (hl' : l'.Sound) (h : l'.state.other = l.state.other) : Follows l l' :=
  ⟨hl', fun key hkey => by rw [get_data _ (facts_apart hkey), get_data _ (facts_apart hkey), h]⟩

theorem follows_noted {updates : List (Text × Json)} (hl : l.Sound) (hl' : ∀ r ∈ l'.stage.records, isHex r.sha256 = true)
    (hstate : l'.state = l.state.note updates) (hvalue : Value (.obj updates))
    (hkeys : ∀ u ∈ updates, u.1 ∉ reservedKeys.map ascii) : Follows l l' := by
  have hreserved : ∀ {key : String}, key ∈ reservedKeys → ∀ u ∈ updates, u.1 ≠ ascii key :=
    fun hkey u hu heq => hkeys u hu (heq ▸ List.mem_map_of_mem hkey)
  refine ⟨⟨?_, hl'⟩, fun key hkey => ?_⟩
  · rw [hstate]
    refine ⟨value_noted hl.state.other hvalue, fun f hf => ?_, hl.state.records⟩
    rcases List.mem_append.mp hf with hf | hf
    · exact hl.state.apart f (List.mem_filter.mp hf).1
    · intro hmem
      obtain ⟨key, hkey, heq⟩ := List.mem_map.mp hmem
      have hall : ∀ key ∈ ["push_ledger", "push_offset", "pending_chunk"], key ∈ reservedKeys := by decide
      exact hreserved (hall key hkey) f hf heq.symm
  · have hall : ∀ key ∈ factKeys, key ∈ reservedKeys := by decide
    rw [get_data _ (facts_apart hkey), get_data _ (facts_apart hkey), hstate]
    exact lookup_noted (hreserved (hall key hkey))

theorem hex_acknowledged {s : Sending} {rs : List Record} (hs : s.Sound) (hrs : ∀ r ∈ rs, isHex r.sha256 = true) :
    ∀ r ∈ s.ledger.getD [] ++ rs, isHex r.sha256 = true := by
  intro r hr
  rcases List.mem_append.mp hr with hr | hr
  · exact hs.records r (List.mem_append_left _ hr)
  · exact hrs r hr

theorem follows_reverified {proof : Proof} (hl : l.Sound) (h : l.reverified proof = some l') : Follows l l' := by
  unfold Loop.reverified at h
  cases haccepted : acceptPrefix proof l.state.sent 0 [] [] with
  | none => rw [haccepted] at h; exact nomatch h
  | some accepted =>
      rw [haccepted] at h
      obtain rfl := Option.some.inj h
      refine follows_same ⟨⟨hl.state.other, hl.state.apart, fun r hr => ?_⟩, nofun⟩ rfl
      rcases List.mem_append.mp hr with hr | hr
      · have hmem : r ∈ accepted := by
          have hledger : r ∈ (if proof.verifiedOffset = 0 then [] else accepted) := hr
          split at hledger
          · exact absurd hledger List.not_mem_nil
          · exact hledger
        rcases acceptPrefix_sent haccepted r hmem with hno | hsent
        · exact absurd hno List.not_mem_nil
        · exact hl.state.records r hsent
      · exact absurd hr List.not_mem_nil

/-- **One save of `_send`** keeps the facts of the journal. -/
theorem next_follows {event : Event} (hl : l.Sound) (hevent : event.Sound) (h : next p l event = some l') :
    Follows l l' := by
  cases event with
  | note updates =>
      dsimp only [next] at h
      split at h
      next hguard =>
        obtain rfl := Option.some.inj h
        refine follows_noted hl hl.records rfl hevent (fun u hu hmem => ?_)
        have hall := List.all_eq_true.mp hguard.1 u hu
        rw [Bool.not_eq_true', List.contains_eq_mem, decide_eq_false_iff_not] at hall
        exact hall hmem
      · exact absurd h nofun
  | announce =>
      dsimp only [next] at h
      split at h
      · split at h
        · obtain rfl := Option.some.inj h
          exact follows_same ⟨⟨hl.state.other, hl.state.apart,
            hex_acknowledged (s := l.state) hl.state (isHex_chunksFrom _ _)⟩, isHex_chunksFrom _ _⟩ rfl
        · exact absurd h nofun
      · exact absurd h nofun
  | call operation arguments channel =>
      dsimp only [next] at h
      split at h
      next records hstage =>
        obtain rfl := Option.some.inj h
        have hrecords := hl.records
        rw [hstage] at hrecords
        obtain ⟨hoperation, harguments, hchannel⟩ := hevent
        refine follows_noted hl hrecords rfl ⟨rfl, ⟨pyText_plain rfl, trivial⟩, ⟨pyText_plain rfl, rfl,
          ⟨pyText_plain rfl, trivial⟩, ⟨pyText_plain rfl, hoperation⟩, ⟨pyText_plain rfl, harguments⟩,
          ⟨pyText_plain rfl, hchannel⟩, trivial⟩, trivial⟩ ?_
        intro u hu
        have hkeys : u.1 ∈ [ascii "io_sequence", ascii "io_intent"] := List.mem_map_of_mem hu
        have hall : ∀ k ∈ [ascii "io_sequence", ascii "io_intent"], k ∉ reservedKeys.map ascii := by decide
        exact hall u.1 hkeys
      · exact absurd h nofun
  | answer digest =>
      dsimp only [next] at h
      split at h
      next records hstage =>
        obtain rfl := Option.some.inj h
        have hrecords := hl.records
        rw [hstage] at hrecords
        refine follows_noted hl hrecords rfl ⟨rfl, ⟨pyText_plain rfl, rfl, ⟨pyText_plain rfl, trivial⟩,
          ⟨pyText_plain rfl, hevent⟩, trivial⟩, trivial⟩ ?_
        intro u hu
        have hkeys : u.1 ∈ [ascii "io_result"] := List.mem_map_of_mem hu
        have hall : ∀ k ∈ [ascii "io_result"], k ∉ reservedKeys.map ascii := by decide
        exact hall u.1 hkeys
      · exact absurd h nofun
  | acknowledge =>
      dsimp only [next] at h
      split at h
      next records hstage =>
        obtain rfl := Option.some.inj h
        have hrecords := hl.records
        rw [hstage] at hrecords
        refine follows_same ⟨⟨hl.state.other, hl.state.apart, fun r hr => ?_⟩, nofun⟩ rfl
        rcases List.mem_append.mp hr with hr | hr
        · exact hex_acknowledged hl.state hrecords r hr
        · exact absurd hr List.not_mem_nil
      · exact absurd h nofun
  | degrade =>
      dsimp only [next] at h
      split at h
      · split at h
        · obtain rfl := Option.some.inj h
          refine follows_same ⟨⟨hl.state.other, hl.state.apart, fun r hr => ?_⟩, nofun⟩ rfl
          rcases List.mem_append.mp hr with hr | hr
          · exact hl.state.records r (List.mem_append_left _ hr)
          · exact absurd hr List.not_mem_nil
        · exact absurd h nofun
      · exact absurd h nofun
  | reverify proof =>
      dsimp only [next] at h
      split at h
      · split at h
        · exact absurd h nofun
        · exact follows_reverified hl h
      · exact follows_reverified hl h
      · exact absurd h nofun

end Step

/-! ## What a state of the journal has room for -/

/-- The data is saved after the state `e`, and read back as the same dictionary. -/
def Kept (j : Journal) (e : Envelope) (data : Json) : Prop :=
  ∀ (m : Machine Failure Disk) (f : FileNode), m.script = [] → Loadable f m.disk → Wrote j f.bytes e →
    ∃ e' m', save j e.revision data m = (.done e', m') ∧
      j.stored m'.disk = some (j.envelope (e.revision + 1) e.deadline data)

/-- The state with its digest, whatever the digest is. -/
def Journal.unsealed (j : Journal) (revision : Nat) (deadline : Json) (s : Sending) : Json :=
  j.sealed revision deadline s.data (List.replicate 64 48)

/-- **There is room** for a state: for its nodes, four for each record, for its bytes,
    and for what the other fields nest. -/
structure Fits (j : Journal) (revision : Nat) (deadline : Json) (s : Sending) : Prop where
  storable : Storable j.maxDigits (Journal.unsealed j revision deadline s)
  depth : height (Journal.unsealed j revision deadline s) ≤ 32
  nodes : 6 + nodes j.binding + s.nodes ≤ 10000
  bytes : cost (Journal.unsealed j revision deadline s) ≤ j.limit

section Room

variable {j : Journal} {e : Envelope} {raw : Bytes} {s : Sending}

theorem nodes_deadline {v : Json} (h : finiteDeadline v = true) : nodes v = 1 := by
  cases v with
  | arr _ => exact nomatch h
  | obj _ => exact nomatch h
  | _ => rfl

theorem fits_iff {revision : Nat} {deadline : Json} (hdeadline : finiteDeadline deadline = true) :
    Fits j revision deadline s ↔ validateJson (j.limits j.limit) (Journal.unsealed j revision deadline s) = none := by
  have hnodes : nodes (Journal.unsealed j revision deadline s) = 6 + nodes j.binding + s.nodes := by
    show 1 + (1 + (1 + (nodes j.binding + (nodes deadline + (1 + (nodes s.data + (1 + 0))))))) = _
    rw [nodes_data, nodes_deadline hdeadline]
    omega
  rw [validateJson_ok, hnodes]
  exact ⟨fun h => ⟨h.storable, h.depth, h.nodes, h.bytes⟩, fun ⟨h1, h2, h3, h4⟩ => ⟨h1, h2, h3, h4⟩⟩

/-- A state with room is encoded. -/
theorem encode_fits (hj : j.Sound) (hs : s.Sound) {revision : Nat} {deadline : Json} (hvalue : Value deadline)
    (hdeadline : finiteDeadline deadline = true) (h : Fits j revision deadline s) :
    ∃ raw, j.encode revision deadline s.data = .ok raw := by
  have hvalid := (fits_iff hdeadline).mp h
  have hzero : isHex (List.replicate 64 48) = true := by decide
  have hsealed : Value (Journal.unsealed j revision deadline s) :=
    value_sealed hj hvalue (value_data hs) (pyText_hex hzero)
  -- the content, and then the document under the digest of it
  obtain ⟨raw', hraw', -⟩ : ∃ raw, dumps (.obj (j.content revision deadline s.data)) = some raw ∧
      raw.length = cost (.obj (j.content revision deadline s.data)) := by
    obtain ⟨-, v1, v2, v3, v4, v5, v6, -⟩ := hsealed
    obtain ⟨s1, s2, s3, s4, s5, s6, -⟩ := h.storable
    have hcontent : Value (.obj (j.content revision deadline s.data)) := ⟨rfl, v1, v2, v3, v4, v5, v6, trivial⟩
    have hdigits : Storable j.maxDigits (.obj (j.content revision deadline s.data)) :=
      ⟨s1, s2, s3, s4, s5, s6, trivial⟩
    exact dumps_of_storable hcontent hdigits
  have hhex := isHex_digest hraw'
  have hvalid' := (validate_sealed hhex).mp hvalid
  obtain ⟨hstorable, -, -, hcost⟩ := (validateJson_ok _ _).mp hvalid'
  obtain ⟨raw, hraw, hlength⟩ :=
    dumps_of_storable (value_sealed hj hvalue (value_data hs) (pyText_hex hhex)) hstorable
  refine ⟨raw, ?_⟩
  unfold Journal.encode
  rw [show validateJson (j.limits j.limit) (j.sealed revision deadline s.data (List.replicate 64 48)) = none
    from hvalid, show dumps (j.document revision deadline s.data) = some raw from hraw]
  exact if_neg (Nat.not_lt.mpr (hlength ▸ hcost))

/-- The data alone is within the limits. -/
theorem valid_data {revision : Nat} {deadline : Json} (h : Fits j revision deadline s) :
    validateJson (j.limits j.limit) s.data = none := by
  obtain ⟨hstorable, hdepth, hnodes, hbytes⟩ := h
  obtain ⟨-, -, -, -, -, hdata, -⟩ := hstorable
  refine (validateJson_ok _ _).mpr ⟨hdata.2, ?_, ?_, ?_⟩
  · have hlt : 1 + height s.data ≤ height (Journal.unsealed j revision deadline s) := by
      refine Nat.le_trans ?_ (Nat.le_max_right _ _)
      refine Nat.le_trans ?_ (Nat.le_max_right _ _)
      refine Nat.le_trans ?_ (Nat.le_max_right _ _)
      refine Nat.le_trans ?_ (Nat.le_max_right _ _)
      refine Nat.le_trans ?_ (Nat.le_max_right _ _)
      exact Nat.le_max_left _ _
    exact Nat.le_trans (Nat.le_trans (Nat.le_add_left _ _) hlt) hdepth
  · rw [nodes_data]
    exact Nat.le_trans (Nat.le_add_left _ _) hnodes
  · refine Nat.le_trans ?_ hbytes
    show cost s.data ≤ 2 + 6 + costFields _
    refine Nat.le_trans ?_ (Nat.le_add_left _ _)
    refine Nat.le_trans ?_ (Nat.le_add_left _ _)
    refine Nat.le_trans ?_ (Nat.le_add_left _ _)
    refine Nat.le_trans ?_ (Nat.le_add_left _ _)
    refine Nat.le_trans ?_ (Nat.le_add_left _ _)
    refine Nat.le_trans ?_ (Nat.le_add_left _ _)
    refine Nat.le_trans ?_ (Nat.le_add_right _ _)
    exact Nat.le_add_left _ _

def stateNode (raw : Bytes) : FileNode := { inode := 1, bytes := raw, mtimeNs := 0, ctimeNs := 0 }

/-- A process that may save, with the state file `raw`. -/
def holding (raw : Bytes) : Machine Failure Disk :=
  { disk := { Disk.empty with
      task := true, state := some (stateNode raw), memory := some ⟨true, false, none⟩ }
    clock := 0, free := 0, script := [] }

theorem kept_saved (hj : j.Sound) (hdata : Value s.data) (he : Wrote j raw e) (h : Kept j e s.data) :
    ∃ raw', Saved j e s.data raw' := by
  have hload : Loadable (stateNode raw) (holding raw).disk :=
    { ready := ⟨rfl, rfl, rfl⟩, allowed := Or.inl rfl, same := rfl }
  obtain ⟨e', m', hsave, -⟩ := h (holding raw) _ rfl hload he
  have hreadable : Readable j (holding raw).disk.layout := by
    intro f hf
    obtain rfl := Option.some.inj hf
    exact ⟨rfl, e, he⟩
  have htriple := @save_triple j _ (e.revision : Int) s.data hj hdata hreadable (holding raw) rfl
  rw [hsave] at htriple
  obtain ⟨f, e₁, raw', hf, he₁, -, hsaved, -⟩ := htriple
  obtain rfl := Option.some.inj hf
  obtain rfl : e₁ = e := Except.ok.inj (he₁.read.symm.trans he.read)
  exact ⟨raw', hsaved⟩

/-- **A state of `_send` is kept** exactly when there is room for it. -/
theorem kept_iff (hj : j.Sound) (hs : s.Sound) (he : Wrote j raw e)
    (hphase : phaseData s.data (some e.data) false = none) :
    Kept j e s.data ↔ Fits j (e.revision + 1) e.deadline s := by
  obtain ⟨hvalue, hfinite, -⟩ := he.deadline
  constructor
  · intro h
    obtain ⟨raw', hsaved⟩ := kept_saved hj (value_data hs) he h
    have hencoded := hsaved.encoded
    unfold Journal.encode at hencoded
    split at hencoded
    · exact absurd hencoded nofun
    next hvalid => exact (fits_iff hfinite).mpr hvalid
  · intro h m f hscript hload hwrote
    obtain ⟨raw', hraw'⟩ := encode_fits hj hs hvalue hfinite h
    have hsaved : Saved j e s.data raw' := ⟨hphase, hraw'⟩
    obtain ⟨e', m', hsave, -⟩ := completes_save hwrote (valid_data h) hsaved m (calm_of_nil hscript)
      (Nat.zero_le _) hload
    have hreadable : Readable j m.disk.layout := by
      intro f' hf'
      have hstate : m.disk.state = some f := hload.ready.state
      obtain rfl := Option.some.inj (hstate.symm.trans hf')
      exact ⟨hload.ready.task, e, hwrote⟩
    have htriple := @save_triple j _ (e.revision : Int) s.data hj (value_data hs) hreadable m rfl
    rw [hsave] at htriple
    obtain ⟨f₁, e₁, raw₁, hf₁, he₁, -, hsaved₁, ⟨-, f₂, hf₂, rfl⟩, -⟩ := htriple
    have hstate : m.disk.state = some f := hload.ready.state
    obtain rfl := Option.some.inj (hstate.symm.trans hf₁)
    obtain rfl : e₁ = e := Except.ok.inj (he₁.read.symm.trans hwrote.read)
    refine ⟨e', m', hsave, ?_⟩
    have hnext := hsaved₁.wrote hj (value_data hs) hwrote
    show (m'.disk.state).bind _ = _
    rw [show m'.disk.state = some f₂ from hf₂, Option.bind_some, hnext.read]
    rfl

end Room

/-- A state that was read has admitted data. -/
theorem readState_phase {j : Journal} {raw : Bytes} {e : Envelope} (h : j.readState raw = .ok e) :
    phaseData e.data none false = none := by
  unfold Journal.readState at h
  split at h
  · exact absurd h nofun
  next v _ =>
    unfold Journal.checkState at h
    split at h
    · exact absurd h nofun
    · split at h
      · split at h
        · exact absurd h nofun
        next hchecks =>
          obtain rfl := Except.ok.inj h
          simp only [firstError_cons] at hchecks
          exact hchecks.2.2.2.2.2.2.2.2.1
      · exact absurd h nofun

/-! ## A run of `_send` -/

/-- Each state of a run is kept, one after the other. -/
def AllKept (j : Journal) : Envelope → List Sending → Prop
  | _, [] => True
  | e, s :: states =>
      Kept j e s.data ∧ AllKept j (j.envelope (e.revision + 1) e.deadline s.data) states

/-- There is room for each state of a run, under its own revision. -/
def AllFit (j : Journal) (deadline : Json) : Nat → List Sending → Prop
  | _, [] => True
  | revision, s :: states => Fits j (revision + 1) deadline s ∧ AllFit j deadline (revision + 1) states

/-- **The bookkeeping of a push is kept exactly as long as it fits**: along any run of
    `_send` every state is saved, and read back, if and only if there is room for it. -/
theorem ledger_kept {j : Journal} (hj : j.Sound) {p : Package} {l : Loop} {e : Envelope} {raw : Bytes}
    {events : List Event} (hl : l.Sound) (he : Wrote j raw e) (hdata : e.data = l.state.data.sortKeys)
    (hevents : ∀ event ∈ events, event.Sound) :
    AllKept j e (run p l events) ↔ AllFit j e.deadline e.revision (run p l events) := by
  induction events generalizing l e raw with
  | nil => exact Iff.rfl
  | cons event events ih =>
      obtain ⟨hevent, hrest⟩ := List.forall_mem_cons.mp hevents
      unfold run
      cases hnext : next p l event with
      | none => exact Iff.rfl
      | some l' =>
          obtain ⟨hl', hfacts⟩ := next_follows hl hevent hnext
          have hproper : phaseData l.state.data none false = none := by
            rw [← phaseData_sortKeys (value_data hl.state), ← hdata]
            exact readState_phase he.read
          have hphase : phaseData l'.state.data (some e.data) false = none := by
            rw [hdata]
            exact phaseData_follows (value_data hl.state) hfacts hproper
          have hkept := kept_iff hj hl'.state he hphase
          -- the next save is on top of this one
          show _ ∧ _ ↔ _ ∧ _
          constructor
          · rintro ⟨hthis, hlater⟩
            obtain ⟨raw', hsaved⟩ := kept_saved hj (value_data hl'.state) he hthis
            exact ⟨hkept.mp hthis, (ih hl' (hsaved.wrote hj (value_data hl'.state) he) rfl hrest).mp hlater⟩
          · rintro ⟨hthis, hlater⟩
            have hkeeps := hkept.mpr hthis
            obtain ⟨raw', hsaved⟩ := kept_saved hj (value_data hl'.state) he hkeeps
            exact ⟨hkeeps, (ih hl' (hsaved.wrote hj (value_data hl'.state) he) rfl hrest).mpr hlater⟩

/-! ## The ceiling

    A package of 2500 chunks of 64 KiB is sent chunk after chunk, and each chunk is
    acknowledged. -/

section Ceiling

/-- One chunk after the other, each of them acknowledged. -/
def rounds : Nat → List Event
  | 0 => []
  | n + 1 =>
      .announce :: .call (ascii "transfer_chunk") (List.replicate 64 48) (ascii "velo") ::
        .answer (List.replicate 64 48) :: .acknowledge :: rounds n

theorem sound_rounds (n : Nat) : ∀ event ∈ rounds n, event.Sound := by
  have hdigest : PyText (List.replicate 64 48) := pyText_hex (by decide)
  induction n with
  | zero => exact fun event hevent => absurd hevent List.not_mem_nil
  | succ n ih =>
      unfold rounds
      simp only [List.forall_mem_cons]
      exact ⟨trivial, ⟨pyText_plain (by decide), hdigest, pyText_plain (by decide)⟩, hdigest, trivial, ih⟩

theorem run_cons {p : Package} {l l' : Loop} {event : Event} {events : List Event}
    (h : next p l event = some l') : run p l (event :: events) = l'.state :: run p l' events := by
  show (match next p l event with | none => [] | some l' => l'.state :: run p l' events) = _
  rw [h]

/-- The round of one chunk. -/
theorem run_round {p : Package} (n : Nat) {l : Loop} (hstage : l.stage = .ready) (hbatch : l.batch = 1)
    (hlt : l.offset < p.content.length) :
    ∃ l', (∀ s ∈ l'.state :: run p l' (rounds n), s ∈ run p l (rounds (n + 1))) ∧ l'.stage = .ready ∧
      l'.batch = 1 ∧ l'.offset = l.offset + min p.maximum (p.content.length - l.offset) ∧
      ∃ rs, l'.state.ledger = some rs ∧ rs.length = (l.state.ledger.getD []).length + 1 := by
  obtain ⟨offset, batch, stage, state⟩ := l
  obtain rfl : stage = .ready := hstage
  obtain rfl : batch = 1 := hbatch
  obtain ⟨digest, hchunks⟩ : ∃ digest, chunksFrom p 1 offset =
      [⟨offset, min p.maximum (p.content.length - offset), digest⟩] := by
    unfold chunksFrom
    exact ⟨_, if_pos hlt⟩
  have hannounce : next p { offset, batch := 1, stage := .ready, state } .announce =
      some (Loop.announce { offset, batch := 1, stage := .ready, state } (chunksFrom p 1 offset)) := if_pos hlt
  simp only [rounds]
  rw [run_cons hannounce, run_cons rfl, run_cons rfl, run_cons rfl]
  refine ⟨Loop.acknowledge _ (chunksFrom p 1 offset), fun s hs =>
    List.mem_cons_of_mem _ (List.mem_cons_of_mem _ (List.mem_cons_of_mem _ hs)), ?_⟩
  refine ⟨rfl, rfl, ?_, _, rfl, ?_⟩
  · show offset + counts (chunksFrom p 1 offset) = _
    rw [hchunks]
    rfl
  · show (state.ledger.getD [] ++ chunksFrom p 1 offset).length = _
    rw [hchunks, List.length_append]
    rfl

/-- Each round adds a record. -/
theorem run_rounds {p : Package} (hmaximum : 0 < p.maximum) (n : Nat) {l : Loop} (hstage : l.stage = .ready)
    (hbatch : l.batch = 1) (hroom : l.offset + (n + 1) * p.maximum ≤ p.content.length) :
    ∃ s ∈ run p l (rounds (n + 1)), ∃ rs, s.ledger = some rs ∧
      rs.length = (l.state.ledger.getD []).length + (n + 1) := by
  induction n generalizing l with
  | zero =>
      obtain ⟨l', hrun, -, -, -, hledger⟩ := run_round (p := p) 0 hstage hbatch (by omega)
      exact ⟨l'.state, hrun _ List.mem_cons_self, hledger⟩
  | succ n ih =>
      rw [Nat.succ_mul] at hroom
      obtain ⟨l', hrun, hstage', hbatch', hoffset, rs, hledger, hcount⟩ :=
        run_round (p := p) (n + 1) hstage hbatch (by omega)
      obtain ⟨s, hs, rs', hrs', hlength⟩ := ih hstage' hbatch' (by rw [hoffset]; omega)
      refine ⟨s, hrun s (List.mem_cons_of_mem _ hs), rs', hrs', ?_⟩
      rw [hlength, hledger, Option.getD_some, hcount]
      omega

theorem room_of_fit {j : Journal} {deadline : Json} {revision : Nat} {states : List Sending} {s : Sending}
    (h : AllFit j deadline revision states) (hs : s ∈ states) : s.nodes ≤ 10000 := by
  induction states generalizing revision with
  | nil => exact absurd hs List.not_mem_nil
  | cons t ts ih =>
      rcases List.mem_cons.mp hs with rfl | hs
      · have := h.1.nodes
        omega
      · exact ih h.2 hs

def pushJournal : Journal :=
  { sampleJournal with limit := 4194304, evidenceLimit := 2097152 }

theorem sound_pushJournal : pushJournal.Sound :=
  { transferId := sound_sampleJournal.transferId, binding := sound_sampleJournal.binding }

/-- The journal of a push before its first chunk. -/
def beforeFirst : Sending :=
  { other := [(ascii "phase", .str (ascii "TRANSFERRING")), (ascii "published_ever", .bool false),
      (ascii "begin_attempted", .bool true), (ascii "channel", .str (ascii "velo"))]
    ledger := none, pushOffset := none, pending := none }

def sending : Loop := { offset := 0, batch := 1, stage := .ready, state := beforeFirst }

theorem sound_sending : sending.Sound :=
  { state :=
      { other := ⟨by decide, ⟨pyText_plain (by decide), pyText_plain (s := ascii "TRANSFERRING") (by decide)⟩,
          ⟨pyText_plain (by decide), trivial⟩, ⟨pyText_plain (by decide), trivial⟩,
          ⟨pyText_plain (by decide), pyText_plain (s := ascii "velo") (by decide)⟩, trivial⟩
        apart := by decide
        records := fun r hr => absurd hr List.not_mem_nil }
    records := fun r hr => absurd hr List.not_mem_nil }

theorem wrote_sending : ∃ raw, Wrote pushJournal raw (pushJournal.envelope 7 (.int 100) beforeFirst.data) := by
  have hvalue := value_data sound_sending.state
  have hfits : Fits pushJournal 7 (.int 100) beforeFirst := (fits_iff rfl).mpr (by decide +kernel)
  have hdeadline : Value (.int 100) := trivial
  obtain ⟨raw, hraw⟩ := encode_fits sound_pushJournal sound_sending.state hdeadline rfl hfits
  exact ⟨raw, wrote_encode sound_pushJournal hdeadline rfl (by decide +kernel) hvalue (by decide +kernel) hraw⟩

/-- A package of `n` chunks. -/
def packageOf (n : Nat) : Package := { content := List.replicate (n * 65536) 0, maximum := 65536 }

/-- A package of 2500 chunks or more cannot be sent. -/
theorem many_refused {m : Nat} (hm : 2500 ≤ m) :
    ¬ AllKept pushJournal (pushJournal.envelope 7 (.int 100) beforeFirst.data)
      (run (packageOf m) sending (rounds m)) := by
  intro hkept
  obtain ⟨raw, hwrote⟩ := wrote_sending
  have hfit := (ledger_kept sound_pushJournal sound_sending hwrote rfl (sound_rounds m)).mp hkept
  obtain ⟨n, rfl⟩ : ∃ n, m = n + 1 := ⟨m - 1, by omega⟩
  have hspace : sending.offset + (n + 1) * (packageOf (n + 1)).maximum ≤ (packageOf (n + 1)).content.length := by
    show 0 + (n + 1) * 65536 ≤ (List.replicate ((n + 1) * 65536) 0).length
    rw [List.length_replicate, Nat.zero_add]
  obtain ⟨s, hs, rs, hledger, hcount⟩ := run_rounds (Nat.zero_lt_succ _) n rfl rfl hspace
  have hroom := room_of_fit hfit hs
  have hnodes : 4 * rs.length < s.nodes := by
    unfold Sending.nodes
    rw [hledger, Option.map_some, Option.getD_some]
    omega
  have hmany : n + 1 ≤ rs.length := hcount ▸ Nat.le_add_left _ _
  omega

/-- **The ceiling**: 2500 chunks of 64 KiB are too many. -/
theorem ledger_ceiling :
    ¬ AllKept pushJournal (pushJournal.envelope 7 (.int 100) beforeFirst.data)
      (run (packageOf 2500) sending (rounds 2500)) :=
  many_refused (Nat.le_refl _)

theorem ledger_kept_sample : ∃ raw, Wrote pushJournal raw (pushJournal.envelope 7 (.int 100) beforeFirst.data) ∧
    (AllKept pushJournal (pushJournal.envelope 7 (.int 100) beforeFirst.data) (run (packageOf 1) sending (rounds 1)) ↔
      AllFit pushJournal (.int 100) 7 (run (packageOf 1) sending (rounds 1))) := by
  obtain ⟨raw, hwrote⟩ := wrote_sending
  exact ⟨raw, hwrote, ledger_kept sound_pushJournal sound_sending hwrote rfl (sound_rounds 1)⟩

end Ceiling

end PushLedger
