import VeloTransfer.GuestReceptionProofs

/-! # Reception without outside failures

    The triples of reception say what holds when a call returns.  Here the calls
    are shown to return: on a calm machine, before the deadline of the task, with
    room on the disk and in the policy's state budget,

    * verification accepts every state in which the protected identity, when
      there is one, pins the files, and in which there are no files otherwise;
    * a well-formed chunk of an acknowledged range is answered, and so is the
      next chunk. -/

namespace GuestTask

open EffectPrograms Program FaultScript FileNodes ChunkLog CanonicalJson JsonLine Sha256 GuestTerminal

/-- A budget that `Budget.check` does not refuse. -/
def TaskBudget.Usable (b : TaskBudget) : Prop :=
  0 < b.maxFiles ∧ 0 < b.maxMetadataBytes ∧ 0 < b.maxPackageBytes

/-- Every state of the task fits the policy's state budget. -/
def Policy.Roomy (policy : Policy) : Prop := ∀ revision s, policy.stateFits revision s = true

/-- Without a protected identity there is no file yet. -/
def Unstarted (v : Disk) : Prop :=
  v.store.state.partialIdentity = none → v.part = none ∧ v.ledger = none

section Steps

variable {deadline room : Nat} {v₀ : Disk} {α : Type} {Q : α → Disk → Prop}

theorem completes_disk {k : Disk → Guest α}
    (hk : ∀ d, d.reception = v₀ → Completes Disk.reception deadline room (fun v => v = v₀) (k d) Q) :
    Completes Disk.reception deadline room (fun v => v = v₀) (getDisk >>= k) Q := by
  refine completes_getDisk (fun d hd => ?_)
  rw [hd]
  exact hk d hd

theorem completes_load {t g : Text} {k : Envelope → Guest α}
    (ht : v₀.store.state.request.transferId = t) (hg : v₀.store.state.request.requestDigest = g)
    (hk : Completes Disk.reception deadline room (fun v => v = v₀) (k v₀.store) Q) :
    Completes Disk.reception deadline room (fun v => v = v₀) (load t g >>= k) Q := by
  refine completes_bind (Q := fun e v => v = v₀ ∧ e = v₀.store) ?_ ?_
  · refine completes_probe (completes_disk (fun d hd => ?_))
    have hstore : d.store = v₀.store := by rw [← hd]; rfl
    rw [hstore]
    exact completes_check (not_not.mpr ht) (completes_check (not_not.mpr hg)
      (completes_pure (fun v hv => ⟨hv, rfl⟩)))
  · rintro e s hcalm hroom ⟨hv, rfl⟩
    exact hk s hcalm hroom hv

/-- The budget of the stored task is not exceeded before its deadline. -/
theorem completes_budgetCheck {s : TaskState} {cancel : CancelCheck} {k : Unit → Guest α}
    (hrequest : s.request = v₀.store.state.request) (husable : s.request.budget.Usable)
    (hdeadline : deadline ≤ s.deadlineMonotonic) (hlive : v₀.store.state.cancelled = false)
    (hk : Completes Disk.reception deadline room (fun v => v = v₀) (k ()) Q) :
    Completes Disk.reception deadline room (fun v => v = v₀) (budgetCheck s cancel >>= k) Q := by
  refine completes_bind (Q := fun _ v => v = v₀) ?_ (fun _ => hk)
  obtain ⟨hfiles, hmetadata, hpackage⟩ := husable
  refine completes_check (by omega) (completes_monotonic (fun now hnow =>
    completes_check (by omega) ?_))
  refine completes_bind (Q := fun due v => v = v₀) ?_ (fun due => completes_ite (fun _ => ?_)
    (fun _ => completes_pure (fun v hv => hv)))
  · cases cancel with
    | never => exact completes_pure (fun v hv => hv)
    | always => exact completes_pure (fun v hv => hv)
    | throttled => exact completes_bind completes_observe (fun _ => completes_pure (fun v hv => hv.1))
  · rw [hrequest]
    refine completes_load rfl rfl (completes_raiseIf ?_ (fun v hv => hv))
    rw [hlive]
    exact Bool.false_ne_true

theorem completes_space {s : TaskState} {cancel : CancelCheck} {required : Nat} {k : Unit → Guest α}
    (hrequest : s.request = v₀.store.state.request) (husable : s.request.budget.Usable)
    (hdeadline : deadline ≤ s.deadlineMonotonic) (hlive : v₀.store.state.cancelled = false)
    (hroom : required + s.request.budget.minFreeBytes ≤ room)
    (hk : Completes Disk.reception deadline room (fun v => v = v₀) (k ()) Q) :
    Completes Disk.reception deadline room (fun v => v = v₀) (space s cancel required >>= k) Q := by
  refine completes_bind (Q := fun _ v => v = v₀) ?_ (fun _ => hk)
  refine completes_budgetCheck hrequest husable hdeadline hlive ?_
  refine completes_bind (completes_handle completes_freeSpace) (fun free => completes_at
    (fun v hv => ?_))
  obtain ⟨rfl, hfree⟩ := hv
  exact completes_raiseIf (by omega) (fun v hv => hv)

theorem completes_checkIdle {k : Unit → Guest α}
    (hk : Completes Disk.reception deadline room (fun v => v = v₀) (k ()) Q) :
    Completes Disk.reception deadline room (fun v => v = v₀) (checkIdle >>= k) Q := by
  refine completes_bind (Q := fun _ v => v = v₀) ?_ (fun _ => hk)
  refine completes_probe (completes_disk (fun d _ => ?_))
  split
  · exact completes_pure (fun v hv => hv)
  · refine completes_bind completes_observe (fun alive => completes_at (fun v hv => ?_))
    obtain ⟨rfl, rfl⟩ := hv
    refine completes_check (not_not.mpr rfl) (completes_probe ?_)
    exact completes_allOrNothing (fun _ v => v) (fun _ _ => rfl) (fun _ v hv => hv)

theorem completes_fingerprint {s : TaskState} {p l : FileNode} {k : Fingerprint → Guest α}
    (hp : v₀.part = some p) (hl : v₀.ledger = some l)
    (hk : Completes Disk.reception deadline room (fun v => v = v₀) (k (fingerprint v₀ s p l)) Q) :
    Completes Disk.reception deadline room (fun v => v = v₀) (partialFingerprint s >>= k) Q := by
  refine completes_bind (Q := fun f v => v = v₀ ∧ f = fingerprint v₀ s p l) ?_ ?_
  · refine completes_probe (completes_disk (fun d hd => ?_))
    have hpart : d.part = some p := by rw [← hp, ← hd]; rfl
    have hledger : d.ledger = some l := by rw [← hl, ← hd]; rfl
    rw [hpart, hledger]
    refine completes_pure (fun v hv => ⟨hv, ?_⟩)
    rw [← hd]
    rfl
  · rintro f s hcalm hroom ⟨hv, rfl⟩
    exact hk s hcalm hroom hv

/-- A save of the loaded envelope is stored. -/
theorem completes_save {policy : Policy} {envelope : Envelope} {s : TaskState}
    (hroomy : policy.Roomy) (hrevision : v₀.store.revision = envelope.revision)
    (hproof : guestPrefix s.saved = true) :
    Completes Disk.reception deadline room (fun v => v = v₀) (save policy envelope s)
      (fun env v => env = { revision := envelope.revision + 1, state := s.saved } ∧
        v = { v₀ with store := { revision := envelope.revision + 1, state := s.saved } }) := by
  refine completes_probe (completes_disk (fun d hd => ?_))
  have hstore : d.store = v₀.store := by rw [← hd]; rfl
  rw [hstore]
  refine completes_check (not_not.mpr hrevision) ?_
  refine completes_bind (Q := fun _ v => v = v₀) ?_ (fun _ => ?_)
  · refine completes_check ?_ (completes_check ?_ ?_)
    · rw [hproof]
      exact fun h => Bool.noConfusion h
    · rw [hroomy]
      exact fun h => Bool.noConfusion h
    · exact completes_bind completes_observe (fun _ => completes_pure (fun v hv => hv.1))
  refine completes_bind (Q := fun _ v => v = { v₀ with store :=
    { revision := envelope.revision + 1, state := s.saved } }) ?_ (fun _ =>
      completes_pure (fun v hv => ⟨rfl, hv⟩))
  refine completes_probe (completes_replaceRecord (fun v => { v with store :=
    { revision := envelope.revision + 1, state := s.saved } }) (fun _ => rfl) ?_)
  rintro v rfl
  rfl

end Steps

/-! ## Verification -/

section Verify

variable {deadline room : Nat} {i : Intent} {h : List Bytes} {v₀ : Disk}

/-- Every acknowledged record passes its checks. -/
theorem completes_verifyRecords {s : TaskState} {cancel : CancelCheck} {position : Nat}
    {chunks : List Bytes} {seen tail tail' : Bytes} (hfit : ChunksFit position chunks)
    (hbounded : ∀ c ∈ chunks, c.length ≤ s.request.budget.maxChunkBytes)
    (hrequest : s.request = v₀.store.state.request) (husable : s.request.budget.Usable)
    (hdeadline : deadline ≤ s.deadlineMonotonic) (hlive : v₀.store.state.cancelled = false) :
    Completes Disk.reception deadline room (fun v => v = v₀)
      (verifyRecords s cancel chunks.length position seen (ledgerFrom .count position chunks ++ tail)
        (chunks.flatten ++ tail')) (fun _ _ => True) := by
  induction chunks generalizing position seen with
  | nil => exact completes_pure (fun _ _ => trivial)
  | cons c chunks ih =>
      show Completes _ _ _ _ (verifyRecords s cancel (chunks.length + 1) position seen _ _) _
      unfold verifyRecords
      rw [readline_ledgerFrom hfit (by decide), drop_ledgerFrom]
      refine completes_budgetCheck hrequest husable hdeadline hlive (completes_probe ?_)
      refine completes_bind (Q := fun v v' => v' = v₀ ∧ v = ((chunkRecord position c).toJson .count).sortKeys)
        ?_ (fun value => completes_at (fun v hv => ?_))
      · unfold strictJson
        refine completes_check (by have := hfit.head.length .count; omega) ?_
        rw [hfit.head.loads]
        exact completes_pure (fun v hv => ⟨hv, rfl⟩)
      · obtain ⟨rfl, rfl⟩ := hv
        rw [recordOf_loads hfit.head, List.flatten_cons, List.append_assoc]
        have htake : (c ++ (chunks.flatten ++ tail')).take (chunkRecord position c).count = c :=
          List.take_left
        have hdrop : (c ++ (chunks.flatten ++ tail')).drop (chunkRecord position c).count
            = chunks.flatten ++ tail' := List.drop_left
        have hhex : isHex (chunkRecord position c).sha256 = true := isHex_hexdigest c
        have hsize : (chunkRecord position c).count ≤ s.request.budget.maxChunkBytes :=
          hbounded c List.mem_cons_self
        show Completes _ _ _ _ (rejectIf _ _ >>= _) _
        rw [htake, hdrop]
        refine completes_check ?_ (completes_check ?_ ?_)
        · rw [hhex]
          rintro (hne | hlarge | hbad)
          · exact hne rfl
          · omega
          · exact Bool.noConfusion hbad
        · rintro (hne | hbad)
          · exact hne rfl
          · exact hbad rfl
        · exact ih hfit.tail (fun d hd => hbounded d (List.mem_cons_of_mem _ hd))

/-- A short call is not refused the verification that it needs. -/
def Quick (v : Disk) : Prop :=
  (v.store.state.offset ≤ 2 ^ 20 ∧ v.store.state.chunkCount ≤ 1024) ∨
    ∀ p l, v.part = some p → v.ledger = some l →
      v.store.state.partialIdentity = some (fingerprint v v.store.state p l)

/-- Verification accepts every acknowledged state whose files have an owner. -/
theorem completes_verifiedPartial {force shortCall : Bool} {cancel : CancelCheck}
    (hr : Received i v₀ h) (hunstarted : Unstarted v₀) (husable : i.request.budget.Usable)
    (hdeadline : deadline ≤ i.deadlineMonotonic) (hquick : shortCall = true → force = false ∧ Quick v₀) :
    Completes Disk.reception deadline room (fun v => v = v₀)
      (verifiedPartial v₀.store.state force shortCall cancel)
      (fun r v => v.store = v₀.store ∧ Received i v h ∧ Settled v h ∧
        VerifiedState force v₀.store.state h r v) := by
  have hlive := hr.live
  have husable' : v₀.store.state.request.budget.Usable := by rw [hr.request]; exact husable
  have hdeadline' : deadline ≤ v₀.store.state.deadlineMonotonic := by
    rw [hr.deadline]
    exact hdeadline
  refine completes_post (Completes.triple (Q := fun _ _ => True) ?_
    (verifiedPartial_triple (K := fun _ _ => True) hr (fun _ _ _ _ => trivial)))
    (fun r v hv => hv.2)
  unfold verifiedPartial
  refine completes_budgetCheck rfl husable' hdeadline' hlive (completes_disk (fun d hd => ?_))
  have hpart : d.part = v₀.part := by rw [← hd]; rfl
  have hledger : d.ledger = v₀.ledger := by rw [← hd]; rfl
  have hdevice : d.device = v₀.device := by rw [← hd]; rfl
  rw [hpart, hledger]
  refine completes_ite (fun _ => completes_pure (fun _ _ => trivial)) (fun hstarted =>
    completes_probe ?_)
  -- the task has a protected identity, which pins both files
  obtain ⟨owned, hid⟩ : ∃ f, v₀.store.state.partialIdentity = some f := by
    cases hid : v₀.store.state.partialIdentity with
    | some f => exact ⟨f, rfl⟩
    | none =>
        obtain ⟨hp, hl⟩ := hunstarted hid
        obtain rfl := hr.unpinned hid
        exact absurd ⟨hp, hl, hr.offset, hr.count, hid⟩ hstarted
  obtain ⟨p, l, hpin⟩ := hr.pinned owned hid
  have hlong : h.flatten.length ≤ p.bytes.length := hpin.data.length_le
  rw [hpin.part, hpin.ledger]
  refine completes_check (by rw [hr.offset]; omega) ?_
  rw [hid]
  refine completes_check ?_ ?_
  · rw [hdevice]
    rintro (hne | hne | hne | hne)
    · exact hne hpin.partInfo.1
    · exact hne hpin.partInfo.2.1
    · exact hne hpin.ledgerInfo.1
    · exact hne hpin.ledgerInfo.2.1
  have hprint : fingerprint d v₀.store.state p l = fingerprint v₀ v₀.store.state p l := by
    unfold fingerprint
    rw [hdevice]
  refine completes_ite (fun _ => completes_pure (fun _ _ => trivial)) (fun hchanged => ?_)
  refine completes_check ?_ (completes_check ?_ ?_)
  · rintro ⟨hshort, hlarge⟩
    obtain ⟨hforce, hsmall | hsame⟩ := hquick hshort
    · omega
    · refine hchanged ⟨hforce, ?_⟩
      rw [hprint]
      exact Option.some.inj (hid.symm.trans (hsame p l hpin.part hpin.ledger))
  · have hbudget := hr.budget
    rw [ledgerSize_some hpin.ledger] at hbudget
    rw [hr.request]
    omega
  obtain ⟨tail, htail⟩ := hpin.lines
  obtain ⟨tail', htail'⟩ := hpin.data
  have hloop : Completes Disk.reception deadline room (fun v => v = v₀)
      (verifyRecords v₀.store.state cancel v₀.store.state.chunkCount 0 [] l.bytes p.bytes)
      (fun r v => v = v₀ ∧ r = (0 + h.flatten.length, [] ++ ledgerFrom .count 0 h)) := by
    rw [hr.count, ← htail, ← htail']
    refine completes_post (Completes.triple (completes_verifyRecords hr.fit ?_ rfl husable'
      hdeadline' hlive) (verifyRecords_triple (K := fun _ _ => True) hr.fit (fun _ => trivial)))
      (fun r v hv => hv.2)
    rw [hr.request]
    exact hr.bounded
  refine completes_bind hloop (fun r => completes_at (fun v₁ hv => ?_))
  obtain ⟨rfl, rfl⟩ := hv
  refine completes_check (by rw [hr.offset, Nat.zero_add]; exact not_not.mpr rfl)
    (completes_budgetCheck rfl husable' hdeadline' hlive
    (completes_fingerprint hpin.part hpin.ledger (completes_check (by
      rw [hprint]
      exact not_not.mpr rfl) ?_)))
  refine completes_bind (Q := fun _ v => ∃ p l, v.part = some p ∧ v.ledger = some l) ?_ (fun _ => ?_)
  · refine completes_whenever (fun _ => ?_) (fun _ v hv => ?_)
    · refine completes_allOrNothing (fun stamp v =>
        { v with part := v.part.map (fun f => f.truncate v₁.store.state.offset stamp) })
        (fun _ _ => rfl) ?_
      rintro stamp v rfl
      exact ⟨p.truncate _ stamp, l, congrArg (Option.map _) hpin.part, hpin.ledger⟩
    · exact ⟨p, l, hv ▸ hpin.part, hv ▸ hpin.ledger⟩
  refine completes_bind (Q := fun _ v => ∃ p l, v.part = some p ∧ v.ledger = some l) ?_
    (fun _ => completes_at (fun v hv => ?_))
  · refine completes_whenever (fun _ => ?_) (fun _ v hv => hv)
    refine completes_allOrNothing (fun stamp v =>
      { v with ledger := v.ledger.map (fun f => f.truncate ([] ++ ledgerFrom .count 0 h).length stamp) })
      (fun _ _ => rfl) ?_
    rintro stamp v ⟨p, l, hp, hl⟩
    exact ⟨p, l.truncate _ stamp, hp, congrArg (Option.map _) hl⟩
  obtain ⟨p', l', hp', hl'⟩ := hv
  exact completes_fingerprint hp' hl' (completes_pure (fun _ _ => trivial))

end Verify

/-! ## Chunks -/

section Chunks

variable {deadline room : Nat} {i : Intent} {h : List Bytes} {v₀ : Disk} {policy : Policy}

theorem guestPrefix_saved {s : TaskState} (hs : s.prefixVerification = none) :
    guestPrefix s.saved = true := by
  have hnone : s.saved.prefixVerification = none := by
    unfold TaskState.saved
    split
    · rfl
    · exact hs
  unfold guestPrefix
  rw [hnone]

theorem advance_prefixVerification (s : TaskState) (policy : Policy) (offset count : Nat) :
    (s.advance policy offset count).prefixVerification = s.prefixVerification := by
  unfold TaskState.advance
  split <;> rfl

/-- Both files exist, under the store `kept`, with `n` ledger bytes. -/
def HasFiles (kept : Envelope) (n : Nat) (v : Disk) : Prop :=
  v.store = kept ∧ ∃ p l, v.part = some p ∧ v.ledger = some l ∧ l.bytes.length = n

theorem completes_writePart {kept : Envelope} {n position : Nat} {data : Bytes}
    (hsize : position + data.length ≤ maxFileSize) :
    Completes Disk.reception deadline room (HasFiles kept n) (writePart position data)
      (fun _ => HasFiles kept n) := by
  refine completes_check (by omega) (completes_effect (fun stamp v =>
    { v with part := v.part.map (fun f => f.writeAt position data stamp) }) (fun _ _ => rfl) ?_)
  rintro stamp v ⟨hstore, p, l, hp, hl, hn⟩
  exact ⟨hstore, p.writeAt position data stamp, l, congrArg (Option.map _) hp, hl, hn⟩

theorem completes_appendLedger {kept : Envelope} {n : Nat} {data : Bytes}
    (hsize : n + data.length ≤ maxFileSize) :
    Completes Disk.reception deadline room (HasFiles kept n) (appendLedger data)
      (fun _ => HasFiles kept (n + data.length)) := by
  refine completes_getDisk (fun d hd => ?_)
  obtain ⟨hstore, p, l, hp, hl, hn⟩ := hd
  have hl' : d.ledger = some l := hl
  rw [hl']
  refine completes_check (by show ¬ (l.bytes.length + data.length > maxFileSize); omega) ?_
  refine completes_effect (fun stamp v =>
    { v with ledger := v.ledger.map (fun f => f.writeAt f.bytes.length data stamp) })
    (fun _ _ => rfl) ?_
  rintro stamp v rfl
  refine ⟨hstore, p, l.writeAt l.bytes.length data stamp, hp, congrArg (Option.map _) hl, ?_⟩
  rw [writeAt_end, List.length_append, hn]

/-- A single chunk is acknowledged behind existing files. -/
theorem completes_acknowledge {fresh : Envelope} {s : TaskState} {position n : Nat}
    {data line : Bytes} (hroomy : policy.Roomy) (hproof : s.prefixVerification = none)
    (hfiles : HasFiles fresh n v₀) (hdata : position + data.length ≤ maxFileSize)
    (hline : n + line.length ≤ maxFileSize) :
    Completes Disk.reception deadline room (fun v => v = v₀)
      (acknowledge policy fresh s (pure ()) position [data] [line]) (fun _ _ => True) := by
  obtain ⟨hstore, p, l, hp, hl, hn⟩ := hfiles
  refine completes_fingerprint hp hl ?_
  refine completes_bind (completes_save hroomy (by rw [hstore]) (guestPrefix_saved hproof))
    (fun fresh' => completes_at (fun v hv => ?_))
  obtain ⟨rfl, rfl⟩ := hv
  let pinned := s.pin (fingerprint v₀ s p l)
  refine completes_bind
    (Q := fun _ => HasFiles { revision := fresh.revision + 1, state := pinned.saved } n) ?_
    (fun _ => ?_)
  · refine completes_bind (completes_pure ?_) (fun _ => completes_bind (completes_writePart hdata)
      (fun _ => completes_pure (fun v hv => hv)))
    rintro v rfl
    exact ⟨rfl, p, l, hp, hl, hn⟩
  refine completes_bind (Q := fun _ => HasFiles
      { revision := fresh.revision + 1, state := pinned.saved } (n + line.length)) ?_
    (fun _ => completes_at (fun v hv => ?_))
  · exact completes_bind (completes_pure (fun v hv => hv)) (fun _ =>
      completes_bind (completes_appendLedger hline) (fun _ => completes_pure (fun v hv => hv)))
  obtain ⟨hstore', p', l', hp', hl', -⟩ := hv
  refine completes_fingerprint hp' hl' ?_
  refine completes_bind (completes_save hroomy (by rw [hstore']) (guestPrefix_saved ?_))
    (fun _ => completes_pure (fun _ _ => trivial))
  show (pinned.advance policy _ _).prefixVerification = none
  rw [advance_prefixVerification]
  exact hproof

theorem completes_createFiles (hsettled : Settled v₀ h) :
    Completes Disk.reception deadline room (fun v => v = v₀) createFiles
      (fun _ v => HasFiles v₀.store (ledgerFrom .count 0 h).length v) := by
  refine completes_disk (fun d hd => ?_)
  have hpart : d.part = v₀.part := by rw [← hd]; rfl
  rw [hpart]
  rcases hsettled with ⟨hp, hl, rfl⟩ | ⟨p, l, hexact⟩
  · refine completes_ite (fun _ => ?_) (fun hne => absurd hp hne)
    refine completes_bind (Q := fun _ v => v.store = v₀.store ∧ v.ledger = none ∧
      ∃ p, v.part = some p) ?_ (fun _ => ?_)
    · refine completes_probe (completes_disk (fun d' hd' => ?_))
      have hnone : d'.part = none := by rw [← hp, ← hd']; rfl
      rw [hnone]
      refine completes_check Bool.false_ne_true (completes_allOrNothing (fun stamp v =>
        { v with part := some (newFile v.nextInode stamp), nextInode := v.nextInode + 1 })
        (fun _ _ => rfl) ?_)
      rintro stamp v rfl
      exact ⟨rfl, hl, _, rfl⟩
    · refine completes_probe (completes_getDisk (fun d' hd' => ?_))
      have hnone : d'.ledger = none := hd'.2.1
      rw [hnone]
      refine completes_check Bool.false_ne_true (completes_allOrNothing (fun stamp v =>
        { v with ledger := some (newFile v.nextInode stamp), nextInode := v.nextInode + 1 })
        (fun _ _ => rfl) ?_)
      rintro stamp v rfl
      obtain ⟨hstore, -, p, hp'⟩ := hd'
      exact ⟨hstore, p, _, hp', rfl, rfl⟩
  · refine completes_ite (fun hnone => ?_) (fun _ => completes_pure (fun v hv => ?_))
    · rw [hexact.part] at hnone
      exact absurd hnone (by simp)
    · subst hv
      exact ⟨rfl, p, l, hexact.part, hexact.ledger, by rw [hexact.lines]⟩

/-- A well-formed chunk request for the task, with the bytes that it carries. -/
structure ChunkCall.Carries (policy : Policy) (s : TaskState) (c : ChunkCall) (data : Bytes) :
    Prop where
  transferId : s.request.transferId = c.transferId
  digest : s.request.requestDigest = c.requestDigest
  full : data ≠ []
  offset : 0 ≤ c.offset
  count : c.count = data.length
  size : data.length ≤ maximumChunk policy s
  text : ∃ text, c.dataBase64 = some text ∧ Base64.decode text = some data ∧
    text.length ≤ 4 * ((maximumChunk policy s + 2) / 3)
  sha : c.chunkSha256 = some (hexdigest data)

/-- The chunk follows the acknowledged bytes, and there is room for it. -/
structure Next (i : Intent) (h : List Bytes) (data : Bytes) (room : Nat) : Prop where
  complete : (h ++ [data]).flatten.length ≤ i.package.size
  fits : (h ++ [data]).flatten.length ≤ maxFileSize
  ledger : (ledgerFrom .count 0 (h ++ [data])).length ≤ i.request.budget.maxMetadataBytes
  ledgerFits : (ledgerFrom .count 0 (h ++ [data])).length ≤ maxFileSize
  room : data.length + ((chunkRecord h.flatten.length data).line .count).length +
    i.request.budget.minFreeBytes ≤ room

/-- The stored task takes chunks, and a call verifies its prefix. -/
structure Open (i : Intent) (deadline : Nat) (v : Disk) : Prop where
  unstarted : Unstarted v
  usable : i.request.budget.Usable
  deadline : deadline ≤ i.deadlineMonotonic
  quick : Quick v

/-- **A chunk call is answered**: a replay of acknowledged bytes, or the next chunk. -/
theorem completes_transferChunk {c : ChunkCall} {data : Bytes} (hr : Received i v₀ h)
    (hopen : Open i deadline v₀) (hc : c.Carries policy v₀.store.state data)
    (hwhere : (c.offset.toNat + data.length ≤ h.flatten.length ∧
        (h.flatten.drop c.offset.toNat).take data.length = data) ∨
      (c.offset.toNat = h.flatten.length ∧ policy.Roomy ∧ Next i h data room)) :
    Completes Disk.reception deadline room (fun v => v = v₀) (transferChunk policy c)
      (fun r v => ChunkDone i h c r v) := by
  refine completes_post (Completes.triple (Q := fun _ _ => True) ?_ (transferChunk_triple hr))
    (fun r v hv => hv.2)
  obtain ⟨hunstarted, husable, hdeadline, hquick⟩ := hopen
  have hlive := hr.live
  have hphase := hr.phase.imp_right And.left
  obtain ⟨text, htext, hdecode, hshort⟩ := hc.text
  have hdeadline' : deadline ≤ v₀.store.state.deadlineMonotonic := by
    rw [hr.deadline]
    exact hdeadline
  have hcount : c.count.toNat = data.length := by rw [hc.count, Int.toNat_natCast]
  have hlength : 0 < data.length := List.length_pos_iff.mpr hc.full
  have hsize := hc.size
  have hoffset := hc.offset
  refine completes_check (by have := hc.count; omega) (completes_probe
    (completes_load hc.transferId hc.digest (completes_monotonic (fun now hnow =>
    completes_check (by omega) (completes_check (by rw [hlive]; exact Bool.false_ne_true) ?_)))))
  rw [hc.sha, htext, hcount]
  refine completes_bind (Q := fun r v => v = v₀ ∧ r = (text, hexdigest data)) ?_
    (fun r => completes_at (fun v hv => ?_))
  · refine completes_check ?_ (completes_pure (fun v hv => ⟨hv, rfl⟩))
    rw [isHex_hexdigest]
    rintro (hlong | hbad)
    · omega
    · exact Bool.noConfusion hbad
  obtain ⟨rfl, rfl⟩ := hv
  refine completes_bind (Q := fun r v' => v' = v ∧ r = data) ?_
    (fun data => completes_at (fun v hv => ?_))
  · unfold decodeChunk
    rw [hdecode]
    refine completes_check ?_ (completes_pure (fun v hv => ⟨hv, rfl⟩))
    rintro (hne | hne)
    · exact hne rfl
    · exact hne rfl
  obtain ⟨rfl, rfl⟩ := hv
  refine completes_probe (completes_load hc.transferId hc.digest (completes_check
    (by rw [hlive]; exact Bool.false_ne_true) (completes_checkIdle (completes_check (by tauto)
    (completes_check ?_ ?_)))))
  · rw [hr.package]
    have := hr.complete
    rcases hwhere with hw | ⟨hw, -, hnext⟩
    · omega
    · have := hnext.complete
      rw [List.flatten_append, List.length_append, List.flatten_cons, List.flatten_nil,
        List.append_nil] at this
      omega
  refine completes_bind (completes_verifiedPartial hr hunstarted husable hdeadline
    (fun _ => ⟨rfl, hquick⟩)) (fun r => completes_at (fun v₁ hv => ?_))
  obtain ⟨sha', s⟩ := r
  obtain ⟨hstore, hr₁, hsettled, hverified⟩ := hv
  have hs : s = { v.store.state with partialIdentity := s.partialIdentity } := hverified.state
  have hfits : Fits i s h := by
    rw [hs]
    exact hr.fits.identity _
  have hphase' : s.phase = v.store.state.phase := by rw [hs]
  show Completes _ _ _ _ (if c.offset.toNat < s.offset then _ else _) _
  rw [hfits.offset]
  rcases hwhere with ⟨hrange, hequal⟩ | ⟨hnext, hroomy, hn⟩
  · refine completes_ite (fun _ => completes_check (by omega) (completes_probe
      (completes_disk (fun d hd => completes_check ?_ (completes_pure (fun _ _ => trivial))))))
      (fun hne => absurd (by omega) hne)
    have hpart : d.part = v₁.part := by rw [← hd]; rfl
    rw [hpart, hr₁.slice hrange]
    exact not_not.mpr hequal
  · refine completes_ite (fun hlt => absurd hlt (by omega)) (fun _ => ?_)
    have hlines := hn.ledger
    have hlines' := hn.ledgerFits
    rw [ledgerFrom_append, List.length_append, Nat.zero_add, ledgerFrom_cons] at hlines hlines'
    have hline : Record.line .count ⟨c.offset.toNat, data.length, hexdigest data⟩
        = (chunkRecord h.flatten.length data).line .count := by
      rw [hnext]
      rfl
    rw [hline]
    refine completes_check ?_ (completes_disk (fun d hd => completes_check ?_ ?_))
    · rw [hphase']
      rintro (hne | hne)
      · exact hne hnext
      · have := hn.complete
        rw [List.flatten_append, List.length_append, List.flatten_cons, List.flatten_nil,
          List.append_nil] at this
        exact hne (hr.phase.resolve_right (fun hfull => by omega))
    · have hledger : ledgerSize d = (ledgerFrom .count 0 h).length := by
        rw [show ledgerSize d = ledgerSize v₁ by rw [← hd]; rfl]
        exact hsettled.ledgerSize
      rw [hledger, hfits.request]
      simp only [ledgerFrom, recordsFrom, List.map_nil, List.flatten_nil, List.append_nil] at hlines ⊢
      omega
    have hrequest : s.request = v₁.store.state.request := by rw [hfits.request, hr₁.request]
    refine completes_space hrequest (by rw [hfits.request]; exact husable)
      (by rw [hfits.deadline]; exact hdeadline) (by rw [hstore]; exact hlive)
      (by rw [hfits.request]; exact hn.room) ?_
    refine completes_bind (completes_createFiles hsettled) (fun _ => completes_at (fun v₂ hv₂ => ?_))
    rw [hstore] at hv₂
    have hfits' := hn.fits
    rw [List.flatten_append, List.length_append, List.flatten_cons, List.flatten_nil,
      List.append_nil] at hfits'
    refine completes_bind (completes_acknowledge hroomy rfl hv₂ (by rw [hnext]; exact hfits') ?_)
      (fun _ => completes_pure (fun _ _ => trivial))
    simpa [ledgerFrom, recordsFrom] using hlines'

end Chunks

end GuestTask
