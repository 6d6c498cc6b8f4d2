import VeloTransfer.ControlChannelProofs

/-! # The control channel — the helper runs at most once, on the whole request

    Commands are run late, or twice, or never, and others put files of their own where the
    request is.  Still the request file holds nothing but the beginning of the request,
    only its own commands change it, and once it was verified nothing does.

    * `Inv` — what holds of the guest and of the commands in flight, over any order;
    * `Silent` — an error that says that nothing was committed. -/

namespace ControlChannel

open CanonicalJson JsonDict EffectPrograms EffectPrograms.Program
open FaultScript (happened)
open Sha256 (hexdigest)

/-! ## What holds over any order -/

def Command.isCreate : Command → Bool
  | .create => true
  | _ => false

def Command.isInvoke : Command → Bool
  | .invoke _ => true
  | _ => false

/-- How far a call has come: a creation was sent, the file is known, it was verified, the
    helper was called, it answered, and the file was deleted. -/
structure Progress where
  sent : Bool
  owner : Option Text
  sealed : Bool
  invoked : Bool
  answered : Bool
  gone : Bool

def Progress.start : Progress :=
  { sent := false, owner := none, sealed := false, invoked := false, answered := false, gone := false }

/-- What a command may be about. -/
def Valid (raw : Bytes) (created : List Text) : Command → Prop
  | .write offset piece identity => identity ∈ created ∧ piece <+: raw.drop offset
  | .invoke identity => identity ∈ created
  | .cleanup identity => identity ∈ created
  | _ => True

section Inv

variable {γ : Type} {helper : γ → Bytes → γ × Printed} {raw : Bytes} {p : Progress} {g : Guest γ}
  {pending : List Command}

/-- What holds of the guest, and of the commands that may still be run there. -/
structure Inv (raw : Bytes) (p : Progress) (g : Guest γ) (pending : List Command) : Prop where
  standing : ∀ node, g.others = some node → g.node = some node
  foreign : ∀ node, g.others = some node → node.identity ∉ g.created
  used : ∀ identity ∈ g.created, identity ∈ g.used
  content : ∀ node, g.node = some node → node.identity ∈ g.created → node.bytes <+: raw
  whole : p.sealed = true → ∀ node, g.node = some node → node.identity ∈ g.created → node.bytes = raw
  gone : p.gone = true → ∀ node, g.node = some node → node.identity ∉ g.created
  valid : ∀ c ∈ pending, Valid raw g.created c
  creates : g.created.length + pending.countP Command.isCreate ≤ if p.sent then 1 else 0
  invokes : g.runs.length + pending.countP Command.isInvoke ≤ if p.invoked then 1 else 0
  ran : ∀ bytes ∈ g.runs, bytes = raw
  answered : p.answered = true → g.runs ≠ []
  owner : ∀ identity, p.owner = some identity → identity ∈ g.created
  ordered : (p.sealed = true ∨ p.gone = true → p.owner.isSome = true) ∧ (p.invoked = true → p.sealed = true)

theorem Valid.mono {created created' : List Text} {c : Command} (h : Valid raw created c)
    (hsub : ∀ identity ∈ created, identity ∈ created') : Valid raw created' c := by
  cases c with
  | create => trivial
  | write offset piece identity => exact ⟨hsub _ h.1, h.2⟩
  | verify size sha256 identity => trivial
  | invoke identity => exact hsub _ h
  | cleanup identity => exact hsub _ h

/-- Where the file is known, no creation is in flight. -/
theorem Inv.no_create (h : Inv raw p g pending) (howner : p.owner.isSome = true) :
    pending.countP Command.isCreate = 0 ∧ g.created.length = 1 := by
  obtain ⟨identity, hidentity⟩ := Option.isSome_iff_exists.mp howner
  have hpos : 0 < g.created.length := List.length_pos_of_mem (h.owner identity hidentity)
  have hbound := h.creates
  split at hbound
  · omega
  · omega

/-- A command may get lost. -/
theorem Inv.drop {before later : List Command} {c : Command} (h : Inv raw p g (before ++ c :: later)) :
    Inv raw p g (before ++ later) where
  standing := h.standing
  foreign := h.foreign
  used := h.used
  content := h.content
  whole := h.whole
  gone := h.gone
  valid d hd := h.valid d (by
    rcases List.mem_append.mp hd with hd | hd
    · exact List.mem_append_left _ hd
    · exact List.mem_append_right _ (List.mem_cons_of_mem _ hd))
  creates := by
    have hbound := h.creates
    rw [List.countP_append, List.countP_cons] at hbound
    rw [List.countP_append]
    omega
  invokes := by
    have hbound := h.invokes
    rw [List.countP_append, List.countP_cons] at hbound
    rw [List.countP_append]
    omega
  ran := h.ran
  answered := h.answered
  owner := h.owner
  ordered := h.ordered

/-- Others change what the path names, and nothing else. -/
theorem Inv.swap (h : Inv raw p g pending) (node : Option RequestNode) : Inv raw p (g.swap node) pending := by
  unfold Guest.swap
  cases node with
  | none =>
      refine { h with standing := ?_, foreign := ?_, content := ?_, whole := ?_, gone := ?_ }
      · exact fun node hnode => hnode
      · intro node hnode
        cases hnode
      · intro node hnode
        cases hnode
      · intro _ node hnode
        cases hnode
      · intro _ node hnode
        cases hnode
  | some node =>
      by_cases hused : node.identity ∈ g.used
      · dsimp only
        rw [if_pos hused]
        exact h
      · dsimp only
        rw [if_neg hused]
        have hforeign : node.identity ∉ g.created := fun hmem => hused (h.used _ hmem)
        refine { h with standing := ?_, foreign := ?_, used := ?_, content := ?_, whole := ?_, gone := ?_ }
        · exact fun other hother => hother
        · rintro other ⟨⟩
          exact hforeign
        · exact fun identity hmem => List.mem_cons_of_mem _ (h.used identity hmem)
        · rintro other ⟨⟩ hmem
          exact absurd hmem hforeign
        · rintro - other ⟨⟩ hmem
          exact absurd hmem hforeign
        · rintro - other ⟨⟩
          exact hforeign

theorem owned_spec {identity : Text} {node : RequestNode} (h : g.owned identity = some node) :
    g.node = some node ∧ node.identity = identity := by
  unfold Guest.owned at h
  split at h
  · exact absurd h nofun
  next found hfound =>
    split at h
    next hplain =>
      obtain rfl := Option.some.inj h
      exact ⟨hfound, hplain.2.2⟩
    next => exact absurd h nofun

/-- A file of this call is not one of others. -/
theorem Inv.not_others (h : Inv raw p g pending) {node : RequestNode} (hnode : g.node = some node)
    (hcreated : node.identity ∈ g.created) : g.others = none := by
  cases hothers : g.others with
  | none => rfl
  | some other =>
      have hsame : some node = some other := hnode.symm.trans (h.standing other hothers)
      exact absurd hcreated (Option.some.inj hsame ▸ h.foreign other hothers)

/-- What is appended where the file ends belongs there. -/
theorem prefix_extend {bytes piece : Bytes} {offset : Nat} (hbytes : bytes <+: raw) (hoffset : bytes.length = offset)
    (hpiece : piece <+: raw.drop offset) : bytes ++ piece <+: raw := by
  obtain ⟨rest, rfl⟩ := hbytes
  rw [← hoffset, List.drop_left] at hpiece
  exact (List.prefix_append_right_inj bytes).mpr hpiece

theorem Inv.put (h : Inv raw p g pending) {node : RequestNode} {bytes : Bytes} (hnode : g.node = some node)
    (hcreated : node.identity ∈ g.created) (hbytes : bytes <+: raw) (hwhole : p.sealed = true → bytes = raw) :
    Inv raw p (g.put node bytes) pending := by
  have hothers := h.not_others hnode hcreated
  refine { h with standing := ?_, content := ?_, whole := ?_, gone := ?_ }
  · exact fun other hother => absurd (hothers.symm.trans hother) nofun
  · rintro other ⟨⟩ -
    exact hbytes
  · rintro hsealed other ⟨⟩ -
    exact hwhole hsealed
  · exact fun hgone => absurd hcreated (h.gone hgone node hnode)

/-- A creation that is run is the only one, and comes before the rest. -/
theorem Inv.create {before later : List Command} (h : Inv raw p g (before ++ .create :: later)) (chance : Chance) :
    Inv raw p (g.create chance).1 (before ++ later) := by
  unfold Guest.create
  split
  next => exact h.drop
  next hfree =>
    rw [not_or, not_or] at hfree
    obtain ⟨hnode, hunused, -⟩ := hfree
    have hnone : g.node = none := by
      cases hfound : g.node with
      | none => rfl
      | some node => exact absurd (by rw [hfound]; rfl) hnode
    have hbound := h.creates
    rw [List.countP_append, List.countP_cons, if_pos (show Command.create.isCreate = true from rfl)] at hbound
    have hsent : p.sent = true := by
      by_cases hsent : p.sent = true
      · exact hsent
      · rw [if_neg hsent] at hbound
        omega
    rw [if_pos hsent] at hbound
    have hempty : g.created = [] := List.length_eq_zero_iff.mp (by omega)
    -- what is known of the file excludes that a creation is in flight
    have hunknown : ¬ p.owner.isSome = true := fun howner => by
      have := (h.no_create howner).2
      omega
    refine { h.drop with standing := ?_, foreign := ?_, used := ?_, content := ?_, whole := ?_, gone := ?_, valid := ?_, creates := ?_, owner := ?_ }
    · exact fun other hother => absurd (hnone.symm.trans (h.standing other hother)) nofun
    · exact fun other hother => absurd (hnone.symm.trans (h.standing other hother)) nofun
    · intro identity hmem
      rcases List.mem_cons.mp hmem with rfl | hmem
      · exact List.mem_cons_self
      · exact List.mem_cons_of_mem _ (h.used identity hmem)
    · rintro other ⟨⟩ -
      exact List.nil_prefix
    · exact fun hsealed => absurd (h.ordered.1 (.inl hsealed)) hunknown
    · exact fun hgone => absurd (h.ordered.1 (.inr hgone)) hunknown
    · exact fun d hd => (h.drop.valid d hd).mono (fun identity hmem => List.mem_cons_of_mem _ hmem)
    · rw [if_pos hsent, List.countP_append]
      show (chance.identity :: g.created).length + _ ≤ 1
      rw [hempty]
      rw [hempty] at hbound
      simp only [List.length_nil, List.length_cons] at hbound ⊢
      omega
    · exact fun identity hidentity => absurd (by rw [hidentity]; rfl) hunknown

theorem Inv.write {before later : List Command} {offset : Nat} {piece : Bytes} {identity : Text}
    (h : Inv raw p g (before ++ .write offset piece identity :: later)) (chance : Chance) :
    Inv raw p (g.write chance offset piece identity).1 (before ++ later) := by
  obtain ⟨hcreated, hpiece⟩ := h.valid _ (List.mem_append_right _ List.mem_cons_self)
  unfold Guest.write
  cases howned : g.owned identity with
  | none => exact h.drop
  | some node =>
      obtain ⟨hnode, rfl⟩ := owned_spec howned
      have hbytes := h.content node hnode hcreated
      dsimp only
      split
      next hoffset =>
        -- the whole file ends where the request does, so that nothing is left to append
        have hwhole : ∀ {appended : Bytes}, appended <+: piece → p.sealed = true → node.bytes ++ appended = raw := by
          intro appended happended hsealed
          have hraw := h.whole hsealed node hnode hcreated
          rw [← hoffset, hraw, List.drop_length, List.prefix_nil] at hpiece
          rw [hpiece, List.prefix_nil] at happended
          rw [happended, List.append_nil, hraw]
        cases chance.fault with
        | none =>
            exact h.drop.put hnode hcreated (prefix_extend hbytes hoffset hpiece) (hwhole (List.prefix_refl _))
        | some progress =>
            have htaken := List.take_prefix progress piece
            exact h.drop.put hnode hcreated (prefix_extend hbytes hoffset (htaken.trans hpiece)) (hwhole htaken)
      next => split <;> exact h.drop

theorem Inv.verify {before later : List Command} {size : Nat} {sha256 identity : Text}
    (h : Inv raw p g (before ++ .verify size sha256 identity :: later)) (chance : Chance) :
    Inv raw p (g.verify chance size sha256 identity).1 (before ++ later) := by
  unfold Guest.verify
  split
  · exact h.drop
  · split
    · exact h.drop
    · exact h.drop

/-- The helper that is run is the one that was called, on the verified file. -/
theorem Inv.invoke {before later : List Command} {identity : Text}
    (h : Inv raw p g (before ++ .invoke identity :: later)) (chance : Chance) :
    Inv raw p (g.invoke helper chance identity).1 (before ++ later) := by
  have hcreated : identity ∈ g.created := h.valid _ (List.mem_append_right _ List.mem_cons_self)
  unfold Guest.invoke
  cases howned : g.owned identity with
  | none => exact h.drop
  | some node =>
      obtain ⟨hnode, rfl⟩ := owned_spec howned
      dsimp only
      split
      next =>
        have hbound := h.invokes
        rw [List.countP_append, List.countP_cons, if_pos (show (Command.invoke node.identity).isInvoke = true from rfl)]
          at hbound
        have hinvoked : p.invoked = true := by
          by_cases hinvoked : p.invoked = true
          · exact hinvoked
          · rw [if_neg hinvoked] at hbound
            omega
        rw [if_pos hinvoked] at hbound
        refine { h.drop with invokes := ?_, ran := ?_, answered := ?_ }
        · rw [if_pos hinvoked, List.countP_append]
          show (g.runs ++ [node.bytes]).length + _ ≤ 1
          rw [List.length_append, List.length_singleton]
          omega
        · intro bytes hmem
          rcases List.mem_append.mp hmem with hmem | hmem
          · exact h.ran bytes hmem
          · rw [List.mem_singleton.mp hmem]
            exact h.whole (h.ordered.2 hinvoked) node hnode hcreated
        · exact fun _ => List.append_ne_nil_of_right_ne_nil _ (List.cons_ne_nil _ _)
      next => exact h.drop

/-- The file that is deleted is the one that was made. -/
theorem Inv.cleanup {before later : List Command} {identity : Text}
    (h : Inv raw p g (before ++ .cleanup identity :: later)) (chance : Chance) :
    Inv raw p (g.cleanup chance identity).1 (before ++ later) := by
  have hcreated : identity ∈ g.created := h.valid _ (List.mem_append_right _ List.mem_cons_self)
  unfold Guest.cleanup
  cases howned : g.owned identity with
  | none => exact h.drop
  | some node =>
      obtain ⟨hnode, rfl⟩ := owned_spec howned
      have hothers := h.not_others hnode hcreated
      dsimp only
      split
      · refine { h.drop with standing := ?_, content := nofun, whole := fun _ => nofun, gone := fun _ => nofun }
        exact fun other hother => absurd (hothers.symm.trans hother) nofun
      · exact h.drop

/-- **Any command in flight** may be run at any time. -/
theorem Inv.run {before later : List Command} {c : Command} (h : Inv raw p g (before ++ c :: later)) (chance : Chance) :
    Inv raw p (g.run helper chance c).1 (before ++ later) := by
  cases c with
  | create => exact h.create chance
  | write offset piece identity => exact h.write chance
  | verify size sha256 identity => exact h.verify chance
  | invoke identity => exact h.invoke chance
  | cleanup identity => exact h.cleanup chance

/-- The file that a creation made is known from its answer. -/
theorem Inv.own (h : Inv raw p g pending) {identity : Text} (hcreated : identity ∈ g.created) :
    Inv raw { p with owner := some identity } g pending := by
  refine { h with owner := ?_, ordered := ⟨fun _ => rfl, h.ordered.2⟩ }
  rintro identity' ⟨⟩
  exact hcreated

/-- A file as long as the request is the request. -/
theorem Inv.seal (h : Inv raw p g pending) (howner : p.owner.isSome = true)
    (hlength : ∀ node, g.node = some node → node.bytes.length = raw.length) :
    Inv raw { p with sealed := true } g pending := by
  refine { h with whole := ?_, ordered := ⟨fun _ => howner, fun _ => rfl⟩ }
  exact fun _ node hnode hcreated => (h.content node hnode hcreated).eq_of_length (hlength node hnode)

theorem Inv.remove (h : Inv raw p g pending) (howner : p.owner.isSome = true) (hnone : g.node = none) :
    Inv raw { p with gone := true } g pending := by
  refine { h with gone := ?_, ordered := ⟨fun _ => howner, h.ordered.2⟩ }
  exact fun _ node hnode => absurd (hnone.symm.trans hnode) nofun

theorem Inv.answer (h : Inv raw p g pending) (hruns : g.runs ≠ []) :
    Inv raw { p with answered := true } g pending :=
  { h with answered := fun _ => hruns }

/-- A command is sent that neither makes a file nor calls the helper. -/
theorem Inv.send (h : Inv raw p g pending) {c : Command} (hvalid : Valid raw g.created c)
    (hcreate : c.isCreate = false) (hinvoke : c.isInvoke = false) : Inv raw p g (pending ++ [c]) := by
  refine { h with valid := ?_, creates := ?_, invokes := ?_ }
  · intro d hd
    rcases List.mem_append.mp hd with hd | hd
    · exact h.valid d hd
    · exact List.mem_singleton.mp hd ▸ hvalid
  · rw [List.countP_append, List.countP_singleton, if_neg (by rw [hcreate]; exact nofun)]
    exact h.creates
  · rw [List.countP_append, List.countP_singleton, if_neg (by rw [hinvoke]; exact nofun)]
    exact h.invokes

theorem Inv.sendCreate (h : Inv raw .start g pending) : Inv raw { Progress.start with sent := true } g (pending ++ [.create]) := by
  have hnone : g.created.length + pending.countP Command.isCreate ≤ 0 := h.creates
  refine { h with valid := ?_, creates := ?_, invokes := ?_ }
  · intro d hd
    rcases List.mem_append.mp hd with hd | hd
    · exact h.valid d hd
    · exact List.mem_singleton.mp hd ▸ trivial
  · rw [List.countP_append]
    show _ + (_ + 1) ≤ 1
    omega
  · rw [List.countP_append]
    exact h.invokes

/-- The helper is called once, on a verified file. -/
theorem Inv.sendInvoke (h : Inv raw p g pending) {identity : Text} (hcreated : identity ∈ g.created)
    (hsealed : p.sealed = true) (hinvoked : p.invoked = false) :
    Inv raw { p with invoked := true } g (pending ++ [.invoke identity]) := by
  have hnone : g.runs.length + pending.countP Command.isInvoke ≤ 0 := by
    have hbound := h.invokes
    rwa [hinvoked] at hbound
  refine { h with valid := ?_, creates := ?_, invokes := ?_, ordered := ⟨h.ordered.1, fun _ => hsealed⟩ }
  · intro d hd
    rcases List.mem_append.mp hd with hd | hd
    · exact h.valid d hd
    · exact List.mem_singleton.mp hd ▸ hcreated
  · rw [List.countP_append]
    exact h.creates
  · rw [List.countP_append]
    show _ + (_ + 1) ≤ 1
    omega

end Inv

/-! ## Whatever happens -/

section Happenings

variable {γ : Type} {cfg : Config γ} {raw : Bytes} {p : Progress} {s : Site γ}

theorem happen_arrives {index : Nat} {c : Command} (hc : s.inFlight[index]? = some c) (chance : Chance) :
    s.happen cfg (.arrives index chance) =
      { s with guest := (s.guest.run cfg.helper chance c).1, inFlight := s.inFlight.eraseIdx index } := by
  simp only [Site.happen, hc]

/-- What holds with a command that is about to be sent holds whatever happens before. -/
theorem Inv.happen {sending : List Command} (h : Inv raw p s.guest (s.inFlight ++ sending)) (happening : Happening) :
    Inv raw p (s.happen cfg happening).guest ((s.happen cfg happening).inFlight ++ sending) := by
  cases happening with
  | swapped node => exact h.swap node
  | arrives index chance =>
      cases hc : s.inFlight[index]? with
      | none =>
          rw [show s.happen cfg (.arrives index chance) = s by simp only [Site.happen, hc]]
          exact h
      | some c =>
          rw [happen_arrives hc chance]
          obtain ⟨hindex, rfl⟩ := List.getElem?_eq_some_iff.mp hc
          have hsplit : s.inFlight = s.inFlight.take index ++ s.inFlight[index] :: s.inFlight.drop (index + 1) := by
            rw [List.getElem_cons_drop, List.take_append_drop]
          rw [hsplit, List.append_assoc, List.cons_append] at h
          have hrun : Inv raw p (s.guest.run cfg.helper chance s.inFlight[index]).1
              (s.inFlight.take index ++ (s.inFlight.drop (index + 1) ++ sending)) := h.run chance
          rw [← List.append_assoc, ← List.eraseIdx_eq_take_drop_succ] at hrun
          exact hrun

theorem Inv.happenAll {sending : List Command} (happenings : List Happening) {s : Site γ}
    (h : Inv raw p s.guest (s.inFlight ++ sending)) :
    Inv raw p (s.happenAll cfg happenings).guest ((s.happenAll cfg happenings).inFlight ++ sending) := by
  induction happenings generalizing s with
  | nil => exact h
  | cons happening rest ih => exact ih (h.happen happening)

end Happenings

/-! ## Errors that say that nothing was committed -/

mutual

theorem classify_unknown : ∀ f : Failure, f.isDenial = false → ∀ e, classify true f = some e →
    e.mayHaveCommitted = true
  | .group children, h, e, he => by
      have hall := classifyAll_unknown children h
      unfold classify at he
      revert hall he
      cases hclassified : classifyAll true children with
      | nil =>
          intro _ he
          obtain rfl := Option.some.inj he
          rfl
      | cons first rest =>
          intro hall he
          dsimp only at he
          split at he
          · obtain rfl := Option.some.inj he
            exact hall first List.mem_cons_self
          · obtain rfl := Option.some.inj he
            cases hfind : (first :: rest).find? fun e =>
                e.code != ascii "connection_unavailable" && e.code != ascii "protocol_error" with
            | none => rfl
            | some found => exact hall found (List.mem_of_find?_eq_some hfind)
  | .bodyLimit code, _, e, he => by
      obtain rfl := Option.some.inj he
      rfl
  | .connect isTls isUnreachable, _, e, he => by
      unfold classify at he
      split at he
      · obtain rfl := Option.some.inj he
        rfl
      · split at he
        · obtain rfl := Option.some.inj he
          rfl
        · obtain rfl := Option.some.inj he
          rfl
  | .timeout, _, e, he => by
      obtain rfl := Option.some.inj he
      rfl
  | .status code, h, e, he => by
      have hcode : ¬ (code = 401 ∨ code = 403) ∧ ¬ (code = 400 ∨ code = 421) := by
        simp only [Failure.isDenial, Bool.or_eq_false_iff, beq_eq_false_iff_ne] at h
        omega
      unfold classify at he
      rw [if_neg hcode.1, if_neg hcode.2] at he
      obtain rfl := Option.some.inj he
      rfl
  | .cancelled, _, e, he => absurd he nofun
  | .other, _, e, he => by
      obtain rfl := Option.some.inj he
      rfl

theorem classifyAll_unknown : ∀ fs : List Failure, anyDenial fs = false → ∀ e ∈ classifyAll true fs,
    e.mayHaveCommitted = true
  | [], _, e, he => absurd he List.not_mem_nil
  | f :: fs, h, e, he => by
      unfold anyDenial at h
      rw [Bool.or_eq_false_iff] at h
      unfold classifyAll at he
      rcases List.mem_append.mp he with he | he
      · exact classify_unknown f h.1 e (Option.mem_toList.mp he)
      · exact classifyAll_unknown fs h.2 e he

end

/-- The error of an operation that may commit, which says that it did not. -/
def Silent (op : Operation) : Raised → Prop
  | .adapter e => op.isReadOnly = false ∧ e.mayHaveCommitted = false
  | .other _ => False

theorem silent_failure {op : Operation} {code : String} {mayHaveCommitted : Bool}
    (h : Silent op (failure code mayHaveCommitted)) : mayHaveCommitted = false :=
  h.2

theorem not_silent (op : Operation) (code : String) : ¬ Silent op (failure code (mayCommit op)) := by
  rintro ⟨hop, hmay⟩
  change (!op.isReadOnly) = false at hmay
  rw [hop] at hmay
  exact absurd hmay (by decide)

end ControlChannel
