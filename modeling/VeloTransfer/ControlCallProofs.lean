import VeloTransfer.ControlSafetyProofs

/-! # The control channel — what a call leaves behind

    Each part of a call says how far the call has come, and where it ends early, what the
    host may still say of it.

    * `At` — the guest, the commands in flight and the variables of the call;
    * `call_safe` — every call, and all that happens after it. -/

namespace ControlChannel

open CanonicalJson JsonDict EffectPrograms EffectPrograms.Program
open Sha256 (hexdigest)

/-! ## One exchange -/

section Exchange

variable {γ : Type} {cfg : Config γ} {op : Operation} {raw : Bytes} {path : Text} {p p' : Progress}
  {v : Option Text × Bool × Bool} {c : Command} {sending : List Command}

/-- The variables of a call that its end depends on. -/
def Site.vars (s : Site γ) : Option Text × Bool × Bool := (s.ownerIdentity, s.createAttempted, s.invoked)

structure At (raw : Bytes) (p : Progress) (v : Option Text × Bool × Bool) (sending : List Command) (s : Site γ) : Prop where
  inv : Inv raw p s.guest (s.inFlight ++ sending)
  vars : s.vars = v

theorem At.unsent {s : Site γ} (h : At raw p v [c] s) : At raw p v [] s where
  inv := h.inv.drop
  vars := h.vars

theorem At.inFlight {s : Site γ} (h : At raw p v [] s) : Inv raw p s.guest s.inFlight := by
  have hinv := h.inv
  rwa [List.append_nil] at hinv

/-- The command was run, and this was printed. -/
def Ran (cfg : Config γ) (raw : Bytes) (p : Progress) (c : Command) (printed : Option Printed) (s : Site γ) : Prop :=
  ∃ g chance, Inv raw p g (s.inFlight ++ [c]) ∧ g.run cfg.helper chance c = (s.guest, printed)

/-- The answer is a report of the server, or what was printed. -/
def Answered (cfg : Config γ) (raw : Bytes) (p : Progress) (c : Command) (result : ToolResult) (s : Site γ) : Prop :=
  ∃ thrown printed, result = resultOf thrown printed ∧ (printed = none ∨ Ran cfg raw p c printed s)

/-- An early end behind which a silent error means that the command was not sent. -/
def Unsent (op : Operation) (raw : Bytes) (p p' : Progress) (v : Option Text × Bool × Bool) (e : Option Raised)
    (s : Site γ) : Prop :=
  ∃ r, e = some r ∧ At raw p' v [] s ∧ (Silent op r → At raw p v [] s)

theorem happenAll_vars (happenings : List Happening) (s : Site γ) : (s.happenAll cfg happenings).vars = s.vars := by
  induction happenings generalizing s with
  | nil => rfl
  | cons happening rest ih =>
      refine (ih _).trans ?_
      cases happening with
      | swapped node => rfl
      | arrives index chance =>
          cases hc : s.inFlight[index]? with
          | none => rw [show s.happen cfg (.arrives index chance) = s by simp only [Site.happen, hc]]
          | some c =>
              rw [happen_arrives hc chance]
              rfl

theorem triple_nextEvent : Triple id (At raw p v sending) (nextEvent cfg) (fun _ => At raw p v sending)
    (fun _ _ => False) := by
  intro s hs
  unfold nextEvent
  cases hevents : s.events with
  | nil => exact hs
  | cons event rest =>
      refine ⟨?_, (happenAll_vars event.happenings _).trans hs.vars⟩
      exact Inv.happenAll event.happenings (s := { s with events := rest }) hs.inv

theorem triple_runCommand (chance : Chance) :
    Triple id (At raw p v [c]) (runCommand cfg chance c)
      (fun printed s => At raw p v [] s ∧ Ran cfg raw p c printed s) (fun _ _ => False) := by
  intro s hs
  have hrun : Inv raw p (s.guest.run cfg.helper chance c).1 (s.inFlight ++ []) := hs.inv.run chance
  exact ⟨⟨hrun, hs.vars⟩, s.guest, chance, hs.inv, rfl⟩

/-- What comes back in place of an answer says that nothing was committed only where
    the command was turned down. -/
theorem triple_replied {P : Site γ → Prop} (hP : ∀ s, P s → At raw p' v [] s) (reply : Reply)
    (hdenial : reply.isDenial = false ∨ ∀ s, P s → At raw p v [] s) :
    Triple id P (replied op reply) (fun result s => At raw p' v [] s ∧ Answered cfg raw p' c result s)
      (Unsent op raw p p' v) := by
  cases reply with
  | report text => exact triple_pure (fun s hs => ⟨hP s hs, text, none, rfl, .inl rfl⟩)
  | failure f =>
      cases hclass : classify (mayCommit op) f with
      | none =>
          rw [show replied op (.failure f) = (raise (.other "CancelledError") : Effect γ ToolResult) by
            simp only [replied, hclass]]
          exact triple_raise (fun s hs => ⟨_, rfl, hP s hs, False.elim⟩)
      | some e =>
          rw [show replied op (.failure f) = (raise (.adapter e) : Effect γ ToolResult) by
            simp only [replied, hclass]]
          refine triple_raise (fun s hs => ⟨_, rfl, hP s hs, fun hsilent => ?_⟩)
          rcases hdenial with hdenial | hlower
          · have hmay : mayCommit op = true := by
              show (!op.isReadOnly) = true
              rw [hsilent.1]
              rfl
            rw [hmay] at hclass
            exact absurd (hsilent.2.symm.trans (classify_unknown f hdenial e hclass)) nofun
          · exact hlower s hs

/-- **An exchange.**  `p` is how far the call is without the command, `p'` with it. -/
theorem triple_callTool (hsend : ∀ g pending, Inv (γ := γ) raw p g pending → Inv raw p' g (pending ++ [c])) :
    Triple id (At raw p v []) (callTool cfg op c) (fun result s => At raw p' v [] s ∧ Answered cfg raw p' c result s)
      (Unsent op raw p p' v) := by
  have hsent : ∀ s : Site γ, At raw p v [] s → At raw p' v [c] s :=
    fun s hs => ⟨hsend _ _ hs.inFlight, hs.vars⟩
  have hunsent : ∀ s : Site γ, At raw p v [] s → At raw p' v [] s := fun s hs => (hsent s hs).unsent
  refine triple_bind (triple_conseq triple_nextEvent (fun _ hs => hs) (fun _ _ hs => hs) (fun _ _ hs => hs.elim))
    (fun event => ?_)
  refine triple_ite (fun _ => ?_) (fun _ => triple_ite (fun _ => ?_) (fun _ => ?_))
  · exact triple_raise (fun s hs => ⟨_, rfl, hunsent s hs, fun _ => hs⟩)
  · exact triple_raise (fun s hs => ⟨_, rfl, hunsent s hs, fun _ => hs⟩)
  · have hrun : Triple id (At raw p v []) (runCommand cfg event.chance c)
        (fun printed s => At raw p' v [] s ∧ Ran cfg raw p' c printed s) (Unsent op raw p p' v) :=
      triple_conseq (triple_runCommand event.chance) hsent (fun _ _ hs => hs) (fun _ _ hs => hs.elim)
    cases event.fate with
    | unsent reply => exact triple_replied hunsent reply (.inr (fun s hs => hs))
    | answered =>
        refine triple_bind hrun (fun printed => triple_pure (fun s hs => ⟨hs.1, event.thrown, printed, rfl, .inr hs.2⟩))
    | lost reply hreply =>
        exact triple_bind hrun (fun printed => triple_replied (fun s hs => hs.1) reply (.inl hreply))
    | delayed reply hreply =>
        refine triple_bind (Q := fun _ => At raw p' v []) ?_ (fun _ => triple_replied (fun s hs => hs) reply (.inl hreply))
        intro s hs
        have hafter := (hsent s hs).inv
        rw [← List.append_nil (s.inFlight ++ [c])] at hafter
        exact ⟨hafter, hs.vars⟩

variable (hsend : ∀ g pending, Inv (γ := γ) raw p g pending → Inv raw p' g (pending ++ [c]))
include hsend

theorem triple_sent {α : Type} {script : Text} {k : ToolResult → Effect γ α} {Q : α → Site γ → Prop}
    (hk : ∀ result, Triple id (fun s => At raw p' v [] s ∧ Answered cfg raw p' c result s) (k result) Q
      (Unsent op raw p p' v)) :
    Triple id (At raw p v []) (do
        let _ ← command (bounded script)
        let result ← callTool cfg op c
        k result) Q (Unsent op raw p p' v) := by
  refine triple_bind (Q := fun _ => At raw p v []) ?_ (fun _ => triple_bind (triple_callTool hsend) hk)
  cases bounded script with
  | ok text => exact triple_pure (fun _ hs => hs)
  | error code =>
      refine triple_raise (fun s hs => ⟨_, rfl, ?_, fun _ => hs⟩)
      exact At.unsent ⟨hsend _ _ hs.inFlight, hs.vars⟩

/-- A line that is read was printed by the command. -/
theorem triple_powershell (script : Text) :
    Triple id (At raw p v []) (powershell cfg op script c)
      (fun line s => At raw p' v [] s ∧ ∃ printed, Ran cfg raw p' c (some printed) s ∧ line = chomp printed.stdout)
      (Unsent op raw p p' v) := by
  refine triple_sent hsend (fun result => ?_)
  cases hparse : parseOuter result with
  | error code =>
      exact triple_raise (fun s hs => ⟨_, rfl, hs.1, fun hsilent => absurd hsilent (not_silent op _)⟩)
  | ok line =>
      refine triple_pure (fun s hs => ⟨hs.1, ?_⟩)
      obtain ⟨thrown, printed, rfl, hran⟩ := hs.2
      obtain ⟨printed, rfl, hline⟩ := parseOuter_ok hparse
      rcases hran with hnone | hran
      · exact absurd hnone nofun
      · exact ⟨printed, hran, hline⟩

/-- Where a script throws, its exit code says so. -/
theorem triple_powershellStatus (script : Text) :
    Triple id (At raw p v []) (powershellStatus cfg op script c)
      (fun answer s => At raw p' v [] s ∧ (answer.2 = 1 ∨
        ∃ printed, Ran cfg raw p' c (some printed) s ∧ answer = (printed.stdout, printed.status)))
      (Unsent op raw p p' v) := by
  refine triple_sent hsend (fun result => ?_)
  cases hparse : parseOuterStatus result with
  | error code =>
      exact triple_raise (fun s hs => ⟨_, rfl, hs.1, fun hsilent => absurd hsilent (not_silent op _)⟩)
  | ok answer =>
      refine triple_pure (fun s hs => ⟨hs.1, ?_⟩)
      obtain ⟨thrown, printed, rfl, hran⟩ := hs.2
      cases printed with
      | none => exact .inl (parseOuterStatus_thrown hparse)
      | some printed =>
          obtain ⟨hstdout, hstatus⟩ := parseOuterStatus_printed hparse
          rcases hran with hnone | hran
          · exact absurd hnone nofun
          · exact .inr ⟨printed, hran, Prod.ext hstdout hstatus⟩

end Exchange

/-! ## The parts of a call -/

section Parts

variable {γ : Type} {cfg : Config γ} {op : Operation} {raw : Bytes} {path : Text}

/-- An early end of the block of a call. -/
def Ended (op : Operation) (raw : Bytes) (r : Raised) (s : Site γ) : Prop :=
  ∃ p, Inv raw p s.guest s.inFlight ∧ s.ownerIdentity = p.owner ∧ (s.createAttempted = false → p.sent = false) ∧
    (Silent op r → p.invoked = false)

theorem At.ended {p : Progress} {v : Option Text × Bool × Bool} {r : Raised} {s : Site γ} (h : At raw p v [] s)
    (howner : v.1 = p.owner) (hsent : v.2.1 = false → p.sent = false) (hsilent : Silent op r → p.invoked = false) :
    Ended op raw r s := by
  refine ⟨p, h.inFlight, ?_, ?_, hsilent⟩
  · exact (congrArg Prod.fst h.vars).trans howner
  · intro hattempted
    have hvars : s.createAttempted = v.2.1 := congrArg (fun x => x.2.1) h.vars
    exact hsent (hvars.symm.trans hattempted)

def EndedEarly (op : Operation) (raw : Bytes) (e : Option Raised) (s : Site γ) : Prop :=
  ∃ r, e = some r ∧ Ended op raw r s

/-- The file is known, and nothing more. -/
def Progress.owned (identity : Text) : Progress := { Progress.start with sent := true, owner := some identity }

def Progress.verified (identity : Text) : Progress := { Progress.owned identity with sealed := true }

def Progress.called (identity : Text) : Progress := { Progress.verified identity with invoked := true }

def Progress.ran (identity : Text) : Progress := { Progress.called identity with answered := true }

theorem after_spec {ps cs rest : Text} (h : after ps cs = some rest) : cs = ps ++ rest := by
  induction ps generalizing cs with
  | nil => exact Option.some.inj h
  | cons p ps ih =>
      cases cs with
      | nil => exact absurd h nofun
      | cons c cs =>
          unfold after at h
          split at h
          next heq => rw [heq, ih h, List.cons_append]
          next => exact absurd h nofun

theorem createdIdentity_ack {identity found : Text} (h : createdIdentity (ackCreated identity) = some found) :
    found = identity := by
  unfold createdIdentity ackCreated at h
  rw [after_append] at h
  dsimp only at h
  split at h
  · exact (Option.some.inj h).symm
  · exact absurd h nofun

/-- What a creation that printed did. -/
theorem create_printed {g g' : Guest γ} {chance : Chance} {printed : Printed}
    (h : g.create chance = (g', some printed)) :
    chomp printed.stdout = ackCreated chance.identity ∧ chance.identity ∈ g'.created := by
  unfold Guest.create at h
  split at h
  · exact absurd (congrArg Prod.snd h) nofun
  · obtain ⟨rfl, hprinted⟩ := Prod.mk.inj h
    split at hprinted
    · obtain rfl := Option.some.inj hprinted
      exact ⟨chomp_line _, List.mem_cons_self⟩
    · exact absurd hprinted nofun

theorem triple_createFile :
    Triple id (At raw .start (none, false, false) []) (createFile cfg op path)
      (fun identity => At raw (.owned identity) (some identity, true, false) []) (EndedEarly (γ := γ) op raw) := by
  refine triple_bind (Q := fun _ => At raw .start (none, false, false) []) ?_ (fun script => ?_)
  · cases createScript path with
    | ok script => exact triple_pure (fun _ hs => hs)
    | error code => exact triple_raise (fun s hs => ⟨_, rfl, hs.ended rfl (fun _ => rfl) (fun _ => rfl)⟩)
  · refine triple_bind (Q := fun _ => At raw .start (none, true, false) []) ?_ (fun _ => ?_)
    · rintro s ⟨hinv, hvars⟩
      exact ⟨hinv, congrArg (fun x => (x.1, true, x.2.2)) hvars⟩
    · refine triple_bind (triple_conseq (triple_powershell (fun g pending h => h.sendCreate) script) (fun _ hs => hs)
        (fun _ _ hs => hs) ?_) (fun created => ?_)
      · rintro e s ⟨r, rfl, hs, -⟩
        exact ⟨r, rfl, hs.ended rfl nofun (fun _ => rfl)⟩
      · cases hcreated : createdIdentity created with
        | none => exact triple_raise (fun s hs => ⟨_, rfl, hs.1.ended rfl nofun (fun _ => rfl)⟩)
        | some identity =>
            rintro s ⟨hs, printed, ⟨g, chance, -, hrun⟩, rfl⟩
            obtain ⟨hprinted, hmem⟩ := create_printed hrun
            rw [hprinted] at hcreated
            obtain rfl := createdIdentity_ack hcreated
            refine ⟨?_, congrArg (fun x => (some chance.identity, x.2.1, x.2.2)) hs.vars⟩
            exact hs.inv.own hmem

/-- An early end that leaves the call where it is. -/
def Stays (raw : Bytes) (p : Progress) (v : Option Text × Bool × Bool) (e : Option Raised) (s : Site γ) : Prop :=
  ∃ r, e = some r ∧ At raw p v [] s

theorem stays_of_unsent {p : Progress} {v : Option Text × Bool × Bool} {e : Option Raised} {s : Site γ}
    (h : Unsent op raw p p v e s) : Stays raw p v e s := by
  obtain ⟨r, he, hs, -⟩ := h
  exact ⟨r, he, hs⟩

section Writing

variable {p : Progress} {v : Option Text × Bool × Bool} {identity : Text} (howner : p.owner = some identity)
include howner

theorem triple_writeOnce (script : Text) {offset : Nat} {piece : Bytes} (hpiece : piece <+: raw.drop offset) :
    Triple id (At raw p v []) (writeOnce (γ := γ) cfg op script offset piece identity) (fun _ => At raw p v [])
      (Stays raw p v) := by
  have hsend : ∀ g pending, Inv (γ := γ) raw p g pending →
      Inv raw p g (pending ++ [.write offset piece identity]) :=
    fun g pending h => h.send ⟨h.owner identity howner, hpiece⟩ rfl rfl
  refine triple_bind (triple_conseq (triple_powershell hsend script) (fun _ hs => hs) (fun _ _ hs => hs.1)
    (fun _ _ hs => stays_of_unsent hs)) (fun ack => ?_)
  exact triple_ite (fun _ => triple_raise (fun s hs => ⟨_, rfl, hs⟩)) (fun _ => triple_pure (fun _ hs => hs))

theorem triple_writePiece (script : Text) {offset : Nat} {piece : Bytes} (hpiece : piece <+: raw.drop offset) :
    Triple id (At raw p v []) (writePiece (γ := γ) cfg op script offset piece identity) (fun _ => At raw p v [])
      (Stays raw p v) := by
  have honce : Triple id (At raw p v []) (writeOnce (γ := γ) cfg op script offset piece identity)
      (fun _ => At raw p v []) (Stays raw p v) := triple_writeOnce howner script hpiece
  refine triple_handle (H := fun _ => At raw p v []) (triple_conseq honce (fun _ hs => hs) (fun _ _ hs => hs) ?_)
    (fun e => ?_)
  · rintro e s ⟨r, rfl, hs⟩
    exact hs
  · exact triple_ite (fun _ => honce) (fun _ => triple_raise (fun s hs => ⟨_, rfl, hs⟩))

/-- Every piece is one of the request, and belongs where it is sent. -/
theorem triple_writeAll (rounds offset : Nat) :
    Triple id (At raw p v []) (writeAll (γ := γ) cfg op path raw identity rounds offset) (fun _ => At raw p v [])
      (Stays raw p v) := by
  induction rounds generalizing offset with
  | zero => exact triple_pure (fun _ hs => hs)
  | succ rounds ih =>
      refine triple_ite (fun _ => ?_) (fun _ => triple_pure (fun _ hs => hs))
      cases fitting path identity offset (raw.drop offset) (min 4096 (raw.length - offset)) with
      | none => exact triple_raise (fun s hs => ⟨_, rfl, hs⟩)
      | some fit =>
          obtain ⟨count, script⟩ := fit
          exact triple_bind (triple_writePiece howner script (List.take_prefix _ _)) (fun _ => ih _)

end Writing

/-- What a verification that printed found. -/
theorem verify_printed {g g' : Guest γ} {chance : Chance} {size : Nat} {sha256 identity : Text} {printed : Printed}
    (h : g.verify chance size sha256 identity = (g', some printed)) :
    ∀ node, g'.node = some node → node.bytes.length = size := by
  unfold Guest.verify at h
  split at h
  · exact absurd (congrArg Prod.snd h) nofun
  next node howned =>
    split at h
    next hsame =>
      obtain ⟨rfl, -⟩ := Prod.mk.inj h
      intro found hfound
      have hnode : some node = some found := (owned_spec howned).1.symm.trans hfound
      exact Option.some.inj hnode ▸ hsame.1
    next => exact absurd (congrArg Prod.snd h) nofun

theorem triple_verifyFile (identity : Text) (v : Option Text × Bool × Bool) :
    Triple id (At raw (.owned identity) v []) (verifyFile (γ := γ) cfg op path raw identity)
      (fun _ => At raw (.verified identity) v []) (Stays raw (.owned identity) v) := by
  have hsend : ∀ g pending, Inv (γ := γ) raw (.owned identity) g pending →
      Inv raw (.owned identity) g (pending ++ [.verify raw.length (hexdigest raw) identity]) :=
    fun g pending h => h.send trivial rfl rfl
  refine triple_bind (Q := fun _ => At raw (.owned identity) v []) ?_ (fun script => ?_)
  · cases verifyScript path raw.length (hexdigest raw) identity with
    | ok script => exact triple_pure (fun _ hs => hs)
    | error code => exact triple_raise (fun s hs => ⟨_, rfl, hs⟩)
  · refine triple_bind (triple_conseq (triple_powershell hsend script) (fun _ hs => hs) (fun _ _ hs => hs)
      (fun _ _ hs => stays_of_unsent hs)) (fun ack => ?_)
    refine triple_ite (fun _ => triple_raise (fun s hs => ⟨_, rfl, hs.1⟩)) (fun _ => triple_pure ?_)
    rintro s ⟨hs, printed, ⟨g, chance, -, hrun⟩, -⟩
    exact ⟨hs.inv.seal rfl (verify_printed hrun), hs.vars⟩

/-- What the helper was told to have answered. -/
def Told (cfg : Config γ) (raw : Bytes) (result : List (Text × Json)) : Prop :=
  ∃ service, parseHelper (cfg.helper service raw).2.stdout (cfg.helper service raw).2.status = .ok result

/-- What an invocation that printed did. -/
theorem invoke_printed {helper : γ → Bytes → γ × Printed} {g g' : Guest γ} {chance : Chance} {identity : Text}
    {printed : Printed} (h : g.invoke helper chance identity = (g', some printed)) :
    ∃ bytes, bytes ∈ g'.runs ∧ printed = (helper g.service bytes).2 := by
  unfold Guest.invoke at h
  split at h
  · exact absurd (congrArg Prod.snd h) nofun
  next node _ =>
    split at h
    · obtain ⟨rfl, hprinted⟩ := Prod.mk.inj h
      split at hprinted
      · exact ⟨node.bytes, List.mem_append_right _ List.mem_cons_self, (Option.some.inj hprinted).symm⟩
      · exact absurd hprinted nofun
    · exact absurd (congrArg Prod.snd h) nofun

/-- A result comes only with the exit code zero. -/
theorem parseHelper_status {stdout : Text} {status : Int} {result : List (Text × Json)}
    (h : parseHelper stdout status = .ok result) : status = 0 := by
  unfold parseHelper at h
  split at h
  · exact absurd h nofun
  · split at h
    · exact absurd h nofun
    · split at h
      · exact absurd h nofun
      · split at h
        · unfold helperPayload at h
          split at h
          · exact absurd h nofun
          · split at h
            · exact absurd h nofun
            next hrefused => exact Decidable.not_not.mp (fun hne => hrefused (.inl hne))
        · exact absurd h nofun

/-- The observations are no part of what the call is about. -/
theorem triple_observeCapabilities {P : Site γ → Prop} {K : Option Raised → Site γ → Prop} (result : List (Text × Json))
    (hP : ∀ s s', P s → s'.guest = s.guest → s'.inFlight = s.inFlight → s'.vars = s.vars → P s')
    (hK : ∀ s, P s → K (some (failure "protocol_error" false)) s) :
    Triple id P (observeCapabilities result) (fun _ => P) K := by
  have hraise : Triple id P (raise (failure "protocol_error" false) : Effect γ Unit) (fun _ => P) K :=
    triple_raise hK
  refine triple_bind (Q := fun _ => P) (fun s hs => hP s _ hs rfl rfl rfl) (fun _ => ?_)
  split
  · split
    · exact triple_ite (fun _ => hraise) (fun _ => fun s hs => hP s _ hs rfl rfl rfl)
    · exact hraise
  · exact triple_pure (fun _ hs => hs)

/-- The result of the helper is one of its own, for the request. -/
theorem triple_helperResult {identity : Text} {v : Option Text × Bool × Bool} (answer : Text × Int) :
    Triple id (fun s => At raw (.called identity) v [] s ∧ (answer.2 = 1 ∨ ∃ printed,
        Ran cfg raw (.called identity) (.invoke identity) (some printed) s ∧ answer = (printed.stdout, printed.status)))
      (helperResult op answer.1 answer.2)
      (fun result s => At raw (.ran identity) v [] s ∧ Told cfg raw result)
      (fun e s => ∃ r, e = some r ∧ At raw (.called identity) v [] s ∧ ¬ Silent op r) := by
  cases hparse : parseHelper answer.1 answer.2 with
  | error e =>
      cases e with
      | guest code =>
          rw [show helperResult op answer.1 answer.2 = (raise (.adapter { adapterError "" (mayCommit op) false with
            code := code }) : Effect γ (List (Text × Json))) by simp only [helperResult, hparse]]
          exact triple_raise (fun s hs => ⟨_, rfl, hs.1, not_silent op ""⟩)
      | invalid =>
          rw [show helperResult op answer.1 answer.2 = (raise (failure "helper_response" (mayCommit op)) :
            Effect γ (List (Text × Json))) by simp only [helperResult, hparse]]
          exact triple_raise (fun s hs => ⟨_, rfl, hs.1, not_silent op _⟩)
  | ok result =>
      rw [show helperResult op answer.1 answer.2 = (pure result : Effect γ (List (Text × Json))) by
        simp only [helperResult, hparse]]
      refine triple_pure ?_
      rintro s ⟨hs, hthrown | ⟨printed, ⟨g, chance, -, hrun⟩, rfl⟩⟩
      · exact absurd (hthrown.symm.trans (parseHelper_status hparse)) (by decide)
      · obtain ⟨bytes, hmem, rfl⟩ := invoke_printed hrun
        have hbytes : bytes = raw := hs.inv.ran bytes hmem
        refine ⟨⟨hs.inv.answer (List.ne_nil_of_mem hmem), hs.vars⟩, g.service, ?_⟩
        rw [← hbytes]
        exact hparse

/-- The helper is called once; an error that does not say so may hide that it ran. -/
theorem triple_invokeHelper (identity : Text) :
    Triple id (At raw (.verified identity) (some identity, true, true) []) (invokeHelper cfg op path identity)
      (fun result s => At raw (.ran identity) (some identity, true, true) [] s ∧ Told cfg raw result)
      (EndedEarly op raw) := by
  have hsend : ∀ g pending, Inv (γ := γ) raw (.verified identity) g pending →
      Inv raw (.called identity) g (pending ++ [.invoke identity]) :=
    fun g pending h => h.sendInvoke (h.owner identity rfl) rfl rfl
  refine triple_bind (Q := fun _ => At raw (.verified identity) (some identity, true, true) []) ?_ (fun script => ?_)
  · cases invokeScript cfg.deployment path identity with
    | ok script => exact triple_pure (fun _ hs => hs)
    | error code => exact triple_raise (fun s hs => ⟨_, rfl, hs.ended rfl nofun (fun _ => rfl)⟩)
  · refine triple_bind (triple_conseq (triple_powershellStatus hsend script) (fun _ hs => hs) (fun _ _ hs => hs) ?_)
      (fun answer => ?_)
    · rintro e s ⟨r, rfl, hs, hlower⟩
      refine ⟨r, rfl, ?_⟩
      by_cases hsilent : Silent op r
      · exact (hlower hsilent).ended rfl nofun (fun _ => rfl)
      · exact hs.ended rfl nofun (fun h => absurd h hsilent)
    · refine triple_bind (triple_conseq (triple_helperResult answer) (fun _ hs => hs) (fun _ _ hs => hs) ?_)
        (fun result => ?_)
      · rintro e s ⟨r, rfl, hs, hloud⟩
        exact ⟨r, rfl, hs.ended rfl nofun (fun h => absurd h hloud)⟩
      refine triple_check (fun s hs => ?_) (fun _ => ?_)
      · exact ⟨_, rfl, hs.1.ended rfl nofun (fun h => absurd h (not_silent op _))⟩
      · refine triple_bind (Q := fun _ s => At raw (.ran identity) (some identity, true, true) [] s ∧ Told cfg raw result)
          (triple_whenever (fun hop => ?_) (fun _ _ hs => hs)) (fun _ => triple_pure (fun _ hs => hs))
        refine triple_observeCapabilities result ?_ (fun s hs => ?_)
        · rintro s s' ⟨⟨hinv, hvars⟩, htold⟩ hguest hinFlight hvars'
          rw [← hguest, ← hinFlight] at hinv
          exact ⟨⟨hinv, hvars'.trans hvars⟩, htold⟩
        · -- only a reading operation comes here, and its errors promise nothing
          refine ⟨_, rfl, hs.1.ended rfl nofun (fun h => ?_)⟩
          rw [hop] at h
          exact absurd h.1 nofun

theorem triple_exchange :
    Triple id (At raw .start (none, false, false) []) (exchange cfg op path raw)
      (fun result s => (∃ identity, At raw (.ran identity) (some identity, true, true) [] s) ∧ Told cfg raw result)
      (EndedEarly (γ := γ) op raw) := by
  have hstays : ∀ {p : Progress} {identity : Text} (e : Option Raised) (s : Site γ), p.owner = some identity →
      p.invoked = false → Stays raw p (some identity, true, false) e s → EndedEarly op raw e s := by
    rintro p identity e s howner hinvoked ⟨r, rfl, hs⟩
    exact ⟨r, rfl, hs.ended howner.symm nofun (fun _ => hinvoked)⟩
  refine triple_bind triple_createFile (fun identity => ?_)
  refine triple_bind (triple_conseq (triple_writeAll rfl _ _) (fun _ hs => hs) (fun _ _ hs => hs)
    (fun e s hs => hstays e s rfl rfl hs)) (fun _ => ?_)
  refine triple_bind (triple_conseq (triple_verifyFile identity _) (fun _ hs => hs) (fun _ _ hs => hs)
    (fun e s hs => hstays e s rfl rfl hs)) (fun _ => ?_)
  refine triple_bind (Q := fun _ => At raw (.verified identity) (some identity, true, true) []) ?_ (fun _ => ?_)
  · rintro s ⟨hinv, hvars⟩
    exact ⟨hinv, congrArg (fun x => (x.1, x.2.1, true)) hvars⟩
  · exact triple_conseq (triple_invokeHelper identity) (fun _ hs => hs) (fun _ _ hs => ⟨⟨identity, hs.1⟩, hs.2⟩)
      (fun _ _ hs => hs)

/-! ## The end of a call -/

/-- What the variables of the block are when it has ended. -/
def BlockEnd (cfg : Config γ) (op : Operation) (raw : Bytes) (pending : Except Raised (List (Text × Json)))
    (s : Site γ) : Prop :=
  match pending with
  | .ok result => (∃ identity, At raw (.ran identity) (some identity, true, true) [] s) ∧ Told cfg raw result
  | .error r => Ended op raw r s

/-- How a call may have ended. -/
def CallEnd (cfg : Config γ) (op : Operation) (raw : Bytes) (path : Text) (pending : Except Raised (List (Text × Json)))
    (s : Site γ) : Prop :=
  match pending with
  | .ok result => (∃ p, Inv raw p s.guest s.inFlight ∧ p.gone = true ∧ p.answered = true) ∧ Told cfg raw result
  | .error r => ∃ p, Inv raw p s.guest s.inFlight ∧ (Silent op r → p.invoked = false) ∧
      (p.gone = true ∨ p.sent = false ∨ s.pendingControlPath = some path)

/-- What a deletion that printed did. -/
theorem cleanup_printed {g g' : Guest γ} {chance : Chance} {identity : Text} {printed : Printed}
    (h : g.cleanup chance identity = (g', some printed)) : g'.node = none := by
  unfold Guest.cleanup at h
  split at h
  · exact absurd (congrArg Prod.snd h) nofun
  · split at h
    · obtain ⟨rfl, -⟩ := Prod.mk.inj h
      rfl
    · exact absurd (congrArg Prod.snd h) nofun

theorem triple_removeFile {p : Progress} {v : Option Text × Bool × Bool} {identity : Text}
    (howner : p.owner = some identity) :
    Triple id (At raw p v []) (removeFile (γ := γ) cfg op path identity)
      (fun removed s => if removed then At raw { p with gone := true } v [] s
        else At raw p v [] s ∧ s.pendingControlPath = some path) (fun _ _ => False) := by
  have hsend : ∀ g pending, Inv (γ := γ) raw p g pending → Inv raw p g (pending ++ [.cleanup identity]) :=
    fun g pending h => h.send (h.owner identity howner) rfl rfl
  refine triple_handle (H := fun _ => At raw p v []) ?_ (fun e => ?_)
  · refine triple_conseq (K := Stays raw p v) (Q := fun removed s => if removed then At raw { p with gone := true } v [] s
        else At raw p v [] s ∧ s.pendingControlPath = some path) ?_ (fun _ hs => hs) (fun _ _ hs => hs) ?_
    · refine triple_bind (Q := fun _ => At raw p v []) ?_ (fun script => ?_)
      · cases cleanupScript path identity with
        | ok script => exact triple_pure (fun _ hs => hs)
        | error code => exact triple_raise (fun s hs => ⟨_, rfl, hs⟩)
      · refine triple_bind (triple_conseq (triple_powershell hsend script) (fun _ hs => hs) (fun _ _ hs => hs)
          (fun _ _ hs => stays_of_unsent hs)) (fun ack => ?_)
        refine triple_check (fun s hs => ⟨_, rfl, hs.1⟩) (fun _ => triple_pure ?_)
        rintro s ⟨hs, printed, ⟨g, chance, -, hrun⟩, -⟩
        exact ⟨hs.inv.remove (by rw [howner]; rfl) (cleanup_printed hrun), hs.vars⟩
    · rintro e s ⟨r, rfl, hs⟩
      exact hs
  · refine triple_bind (Q := fun _ s => At raw p v [] s ∧ s.pendingControlPath = some path) ?_
      (fun _ => triple_pure (fun _ hs => hs))
    rintro s ⟨hinv, hvars⟩
    exact ⟨⟨hinv, hvars⟩, rfl⟩

/-- What is known of a block whose file is known. -/
def Holds (cfg : Config γ) (op : Operation) (raw : Bytes) (p : Progress) (invoked : Bool)
    (pending : Except Raised (List (Text × Json))) : Prop :=
  match pending with
  | .ok result => (p.answered = true ∧ invoked = true) ∧ Told cfg raw result
  | .error r => Silent op r → p.invoked = false

theorem BlockEnd.owned {pending : Except Raised (List (Text × Json))} {s : Site γ} {identity : Text}
    (h : BlockEnd cfg op raw pending s) (howner : s.ownerIdentity = some identity) :
    ∃ p, p.owner = some identity ∧ At raw p s.vars [] s ∧ Holds cfg op raw p s.invoked pending := by
  cases pending with
  | ok result =>
      obtain ⟨⟨identity', hs⟩, htold⟩ := h
      have hinvoked : s.invoked = true := congrArg (fun x => x.2.2) hs.vars
      have hidentity : s.ownerIdentity = some identity' := congrArg Prod.fst hs.vars
      exact ⟨.ran identity', hidentity.symm.trans howner, ⟨hs.inv, rfl⟩, ⟨rfl, hinvoked⟩, htold⟩
  | error r =>
      obtain ⟨p, hinv, hp, -, hsilent⟩ := h
      refine ⟨p, hp.symm.trans howner, ⟨?_, rfl⟩, hsilent⟩
      rwa [List.append_nil]

/-- The end of a call whose file was deleted, or was not. -/
theorem callEnd_of_removed {p : Progress} {v : Option Text × Bool × Bool} {invoked removed : Bool}
    {pending : Except Raised (List (Text × Json))} {s : Site γ} (hholds : Holds cfg op raw p invoked pending)
    (hs : if removed then At raw { p with gone := true } v [] s else At raw p v [] s ∧ s.pendingControlPath = some path) :
    CallEnd cfg op raw path (if removed then pending else unremoved path invoked pending) s := by
  cases removed with
  | true =>
      rw [if_pos rfl] at hs ⊢
      cases pending with
      | ok result => exact ⟨⟨_, hs.inFlight, rfl, hholds.1.1⟩, hholds.2⟩
      | error r => exact ⟨_, hs.inFlight, hholds, .inl rfl⟩
  | false =>
      rw [if_neg nofun] at hs ⊢
      have hleft := Or.inr (a := p.gone = true) (Or.inr (a := p.sent = false) hs.2)
      cases pending with
      | ok result =>
          refine ⟨p, hs.1.inFlight, fun hsilent => ?_, hleft⟩
          exact absurd (hholds.1.2.symm.trans hsilent.2) nofun
      | error r =>
          cases r with
          | adapter e => exact ⟨p, hs.1.inFlight, hholds, hleft⟩
          | other name => exact ⟨p, hs.1.inFlight, hholds, hleft⟩

/-- What is left behind is noted, and an error keeps what it says. -/
theorem triple_finishCall (pending : Except Raised (List (Text × Json))) :
    Triple id (BlockEnd cfg op raw pending) (finishCall cfg op path pending)
      (fun ended s => CallEnd cfg op raw path ended s) (fun _ _ => False) := by
  refine triple_read (fun s₀ => ?_)
  cases howner : s₀.ownerIdentity with
  | some identity =>
      intro s hs
      obtain ⟨hblock, rfl⟩ := hs
      obtain ⟨p, hp, hat, hholds⟩ := hblock.owned howner
      exact triple_bind (triple_removeFile hp) (fun removed => triple_pure (fun _ hs => callEnd_of_removed hholds hs))
        _ hat
  | none =>
      cases pending with
      | ok result =>
          rintro s ⟨⟨⟨identity, hs⟩, -⟩, rfl⟩
          exact absurd (howner.symm.trans (congrArg Prod.fst hs.vars)) nofun
      | error r =>
          refine triple_bind (Q := fun _ s => CallEnd cfg op raw path (.error r) s) (triple_whenever (fun hattempted => ?_)
            (fun hattempted s hs => ?_)) (fun _ => triple_pure (fun _ hs => hs))
          · rintro s ⟨⟨p, hinv, -, -, hsilent⟩, rfl⟩
            exact ⟨p, hinv, hsilent, .inr (.inr rfl)⟩
          · obtain ⟨⟨p, hinv, -, hsent, hsilent⟩, rfl⟩ := hs
            exact ⟨p, hinv, hsilent, .inr (.inl (hsent (Bool.not_eq_true _ ▸ hattempted)))⟩

/-- What goes out of a call that did not come to its file. -/
def CallRaised (cfg : Config γ) (op : Operation) (raw : Bytes) (path : Text) (e : Option Raised) (s : Site γ) : Prop :=
  ∃ r, e = some r ∧ CallEnd cfg op raw path (.error r) s

theorem callRaised_start {r : Raised} {s : Site γ} (h : Inv raw .start s.guest s.inFlight) :
    CallRaised cfg op raw path (some r) s :=
  ⟨r, rfl, .start, h, fun _ => rfl, .inr (.inl rfl)⟩

/-- The operation that is noted in an error changes nothing of what it says. -/
theorem triple_settled (arguments : List (Text × Json)) (pending : Except Raised (List (Text × Json))) :
    Triple id (CallEnd cfg op raw path pending) (settled op arguments pending)
      (fun result s => CallEnd cfg op raw path (.ok result) s) (CallRaised cfg op raw path) := by
  cases pending with
  | ok result => exact triple_pure (fun _ hs => hs)
  | error r =>
      cases r with
      | other name => exact triple_raise (fun s hs => ⟨_, rfl, hs⟩)
      | adapter e =>
          unfold settled
          dsimp only
          split
          · exact triple_raise (fun s hs => ⟨_, rfl, hs⟩)
          · refine triple_raise (fun s hs => ⟨_, rfl, ?_⟩)
            obtain ⟨p, hinv, -, hleft⟩ := hs
            exact ⟨p, hinv, False.elim, hleft⟩
          · exact triple_raise (fun s hs => ⟨_, rfl, hs⟩)

end Parts

/-! ## The whole call -/

section Call

variable {γ : Type} (cfg : Config γ) (op : Operation) (nonce : Text) (arguments : List (Text × Json))

/-- The request, as bytes. -/
def rawOf : Bytes := (dumps (requestOf op arguments)).getD []

/-- The path of the request file. -/
def pathOf : Text :=
  match requestsPath cfg.deployment.guestWorkRoot nonce with
  | .ok path => path
  | .error _ => []

theorem triple_call :
    Triple id (fun s => Inv (rawOf op arguments) .start s.guest s.inFlight) (call cfg op nonce arguments)
      (fun result s => CallEnd cfg op (rawOf op arguments) (pathOf cfg nonce) (.ok result) s)
      (CallRaised cfg op (rawOf op arguments) (pathOf cfg nonce)) := by
  refine triple_check (fun s hs => callRaised_start hs) (fun _ => ?_)
  refine triple_bind (Q := fun _ s => Inv (rawOf op arguments) .start s.guest s.inFlight) ?_ (fun _ => ?_)
  · refine triple_read (fun s => triple_pre (P := fun s => Inv (rawOf op arguments) .start s.guest s.inFlight) ?_
      (fun _ hs => hs.1))
    refine triple_whenever (fun _ => ?_) (fun _ _ hs => hs)
    split
    · exact triple_ite (fun _ => triple_raise (fun s hs => callRaised_start hs)) (fun _ => triple_pure (fun _ hs => hs))
    · exact triple_raise (fun s hs => callRaised_start hs)
  · have hraw : rawOf op arguments = (dumps (requestOf op arguments)).getD [] := rfl
    cases hdumps : dumps (requestOf op arguments) with
    | none => exact triple_raise (fun s hs => callRaised_start hs)
    | some raw =>
        rw [hdumps] at hraw
        rw [show raw = rawOf op arguments from hraw.symm]
        refine triple_check (fun s hs => callRaised_start hs) (fun _ => ?_)
        have hpath : pathOf cfg nonce = match requestsPath cfg.deployment.guestWorkRoot nonce with
          | .ok path => path
          | .error _ => [] := rfl
        cases hrequests : requestsPath cfg.deployment.guestWorkRoot nonce with
        | error code => exact triple_raise (fun s hs => callRaised_start hs)
        | ok path =>
            rw [hrequests] at hpath
            rw [show path = pathOf cfg nonce from hpath.symm]
            refine triple_bind (Q := fun _ => At (rawOf op arguments) .start (none, false, false) []) ?_ (fun _ => ?_)
            · intro s hs
              refine ⟨?_, rfl⟩
              show Inv _ _ s.guest (s.inFlight ++ [])
              rwa [List.append_nil]
            · refine triple_bind (Q := fun pending => BlockEnd cfg op (rawOf op arguments) pending) ?_ (fun pending => ?_)
              · refine triple_handle (H := fun e => Ended op (rawOf op arguments) e) ?_ (fun e => triple_pure (fun _ hs => hs))
                refine triple_bind (triple_conseq triple_exchange (fun _ hs => hs) (fun _ _ hs => hs) ?_)
                  (fun result => triple_pure (fun _ hs => hs))
                rintro e s ⟨r, rfl, hs⟩
                exact hs
              · refine triple_bind (triple_conseq (triple_finishCall pending) (fun _ hs => hs) (fun _ _ hs => hs)
                  (fun _ _ hs => hs.elim)) (fun ended => triple_settled arguments ended)

end Call

/-! ## Safety -/

/-- The guest before a call: the path names nothing, or what others put there. -/
def Guest.start {γ : Type} (service : γ) (existing : Option RequestNode) : Guest γ where
  node := existing
  others := existing
  used := (existing.map RequestNode.identity).toList
  created := []
  service := service
  runs := []

/-- What holds when a call has ended, and after whatever happens later to its commands
    that are still in flight. -/
structure CallSafe {γ : Type} (cfg : Config γ) (op : Operation) (raw : Bytes) (path : Text)
    (o : Outcome Raised (List (Text × Json))) (s : Site γ) : Prop where
  once : ∀ later, (s.happenAll cfg later).guest.runs = [] ∨ (s.happenAll cfg later).guest.runs = [raw]
  untouched : ∀ later node, (s.happenAll cfg later).guest.others = some node →
    (s.happenAll cfg later).guest.node = some node
  delivered : ∀ result, o = .done result → Told cfg raw result ∧ ∀ later,
    (s.happenAll cfg later).guest.runs = [raw] ∧
    ∀ node, (s.happenAll cfg later).guest.node = some node → node.identity ∉ (s.happenAll cfg later).guest.created
  silent : ∀ r, o = .raised r → Silent op r → ∀ later, (s.happenAll cfg later).guest.runs = []
  noted : ∀ later node, (s.happenAll cfg later).guest.node = some node →
    node.identity ∈ (s.happenAll cfg later).guest.created → s.pendingControlPath = some path ∧ node.bytes <+: raw

section Safety

variable {γ : Type} {cfg : Config γ} {op : Operation} {raw : Bytes} {path : Text} {p : Progress} {g : Guest γ}
  {pending : List Command} {s : Site γ}

theorem Inv.later (h : Inv raw p s.guest s.inFlight) (later : List Happening) :
    Inv raw p (s.happenAll cfg later).guest (s.happenAll cfg later).inFlight := by
  rw [← List.append_nil s.inFlight] at h
  have hlater : Inv raw p (s.happenAll cfg later).guest ((s.happenAll cfg later).inFlight ++ []) := h.happenAll later
  rwa [List.append_nil] at hlater

theorem Inv.runs_nil (h : Inv raw p g pending) (hinvoked : p.invoked = false) : g.runs = [] := by
  have hbound := h.invokes
  rw [hinvoked, if_neg nofun] at hbound
  exact List.length_eq_zero_iff.mp (by omega)

theorem Inv.once (h : Inv raw p g pending) : g.runs = [] ∨ g.runs = [raw] := by
  have hbound : g.runs.length ≤ 1 := by
    have hbound := h.invokes
    split at hbound
    · omega
    · omega
  cases hruns : g.runs with
  | nil => exact .inl rfl
  | cons bytes rest =>
      rw [hruns, List.length_cons] at hbound
      rw [List.length_eq_zero_iff.mp (show rest.length = 0 by omega), h.ran bytes (by rw [hruns]; exact List.mem_cons_self)]
      exact .inr rfl

theorem Inv.ranOnce (h : Inv raw p g pending) (hanswered : p.answered = true) : g.runs = [raw] :=
  h.once.resolve_left (h.answered hanswered)

/-- A file that was deleted, or never made, is not there. -/
theorem Inv.absent (h : Inv raw p g pending) (hleft : p.gone = true ∨ p.sent = false) {node : RequestNode}
    (hnode : g.node = some node) : node.identity ∉ g.created := by
  rcases hleft with hgone | hsent
  · exact h.gone hgone node hnode
  · have hbound := h.creates
    rw [hsent, if_neg nofun] at hbound
    rw [List.length_eq_zero_iff.mp (show g.created.length = 0 by omega)]
    exact List.not_mem_nil

theorem start_inv (service : γ) (existing : Option RequestNode) : Inv raw .start (Guest.start service existing) [] where
  standing _ hnode := hnode
  foreign _ _ := List.not_mem_nil
  used _ hmem := absurd hmem List.not_mem_nil
  content _ _ hmem := absurd hmem List.not_mem_nil
  whole := nofun
  gone := nofun
  valid _ hmem := absurd hmem List.not_mem_nil
  creates := Nat.le_refl 0
  invokes := Nat.le_refl 0
  ran _ hmem := absurd hmem List.not_mem_nil
  answered := nofun
  owner := nofun
  ordered := ⟨fun h => h.elim nofun nofun, nofun⟩

theorem callSafe_of_endsIn {o : Outcome Raised (List (Text × Json))}
    (h : endsIn (fun result s => CallEnd cfg op raw path (.ok result) s) (CallRaised cfg op raw path) o s) :
    CallSafe cfg op raw path o s := by
  cases o with
  | done result =>
      obtain ⟨⟨p, hinv, hgone, hanswered⟩, htold⟩ := h
      exact {
        once := fun later => (hinv.later later).once
        untouched := fun later => (hinv.later later).standing
        delivered := by
          rintro result ⟨⟩
          exact ⟨htold, fun later => ⟨(hinv.later later).ranOnce hanswered, fun node hnode =>
            (hinv.later later).absent (.inl hgone) hnode⟩⟩
        silent := nofun
        noted := fun later node hnode hmem => absurd hmem ((hinv.later later).absent (.inl hgone) hnode) }
  | raised r =>
      obtain ⟨_, ⟨⟩, p, hinv, hsilent, hleft⟩ := h
      exact {
        once := fun later => (hinv.later later).once
        untouched := fun later => (hinv.later later).standing
        delivered := nofun
        silent := by
          rintro r ⟨⟩ hr later
          exact (hinv.later later).runs_nil (hsilent hr)
        noted := by
          intro later node hnode hmem
          refine ⟨?_, (hinv.later later).content node hnode hmem⟩
          rcases hleft with hgone | hsent | hpending
          · exact absurd hmem ((hinv.later later).absent (.inl hgone) hnode)
          · exact absurd hmem ((hinv.later later).absent (.inr hsent) hnode)
          · exact hpending }
  | crashed =>
      obtain ⟨r, hr, -⟩ := h
      exact absurd hr nofun

end Safety

end ControlChannel
