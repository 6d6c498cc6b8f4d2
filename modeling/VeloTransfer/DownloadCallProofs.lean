import VeloTransfer.DownloadRunProofs

/-! # Downloading a file of a flow — the call and its second attempt

    A failed attempt is followed by a second one where the client of the first is gone.
    Behind a link that must not happen: the second attempt finds the destination taken,
    and its error would hide what was published.

    * `Steady` — what is asked of the outside behind a link;
    * `download_safe` — every call, with whatever fails and whoever comes in between. -/

namespace DownloadFile

open CanonicalJson EffectPrograms EffectPrograms.Program
open McpCore FlowFiles
open Sha256 (hexdigest)

/-- Behind a link, the observation refuses neither the end of an attempt nor the answer
    of the probe, and the probe does not say that the client is gone. -/
structure Steady {ρ : Type} (refuse : Scope → Fact → Option Raised) (backend : DownloadBackend ρ) : Prop where
  ended : ∀ scope n client, refuse scope (.operationEnd n client .returned) = none
  answered : ∀ scope n client, refuse scope (.existence n client true) = none
  present : ∀ client s, (here s).published = true → Open s.scope →
    endsIn (fun answer s' => answer = true ∧ Open s'.scope)
      (fun e _ => ∃ f, e = some f ∧ isException f = true)
      (backend.flow.target.clientIdExists client s).1 (backend.flow.target.clientIdExists client s).2

/-- An observation that refuses nothing, and clients that stay. -/
theorem Steady.ofPresent {ρ : Type} {refuse : Scope → Fact → Option Raised} {backend : DownloadBackend ρ}
    (hrefuse : ∀ scope fact, refuse scope fact = none)
    (hprobe : ∀ client, backend.flow.target.clientIdExists client = pure true) : Steady refuse backend where
  ended _ _ _ := hrefuse _ _
  answered _ _ _ := hrefuse _ _
  present client s _ hopen := by
    rw [hprobe client]
    exact ⟨rfl, hopen⟩

section Call

variable {ρ : Type} {S : Prop} {py : Python} {flow fileId : Text} {start : List (Origin × Node)}
  {refuse : Scope → Fact → Option Raised} {backend : DownloadBackend ρ}

/-- Nothing of this call is published yet, as far as `S` goes. -/
def Begun (S : Prop) (py : Python) (flow fileId : Text) (start : List (Origin × Node)) (s : Shared (Site ρ)) : Prop :=
  Sound S py flow fileId start (here s) ∧ (S → (here s).published = false)

theorem keeps_of_apart {α : Type} {m : Effect ρ α} (hm : Fixes here m) : Keeps (Begun S py flow fileId start) m := by
  intro s hs
  unfold Begun
  rw [show here (m s).2 = here s from hm s]
  exact hs

/-- What a fact does to an observation that takes facts. -/
theorem emitFact_cases (refuse : Scope → Fact → Option Raised) (fact : Fact) {s : Shared (Site ρ)} (hopen : Open s.scope) :
    (∃ s', emitFact refuse fact s = (.done (), s') ∧ here s' = here s ∧ Open s'.scope) ∨
      ∃ e s' scope, emitFact refuse fact s = (.raised e, s') ∧ here s' = here s ∧ refuse scope fact = some e ∧
        ∃ scope', s'.scope = some scope' ∧ scope'.isFailed = true := by
  unfold emitFact
  cases hscope : s.scope with
  | none => exact .inl ⟨s, rfl, rfl, hscope ▸ trivial⟩
  | some scope =>
      rw [hscope] at hopen
      obtain ⟨hsealed, hfailed⟩ := hopen
      dsimp only
      rw [if_neg (by rw [hsealed]; exact Bool.false_ne_true)]
      cases hrefuse : refuse scope fact with
      | some e => exact .inr ⟨e, _, scope, rfl, rfl, hrefuse, _, rfl, rfl⟩
      | none =>
          dsimp only
          rw [if_neg (by rw [hfailed]; exact Bool.false_ne_true)]
          exact .inl ⟨_, rfl, rfl, hsealed, hfailed⟩

/-- What a program of the tool says of what it reaches, its call says of the world. -/
theorem triple_called {α : Type} {m : Effect ρ α} {P : Shared (Site ρ) → Prop} {Q : α → Shared (Site ρ) → Prop}
    {K : Option Raised → Shared (Site ρ) → Prop} (hm : Triple id P m Q K) (event : Outcome Raised α → Event) :
    Triple id (fun w => P w.shared) (call m event) (fun a w => Q a w.shared) (fun e w => K e w.shared) := by
  intro w hw
  have hrun := hm w.shared hw
  show endsIn _ _ (m w.shared).1 (call m event w).2
  revert hrun
  show endsIn Q K (m w.shared).1 (m w.shared).2 → _
  cases (m w.shared).1 with
  | done a => exact id
  | raised e => exact id
  | crashed => exact id

/-- Where an attempt ends early, or its end is refused. -/
def Ended (S : Prop) (py : Python) (flow fileId : Text) (start : List (Origin × Node)) (e : Option Raised)
    (w : World (Site ρ)) : Prop :=
  Sound S py flow fileId start (here w.shared) ∧ (S → (here w.shared).published = true →
    e = some POST_PUBLISH ∧ (Open w.shared.scope ∨ observationFailed w = true))

theorem Begun.ended {w : World (Site ρ)} (h : Begun S py flow fileId start w.shared) (e : Option Raised) :
    Ended S py flow fileId start e w :=
  ⟨h.1, fun hS hpublished => absurd (hpublished.symm.trans (h.2 hS)) nofun⟩

/-- A fact about what happened before it leaves the directory alone. -/
theorem Ended.emitted (refuse : Scope → Fact → Option Raised) (fact : Fact) {e : Raised} {w : World (Site ρ)}
    (h : Failed S py flow fileId start (some e) w.shared) :
    Ended S py flow fileId start (some e) { w with shared := (emitFact refuse fact w.shared).2 } := by
  have hhere : here (emitFact refuse fact w.shared).2 = here w.shared := apart_emitFact fact w.shared
  refine ⟨hhere ▸ h.1, fun hS hpublished => ?_⟩
  obtain ⟨he, hopen⟩ := h.2 hS (hhere ▸ hpublished)
  refine ⟨he, ?_⟩
  rcases emitFact_cases refuse fact hopen with
    ⟨s', hrun, -, hopen'⟩ | ⟨_, s', _, hrun, -, -, scope, hscope, hfailed⟩
  · refine .inl ?_
    rw [hrun]
    exact hopen'
  · refine .inr ?_
    unfold observationFailed
    rw [hrun]
    dsimp only
    rw [hscope]
    exact hfailed

theorem emitFact_live (refuse : Scope → Fact → Option Raised) (fact : Fact) (s : Shared (Site ρ)) : (emitFact refuse fact s).1 ≠ .crashed := by
  unfold emitFact
  split
  · exact nofun
  · split
    · exact nofun
    · split
      · exact nofun
      · split
        · exact nofun
        · exact nofun

/-- The error of an attempt comes before that of its end fact. -/
theorem triple_endRaised (fact : Fact) (e : Raised) :
    Triple id (fun w : World (Site ρ) => Failed S py flow fileId start (some e) w.shared)
      (handle (emitTargetFact refuse fact) (fun _ => pure ()))
      (fun _ w => Ended S py flow fileId start (some e) w) (Ended S py flow fileId start) := by
  intro w hw
  have hended := Ended.emitted refuse fact hw
  have hlive := emitFact_live refuse fact w.shared
  show endsIn _ _ (handle (emitTargetFact refuse fact) (fun _ => pure ()) w).1 _
  unfold handle emitTargetFact
  revert hended hlive
  cases (emitFact refuse fact w.shared).1 with
  | done a => exact fun hended _ => hended
  | raised f => exact fun hended _ => hended
  | crashed => exact fun _ hlive => absurd rfl hlive

variable (hsteady : S → Steady refuse backend)
include hsteady

/-- The end fact of an attempt that returned. -/
theorem triple_endReturned (n : Nat) (client : ClientId) (result : DownloadResult) :
    Triple id (fun w : World (Site ρ) => Delivered S py flow fileId start result w.shared)
      (emitTargetFact refuse (.operationEnd n client .returned))
      (fun _ w => Delivered S py flow fileId start result w.shared) (Ended S py flow fileId start) := by
  rintro w ⟨bytes, hlinked, hresult⟩
  show endsIn _ _ (emitFact refuse _ w.shared).1 { w with shared := (emitFact refuse _ w.shared).2 }
  rcases emitFact_cases refuse (.operationEnd n client .returned)
      (s := w.shared) hlinked.scope with
    ⟨s', hrun, hhere, hopen⟩ | ⟨e, s', scope, hrun, hhere, hrefuse, -⟩
  · rw [hrun]
    exact ⟨bytes, ⟨hhere ▸ hlinked.sound, hhere ▸ hlinked.linked, hhere ▸ hlinked.ours, hopen⟩, hresult⟩
  · rw [hrun]
    refine ⟨hhere ▸ hlinked.sound, fun hS => ?_⟩
    exact absurd (((hsteady hS).ended scope n client).symm.trans hrefuse) nofun

theorem triple_operationOf (fuel : Nat) (root : Text) (n : Nat) (client : ClientId) :
    Triple id (fun w => Begun S py flow fileId start w.shared)
      (operationOf refuse (attempt py refuse backend fuel root flow fileId) n client)
      (fun result w => Delivered S py flow fileId start result w.shared) (Ended S py flow fileId start) := by
  have hbegun : Keeps (Reached (Begun (ρ := ρ) S py flow fileId start)) (emitTargetFact refuse (.operationBegin n client)) :=
    keeps_emitTarget (fun fact => keeps_of_apart (apart_emitFact fact)) _
  refine triple_bind (triple_conseq hbegun.triple (fun _ hw => hw) (fun _ _ hw => hw) (fun e w hw => hw.ended e))
    (fun _ => ?_)
  refine triple_bind (Q := fun result w => Delivered S py flow fileId start result w.shared) ?_ (fun result => ?_)
  · refine triple_handle (H := fun e w => Failed S py flow fileId start (some e) w.shared) ?_ (fun e => ?_)
    · intro w hw
      have hattempt : Triple id (Before S py flow fileId start (here w.shared).linked)
          (attempt py refuse backend fuel root flow fileId client) (Delivered S py flow fileId start)
          (Failed S py flow fileId start) := triple_attempt fuel root client (here w.shared).linked
      refine triple_conseq (triple_called hattempt _) (fun _ hw => hw) (fun _ _ hw => hw) ?_ w ⟨hw.1, rfl, hw.2⟩
      intro e w hw
      cases e with
      | none => exact ⟨hw.1, fun hS hpublished => absurd (hw.2 hS hpublished).1 nofun⟩
      | some e => exact hw
    · exact triple_bind (triple_endRaised _ e) (fun _ => triple_raise (fun _ hw => hw))
  · exact triple_bind (triple_endReturned hsteady n client result) (fun _ => triple_pure (fun _ hw => hw))

/-- What is known while an answer of the probe is taken. -/
def Probing (S : Prop) (py : Python) (flow fileId : Text) (start : List (Origin × Node)) (e : Raised) (answer : Bool)
    (w : World (Site ρ)) : Prop :=
  Sound S py flow fileId start (here w.shared) ∧ (S → (here w.shared).published = true →
    e = POST_PUBLISH ∧ answer = true ∧ Open w.shared.scope)

/-- How a call may end. -/
def Reported (S : Prop) (py : Python) (flow fileId : Text) (start : List (Origin × Node)) (e : Option Raised)
    (w : World (Site ρ)) : Prop :=
  Sound S py flow fileId start (here w.shared) ∧ (S → (here w.shared).published = true → e = some POST_PUBLISH)

omit hsteady in
theorem Begun.reported {w : World (Site ρ)} (h : Begun S py flow fileId start w.shared) (e : Option Raised) :
    Reported S py flow fileId start e w :=
  ⟨h.1, fun hS hpublished => absurd (hpublished.symm.trans (h.2 hS)) nofun⟩

omit hsteady in
theorem Ended.reported {e : Option Raised} {w : World (Site ρ)} (h : Ended S py flow fileId start e w) :
    Reported S py flow fileId start e w :=
  ⟨h.1, fun hS hpublished => (h.2 hS hpublished).1⟩

/-- The probe of a client whose attempt has published does not lose it. -/
theorem triple_probe (client : ClientId) (e : Raised) :
    Triple id (Probing S py flow fileId start e true)
      (handle (call (backend.flow.target.clientIdExists client) (.probed client))
        (fun f => if isException f then raise e else raise f))
      (fun answer w => Probing S py flow fileId start e answer w) (Reported S py flow fileId start) := by
  -- behind a link the probe fails only with what is caught, and the first error stands
  refine triple_handle (H := fun f w => Sound S py flow fileId start (here w.shared) ∧
    (S → (here w.shared).published = true → e = POST_PUBLISH ∧ isException f = true)) ?_ (fun f => ?_)
  · intro w hw
    have hhere : here (backend.flow.target.clientIdExists client w.shared).2 = here w.shared :=
      backend.apart_exists client w.shared
    have hsound : Sound S py flow fileId start (here (backend.flow.target.clientIdExists client w.shared).2) :=
      hhere ▸ hw.1
    have hprobe := fun hS hpublished => (hsteady hS).present client w.shared hpublished (hw.2 hS hpublished).2.2
    have herror := fun hS hpublished => (hw.2 hS hpublished).1
    show endsIn _ _ (backend.flow.target.clientIdExists client w.shared).1
      (call (backend.flow.target.clientIdExists client) (.probed client) w).2
    revert hprobe
    cases (backend.flow.target.clientIdExists client w.shared).1 with
    | done answer =>
        intro hprobe
        refine ⟨hsound, fun hS hpublished => ?_⟩
        have hbefore : (here w.shared).published = true := hhere ▸ hpublished
        exact ⟨herror hS hbefore, hprobe hS hbefore⟩
    | raised f =>
        intro hprobe
        refine ⟨hsound, fun hS hpublished => ?_⟩
        have hbefore : (here w.shared).published = true := hhere ▸ hpublished
        obtain ⟨f', hf', hcaught⟩ := hprobe hS hbefore
        exact ⟨herror hS hbefore, Option.some.inj hf' ▸ hcaught⟩
    | crashed =>
        intro hprobe
        refine ⟨hsound, fun hS hpublished => ?_⟩
        obtain ⟨f', hf', -⟩ := hprobe hS (hhere ▸ hpublished)
        exact absurd hf' nofun
  · refine triple_ite (fun _ => ?_) (fun hf => ?_)
    · exact triple_raise (fun w hw => ⟨hw.1, fun hS hpublished => congrArg some (hw.2 hS hpublished).1⟩)
    · exact triple_raise (fun w hw => ⟨hw.1, fun hS hpublished => absurd (hw.2 hS hpublished).2 hf⟩)

/-- The answer that the client is there is not refused, and any other comes before a link. -/
theorem triple_emitExistence (n : Nat) (client : ClientId) (e : Raised) (answer : Bool) :
    Triple id (Probing (ρ := ρ) S py flow fileId start e answer) (emitExistence refuse n client answer)
      (fun _ => Probing S py flow fileId start e answer) (Reported S py flow fileId start) := by
  refine triple_handle (H := fun _ w => Sound S py flow fileId start (here w.shared) ∧
    (S → (here w.shared).published = true → False)) ?_ (fun f => ?_)
  · intro w hw
    have hhere : here (emitFact refuse (.existence n client answer) w.shared).2 = here w.shared := apart_emitFact _ _
    have hsound : Sound S py flow fileId start (here (emitFact refuse (.existence n client answer) w.shared).2) :=
      hhere ▸ hw.1
    have htaken : S → (here w.shared).published = true →
        (emitFact refuse (.existence n client answer) w.shared).1 = .done () ∧
          Open (emitFact refuse (.existence n client answer) w.shared).2.scope := by
      intro hS hpublished
      obtain ⟨-, hanswer, hopen⟩ := hw.2 hS hpublished
      rcases emitFact_cases refuse (.existence n client answer)
        (s := w.shared) hopen with
        ⟨s', hrun, -, hopen'⟩ | ⟨f, s', scope, hrun, -, hrefuse, -⟩
      · rw [hrun]
        exact ⟨rfl, hopen'⟩
      · rw [hanswer] at hrefuse
        exact absurd (((hsteady hS).answered scope n client).symm.trans hrefuse) nofun
    show endsIn _ _ (emitFact refuse (.existence n client answer) w.shared).1
      { w with shared := (emitFact refuse (.existence n client answer) w.shared).2 }
    revert htaken
    cases (emitFact refuse (.existence n client answer) w.shared).1 with
    | done _ =>
        intro htaken
        refine ⟨hsound, fun hS hpublished => ?_⟩
        have hbefore : (here w.shared).published = true := hhere ▸ hpublished
        obtain ⟨herror, hanswer, -⟩ := hw.2 hS hbefore
        exact ⟨herror, hanswer, (htaken hS hbefore).2⟩
    | raised f =>
        intro htaken
        exact ⟨hsound, fun hS hpublished => absurd (htaken hS (hhere ▸ hpublished)).1 nofun⟩
    | crashed =>
        intro htaken
        exact ⟨hsound, fun hS hpublished => absurd (htaken hS (hhere ▸ hpublished)).1 nofun⟩
  · intro w hw
    exact ⟨hw.1, fun hS hpublished => (hw.2 hS hpublished).elim⟩

/-- Where a second attempt follows, nothing is published yet. -/
theorem triple_afterError (n : Nat) (client : ClientId) (e : Raised) :
    Triple id (Ended S py flow fileId start (some e)) (afterError refuse backend.flow.target n client e)
      (fun _ w => Begun S py flow fileId start w.shared) (Reported S py flow fileId start) := by
  refine triple_read (fun w => triple_ite (fun _ => triple_raise (fun w hw => hw.1.reported)) (fun hprobed => ?_))
  refine triple_pre (P := Probing S py flow fileId start e true) ?_ (fun w' hw => ?_)
  · refine triple_bind (triple_probe hsteady client e) (fun answer => ?_)
    refine triple_bind (triple_emitExistence hsteady n client e answer) (fun _ => ?_)
    refine triple_ite (fun _ => triple_raise (fun w hw => ?_)) (fun hanswer => triple_pure (fun w hw => ?_))
    · exact ⟨hw.1, fun hS hpublished => congrArg some (hw.2 hS hpublished).1⟩
    · refine ⟨hw.1, fun hS => Bool.not_eq_true _ ▸ fun hpublished => ?_⟩
      exact absurd (hw.2 hS hpublished).2.1 hanswer
  · obtain ⟨hended, rfl⟩ := hw
    refine ⟨hended.1, fun hS hpublished => ?_⟩
    obtain ⟨he, hopen | hfailed⟩ := hended.2 hS hpublished
    · exact ⟨Option.some.inj he, rfl, hopen⟩
    · exact absurd (by rw [isUntouched, show observationFailed w' = true from hfailed]; rfl) hprobed

/-- One attempt of the call. -/
theorem triple_attemptOn (fuel : Nat) (root : Text) (n : Nat) (client : ClientId) :
    Triple id (fun w => Begun S py flow fileId start w.shared)
      (attemptOn refuse backend.flow.target (attempt py refuse backend fuel root flow fileId) n client)
      (fun o w => match o with
        | some result => Delivered S py flow fileId start result w.shared
        | none => Begun S py flow fileId start w.shared) (Reported S py flow fileId start) := by
  refine triple_handle (H := fun e => Ended S py flow fileId start (some e)) ?_ (fun e => ?_)
  · refine triple_bind (triple_conseq (triple_operationOf hsteady fuel root n client) (fun _ hw => hw)
      (fun _ _ hw => hw) (fun e w hw => ?_)) (fun result => triple_pure (fun _ hw => hw))
    cases e with
    | none => exact hw.reported
    | some e => exact hw
  · refine triple_ite (fun _ => ?_) (fun _ => triple_raise (fun w hw => hw.reported))
    exact triple_bind (triple_afterError hsteady n client e) (fun _ => triple_pure (fun _ hw => hw))

omit hsteady in
theorem triple_begun {α : Type} {m : Program (World (Site ρ)) Raised α}
    (hm : Keeps (Reached (Begun S py flow fileId start)) m) :
    Triple id (Reached (Begun S py flow fileId start)) m (fun _ => Reached (Begun S py flow fileId start))
      (Reported S py flow fileId start) :=
  triple_conseq hm.triple (fun _ hw => hw) (fun _ _ hw => hw) (fun e _ hw => hw.reported e)

/-- The call on its client, and on the one that takes its place. -/
theorem triple_runWithClient (fuel : Nat) (root : Text) :
    Triple id (Reached (Begun S py flow fileId start))
      (runWithClient refuse backend.flow.target (attempt py refuse backend fuel root flow fileId))
      (fun result w => Delivered S py flow fileId start result w.shared) (Reported S py flow fileId start) := by
  have hemit : ∀ fact, Keeps (Begun S py flow fileId start) (emitFact (σ := Site ρ) refuse fact) :=
    fun fact => keeps_of_apart (apart_emitFact fact)
  have hresolve := keeps_resolve hemit (keeps_of_apart backend.apart_list)
  refine triple_bind (triple_begun hresolve) (fun client => ?_)
  refine triple_bind (triple_attemptOn hsteady fuel root 1 client) (fun first => ?_)
  cases first with
  | some result => exact triple_pure (fun _ hw => hw)
  | none =>
      have hclear : Keeps (Reached (Begun (ρ := ρ) S py flow fileId start)) (clear refuse) := by
        refine keeps_bind keeps_read (fun w => keeps_bind (keeps_update (fun _ hw => hw)) (fun _ => ?_))
        exact keeps_bind (keeps_update (fun _ hw => hw)) (fun _ => keeps_emitTarget hemit _)
      refine triple_bind (triple_begun hclear) (fun _ => ?_)
      refine triple_bind (triple_begun (keeps_handle hresolve (fun e => keeps_ite (keeps_raise _) (keeps_raise _))))
        (fun replacement => ?_)
      refine triple_bind (triple_attemptOn hsteady fuel root 2 replacement) (fun second => ?_)
      cases second with
      | some result => exact triple_pure (fun _ hw => hw)
      | none => exact triple_raise (fun w hw => hw.reported _)

end Call

/-! ## The call -/

section Safety

variable {ρ : Type} {S : Prop} {py : Python} {flow fileId : Text} {start : List (Origin × Node)}
  {refuse : Scope → Fact → Option Raised} {backend : DownloadBackend ρ}

theorem begun_phase : Phase (ρ := ρ) (Begun S py flow fileId start) (fun _ => Begun S py flow fileId start) where
  moved _ _ hs hmoved := ⟨hs.1.moved hmoved.here, fun hS => hmoved.here.published.trans (hs.2 hS)⟩
  fault _ _ _ _ _ hs hmoved _ _ := ⟨hs.1.moved hmoved.here, fun hS => hmoved.here.published.trans (hs.2 hS)⟩
  own _ _ hs _ := hs

/-- The root is looked at before any attempt. -/
theorem triple_downloadRoot (root : RootValue) :
    Triple id (Begun (ρ := ρ) S py flow fileId start) (downloadRoot root) (fun _ => Begun S py flow fileId start)
      (fun _ => Begun S py flow fileId start) := by
  have hphase : Phase (ρ := ρ) (Begun S py flow fileId start) (fun _ => Begun S py flow fileId start) := begun_phase
  unfold downloadRoot
  split
  · exact triple_raise (fun _ hs => hs)
  · exact triple_raise (fun _ hs => hs)
  · refine triple_check (fun _ hs => hs) (fun _ => triple_bind hphase.observe (fun there => ?_))
    refine triple_check (fun _ hs => hs) (fun _ => triple_bind (Q := fun _ => Begun S py flow fileId start) ?_ (fun _ => ?_))
    · refine triple_each (fun _ => ?_) _
      exact triple_bind hphase.observe (fun missing => triple_whenever (fun _ => hphase.assertPlainPath) (fun _ _ hs => hs))
    · exact triple_bind hphase.observe (fun _ => triple_pure (fun _ hs => hs))

theorem triple_onShared {α : Type} {m : Effect ρ α} {P : Shared (Site ρ) → Prop} {Q : α → Shared (Site ρ) → Prop}
    {K : Option Raised → Shared (Site ρ) → Prop} (hm : Triple id P m Q K) :
    Triple id (fun w => P w.shared) (onShared m) (fun a w => Q a w.shared) (fun e w => K e w.shared) := by
  intro w hw
  have hrun := hm w.shared hw
  show endsIn _ _ (m w.shared).1 (onShared m w).2
  revert hrun
  show endsIn Q K (m w.shared).1 (m w.shared).2 → _
  cases (m w.shared).1 with
  | done a => exact id
  | raised e => exact id
  | crashed => exact id

/-- The whole call, from a destination that nothing of this call is at. -/
theorem triple_downloadFlowFile (hsteady : S → Steady refuse backend) (fuel : Nat) (root : RootValue) :
    Triple id (Reached (Begun S py flow fileId start)) (downloadFlowFile py refuse backend fuel root flow fileId)
      (fun result w => Delivered S py flow fileId start result w.shared) (Reported S py flow fileId start) := by
  have hpure : ∀ r : Except Raised Text, Triple id (Reached (Begun (ρ := ρ) S py flow fileId start)) (ofExcept r)
      (fun _ => Reached (Begun S py flow fileId start)) (Reported S py flow fileId start) := by
    intro r
    cases r with
    | ok a => exact triple_pure (fun _ hw => hw)
    | error e => exact triple_raise (fun _ hw => hw.reported _)
  refine triple_bind (hpure _) (fun _ => triple_bind (hpure _) (fun _ => ?_))
  refine triple_check (fun _ hw => hw.reported _) (fun _ => triple_bind (Q := fun _ => Reached (Begun S py flow fileId start)) ?_
    (fun resolved => ?_))
  · have hroot : Triple id (Begun (ρ := ρ) S py flow fileId start)
        (backendCall "download_flow_file" (downloadRoot root)) (fun _ => Begun S py flow fileId start)
        (fun _ => Begun S py flow fileId start) :=
      triple_recover (triple_downloadRoot root) (fun _ hs => hs) (fun e => triple_raise (fun _ hs => hs))
    exact triple_conseq (triple_onShared hroot) (fun _ hw => hw) (fun _ _ hw => hw) (fun e _ hw => hw.reported e)
  · exact triple_runWithClient hsteady fuel resolved

end Safety

/-- A destination at the start of a call, with what the outside is going to do. -/
def Local.start (existing : Option Node) (before after : List FileEvent) : Local where
  final := existing.map ((.others, ·))
  temp := none
  linked := false
  tempIdentity := none
  cleanupAttempted := false
  appeared := (existing.map ((.others, ·))).toList
  answers := []
  before := before
  after := after

/-- What a call may do to its destination, and how it may end. -/
structure Safe {ρ : Type} (py : Python) (refuse : Scope → Fact → Option Raised) (backend : DownloadBackend ρ)
    (flow fileId : Text) (existing : Option Node) (after : List FileEvent) (o : Outcome Raised DownloadResult)
    (v : Local) : Prop where
  kept : ∀ node, existing = some node → v.final = some (.others, node) ∧ v.published = false
  once : v.appeared.length ≤ 1
  final : v.final = v.appeared.head?
  verified : ∀ node, v.final = some (.ours, node) → Verified py flow fileId v.answers node.bytes
  delivered : ∀ result, o = .done result →
    ∃ node, v.final = some (.ours, node) ∧ result.size = node.bytes.length ∧ result.sha256 = hexdigest node.bytes
  reported : Steady refuse backend → (∀ event ∈ after, event.Tame) → v.published = true →
    (∃ result, o = .done result) ∨ o = .raised POST_PUBLISH

section Start

variable {S : Prop} {py : Python} {flow fileId : Text} {v : Local}

theorem start_sound (existing : Option Node) (before after : List FileEvent) (htame : S → ∀ event ∈ after, event.Tame) :
    Sound S py flow fileId (existing.map ((Origin.others, ·))).toList (.start existing before after) where
  grows := List.prefix_refl _
  once := by
    cases existing with
    | none => exact Nat.zero_le 1
    | some node => exact Nat.le_refl 1
  final := by
    cases existing with
    | none => rfl
    | some node => rfl
  verified := by
    intro node hnode
    cases existing with
    | none => exact absurd hnode List.not_mem_nil
    | some found => exact absurd (List.mem_singleton.mp hnode) nofun
  tame := htame

theorem start_unpublished (existing : Option Node) (before after : List FileEvent) :
    (Local.start existing before after).published = false := by
  cases existing with
  | none => rfl
  | some node => rfl

/-- What was there at the start is all that ever is. -/
theorem Sound.existing {node : Node} (h : Sound S py flow fileId [(.others, node)] v) :
    v.final = some (.others, node) ∧ v.published = false := by
  have happeared : v.appeared = [(.others, node)] := (h.grows.eq_of_length_le h.once).symm
  rw [h.final]
  unfold Local.published
  rw [happeared]
  exact ⟨rfl, rfl⟩

/-- What `Sound` says of a call from its start. -/
theorem Sound.safe {ρ : Type} {refuse : Scope → Fact → Option Raised} {backend : DownloadBackend ρ}
    {existing : Option Node} {after : List FileEvent} {o : Outcome Raised DownloadResult}
    (h : Sound S py flow fileId (existing.map ((Origin.others, ·))).toList v)
    (hdelivered : ∀ result, o = .done result →
      ∃ node, v.final = some (.ours, node) ∧ result.size = node.bytes.length ∧ result.sha256 = hexdigest node.bytes)
    (hreported : Steady refuse backend → (∀ event ∈ after, event.Tame) → v.published = true →
      (∃ result, o = .done result) ∨ o = .raised POST_PUBLISH) :
    Safe py refuse backend flow fileId existing after o v where
  kept node hnode := by
    rw [hnode] at h
    exact h.existing
  once := h.once
  final := h.final
  verified node hnode := h.verified node (List.mem_of_mem_head? (h.final.symm.trans hnode))
  delivered := hdelivered
  reported := hreported

theorem safe_of_endsIn {ρ : Type} {refuse : Scope → Fact → Option Raised} {backend : DownloadBackend ρ}
    {existing : Option Node} {after : List FileEvent} {o : Outcome Raised DownloadResult} {w : World (Site ρ)}
    (h : endsIn (fun result w => Delivered (Steady refuse backend ∧ ∀ event ∈ after, event.Tame) py flow fileId
        (existing.map ((Origin.others, ·))).toList result w.shared)
      (Reported (Steady refuse backend ∧ ∀ event ∈ after, event.Tame) py flow fileId
        (existing.map ((Origin.others, ·))).toList) o w) :
    Safe py refuse backend flow fileId existing after o (here w.shared) := by
  cases o with
  | done result =>
      obtain ⟨bytes, hlinked, hsize, hsha⟩ := h
      obtain ⟨node, hfinal, rfl⟩ := hlinked.ours
      refine hlinked.sound.safe (fun result' hresult => ?_) (fun _ _ _ => .inl ⟨result, rfl⟩)
      cases hresult
      exact ⟨node, hfinal, hsize, hsha⟩
  | raised e =>
      refine h.1.safe nofun (fun hsteady htame hpublished => .inr ?_)
      exact congrArg early (h.2 ⟨hsteady, htame⟩ hpublished)
  | crashed =>
      refine h.1.safe nofun (fun hsteady htame hpublished => ?_)
      exact absurd (h.2 ⟨hsteady, htame⟩ hpublished) nofun

end Start

/-- Where the call begins. -/
def startWorld {ρ : Type} (client : Option ClientId) (scope : Option Scope) (remote : ρ) (v : Local) :
    World (Site ρ) :=
  { clientId := client, shared := { scope := scope, outside := { remote := remote, here := v } }, history := [] }

/-- **Nothing is overwritten, nothing unverified is published, and no publication is
    hidden**, whatever fails, whatever the backend sends and whoever comes in between. -/
theorem download_safe {ρ : Type} (py : Python) (refuse : Scope → Fact → Option Raised) (backend : DownloadBackend ρ)
    (fuel : Nat) (root : RootValue) (flow fileId : Text) (client : Option ClientId) (scope : Option Scope) (remote : ρ)
    (existing : Option Node) (before after : List FileEvent) :
    Safe py refuse backend flow fileId existing after
      (downloadFlowFile py refuse backend fuel root flow fileId
        (startWorld client scope remote (.start existing before after))).1
      (here (downloadFlowFile py refuse backend fuel root flow fileId
        (startWorld client scope remote (.start existing before after))).2.shared) := by
  have hstart : Begun (Steady refuse backend ∧ ∀ event ∈ after, event.Tame) py flow fileId
      (existing.map ((Origin.others, ·))).toList
      (startWorld (ρ := ρ) client scope remote (.start existing before after)).shared :=
    ⟨start_sound existing before after And.right, fun _ => start_unpublished existing before after⟩
  exact safe_of_endsIn (triple_downloadFlowFile And.left fuel root _ hstart)

end DownloadFile
