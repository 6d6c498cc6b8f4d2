import Mathlib

/-! # Following cursors

    A list is handed out in pages: a request with a cursor is answered with a
    page, and a page names the cursor of the next one unless it is the last.

    * `Walk` — the pages that following the cursors gives, and how that ends;
    * `walk_unique` — a walk is determined by where it starts;
    * `walk_serves` — where every page is a front part of what is left, the walk
      ends, and its pages are the list, or the part of it before an error. -/

namespace CursorWalk

variable {κ π ε α : Type}

/-- What answers the requests, and where the next page is. -/
structure Source (κ π ε : Type) where
  fetch : κ → Except ε π
  next : π → Option κ

/-- The pages from a cursor on, and the error that ended the walk, if one did. -/
inductive Walk (s : Source κ π ε) : κ → List π → Option ε → Prop where
  | last {c : κ} {p : π} (h : s.fetch c = .ok p) (hnext : s.next p = none) : Walk s c [p] none
  | step {c c' : κ} {p : π} {ps : List π} {e : Option ε} (h : s.fetch c = .ok p)
      (hnext : s.next p = some c') (hrest : Walk s c' ps e) : Walk s c (p :: ps) e
  | stop {c : κ} {e : ε} (h : s.fetch c = .error e) : Walk s c [] (some e)

variable {s : Source κ π ε} {c : κ} {ps qs : List π} {e f : Option ε}

/-- **A walk is determined by its first cursor.** -/
theorem walk_unique (hp : Walk s c ps e) (hq : Walk s c qs f) : ps = qs ∧ e = f := by
  induction hp generalizing qs f with
  | last h hnext =>
      cases hq with
      | last h' _ =>
          obtain rfl := Except.ok.inj (h.symm.trans h')
          exact ⟨rfl, rfl⟩
      | step h' hnext' _ =>
          obtain rfl := Except.ok.inj (h.symm.trans h')
          exact absurd (hnext.symm.trans hnext') nofun
      | stop h' => exact absurd (h.symm.trans h') nofun
  | step h hnext _ ih =>
      cases hq with
      | last h' hnext' =>
          obtain rfl := Except.ok.inj (h.symm.trans h')
          exact absurd (hnext.symm.trans hnext') nofun
      | step h' hnext' hrest' =>
          obtain rfl := Except.ok.inj (h.symm.trans h')
          obtain rfl := Option.some.inj (hnext.symm.trans hnext')
          obtain ⟨rfl, rfl⟩ := ih hrest'
          exact ⟨rfl, rfl⟩
      | stop h' => exact absurd (h.symm.trans h') nofun
  | stop h =>
      cases hq with
      | last h' _ => exact absurd (h.symm.trans h') nofun
      | step h' _ _ => exact absurd (h.symm.trans h') nofun
      | stop h' =>
          obtain rfl := Except.error.inj (h.symm.trans h')
          exact ⟨rfl, rfl⟩

/-- A walk that meets no error has a last page, and only that one has no next. -/
theorem walk_last (h : Walk s c ps none) :
    ∃ front final, ps = front ++ [final] ∧ (∀ p ∈ front, s.next p ≠ none) ∧ s.next final = none := by
  generalize hend : (none : Option ε) = e at h
  induction h with
  | last _ hnext => exact ⟨[], _, rfl, fun _ hp => absurd hp List.not_mem_nil, hnext⟩
  | step _ hnext _ ih =>
      obtain ⟨front, final, rfl, hfront, hfinal⟩ := ih hend
      refine ⟨_ :: front, final, rfl, ?_, hfinal⟩
      intro p hp
      rcases List.mem_cons.mp hp with rfl | hp
      · exact hnext ▸ nofun
      · exact hfront p hp
  | stop _ => exact absurd hend nofun

/-- A walk that an error ended has a next cursor on each of its pages. -/
theorem walk_stopped {error : ε} (h : Walk s c ps (some error)) : ∀ p ∈ ps, s.next p ≠ none := by
  generalize hend : some error = e at h
  induction h with
  | last _ _ => exact absurd hend nofun
  | step _ hnext _ ih =>
      intro p hp
      rcases List.mem_cons.mp hp with rfl | hp
      · exact hnext ▸ nofun
      · exact ih hend p hp
  | stop _ => exact fun _ hp => absurd hp List.not_mem_nil

/-- At a cursor where `rest` is left, the page is a front part of it and the next
    cursor is where the remainder is left; `Stops` is when a request may fail. -/
structure Serves (s : Source κ π ε) (rows : π → List α) (Left : κ → List α → Prop)
    (Stops : κ → List α → ε → Prop) : Prop where
  last : ∀ {c rest p}, Left c rest → s.fetch c = .ok p → s.next p = none → rows p = rest
  step : ∀ {c c' rest p}, Left c rest → s.fetch c = .ok p → s.next p = some c' →
    ∃ rest', rest = rows p ++ rest' ∧ rows p ≠ [] ∧ Left c' rest'
  stop : ∀ {c rest error}, Left c rest → s.fetch c = .error error → Stops c rest error

variable {rows : π → List α} {Left : κ → List α → Prop} {Stops : κ → List α → ε → Prop}

/-- How a walk that started with `rest` left has ended. -/
def Ended (rows : π → List α) (Left : κ → List α → Prop) (Stops : κ → List α → ε → Prop)
    (rest : List α) (ps : List π) : Option ε → Prop
  | none => ps.flatMap rows = rest
  | some error => ∃ c' rest', rest = ps.flatMap rows ++ rest' ∧ Left c' rest' ∧ Stops c' rest' error

/-- **Following the cursors ends**, and hands out what is left, each row once. -/
theorem walk_serves (hs : Serves s rows Left Stops) {rest : List α} (hleft : Left c rest) :
    ∃ ps e, Walk s c ps e ∧ (∀ p ∈ ps, ∃ c' rest', Left c' rest' ∧ s.fetch c' = .ok p) ∧
      Ended rows Left Stops rest ps e := by
  -- what is left gets shorter with each page
  induction hn : rest.length using Nat.strongRecOn generalizing c rest with
  | ind n ih =>
      subst hn
      cases hfetch : s.fetch c with
      | error error =>
          exact ⟨[], some error, .stop hfetch, fun _ hp => absurd hp List.not_mem_nil,
            c, rest, rfl, hleft, hs.stop hleft hfetch⟩
      | ok p =>
          cases hnext : s.next p with
          | none =>
              refine ⟨[p], none, .last hfetch hnext, ?_, ?_⟩
              · intro q hq
                obtain rfl := List.mem_singleton.mp hq
                exact ⟨c, rest, hleft, hfetch⟩
              · show [p].flatMap rows = rest
                rw [List.flatMap_singleton]
                exact hs.last hleft hfetch hnext
          | some c' =>
              obtain ⟨rest', rfl, hsome, hleft'⟩ := hs.step hleft hfetch hnext
              have hshorter : rest'.length < (rows p ++ rest').length := by
                rw [List.length_append]
                exact Nat.lt_add_of_pos_left (List.length_pos_iff.mpr hsome)
              obtain ⟨ps, e, hwalk, hpages, hended⟩ := ih _ hshorter hleft' rfl
              refine ⟨p :: ps, e, .step hfetch hnext hwalk, ?_, ?_⟩
              · intro q hq
                rcases List.mem_cons.mp hq with rfl | hq
                · exact ⟨c, _, hleft, hfetch⟩
                · exact hpages q hq
              · cases e with
                | none =>
                    show rows p ++ ps.flatMap rows = rows p ++ rest'
                    rw [show ps.flatMap rows = rest' from hended]
                | some error =>
                    obtain ⟨c'', rest'', rfl, hlast, hstops⟩ := hended
                    exact ⟨c'', rest'', (List.append_assoc _ _ _).symm, hlast, hstops⟩

/-- Sources that answer alike wherever a walk comes have the same walks. -/
theorem walk_congr {t : Source κ π ε} (hs : Serves s rows Left Stops)
    (hfetch : ∀ {c rest}, Left c rest → t.fetch c = s.fetch c) (hnext : ∀ p, t.next p = s.next p)
    {rest : List α} (hleft : Left c rest) (h : Walk s c ps e) : Walk t c ps e := by
  induction h generalizing rest with
  | last h hlast => exact .last ((hfetch hleft).trans h) ((hnext _).trans hlast)
  | step h hmore _ ih =>
      obtain ⟨rest', rfl, -, hleft'⟩ := hs.step hleft h hmore
      exact .step ((hfetch hleft).trans h) ((hnext _).trans hmore) (ih hleft')
  | stop h => exact .stop ((hfetch hleft).trans h)

end CursorWalk
