import Mathlib

/-! # Runs that may fail

    A run in `Except` that ended well passed each of its parts. -/

namespace ExceptRules

variable {ε α β : Type}

theorem ok_bind (a : α) (f : α → Except ε β) : (Except.ok a >>= f) = f a := rfl

/-- **A run ends well exactly when both its parts do.** -/
theorem bind_ok_iff {x : Except ε α} {f : α → Except ε β} {b : β} :
    (x >>= f) = .ok b ↔ ∃ a, x = .ok a ∧ f a = .ok b := by
  cases x with
  | ok a => exact ⟨fun h => ⟨a, rfl, h⟩, fun ⟨a', ha, h⟩ => Except.ok.inj ha ▸ h⟩
  | error e => exact ⟨fun h => absurd h nofun, fun ⟨_, h, _⟩ => absurd h nofun⟩

theorem bind_ok {x : Except ε α} {f : α → Except ε β} {b : β} (h : (x >>= f) = .ok b) :
    ∃ a, x = .ok a ∧ f a = .ok b := bind_ok_iff.mp h

/-- An outcome that maps to a success was one. -/
theorem map_ok {x : Except ε α} {f : α → β} {b : β} (h : x.map f = .ok b) : ∃ a, x = .ok a ∧ f a = b := by
  cases x with
  | error e => exact absurd h nofun
  | ok a => exact ⟨a, rfl, Except.ok.inj h⟩

/-- What was made of a list was made of each of its members. -/
theorem mapM_ok {f : α → Except ε β} {xs : List α} {ys : List β} (h : xs.mapM f = .ok ys) :
    List.Forall₂ (fun x y => f x = .ok y) xs ys := by
  induction xs generalizing ys with
  | nil =>
      obtain rfl := Except.ok.inj h
      exact .nil
  | cons x xs ih =>
      rw [List.mapM_cons] at h
      obtain ⟨y, hx, h⟩ := bind_ok h
      obtain ⟨ys', hxs, h⟩ := bind_ok h
      obtain rfl := Except.ok.inj h
      exact .cons hx (ih hxs)

/-- A walk that went well goes on with one more item. -/
theorem foldlM_snoc {f : β → α → Except ε β} {items : List α} {s s' : β} (h : items.foldlM f s = .ok s')
    (a : α) : (items ++ [a]).foldlM f s = f s' a := by
  rw [List.foldlM_append, h, ok_bind, List.foldlM_cons]
  show (f s' a >>= fun t => List.foldlM f t []) = _
  cases f s' a <;> rfl

end ExceptRules
