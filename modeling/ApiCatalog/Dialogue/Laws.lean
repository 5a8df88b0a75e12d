import ApiCatalog.Dialogue

/-!
# Laws of dialogues

- `LawfulMonad Dialogue` : sequencing has a unit and is associative
- `after_opening`        : what comes before the first request may be reported on its own
- `against_of_opened`    : openings make no difference to what is asked
-/

namespace ApiCatalog
namespace Dialogue

variable {α β γ : Type}

/-! ## Sequencing -/

theorem bind_done (d : Dialogue α) : d.bind .done = d := by
  induction d with
  | done x => rfl
  | failed e => rfl
  | report event next ih => simp [bind, ih]
  | ask request next ih => simp [bind, ih]

theorem bind_assoc (d : Dialogue α) (f : α → Dialogue β) (g : β → Dialogue γ) :
    (d.bind f).bind g = d.bind fun x => (f x).bind g := by
  induction d with
  | done x => rfl
  | failed e => rfl
  | report event next ih => simp [bind, ih]
  | ask request next ih => simp [bind, ih]

instance : LawfulMonad Dialogue :=
  .mk' Dialogue bind_done (fun _ _ => rfl) bind_assoc

/-! ## Opening -/

variable {σ : Type}

theorem Held.after_after (a b : List Event) (h : Held σ α) :
    (h.after b).after a = h.after (a ++ b) := by
  simp [after]

/-- The opening may be reported ahead of the rest. -/
theorem after_opening (serve : Service σ) (d : Dialogue α) (s : σ) :
    (d.opened.against serve s).after d.opening = d.against serve s := by
  induction d with
  | done x => rfl
  | failed e => rfl
  | report event next ih => simp [opened, opening, against, ← ih, Held.after_after]
  | ask request next ih => rfl

@[simp]
theorem opened_opened (d : Dialogue α) : d.opened.opened = d.opened := by
  induction d with
  | report event next ih => exact ih
  | _ => rfl

/-- What dialogues come to that differ in their openings at most is the same. -/
theorem against_of_opened {d d' : Dialogue α} (same : d.opened = d'.opened)
    (serve : Service σ) (s : σ) :
    (d.against serve s).service = (d'.against serve s).service ∧
      (d.against serve s).outcome = (d'.against serve s).outcome := by
  rw [← after_opening serve d, ← after_opening serve d', same]
  exact ⟨rfl, rfl⟩

end Dialogue
end ApiCatalog
