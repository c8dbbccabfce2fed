import Mathlib.Data.List.Basic

/-! A channel that keeps its lines in order, and a receiver that takes them one by one. A sender
says items; each line brings some of them, or none. What the receiver stands for is a relation
between the items it has heard and its state. -/
namespace Channel

universe u v w
variable {σ : Type u} {ℓ : Type v} {α : Type w}

/-- A line that the receiver can handle wherever it stands, and that brings it these items. -/
def Brings (handle : σ → ℓ → Option σ) (Told : List α → σ → Prop) (line : ℓ) (items : List α) : Prop :=
  ∀ heard s, Told heard s → ∃ t, handle s line = some t ∧ Told (heard ++ items) t

/-- The lines on the way, and the items they bring. -/
inductive Carries (handle : σ → ℓ → Option σ) (Told : List α → σ → Prop) : List ℓ → List α → Prop
  | nil : Carries handle Told [] []
  | cons {line lines items waiting} : Brings handle Told line items →
      Carries handle Told lines waiting → Carries handle Told (line :: lines) (items ++ waiting)

/-- The receiver has heard the first of the items that were said, and the others are on the way. -/
def InFlight (handle : σ → ℓ → Option σ) (Told : List α → σ → Prop) (said : List α) (lines : List ℓ)
    (s : σ) : Prop :=
  ∃ heard waiting, said = heard ++ waiting ∧ Told heard s ∧ Carries handle Told lines waiting

variable {handle : σ → ℓ → Option σ} {Told : List α → σ → Prop}
variable {line : ℓ} {lines : List ℓ} {items said waiting heard : List α} {s t : σ}

theorem Carries.concat (carries : Carries handle Told lines waiting)
    (brings : Brings handle Told line items) :
    Carries handle Told (lines ++ [line]) (waiting ++ items) := by
  induction carries with
  | nil => simpa using Carries.cons brings .nil
  | cons first _ ih =>
    rw [List.append_assoc]
    exact .cons first ih

/-- Handling all lines brings all items. -/
theorem Carries.all (carries : Carries handle Told lines waiting) (told : Told heard s) :
    ∃ t, lines.foldlM handle s = some t ∧ Told (heard ++ waiting) t := by
  induction carries generalizing heard s with
  | nil => exact ⟨s, rfl, by rwa [List.append_nil]⟩
  | cons first _ ih =>
    obtain ⟨next, handled, told⟩ := first _ _ told
    obtain ⟨t, rest, told⟩ := ih told
    exact ⟨t, by rw [List.foldlM_cons, handled]; exact rest, by rwa [← List.append_assoc]⟩

theorem InFlight.start (told : Told [] s) : InFlight handle Told [] [] s := ⟨[], [], rfl, told, .nil⟩

/-- What is said goes to the end. -/
theorem InFlight.send (flight : InFlight handle Told said lines s)
    (brings : Brings handle Told line items) :
    InFlight handle Told (said ++ items) (lines ++ [line]) s := by
  obtain ⟨heard, waiting, rfl, told, carries⟩ := flight
  exact ⟨heard, waiting ++ items, List.append_assoc _ _ _, told, carries.concat brings⟩

/-- The first line is handled. -/
theorem InFlight.deliver (flight : InFlight handle Told said (line :: lines) s)
    (handled : handle s line = some t) : InFlight handle Told said lines t := by
  obtain ⟨heard, waiting, rfl, told, carries⟩ := flight
  cases carries with
  | cons first rest =>
    obtain ⟨next, same, told⟩ := first _ _ told
    obtain rfl := Option.some.inj (same.symm.trans handled)
    exact ⟨_, _, (List.append_assoc _ _ _).symm, told, rest⟩

theorem InFlight.soFar (flight : InFlight handle Told said lines s) :
    ∃ heard, heard <+: said ∧ Told heard s := by
  obtain ⟨heard, waiting, rfl, told, -⟩ := flight
  exact ⟨heard, List.prefix_append _ _, told⟩

/-- The receiver can handle everything that is on the way, and has then heard all that was said. -/
theorem InFlight.arrives (flight : InFlight handle Told said lines s) :
    ∃ t, lines.foldlM handle s = some t ∧ Told said t := by
  obtain ⟨heard, waiting, rfl, told, carries⟩ := flight
  exact carries.all told

end Channel
