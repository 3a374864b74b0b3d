import Mathlib.Data.List.Basic

/-!
# Noninterference

An observer may know the states up to a relation `Agree`. A view of a state is confined if it is the
same in all states that agree, so that it tells nothing that the observer may not know. It is not
confined if two states that agree give different views.
-/

namespace Noninterference

variable {S R T : Type*} {Agree : S → S → Prop} {s : S} {view : S → R}

/-- The view has one outcome in the states that agree with `s`. -/
def Confined (Agree : S → S → Prop) (s : S) (view : S → R) : Prop :=
  ∀ s', Agree s s' → view s' = view s

theorem Confined.const (r : R) : Confined Agree s fun _ => r := fun _ _ => rfl

/-- What is computed from a confined view. -/
theorem Confined.map (h : Confined Agree s view) (f : R → T) : Confined Agree s fun s => f (view s) :=
  fun s' hs' => congrArg f (h s' hs')

/-- Two states that agree and differ in the view. -/
theorem not_confined {a b : S} (ha : Agree s a) (hb : Agree s b) (hne : view a ≠ view b) :
    ¬Confined Agree s view :=
  fun h => hne ((h a ha).trans (h b hb).symm)

/-- Nothing is lost in an injective function. -/
theorem confined_map_iff {f : R → T} (hf : f.Injective) :
    Confined Agree s (fun s => f (view s)) ↔ Confined Agree s view :=
  ⟨fun h s' hs' => hf (h s' hs'), fun h => h.map f⟩

/-- Views that are the same wherever the observer may be. -/
theorem confined_congr {view' : S → R} (hs : view s = view' s)
    (h : ∀ s', Agree s s' → view s' = view' s') : Confined Agree s view ↔ Confined Agree s view' := by
  refine forall₂_congr fun s' hs' => ?_
  rw [hs, h s' hs']

/-- A list of views is confined if each of them is. -/
theorem confined_list_iff {I : Type*} (views : I → S → R) {l : List I} :
    Confined Agree s (fun s => l.map fun i => views i s) ↔
      ∀ i ∈ l, Confined Agree s (views i) := by
  constructor
  · intro h i hi s' hs'
    exact List.map_inj_left.mp (h s' hs') i hi
  · intro h s' hs'
    exact List.map_inj_left.mpr fun i hi => h i hi s' hs'

end Noninterference
